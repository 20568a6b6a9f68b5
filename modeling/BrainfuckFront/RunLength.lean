import BrainfuckFront.Instruction

/-!
# Runs of commands

A program is encoded by its maximal runs of equal commands.  A place in the
program is either an offset, which counts commands, or the index of a run, and
the two functions at the end lead from one to the other.
-/

namespace BrainfuckFront.RunLength

/-- Completes the run `current` and continues over the commands after it. -/
def runsFrom (current : Instruction) : List Command → List Instruction
  | [] => [current]
  | command :: rest =>
      if current.kind = .of command then runsFrom current.addRepeat rest
      else current :: runsFrom (.single (current.index + 1) command) rest

def runs : List Command → List Instruction
  | [] => []
  | command :: rest => runsFrom (.single 0 command) rest

/-- The number of positions, among the first `count` after `previous`, whose
symbol differs from the one before. -/
def changes {Symbol : Type} [DecidableEq Symbol] (previous : Symbol) :
    Nat → List Symbol → Nat
  | 0, _ => 0
  | _, [] => 0
  | count + 1, symbol :: rest =>
      (if symbol = previous then 0 else 1) + changes symbol count rest

/-- The index of the run that holds the symbol at `offset`.  Before the first
symbol this is the first run, and behind the last one the last. -/
def indexAt {Symbol : Type} [DecidableEq Symbol] (symbols : List Symbol)
    (offset : Int64) : Int64 :=
  match symbols with
  | [] => 0
  | symbol :: rest => Int64.ofNat (changes symbol offset.toNatClampNeg rest)

/-- The number of commands in a list of runs. -/
def total (instructions : List Instruction) : Int64 :=
  instructions.foldl (fun sum instruction => sum + instruction.times) 0

/-- The offset of the first command of the run at `position`. -/
def offsetOf (instructions : List Instruction) (position : Int64) :
    Except Failure Int64 :=
  if 0 ≤ position ∧ position.toNatClampNeg ≤ instructions.length then
    .ok (total (instructions.take position.toNatClampNeg))
  else .error (.misuse (.outOfRange position))

end BrainfuckFront.RunLength
