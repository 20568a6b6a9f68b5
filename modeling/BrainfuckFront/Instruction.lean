import BrainfuckFront.Failure

/-!
# Instructions

An instruction stands for a run of equal commands.  All its numbers are 64-bit
words, and counting repeats wraps around.
-/

namespace BrainfuckFront

structure Instruction where
  index : Int64
  kind : Kind
  /-- The number of commands in the run. -/
  times : Int64
  /-- Where a loop instruction continues, `0` while that is not known. -/
  jump : Int64
deriving DecidableEq, Repr

namespace Instruction

/-- A run of one command. -/
def single (index : Int64) (command : Command) : Instruction :=
  { index, kind := .of command, times := 1, jump := 0 }

/-- A run of one command, given by its code point. -/
def ofCodePoint (index : Int64) (codePoint : Int) :
    Except Failure Instruction :=
  match Command.ofCodePoint? codePoint with
  | some command => .ok (single index command)
  | none => .error (.misuse (.unrecognizedCommand codePoint))

def addRepeat (instruction : Instruction) : Instruction :=
  { instruction with times := instruction.times + 1 }

/-- Only a loop instruction has a jump to set. -/
def setJump (instruction : Instruction) (target : Int64) :
    Except Failure Instruction :=
  if instruction.kind.isLoop then .ok { instruction with jump := target }
  else .error (.misuse (.jumpWithoutLoop target instruction.kind))

/-- The jump, and whether it is that of the start of a loop. -/
def endIndex (instruction : Instruction) : Int64 × Bool :=
  (instruction.jump, instruction.kind == .loopStart)

/-- The jump, and whether it is that of the end of a loop. -/
def startIndex (instruction : Instruction) : Int64 × Bool :=
  (instruction.jump, instruction.kind == .loopEnd)

/-- How the jump of a loop instruction is shown. -/
def arrow (instruction : Instruction) : String :=
  match instruction.kind with
  | .loopStart => s!" ->{instruction.jump}"
  | .loopEnd => s!" <-{instruction.jump}"
  | _ => ""

def text (instruction : Instruction) : String :=
  s!"{instruction.index}: " ++ String.singleton instruction.kind.symbol ++
    s!"x{instruction.times}" ++ instruction.arrow

@[simp]
theorem ofCodePoint_codePoint (index : Int64) (command : Command) :
    ofCodePoint index command.codePoint = .ok (single index command) := by
  simp [ofCodePoint]

end Instruction

end BrainfuckFront
