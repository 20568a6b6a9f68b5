import BrainfuckFront.RunLength

/-!
# Loop jumps

The start of a loop jumps behind its body, to just before the instruction that
closes it, and the end of a loop jumps back to just after the instruction that
opens it.  An instruction may open or close several loops at once, so partners
are found by counting depth, and a closing run may go deeper than what is open.

Jumps are set in two passes, starts first.  A pass stops at the first loop it
cannot resolve, and the jumps set so far stay.
-/

namespace BrainfuckFront.Jumps

/-- Subtraction that stops at zero. -/
def saturatingSub (left right : Int64) : Int64 :=
  if left ≤ right then 0 else left - right

/-- The position of the instruction that brings `depth` open loops to zero.
The first instruction of the list stands at `position`. -/
def closing? (depth : Int64) (position : Nat) :
    List Instruction → Option Nat
  | [] => none
  | instruction :: rest =>
      match instruction.kind with
      | .loopStart => closing? (depth + instruction.times) (position + 1) rest
      | .loopEnd =>
          if saturatingSub depth instruction.times = 0 then some position
          else closing? (saturatingSub depth instruction.times)
            (position + 1) rest
      | _ => closing? depth (position + 1) rest

/-- The same search to the left.  The list holds the instructions before the
end of the loop, the nearest first, so the position of each is the number of
instructions after it in the list. -/
def opening? (depth : Int64) : List Instruction → Option Nat
  | [] => none
  | instruction :: rest =>
      match instruction.kind with
      | .loopEnd => opening? (depth + instruction.times) rest
      | .loopStart =>
          if saturatingSub depth instruction.times = 0 then some rest.length
          else opening? (saturatingSub depth instruction.times) rest
      | _ => opening? depth rest

/-- The position of the end of the loop that starts at `position`. -/
def findLoopEnd (instructions : List Instruction) (position : Int64) :
    Except Failure Int64 :=
  if position < 0 then .error (.misuse (.outOfRange position))
  else match instructions.drop position.toNatClampNeg with
    | [] => .error (.misuse (.outOfRange position))
    | start :: rest =>
        match closing? start.times (position.toNatClampNeg + 1) rest with
        | some found => .ok (Int64.ofNat found)
        | none => .error (.noLoopEnd position)

/-- The position of the start of the loop that ends at `position`.  The
instruction at `position` itself is not read. -/
def findLoopStart (instructions : List Instruction) (position : Int64) :
    Except Failure Int64 :=
  let nearest := position - 1
  if nearest < 0 then .error (.noLoopStart position)
  else if nearest.toNatClampNeg < instructions.length then
    match opening? 1
        (instructions.take (nearest.toNatClampNeg + 1)).reverse with
    | some found => .ok (Int64.ofNat found)
    | none => .error (.noLoopStart position)
  else .error (.misuse (.outOfRange nearest))

/-- A list of instructions as a pass leaves it, and what stopped the pass. -/
structure Resolution where
  instructions : List Instruction
  failure : Option Failure
deriving DecidableEq, Repr

namespace Resolution

def cons (instruction : Instruction) (resolution : Resolution) : Resolution :=
  { resolution with instructions := instruction :: resolution.instructions }

def toExcept (resolution : Resolution) :
    Except Failure (List Instruction) :=
  match resolution.failure with
  | some failure => .error failure
  | none => .ok resolution.instructions

end Resolution

/-- Sets the jumps of the loop starts.  The first instruction of the list
stands at `position`. -/
def resolveStarts (position : Nat) : List Instruction → Resolution
  | [] => ⟨[], none⟩
  | instruction :: rest =>
      if instruction.kind = .loopStart then
        match closing? instruction.times (position + 1) rest with
        | none =>
            ⟨instruction :: rest, some (.noLoopEnd (Int64.ofNat position))⟩
        | some found =>
            match instruction.setJump (Int64.ofNat found - 1) with
            | .error failure => ⟨instruction :: rest, some failure⟩
            | .ok resolved => (resolveStarts (position + 1) rest).cons resolved
      else (resolveStarts (position + 1) rest).cons instruction

/-- Sets the jumps of the loop ends.  `before` holds the instructions on the
left, the nearest first. -/
def resolveEnds (before : List Instruction) : List Instruction → Resolution
  | [] => ⟨[], none⟩
  | instruction :: rest =>
      if instruction.kind = .loopEnd then
        match opening? 1 before with
        | none =>
            ⟨instruction :: rest,
              some (.noLoopStart (Int64.ofNat before.length))⟩
        | some found =>
            if before.length = found + 1 then
              ⟨instruction :: rest, some (.parse {
                fault := .infiniteLoop
                offset := RunLength.total before.reverse
                instruction := Int64.ofNat before.length
                unexpected := false })⟩
            else
              match instruction.setJump (Int64.ofNat found + 1) with
              | .error failure => ⟨instruction :: rest, some failure⟩
              | .ok resolved =>
                  (resolveEnds (resolved :: before) rest).cons resolved
      else (resolveEnds (instruction :: before) rest).cons instruction

def resolve (instructions : List Instruction) : Resolution :=
  let starts := resolveStarts 0 instructions
  match starts.failure with
  | some _ => starts
  | none => resolveEnds [] starts.instructions

end BrainfuckFront.Jumps
