import BrainfuckFront.Command

/-!
# Brackets

Loops have to be closed in the order in which they were opened.  A scan from
the left keeps the offsets of the open loops, the innermost first.
-/

namespace BrainfuckFront.Brackets

/-- A bracket without a partner. -/
structure Mismatch where
  offset : Nat
  /-- Set for a closing bracket, clear for an opening one. -/
  unexpected : Bool
deriving DecidableEq, Repr

/-- The first closing bracket without a partner, or else the outermost loop
that is still open at the end. -/
def scan (offset : Nat) (pending : List Nat) :
    List Command → Option Mismatch
  | [] => pending.getLast?.map fun outermost => ⟨outermost, false⟩
  | .openLoop :: rest => scan (offset + 1) (offset :: pending) rest
  | .closeLoop :: rest =>
      match pending with
      | [] => some ⟨offset, true⟩
      | _ :: outer => scan (offset + 1) outer rest
  | _ :: rest => scan (offset + 1) pending rest

def mismatch? (commands : List Command) : Option Mismatch :=
  scan 0 [] commands

end BrainfuckFront.Brackets
