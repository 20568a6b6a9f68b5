import BrainfuckFront.Command

/-!
# Instruction kinds

An instruction's kind is one byte.  The first fourteen codes belong to the
commands; the others are reserved and have no command behind them.
-/

namespace BrainfuckFront

inductive Kind where
  | of (command : Command)
  | reserved (code : UInt8) (high : 14 ≤ code)
deriving DecidableEq, Repr

namespace Kind

@[match_pattern]
abbrev loopStart : Kind := of .openLoop

@[match_pattern]
abbrev loopEnd : Kind := of .closeLoop

def code : Kind → UInt8
  | of command => command.code
  | reserved code _ => code

theorem toNat_lt_length_all {code : UInt8} (low : ¬ 14 ≤ code) :
    code.toNat < Command.all.length := by
  simpa [UInt8.le_iff_toNat_le] using low

def ofCode (code : UInt8) : Kind :=
  if high : 14 ≤ code then reserved code high
  else of (Command.all.get ⟨code.toNat, toNat_lt_length_all high⟩)

def name : Kind → String
  | of command => command.name
  | reserved code _ => s!"Kind({code})"

/-- The character of the command behind a kind, blank for a reserved one. -/
def symbol : Kind → Char
  | of command => command.symbol
  | reserved _ _ => Command.blank

def isLoop : Kind → Bool
  | loopStart => true
  | loopEnd => true
  | _ => false

theorem isLoop_iff {kind : Kind} :
    kind.isLoop = true ↔ kind = loopStart ∨ kind = loopEnd := by
  cases kind with
  | of command => cases command <;> simp [isLoop]
  | reserved code high => simp [isLoop]

/-- Every kind, by ascending code. -/
def all : List Kind :=
  (List.range 256).map fun number => ofCode (UInt8.ofNat number)

end Kind

end BrainfuckFront
