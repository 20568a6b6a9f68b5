/-!
# Faults

A fault is what can be wrong with a program, whether it shows while the source
is read or while the program runs.  Faults are numbered by one byte, of which
six values are assigned; every fault falls into one category.
-/

namespace BrainfuckFront

/-- The number of cells of the memory tape. -/
def memoryLength : Nat := 30000

/-- The broad classes by which callers tell errors apart. -/
inductive Category where
  | internal
  | invalidArgument
  | outOfRange
  | unknown
deriving DecidableEq, Repr

namespace Category

def message : Category → String
  | internal => "internal"
  | invalidArgument => "invalid argument"
  | outOfRange => "out of range"
  | unknown => "unknown"

end Category

inductive Fault where
  | pointerBelowZero
  | pointerAboveLimit
  | unclosedBrackets
  | unclosedEnvs
  | nestedEnv
  | infiniteLoop
  | unassigned (code : UInt8) (free : code = 0 ∨ 7 ≤ code)
deriving DecidableEq, Repr

namespace Fault

/-- The assigned faults, by ascending number. -/
def all : List Fault :=
  [pointerBelowZero, pointerAboveLimit, unclosedBrackets, unclosedEnvs,
    nestedEnv, infiniteLoop]

theorem toNat_pred_lt_length_all {code : UInt8}
    (taken : ¬ (code = 0 ∨ 7 ≤ code)) : code.toNat - 1 < all.length := by
  have hhigh : code.toNat < 7 := by
    simpa [UInt8.le_iff_toNat_le] using fun h => taken (Or.inr h)
  simp only [all, List.length_cons, List.length_nil]
  omega

def ofCode (code : UInt8) : Fault :=
  if free : code = 0 ∨ 7 ≤ code then unassigned code free
  else all.get ⟨code.toNat - 1, toNat_pred_lt_length_all free⟩

def name : Fault → String
  | pointerBelowZero => "PtrBelowZero"
  | pointerAboveLimit => "PtrAboveLimit"
  | unclosedBrackets => "NonClosedBrackets"
  | unclosedEnvs => "NonClosedEnvs"
  | nestedEnv => "NestedEnv"
  | infiniteLoop => "InfiniteLoop"
  | unassigned _ _ => "Unknown"

def message : Fault → String
  | pointerBelowZero => "error: mem pointer went below zero."
  | pointerAboveLimit =>
      s!"error: mem pointer went above limit {memoryLength}"
  | unclosedBrackets => "error: some brackets are unclosed on source code"
  | unclosedEnvs =>
      "error: some environments (parentheses) are unclosed in your source code"
  | nestedEnv => "error: environment nesting is not allowed"
  | infiniteLoop => "error: potential infinite loop in source code"
  | unassigned code _ => s!"error: unknown error {code}"

def category : Fault → Category
  | pointerBelowZero | pointerAboveLimit => .outOfRange
  | unclosedBrackets | unclosedEnvs | nestedEnv | infiniteLoop =>
      .invalidArgument
  | unassigned _ _ => .unknown

end Fault

end BrainfuckFront
