import BrainfuckFront.FiniteMap
import BrainfuckFront.Instruction

/-!
# Expectations

Checks for test suites: each compares what was expected with what was found,
and fails with a message that shows both.
-/

namespace BrainfuckFront

/-- Values that a failed expectation can show. -/
class Described (A : Type) where
  /-- What the type is called. -/
  typeName : String
  describe : A → String

namespace Described

instance : Described Int64 where
  typeName := "int"
  describe := toString

instance : Described String where
  typeName := "string"
  describe := id

instance : Described Kind where
  typeName := "bf.Kind"
  describe := Kind.name

instance : Described Instruction where
  typeName := "bf.Instruction"
  describe := Instruction.text

instance {A : Type} [Described A] : Described (List A) where
  typeName := "[]" ++ typeName A
  describe values := "[" ++ " ".intercalate (values.map describe) ++ "]"

/-- Maps are shown by ascending key. -/
instance {Key Value : Type} [Described Key] [Described Value] [LT Key]
    [DecidableLT Key] : Described (FiniteMap Key Value) where
  typeName := "map[" ++ typeName Key ++ "]" ++ typeName Value
  describe map :=
    let sorted := map.entries.mergeSort fun left right =>
      !decide (right.1 < left.1)
    "map[" ++ " ".intercalate (sorted.map fun entry =>
      describe entry.1 ++ ":" ++ describe entry.2) ++ "]"

end Described

/-- Same length and the same elements in the same order. -/
def sameSequence {A : Type} [DecidableEq A] (left right : List A) : Bool :=
  left.length == right.length &&
    (left.zip right).all fun pair => pair.1 == pair.2

namespace Expectation

inductive Verdict where
  | passed
  | failed (message : String)
deriving DecidableEq, Repr

def check (holds : Bool) (message : String) : Verdict :=
  if holds then .passed else .failed message

section Values

variable {A : Type} [Described A]

def comparison (operator : String) (left right : A) : String :=
  "Expected " ++ Described.describe left ++ " " ++ operator ++ " " ++
    Described.describe right ++ " (" ++ Described.typeName A ++ ")"

def equalBy (same : A → A → Bool) (left right : A) : Verdict :=
  check (same left right) (comparison "==" left right)

def equal [DecidableEq A] (left right : A) : Verdict :=
  equalBy (fun left right => decide (left = right)) left right

def notEqual [DecidableEq A] (left right : A) : Verdict :=
  check (decide (left ≠ right)) (comparison "!=" left right)

end Values

/-- The text of a failure that may be absent. -/
def describeFailure : Option Failure → String
  | none => "<nil>"
  | some failure => failure.message

def noError (failure : Option Failure) : Verdict :=
  check failure.isNone
    ("Expected no error, got '" ++ describeFailure failure ++ "'")

def error (failure : Option Failure) : Verdict :=
  check failure.isSome
    ("Expected error, got '" ++ describeFailure failure ++ "'")

/-- Whether `target` is met somewhere underneath `failure`.  No failure is met
only by no failure. -/
def isCausedBy : Option Failure → Option Failure → Bool
  | some failure, some target => failure.isCausedBy target
  | none, none => true
  | _, _ => false

def errorIs (failure target : Option Failure) : Verdict :=
  check (isCausedBy failure target)
    ("Expected error '" ++ describeFailure target ++ "', got '" ++
      describeFailure failure ++ "'")

def aborts (aborted : Bool) : Verdict := check aborted "Expected a panic"

end Expectation

end BrainfuckFront
