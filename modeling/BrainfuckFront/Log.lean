import BrainfuckFront.Text.Quoted

/-!
# Log entries

A log entry carries a message and named fields.  On a line of its own it shows
the fields by ascending name, and quotes every value that is not made of
letters, digits and a few harmless marks.
-/

namespace BrainfuckFront.Log

inductive Level where
  | error
  | info
  | debug
deriving DecidableEq, Repr

namespace Level

def name : Level → String
  | error => "error"
  | info => "info"
  | debug => "debug"

def verbosity : Level → Nat
  | error => 0
  | info => 1
  | debug => 2

/-- Whether an entry of level `level` is shown at this threshold. -/
def admits (threshold level : Level) : Bool :=
  level.verbosity ≤ threshold.verbosity

end Level

inductive Value where
  | number (count : Nat)
  | text (content : String)
deriving DecidableEq, Repr

namespace Value

def isPlain (char : Char) : Bool :=
  char.isAlphanum || "-._/@^+".toList.contains char

def quotedUnlessPlain (text : String) : String :=
  if text.toList.all isPlain then text else Text.quoted text

def render : Value → String
  | number count => toString count
  | text content => quotedUnlessPlain content

end Value

structure Entry where
  level : Level
  message : String
  fields : List (String × Value)
deriving DecidableEq, Repr

namespace Entry

def withField (entry : Entry) (name : String) (value : Value) : Entry :=
  { entry with fields := entry.fields ++ [(name, value)] }

def sortedFields (entry : Entry) : List (String × Value) :=
  entry.fields.mergeSort fun left right => decide (left.1 ≤ right.1)

/-- The entry on one line, with the line's end. -/
def line (entry : Entry) : String :=
  "level=" ++ entry.level.name ++
    " msg=" ++ Value.quotedUnlessPlain entry.message ++
    String.join (entry.sortedFields.map fun field =>
      " " ++ field.1 ++ "=" ++ field.2.render) ++ "\n"

end Entry

/-- The lines of the entries that are shown at `threshold`. -/
def lines (threshold : Level) (entries : List Entry) : String :=
  String.join ((entries.filter fun entry =>
    threshold.admits entry.level).map Entry.line)

end BrainfuckFront.Log
