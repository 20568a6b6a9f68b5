import BrainfuckFront.Fault
import BrainfuckFront.Kind
import BrainfuckFront.Text.Quoted

/-!
# Failures

Every operation that can fail returns a `Failure`: a fault of the program that
was read, with its place; a loop that nothing balances; a refused write or
read; or a call that the caller should not have made.  A failure may be wrapped
in any number of labels, and what it is underneath is found through all of
them.
-/

namespace BrainfuckFront

/-- A fault at one place of a source.  `offset` counts commands from the start
and `instruction` counts runs of equal commands. -/
structure ParseError where
  fault : Fault
  offset : Int64
  instruction : Int64
  /-- Tells a loop closed too often from one that is never closed. -/
  unexpected : Bool
deriving DecidableEq, Repr

namespace ParseError

def message (error : ParseError) : String :=
  error.fault.message ++ s!" (instruction {error.instruction})"

/-- Advice to the author of the source. -/
def reason (error : ParseError) : String :=
  match error.fault with
  | .unclosedBrackets =>
      if error.unexpected then
        "A ']' was found in code, remove it or add an opening bracket " ++
          "before it. ('[')"
      else
        "One or more loops was caught without closed pair. " ++
          "Try adding a ']' somewhere."
  | .infiniteLoop =>
      "A loop with an empty body never changes the current cell. " ++
        "Remove it or put something inside."
  | fault => fault.message

end ParseError

/-- A call that its caller should not have made. -/
inductive Misuse where
  | unrecognizedCommand (codePoint : Int)
  | jumpWithoutLoop (target : Int64) (kind : Kind)
  | outOfRange (position : Int64)
deriving DecidableEq, Repr

namespace Misuse

def message : Misuse → String
  | unrecognizedCommand codePoint =>
      "unrecognized command: " ++ Text.quotedCharacter (characterOf codePoint)
  | jumpWithoutLoop target kind =>
      s!"trying to set jump index {target} on " ++ kind.name
  | outOfRange position => s!"position {position} is out of range"

end Misuse

inductive Failure where
  | fault (cause : Fault)
  | parse (error : ParseError)
  | noLoopEnd (instruction : Int64)
  | noLoopStart (instruction : Int64)
  | misuse (call : Misuse)
  | plain (text : String)
  | labelled (label : String) (inner : Failure)
deriving DecidableEq, Repr

namespace Failure

def message : Failure → String
  | fault cause => cause.message
  | parse error => error.message
  | noLoopEnd instruction =>
      s!"no loop end balances instruction {instruction}: " ++
        Category.internal.message
  | noLoopStart instruction =>
      s!"no loop start balances instruction {instruction}: " ++
        Category.internal.message
  | misuse call => call.message
  | plain text => text
  | labelled label inner => label ++ ": " ++ inner.message

def parseError? : Failure → Option ParseError
  | parse error => some error
  | labelled _ inner => inner.parseError?
  | _ => none

/-- The fault underneath, if there is one. -/
def fault? : Failure → Option Fault
  | fault cause => some cause
  | parse error => some error.fault
  | labelled _ inner => inner.fault?
  | _ => none

def category? : Failure → Option Category
  | fault cause => some cause.category
  | parse error => some error.fault.category
  | noLoopEnd _ | noLoopStart _ => some .internal
  | labelled _ inner => inner.category?
  | misuse _ | plain _ => none

/-- Faults are the same error when they are equal; every other failure is an
occurrence of its own and is matched by none. -/
def isCausedBy (failure target : Failure) : Bool :=
  match target with
  | fault cause => failure.fault? == some cause
  | _ => false

end Failure

end BrainfuckFront
