import BrainfuckFront.Source
import BrainfuckFront.Sink
import BrainfuckFront.Text.Painted

/-!
# Diagnostics

A diagnostic shows a parse error to the author of a source: the instruction, a
window of the source around the offending command with a line under it that
points at the command, the reason, and the name of the fault.
-/

namespace BrainfuckFront

structure Diagnostic where
  error : ParseError
  source : Bytes
  color : Bool
deriving DecidableEq, Repr

/-- A piece of source, split at the offending character. -/
structure Window where
  before : List Char
  focus : List Char
  after : List Char
deriving DecidableEq, Repr

namespace Window

def contextBefore : Nat := 4

def contextAfter : Nat := 5

def empty : Window := ⟨[], [], []⟩

/-- The window around `offset`, empty if no character stands there. -/
def around (chars : List Char) (offset : Int64) : Window :=
  let position := offset.toNatClampNeg
  if 0 ≤ offset ∧ position < chars.length then
    { before := (chars.take position).drop (position - contextBefore)
      focus := (chars.drop position).take 1
      after := (chars.drop (position + 1)).take contextAfter }
  else empty

def tildes (chars : List Char) : String :=
  String.ofList (List.replicate (Utf8.size chars) '~')

def caret (window : Window) : String :=
  if window.focus.isEmpty then "" else "^"

end Window

namespace Diagnostic

open Text (Span Style)

/-- The diagnostic of an error in `source`, comments taken out. -/
def ofSource (error : ParseError) (source : Bytes) (color : Bool) :
    Diagnostic :=
  { error, source := Source.filtered source, color }

def window (diagnostic : Diagnostic) : Window :=
  Window.around (Utf8.decode diagnostic.source) diagnostic.error.offset

def windowSpans (window : Window) : List Span :=
  [Style.blue.paint (String.ofList window.before),
    Style.red.paint (String.ofList window.focus),
    Style.blue.paint (String.ofList window.after)]

/-- The line under the window takes one mark for each byte of source. -/
def markSpans (window : Window) : List Span :=
  [Style.yellow.paint (Window.tildes window.before),
    Style.red.paint window.caret,
    Style.yellow.paint (Window.tildes window.after)]

def spans (diagnostic : Diagnostic) : List Span :=
  [Style.alarm.paint "~~~~~~ Error on building! ~~~~~~",
    Span.plain "\n\nerror on ",
    Style.bold.paint s!"instruction {diagnostic.error.instruction}",
    Span.plain ":\n|\t"] ++
  windowSpans diagnostic.window ++
  [Span.plain "\n|\t"] ++
  markSpans diagnostic.window ++
  [Span.plain "\n\n",
    Style.bold.paint diagnostic.error.reason,
    Span.plain "\n",
    Style.blue.paint ("Exception: " ++ diagnostic.error.fault.name),
    Span.plain "\n"]

def text (diagnostic : Diagnostic) : String :=
  Text.renderSpans diagnostic.color diagnostic.spans

/-- Writes the whole text at once, and tells how many bytes were taken. -/
def writeTo (diagnostic : Diagnostic) (sink : Sink) :
    Except Failure (Sink × Nat) :=
  match sink.write diagnostic.text with
  | .ok written => .ok (written, diagnostic.text.utf8ByteSize)
  | .error failure => .error failure

end Diagnostic

end BrainfuckFront
