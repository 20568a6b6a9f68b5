/-!
# Painted text

A message is a list of spans, each with at most one style.  The same spans are
rendered with and without terminal colours, and a span without text is never
painted, so no empty pair of escapes is written.
-/

namespace BrainfuckFront.Text

/-- The codes that switch a style on and off on a terminal.  The styles below have
the codes of the colour package: bold is switched off by a code of its own, and a
colour by the code that resets everything. -/
structure Style where
  codes : String
  reset : String
deriving DecidableEq, Repr

namespace Style

def alarm : Style := ⟨"31;1", "0;22"⟩

def bold : Style := ⟨"1", "22"⟩

def red : Style := ⟨"31", "0"⟩

def yellow : Style := ⟨"33", "0"⟩

def blue : Style := ⟨"94", "0"⟩

end Style

/-- The escape sequence that sends `codes` to a terminal. -/
def escapeSequence (codes : String) : String :=
  "\x1b[" ++ codes ++ "m"

structure Span where
  style : Option Style
  text : String
deriving DecidableEq, Repr

namespace Span

def plain (text : String) : Span := ⟨none, text⟩

def render (color : Bool) (span : Span) : String :=
  match span.style with
  | none => span.text
  | some style =>
      if color && !span.text.isEmpty then
        escapeSequence style.codes ++ span.text ++ escapeSequence style.reset
      else span.text

end Span

def Style.paint (style : Style) (text : String) : Span := ⟨some style, text⟩

def renderSpans (color : Bool) (spans : List Span) : String :=
  String.join (spans.map (Span.render color))

end BrainfuckFront.Text
