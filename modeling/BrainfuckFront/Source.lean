import BrainfuckFront.Command
import BrainfuckFront.Text.Utf8

/-!
# Source files

A source file is read for its commands only: whatever decodes to another
character is a comment and is dropped.
-/

namespace BrainfuckFront.Source

def commands (source : Bytes) : List Command :=
  (Utf8.decode source).filterMap Command.ofChar?

/-- The source without its comments. -/
def filtered (source : Bytes) : Bytes :=
  (commands source).map Command.byte

end BrainfuckFront.Source
