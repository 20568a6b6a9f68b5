import BrainfuckFront.Program
import BrainfuckFront.Sink

/-!
# Listings

A program is shown either as text, one line for each instruction, or as JSON.
In JSON a jump of `0` is left out, and kinds are given by name.
-/

namespace BrainfuckFront

namespace Instruction

/-- The instruction on one line, with the line's end. -/
def line (instruction : Instruction) : String := instruction.text ++ "\n"

/-- The members of the instruction's JSON object, their values as JSON. -/
def members (instruction : Instruction) : List (String × String) :=
  [("index", toString instruction.index),
    ("kind", "\"" ++ instruction.kind.name ++ "\""),
    ("times", toString instruction.times)] ++
  if instruction.jump = 0 then []
  else [("jump", toString instruction.jump)]

/-- The JSON object without any blanks. -/
def compactJson (instruction : Instruction) : String :=
  "\x7b" ++ ",".intercalate (instruction.members.map fun member =>
    "\"" ++ member.1 ++ "\":" ++ member.2) ++ "\x7d"

/-- The JSON object as an element of an indented array. -/
def indentedJson (instruction : Instruction) : String :=
  "  \x7b\n" ++ ",\n".intercalate (instruction.members.map fun member =>
    "    \"" ++ member.1 ++ "\": " ++ member.2) ++ "\n  \x7d"

end Instruction

namespace Program

/-- The program as an indented JSON array, with the last line's end. -/
def json : Program → String
  | [] => "[]\n"
  | program =>
      "[\n" ++ ",\n".intercalate (program.map Instruction.indentedJson) ++
        "\n]\n"

/-- Writes the program line by line, up to the first refused write. -/
def writeText (sink : Sink) : Program → Sink × Option Failure
  | [] => (sink, none)
  | instruction :: rest =>
      match sink.write instruction.line with
      | .ok written => writeText written rest
      | .error failure =>
          (sink, some (.labelled
            s!"writing instruction {instruction.index}" failure))

/-- Writes the program as JSON in a single write. -/
def writeJson (sink : Sink) (program : Program) : Sink × Option Failure :=
  match sink.write program.json with
  | .ok written => (written, none)
  | .error failure => (sink, some failure)

end Program

end BrainfuckFront
