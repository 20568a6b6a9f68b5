/-!
# Commands

The language has fourteen one-character commands: the eight of Brainfuck and
six that work on registers, environments, functions and conditions.  Every
other character of a source file is a comment.
-/

namespace BrainfuckFront

inductive Command where
  | right
  | left
  | increment
  | decrement
  | output
  | input
  | openLoop
  | closeLoop
  | registerUp
  | registerDown
  | openEnv
  | closeEnv
  | copyFunction
  | ifStatement
deriving DecidableEq, Repr

namespace Command

/-- The alphabet of the language, in the order of the instruction codes. -/
def all : List Command :=
  [right, left, increment, decrement, output, input, openLoop, closeLoop,
    registerUp, registerDown, openEnv, closeEnv, copyFunction, ifStatement]

def symbol : Command → Char
  | right => '>'
  | left => '<'
  | increment => '+'
  | decrement => '-'
  | output => '.'
  | input => ','
  | openLoop => '['
  | closeLoop => ']'
  | registerUp => '^'
  | registerDown => 'v'
  | openEnv => '('
  | closeEnv => ')'
  | copyFunction => '&'
  | ifStatement => '?'

/-- The name of the instruction that the command is encoded into. -/
def name : Command → String
  | right => "IncPtr"
  | left => "DecPtr"
  | increment => "IncByte"
  | decrement => "DecByte"
  | output => "WriteByte"
  | input => "ReadByte"
  | openLoop => "LoopStart"
  | closeLoop => "LoopEnd"
  | registerUp => "RegUp"
  | registerDown => "RegDown"
  | openEnv => "EnvOpen"
  | closeEnv => "EnvClose"
  | copyFunction => "CopyFn"
  | ifStatement => "IfStatem"

def code : Command → UInt8
  | right => 0
  | left => 1
  | increment => 2
  | decrement => 3
  | output => 4
  | input => 5
  | openLoop => 6
  | closeLoop => 7
  | registerUp => 8
  | registerDown => 9
  | openEnv => 10
  | closeEnv => 11
  | copyFunction => 12
  | ifStatement => 13

/-- The single byte that encodes the command in a source file. -/
def byte (command : Command) : UInt8 := UInt8.ofNat command.symbol.toNat

def codePoint (command : Command) : Int := command.symbol.toNat

def ofCodePoint? (codePoint : Int) : Option Command :=
  all.find? fun command => command.codePoint == codePoint

def ofChar? (char : Char) : Option Command := ofCodePoint? char.toNat

/-- What a character that is no command reads as. -/
def blank : Char := ' '

@[simp]
theorem length_all : all.length = 14 := rfl

theorem mem_all (command : Command) : command ∈ all := by
  cases command <;> decide

@[simp]
theorem ofCodePoint?_codePoint (command : Command) :
    ofCodePoint? command.codePoint = some command := by
  cases command <;> decide

@[simp]
theorem ofChar?_symbol (command : Command) :
    ofChar? command.symbol = some command :=
  ofCodePoint?_codePoint command

theorem codePoint_of_ofCodePoint? {number : Int} {command : Command}
    (h : ofCodePoint? number = some command) : command.codePoint = number := by
  simpa using List.find?_some h

end Command

end BrainfuckFront
