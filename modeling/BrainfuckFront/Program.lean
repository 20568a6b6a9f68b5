import BrainfuckFront.Source
import BrainfuckFront.Brackets
import BrainfuckFront.FiniteMap
import BrainfuckFront.Jumps

/-!
# Programs

A source becomes a program in three steps: its comments are taken out, what is
left is checked for brackets without a partner and encoded by runs, and then the
loops get their jumps.  A bracket error is therefore reported before an empty
loop, wherever the two stand.
-/

namespace BrainfuckFront

abbrev Program := List Instruction

namespace Program

def mismatchError (commands : List Command)
    (mismatch : Brackets.Mismatch) : ParseError :=
  let offset := Int64.ofNat mismatch.offset
  { fault := .unclosedBrackets
    offset
    instruction := RunLength.indexAt commands offset
    unexpected := mismatch.unexpected }

def encodeCommands (commands : List Command) : Except Failure Program :=
  match Brackets.mismatch? commands with
  | some mismatch => .error (.parse (mismatchError commands mismatch))
  | none => .ok (RunLength.runs commands)

/-- The runs of a source, without jumps. -/
def encode (source : Bytes) : Except Failure Program :=
  encodeCommands (Source.commands source)

def parse (source : Bytes) : Except Failure Program :=
  match encode (Source.filtered source) with
  | .error failure => .error failure
  | .ok instructions => (Jumps.resolve instructions).toExcept

/-- Adds the commands of one instruction to those of its kind.  A kind that was
not met before starts at zero. -/
def addCount (counts : FiniteMap Kind Int64) (instruction : Instruction) :
    FiniteMap Kind Int64 :=
  let count := (counts.get? instruction.kind).getD 0
  counts.insert instruction.kind (count + instruction.times)

/-- The number of commands of each kind that occurs. -/
def counts (program : Program) : FiniteMap Kind Int64 :=
  program.foldl addCount .empty

/-- The kinds that occur, by ascending code, each with its number of
commands. -/
def tally (program : Program) : List (Kind × Int64) :=
  program.counts.entriesBy Kind.all

end Program

end BrainfuckFront
