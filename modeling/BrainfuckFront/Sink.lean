import BrainfuckFront.Failure

/-!
# Sinks

A sink collects the text that is written to an output.  It may accept only a
limited number of writes, whatever their length, and refuses every later one
without taking any of it.
-/

namespace BrainfuckFront

structure Sink where
  /-- How many more writes are accepted, or `none` for no limit. -/
  quota : Option Nat
  /-- What a refused write reports. -/
  refusal : String
  /-- What has been accepted so far. -/
  text : String
deriving DecidableEq, Repr

namespace Sink

def empty (quota : Option Nat) (refusal : String) : Sink :=
  { quota, refusal, text := "" }

/-- A sink that accepts every write. -/
def unlimited : Sink := empty none ""

def write (sink : Sink) (piece : String) : Except Failure Sink :=
  match sink.quota with
  | some 0 => .error (.plain sink.refusal)
  | some (left + 1) =>
      .ok { sink with quota := some left, text := sink.text ++ piece }
  | none => .ok { sink with text := sink.text ++ piece }

/-- Writes where it does not matter whether the write is refused. -/
def offer (sink : Sink) (piece : String) : Sink :=
  match sink.write piece with
  | .ok written => written
  | .error _ => sink

end Sink

end BrainfuckFront
