import BrainfuckFront.Log
import BrainfuckFront.Program

/-!
# Tracing the parser

Each step of parsing leaves one entry for debugging, with what it produced or
with why it failed.
-/

namespace BrainfuckFront.Program

open Log (Entry)

def debugEntry (message : String) (fields : List (String × Log.Value)) :
    Entry :=
  { level := .debug, message, fields }

def failureField (failure : Failure) : String × Log.Value :=
  ("error", .text failure.message)

def resolutionTrace (resolution : Jumps.Resolution) : Entry :=
  match resolution.failure with
  | some failure =>
      debugEntry "resolving jumps failed" [failureField failure]
  | none => debugEntry "resolved jumps" []

def encodingTrace : Except Failure Program → List Entry
  | .error failure => [debugEntry "encoding failed" [failureField failure]]
  | .ok instructions =>
      [debugEntry "encoded source"
          [("instructions", .number instructions.length)],
        resolutionTrace (Jumps.resolve instructions)]

/-- The entries that parsing `source` leaves, in order. -/
def trace (source : Bytes) : List Entry :=
  let commands := Source.filtered source
  debugEntry "filtered source" [("commands", .number commands.length)] ::
    encodingTrace (encode commands)

end BrainfuckFront.Program
