import BrainfuckFront.CommandLine.Options
import BrainfuckFront.Diagnostic
import BrainfuckFront.Listing
import BrainfuckFront.Program.Trace

/-!
# Running over a file

A run parses the contents of one file.  It lists the program on the standard
output, or explains on the standard error why there is none; with `check` it
only says by its status whether the source is valid.
-/

namespace BrainfuckFront.CommandLine

inductive Status where
  | success
  | faultySource
  | failure
deriving DecidableEq, Repr

namespace Status

def code : Status → Nat
  | success => 0
  | faultySource => 1
  | failure => 2

end Status

/-- Whether to paint diagnostics.  Any mode but `always` and `never` leaves it
to whether the output is a terminal. -/
def useColor (mode : String) (terminal : Bool) : Bool :=
  if mode = "always" then true
  else if mode = "never" then false
  else terminal

def errorLine (message : String) : String := "Error: " ++ message ++ "\n"

structure Outcome where
  status : Status
  stdout : Sink
  stderr : Sink
  log : List Log.Entry
deriving DecidableEq, Repr

namespace Outcome

/-- Nothing done yet. -/
def start (stdout stderr : Sink) (log : List Log.Entry) : Outcome :=
  { status := .success, stdout, stderr, log }

/-- Ends the run with an error line, which may go unread. -/
def abort (outcome : Outcome) (status : Status) (failure : Failure) :
    Outcome :=
  { outcome with
    status
    stderr := outcome.stderr.offer (errorLine failure.message) }

def addEntry (outcome : Outcome) (entry : Log.Entry) : Outcome :=
  { outcome with log := outcome.log ++ [entry] }

/-- Ends the run with a diagnostic; a refused one is logged. -/
def diagnose (outcome : Outcome) (file : String) (diagnostic : Diagnostic) :
    Outcome :=
  match diagnostic.writeTo outcome.stderr with
  | .ok (stderr, _) => { outcome with status := .faultySource, stderr }
  | .error failure =>
      { outcome with status := .faultySource }.addEntry
        { level := .error
          message := "failed to write diagnostic"
          fields := [("error", .text failure.message), ("file", .text file)] }

/-- Lists the program, as JSON if the format asks for it. -/
def list (outcome : Outcome) (format : String) (program : Program) :
    Outcome :=
  let written :=
    if format = "json" then program.writeJson outcome.stdout
    else program.writeText outcome.stdout
  match written with
  | (stdout, none) => { outcome with stdout }
  | (stdout, some failure) =>
      { outcome with stdout }.abort .failure failure

end Outcome

/-- Parses `contents`, which is what reading the file named in `options` gave.
`terminal` tells whether the standard error is a terminal.  A run that debugs
first sets the level of the log.  This cannot fail, as the level is one fixed word
that names a level, so a run has no outcome for it; which entries are shown is
left to `Options.logLevel`. -/
def run (options : Options) (check terminal : Bool)
    (contents : Except Failure Bytes) (stdout stderr : Sink) : Outcome :=
  match contents with
  | .error failure => (Outcome.start stdout stderr []).abort .failure failure
  | .ok source =>
      let outcome := Outcome.start stdout stderr
        ((Program.trace source).map
          (·.withField "file" (.text options.file)))
      match Program.parse source with
      | .error failure =>
          match failure.parseError? with
          | some error =>
              outcome.diagnose options.file
                (.ofSource error source (useColor options.color terminal))
          | none => outcome.abort .faultySource failure
      | .ok program =>
          if check then
            outcome.addEntry
              { level := .debug
                message := "source is valid"
                fields := [("instructions", .number program.length),
                  ("file", .text options.file)] }
          else outcome.list options.format program

end BrainfuckFront.CommandLine
