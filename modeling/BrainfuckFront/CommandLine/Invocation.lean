import BrainfuckFront.CommandLine.Run

/-!
# Invocations

From the arguments of the command to its exit status and its two outputs.  The
word `check` may stand anywhere among the arguments and is taken out before the
flags are read.
-/

namespace BrainfuckFront.CommandLine

def checkWord : String := "check"

/-- Whether the arguments ask for a check, and the other arguments.  Only the
first such word is taken out. -/
def takeCheck (arguments : List String) : Bool × List String :=
  (arguments.contains checkWord, arguments.erase checkWord)

namespace OptionError

/-- Asking for help is no failure. -/
def status : OptionError → Status
  | help => .success
  | _ => .failure

/-- What is printed about the error after the usage. -/
def report : OptionError → String
  | help => ""
  | error => errorLine error.message

end OptionError

structure Completion where
  status : Status
  stdout : String
  stderr : String
deriving DecidableEq, Repr

/-- All that the command does with its arguments, where `read` gives the
contents of a file.  The log goes to the standard error. -/
def execute (arguments : List String) (terminal : Bool)
    (read : String → Except Failure Bytes) : Completion :=
  let (check, flags) := takeCheck arguments
  match Options.ofArguments flags with
  | .error error =>
      { status := error.status
        stdout := ""
        stderr := error.printedUsage ++ error.report }
  | .ok options =>
      let outcome := run options check terminal (read options.file)
        .unlimited .unlimited
      { status := outcome.status
        stdout := outcome.stdout.text
        stderr := Log.lines options.logLevel outcome.log ++
          outcome.stderr.text }

end BrainfuckFront.CommandLine
