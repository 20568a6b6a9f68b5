import BrainfuckFront.CommandLine.Directory
import BrainfuckFront.CommandLine.Invocation

/-!
# The command

Reads the file that the arguments name, prints the two outputs and exits with
the status.
-/

namespace BrainfuckFront.CommandLine

def readFailure (path : String) : IO.Error → Failure
  | .noFileOrDirectory .. => Refusal.missing.toFailure path
  | .inappropriateType (some _) .. => Refusal.notDirectory.toFailure path
  | .inappropriateType none .. => Refusal.isDirectory.toFailure path
  | .invalidArgument .. => Refusal.nameTooLong.toFailure path
  | error => .labelled ("open " ++ path) (.plain (toString error))

/-- The contents of the file that the arguments ask for, if they ask for
one. -/
def readRequested (arguments : List String) : IO (Except Failure Bytes) := do
  match Options.ofArguments (takeCheck arguments).2 with
  | .error _ => return .ok []
  | .ok options =>
      try
        let contents ← IO.FS.readBinFile options.file
        return .ok contents.toList
      catch error => return .error (readFailure options.file error)

end BrainfuckFront.CommandLine

open BrainfuckFront.CommandLine in
def main (arguments : List String) : IO UInt32 := do
  let contents ← readRequested arguments
  let stderr ← IO.getStderr
  let completion := execute arguments (← stderr.isTty) fun _ => contents
  (← IO.getStdout).putStr completion.stdout
  stderr.putStr completion.stderr
  return UInt32.ofNat completion.status.code
