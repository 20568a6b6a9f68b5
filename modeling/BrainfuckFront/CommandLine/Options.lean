import BrainfuckFront.Log

/-!
# Command-line options

Options are given by flags with one or two dashes.  A flag's value follows an
equals sign or is the next argument; a boolean flag takes a value only after
the sign.  The first argument that is no flag, or two dashes alone, ends the
flags, and whatever comes after is ignored.  A later flag overrides an earlier
one.
-/

namespace BrainfuckFront.CommandLine

structure Options where
  file : String
  format : String
  color : String
  debug : Bool
deriving DecidableEq, Repr

/-- One flag with its value. -/
inductive Setting where
  | file (value : String)
  | format (value : String)
  | color (value : String)
  | debug (value : Bool)
deriving DecidableEq, Repr

inductive OptionError where
  | help
  | badFlag (argument : String)
  | undefined (name : String)
  | missingValue (name : String)
  | notBoolean (value name : String)
  | fileRequired
  | unknownFormat (value : String)
  | unknownColor (value : String)
deriving DecidableEq, Repr

def usage : String :=
  "Usage of runbf:\n" ++
  "  -color string\n" ++
  "    \tcolour diagnostics: auto, always or never (default \"auto\")\n" ++
  "  -debug\n" ++
  "    \tenable debug logging\n" ++
  "  -file string\n" ++
  "    \tbrainfuck source file\n" ++
  "  -format string\n" ++
  "    \toutput format: text or json (default \"text\")\n"

namespace OptionError

def message : OptionError → String
  | help => "flag: help requested"
  | badFlag argument => "bad flag syntax: " ++ argument
  | undefined name => "flag provided but not defined: -" ++ name
  | missingValue name => "flag needs an argument: -" ++ name
  | notBoolean value name =>
      "invalid boolean value " ++ Text.quoted value ++ " for -" ++ name ++
        ": parse error"
  | fileRequired => "invalid argument: -file is required"
  | unknownFormat value =>
      "invalid argument: unknown format " ++ Text.quoted value
  | unknownColor value =>
      "invalid argument: unknown color mode " ++ Text.quoted value

/-- The usage that is printed where the flags themselves are at fault. -/
def printedUsage : OptionError → String
  | help => usage
  | fileRequired | unknownFormat _ | unknownColor _ => ""
  | error => error.message ++ "\n" ++ usage

end OptionError

/-- What an argument is where a flag may stand. -/
inductive Argument where
  | ending
  | bad
  | flag (name : String) (value : Option String)
deriving DecidableEq, Repr

namespace Argument

/-- A flag without its dashes, split at the first equals sign. -/
def ofFlag (body : List Char) : Argument :=
  match body with
  | [] => bad
  | first :: _ =>
      if first = '-' ∨ first = '=' then bad
      else
        let name := String.ofList (body.takeWhile (· != '='))
        match body.dropWhile (· != '=') with
        | [] => flag name none
        | _ :: value => flag name (some (String.ofList value))

def ofChars : List Char → Argument
  | ['-'] => ending
  | ['-', '-'] => ending
  | '-' :: '-' :: body => ofFlag body
  | '-' :: body => ofFlag body
  | _ => ending

def ofString (argument : String) : Argument := ofChars argument.toList

end Argument

def boolean? (value : String) : Option Bool :=
  if ["1", "t", "T", "true", "TRUE", "True"].contains value then some true
  else if ["0", "f", "F", "false", "FALSE", "False"].contains value then
    some false
  else none

/-- The setting that a flag with a text value stands for. -/
def textSetting? (name : String) : Option (String → Setting) :=
  if name = "file" then some .file
  else if name = "format" then some .format
  else if name = "color" then some .color
  else none

def debugSetting (value : Option String) : Except OptionError Setting :=
  match value with
  | none => .ok (.debug true)
  | some text =>
      match boolean? text with
      | some value => .ok (.debug value)
      | none => .error (.notBoolean text "debug")

def unknownFlag (name : String) : OptionError :=
  if name = "help" ∨ name = "h" then .help else .undefined name

def settings : List String → Except OptionError (List Setting)
  | [] => .ok []
  | argument :: rest =>
      match Argument.ofString argument with
      | .ending => .ok []
      | .bad => .error (.badFlag argument)
      | .flag name value =>
          if name = "debug" then
            match debugSetting value with
            | .error error => .error error
            | .ok setting => (settings rest).map (setting :: ·)
          else
            match textSetting? name, value, rest with
            | none, _, _ => .error (unknownFlag name)
            | some setting, some value, rest =>
                (settings rest).map (setting value :: ·)
            | some setting, none, value :: rest =>
                (settings rest).map (setting value :: ·)
            | some _, none, [] => .error (.missingValue name)

namespace Options

/-- What is chosen where no flag says otherwise.  A build may be given another
default for `debug`; the one without it is meant. -/
def default : Options :=
  { file := "", format := "text", color := "auto", debug := false }

def set (options : Options) : Setting → Options
  | .file value => { options with file := value }
  | .format value => { options with format := value }
  | .color value => { options with color := value }
  | .debug value => { options with debug := value }

def validate (options : Options) : Except OptionError Options :=
  if options.file = "" then .error .fileRequired
  else if options.format ≠ "text" ∧ options.format ≠ "json" then
    .error (.unknownFormat options.format)
  else if options.color ≠ "auto" ∧ options.color ≠ "always" ∧
      options.color ≠ "never" then
    .error (.unknownColor options.color)
  else .ok options

def ofArguments (arguments : List String) : Except OptionError Options :=
  match settings arguments with
  | .error error => .error error
  | .ok settings => (settings.foldl set default).validate

/-- The most talkative level of the log that is shown. -/
def logLevel (options : Options) : Log.Level :=
  if options.debug then .debug else .info

end Options

end BrainfuckFront.CommandLine
