import BrainfuckFront.Failure

/-!
# Directories

The files that a run can see, as a working directory held in memory.  A path is
followed name by name: an empty name and one dot stay where they are, two dots
go up, and nothing can be entered from a file.  Of the directories above the
working directory only their existence is known.
-/

namespace BrainfuckFront.CommandLine

inductive Node where
  | file (contents : Bytes)
  | directory
deriving DecidableEq, Repr

/-- Why a path cannot be read. -/
inductive Refusal where
  | missing
  | notDirectory
  | nameTooLong
  | invalidName
  | isDirectory
deriving DecidableEq, Repr

namespace Refusal

def message : Refusal → String
  | missing => "no such file or directory"
  | notDirectory => "not a directory"
  | nameTooLong => "file name too long"
  | invalidName => "invalid argument"
  | isDirectory => "is a directory"

/-- A directory can be opened and fails only when it is read. -/
def operation : Refusal → String
  | isDirectory => "read"
  | _ => "open"

def toFailure (refusal : Refusal) (path : String) : Failure :=
  .labelled (refusal.operation ++ " " ++ path) (.plain refusal.message)

end Refusal

namespace Path

/-- The most bytes that one name may have. -/
def nameLimit : Nat := 255

/-- The least number of bytes at which a whole path is too long. -/
def lengthLimit : Nat := 4096

/-- The pieces between slashes, which may be empty. -/
def pieces : List Char → List (List Char)
  | [] => [[]]
  | char :: rest =>
      if char = '/' then [] :: pieces rest
      else match pieces rest with
        | [] => [[char]]
        | piece :: more => (char :: piece) :: more

def names (path : String) : List String :=
  (pieces path.toList).map String.ofList

def stays (name : String) : Bool := name == "" || name == "."

end Path

/-- The entries below a working directory, each with the names that lead to
it, the outermost first. -/
abbrev Directory := List (List String × Node)

/-- Where a path has led so far. -/
inductive Place where
  | above
  /-- The innermost name comes first. -/
  | below (names : List String) (node : Node)
deriving DecidableEq, Repr

namespace Place

def working : Place := below [] .directory

def parent : Place → Place
  | below (_ :: outer) _ => below outer .directory
  | _ => above

def isFile : Place → Bool
  | below _ (.file _) => true
  | _ => false

end Place

namespace Directory

/-- The directory of some entries given by path.  Of two with the same path
the last counts. -/
def ofEntries (entries : List (String × Node)) : Directory :=
  entries.reverse.map fun entry =>
    ((Path.names entry.1).filter fun name => !Path.stays name, entry.2)

/-- What stands at some names.  Whatever leads to an entry is a directory. -/
def find? (directory : Directory) (names : List String) : Option Node :=
  match directory.lookup names with
  | some node => some node
  | none =>
      if directory.any fun entry => names.isPrefixOf entry.1 then
        some .directory
      else none

def enter (directory : Directory) (place : Place) (name : String) :
    Except Refusal Place :=
  if place.isFile then .error .notDirectory
  else if Path.stays name then .ok place
  else if name = ".." then .ok place.parent
  else if Path.nameLimit < name.utf8ByteSize then .error .nameTooLong
  else match place with
    | .above => .error .missing
    | .below outer _ =>
        match directory.find? (name :: outer).reverse with
        | some node => .ok (.below (name :: outer) node)
        | none => .error .missing

def follow (directory : Directory) (place : Place) :
    List String → Except Refusal Place
  | [] => .ok place
  | name :: rest =>
      match directory.enter place name with
      | .ok next => directory.follow next rest
      | .error refusal => .error refusal

def locate (directory : Directory) (path : String) : Except Refusal Place :=
  if path.toList.contains '\x00' then .error .invalidName
  else if path = "" then .error .missing
  else if Path.lengthLimit ≤ path.utf8ByteSize then .error .nameTooLong
  else
    let start := if path.toList.head? = some '/' then .above else .working
    directory.follow start (Path.names path)

def contents : Place → Except Refusal Bytes
  | .below _ (.file contents) => .ok contents
  | _ => .error .isDirectory

def read (directory : Directory) (path : String) : Except Failure Bytes :=
  match (directory.locate path).bind contents with
  | .ok contents => .ok contents
  | .error refusal => .error (refusal.toFailure path)

end Directory

end BrainfuckFront.CommandLine
