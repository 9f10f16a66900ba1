/-!
# Files

A file system is a finite table of files and directories.  A path is looked up
step by step, so that the reason of a failure is the one that a system call
would give: a step leads from a directory to one of its entries, and only the
last step may end at a file.
-/

namespace Glottis

abbrev Bytes := List UInt8

inductive FileError where
  | notFound
  | notADirectory
  | isADirectory
  | nameTooLong
  | nullInName
  | notText
  | other (message : String)
  deriving DecidableEq, Repr

def FileError.message : FileError → String
  | notFound => "No such file or directory (os error 2)"
  | notADirectory => "Not a directory (os error 20)"
  | isADirectory => "Is a directory (os error 21)"
  | nameTooLong => "File name too long (os error 36)"
  | nullInName => "file name contained an unexpected NUL byte"
  | notText => "stream did not contain valid UTF-8"
  | other message => message

inductive Node where
  | file (contents : Bytes)
  | directory
  deriving DecidableEq, Repr

/-- Entries by the names on the way to them. -/
structure FileSystem where
  entries : List (List String × Node)
  deriving DecidableEq, Repr

namespace FileSystem

/-- The largest number of bytes in a name. -/
def maxNameLength : Nat := 255

/-- The largest number of bytes in a path. -/
def maxPathLength : Nat := 4095

/-- The steps of a path; a repeated or final slash adds none. -/
def steps (path : String) : List String := (path.splitOn "/").filter (· != "")

/-- Where a step leads from a directory: one dot stays, two dots go back. -/
def follow (directory : List String) (step : String) : List String :=
  if step = "." then directory
  else if step = ".." then directory.dropLast
  else directory ++ [step]

def destination (steps : List String) : List String := steps.foldl follow []

def components (path : String) : List String := destination (steps path)

/-- A path ends with a slash, so that only a directory fits it. -/
def endsWithSlash (path : String) : Bool := path.endsWith "/"

/-- A path is not empty, and neither a null nor its length keeps it from being
looked up. -/
def checkSpelling (path : String) : Except FileError Unit :=
  if path.toList.contains '\x00' then .error .nullInName
  else if path = "" then .error .notFound
  else if maxPathLength < path.utf8ByteSize then .error .nameTooLong
  else .ok ()

def enter (fileSystem : FileSystem) (directory : List String) (step : String) :
    Except FileError Node :=
  if step = "." ∨ step = ".." then .ok .directory
  else if maxNameLength < step.utf8ByteSize then .error .nameTooLong
  else
    match fileSystem.entries.lookup (directory ++ [step]) with
    | none => .error .notFound
    | some node => .ok node

def walk (fileSystem : FileSystem) : (directory steps : List String) → Except FileError Node
  | _, [] => .ok .directory
  | directory, step :: rest =>
      match fileSystem.enter directory step with
      | .error error => .error error
      | .ok (.file contents) =>
          if rest.isEmpty then .ok (.file contents) else .error .notADirectory
      | .ok .directory => walk fileSystem (follow directory step) rest

def resolve (fileSystem : FileSystem) (path : String) : Except FileError Node := do
  checkSpelling path
  match ← walk fileSystem [] (steps path) with
  | .file contents =>
      if endsWithSlash path then throw .notADirectory else return .file contents
  | .directory => return .directory

def pathExists (fileSystem : FileSystem) (path : String) : Bool :=
  (fileSystem.resolve path).isOk

def isFile (fileSystem : FileSystem) (path : String) : Bool :=
  match fileSystem.resolve path with
  | .ok (.file _) => true
  | _ => false

def read (fileSystem : FileSystem) (path : String) : Except FileError Bytes :=
  match fileSystem.resolve path with
  | .ok (.file contents) => .ok contents
  | .ok .directory => .error .isADirectory
  | .error error => .error error

def readText (fileSystem : FileSystem) (path : String) : Except FileError String := do
  let contents ← fileSystem.read path
  match String.fromUTF8? contents.toByteArray with
  | some text => return text
  | none => throw .notText

/-- A file can be created or replaced at the end of some steps. -/
def checkTarget (fileSystem : FileSystem) (before : List String) (last : String) :
    Except FileError Unit :=
  match walk fileSystem [] before with
  | .error error => .error error
  | .ok (.file _) => .error .notADirectory
  | .ok .directory =>
      match fileSystem.enter (destination before) last with
      | .ok .directory => .error .isADirectory
      | .ok (.file _) | .error .notFound => .ok ()
      | .error error => .error error

/-- A file can be created or replaced at a path.  The directory it is in must
exist; a path that ends with a slash is refused as a directory whether or not
there is one. -/
def checkCreate (fileSystem : FileSystem) (path : String) : Except FileError Unit := do
  checkSpelling path
  let steps := steps path
  if endsWithSlash path then
    match walk fileSystem [] steps.dropLast with
    | .error error => throw error
    | .ok (.file _) => throw .notADirectory
    | .ok .directory => throw .isADirectory
  else
    match steps.getLast? with
    | none => throw .isADirectory
    | some last => checkTarget fileSystem steps.dropLast last

def put (fileSystem : FileSystem) (path : String) (contents : Bytes) : FileSystem :=
  let target := components path
  ⟨(target, .file contents) :: fileSystem.entries.filter fun entry => entry.1 != target⟩

end FileSystem

end Glottis
