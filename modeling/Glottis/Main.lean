import Glottis.CommandLine.Render

/-!
# Entry point

The files that the arguments name are read into a file system, the command line
is carried out on it, and a file that it left changed is written back.
-/

open Glottis Glottis.CommandLine

private def directoriesOf (path : String) : List (List String × Node) :=
  let steps := FileSystem.steps path
  (List.range (steps.length - 1)).map fun count =>
    (FileSystem.destination (steps.take (count + 1)), .directory)

/-- The entries for one path, as far as they can be read. -/
private def snapshot (path : String) : IO (List (List String × Node)) := do
  try
    let contents ← IO.FS.readBinFile path
    return (FileSystem.components path, .file contents.toList) :: directoriesOf path
  catch
    | .noFileOrDirectory .. => return directoriesOf path
    | .inappropriateType .. | .illegalOperation .. =>
        return (FileSystem.components path, .directory) :: directoriesOf path
    | _ => return directoriesOf path

private def mentionedPaths (arguments : List String) : List String :=
  match parse arguments with
  | .analyze invocation =>
      invocation.input :: (invocation.configFile.toList ++ invocation.sourceOut.toList)
  | _ => []

private def outputPath (arguments : List String) : Option String :=
  match parse arguments with
  | .analyze invocation => invocation.sourceOut
  | _ => none

private def causeOf : IO.Error → FileError
  | .noFileOrDirectory .. => .notFound
  | .inappropriateType .. | .illegalOperation .. => .isADirectory
  | error => .other (toString error)

/-- Write the output file if the command line has left it changed; the result is
the cause of a failed write. -/
private def writeBack (before after : FileSystem) (path : String) : IO (Option FileError) := do
  match after.read path with
  | .ok contents =>
      if (before.read path).toOption == some contents then return none
      try
        IO.FS.writeBinFile path (ByteArray.mk contents.toArray)
        return none
      catch error => return some (causeOf error)
  | .error _ => return none

/-- The outcome of a command line whose output file could not be written. -/
private def afterWrite (outcome : Outcome Float) (path : String) (cause : Option FileError) :
    Outcome Float :=
  match cause with
  | none => outcome
  | some cause => .failed (.writing path (.cannotCreate path cause))

def main (arguments : List String) : IO UInt32 := do
  let entries ← (mentionedPaths arguments).mapM snapshot
  let before : FileSystem := ⟨entries.flatten⟩
  let (after, planned) := run before arguments
  let outcome ← match outputPath arguments with
    | some path => pure (afterWrite planned path (← writeBack before after path))
    | none => pure planned
  match outcome with
  | .report report => IO.println report.render
  | .failed failure => IO.eprintln (renderChain (failure.chain Decimal.write))
  | .information => IO.println "Glottal closure and opening instant estimation"
  | .refused => IO.eprintln "error: the command line was not understood"
  return UInt32.ofNat outcome.status
