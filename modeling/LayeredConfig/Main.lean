/-
  LayeredConfig.Main

  The server tool as a program: it takes the files, the environment and the
  arguments of the process, and shows what the run gives.
-/
import LayeredConfig.Demo

namespace LayeredConfig.Main

/-- The fault behind an error of the system. -/
def faultOf : IO.Error → FileFault
  | .noFileOrDirectory .. => .notFound
  | .alreadyExists .. => .alreadyExists
  | .inappropriateType .. => .isADirectory
  | .invalidArgument .. => .nameTooLong
  | .userError .. => .notText
  | _ => .notADirectory

/-- The text of a file. -/
def readFile (path : String) : IO (Except FileFault String) := do
  try
    return .ok (← IO.FS.readFile path)
  catch e =>
    return .error (faultOf e)

/-- Writes a file and makes the directories that hold it. -/
def writeFile (file : ConfigFile) : IO (Except (String × FileFault) Unit) := do
  let parent := FileTree.parentPath file.path
  try
    if parent != "" then IO.FS.createDirAll parent
  catch e =>
    return .error (parent, faultOf e)
  try
    IO.FS.writeFile file.path file.content
    return .ok ()
  catch e =>
    return .error (file.path, faultOf e)

/-- A variable as the system lists it, taken apart at its first equals sign. -/
def readVariable (line : List Char) : Option (String × String) :=
  match line.dropWhile (· != '=') with
  | [] => none
  | _ :: value => some (String.ofList (line.takeWhile (· != '=')), String.ofList value)

/-- The environment of the process. -/
def readEnvironment : IO Environment := do
  match ← readFile "/proc/self/environ" with
  | .ok text => return .ofVariables ((Text.splitAt '\x00' text.toList).filterMap readVariable)
  | .error _ => return .empty

end LayeredConfig.Main

open LayeredConfig in
/-- Runs the tool and returns its exit code. -/
def main (arguments : List String) : IO UInt32 := do
  let environment ← Main.readEnvironment
  let files ← (Demo.filesOf arguments).mapM fun path => do
    return (path, ← Main.readFile path)
  let read (path : String) := (files.lookup path).getD (.error .notFound)
  let started := Demo.run environment read arguments
  let finished ← match started.file with
    | none => pure started
    | some file =>
      match ← Main.writeFile file with
      | .ok () => pure started
      | .error (path, fault) => pure (Demo.Run.afterFailedWrite path fault)
  IO.print finished.output
  IO.eprint finished.errors
  return finished.exitCode.toUInt32
