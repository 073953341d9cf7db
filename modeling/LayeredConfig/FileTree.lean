/-
  LayeredConfig.FileTree

  A directory with the files below it, as a value.

  Paths are relative to the directory.  A path is followed part by part:
  a part `.` stays, a part `..` goes up, and every part but the last has to lead
  to a directory.  Of what lies outside of the directory only the directories
  that hold it are known.
-/
import LayeredConfig.Error
import LayeredConfig.Text.Split

namespace LayeredConfig

/-- What lies at a place. -/
inductive FileEntry where
  | directory
  | file (content : ByteArray)

/-- A place: the names that lead to it from the directory, behind as many `..` as
    the way goes up first. -/
abbrev Place := List String

/-- The known entries other than the directory and those that hold it. -/
structure FileTree where
  entries : List (Place × FileEntry)

namespace FileTree

/-! ## Entries -/

/-- The directory without entries. -/
def empty : FileTree := ⟨[]⟩

/-- Whether a place is that of the directory itself or of one that holds it. -/
def isAround (place : Place) : Bool :=
  place.all (· == "..")

/-- What lies at a place. -/
def find? (tree : FileTree) (place : Place) : Option FileEntry :=
  if isAround place then some .directory
  else (tree.entries.find? fun entry => entry.1 = place).map Prod.snd

/-- Puts an entry at a place, instead of what lies there. -/
def put (tree : FileTree) (place : Place) (entry : FileEntry) : FileTree :=
  ⟨(place, entry) :: tree.entries.filter fun e => e.1 ≠ place⟩

/-- Succeeds if a directory lies at a place. -/
def requireDirectory (tree : FileTree) (place : Place) : Except FileFault Unit :=
  match tree.find? place with
  | some .directory => .ok ()
  | some (.file _) => .error .notADirectory
  | none => .error .notFound

/-! ## Paths -/

/-- The parts of a path between its slashes. -/
def parts (path : String) : List String :=
  (Text.splitAt '/' path.toList).map String.ofList

/-- The number of bytes that a name has at most. -/
def nameLimit : Nat := 255

/-- The number of bytes that a path has at most. -/
def pathLimit : Nat := 4095

/-- Succeeds if a path can be handed to the system at all. -/
def checkPath (path : String) : Except FileFault Unit :=
  if path.toList.contains '\x00' then .error .nameHoldsZero
  else if path = "" then .error .notFound
  else if pathLimit < path.utf8ByteSize then .error .nameTooLong
  else .ok ()

/-- The place one level up. -/
def above (place : Place) : Place :=
  if isAround place then place ++ [".."] else place.dropLast

/-- The place that parts lead to from a place.  The last of them may lead to a
    place where nothing lies. -/
def follow (tree : FileTree) : Place → List String → Except FileFault Place
  | place, [] => .ok place
  | place, part :: rest => do
    -- every part has to be looked up in a directory, even one that stays
    tree.requireDirectory place
    if part = "" ∨ part = "." then tree.follow place rest
    else if part = ".." then tree.follow (above place) rest
    else if nameLimit < part.utf8ByteSize then .error .nameTooLong
    else tree.follow (place ++ [part]) rest

/-- The place that a path leads to. -/
def locate (tree : FileTree) (path : String) : Except FileFault Place := do
  checkPath path
  tree.follow [] (parts path)

/-- Whether a directory lies where a path leads to. -/
def isDirectory (tree : FileTree) (path : String) : Bool :=
  match tree.locate path with
  | .ok place => (tree.requireDirectory place).isOk
  | .error _ => false

/-- The parts of a path without those at its end that lead nowhere, last part
    first.  A path of one part keeps it. -/
def significantParts : List String → List String
  | [] => []
  | [part] => if part = "" then [] else [part]
  | part :: rest => if part = "" ∨ part = "." then significantParts rest else part :: rest

/-- The path of the directory that holds what a path leads to; the empty path
    for a single name. -/
def parentPath (path : String) : String :=
  let holding := (significantParts (parts path).reverse).drop 1
  String.intercalate "/" (significantParts holding).reverse

/-! ## Reading and writing -/

/-- The text of the file that a path leads to. -/
def read (tree : FileTree) (path : String) : Except FileFault String := do
  let place ← tree.locate path
  match tree.find? place with
  | none => .error .notFound
  | some .directory => .error .isADirectory
  | some (.file content) =>
    match String.fromUTF8? content with
    | some text => .ok text
    | none => .error .notText

/-- A path without the slashes at its end, if it is more than slashes. -/
def withoutEndSlashes (path : String) : String :=
  match Text.dropWhileEnd (· == '/') path.toList with
  | [] => path
  | s => String.ofList s

/-- Puts a file where a path leads to, instead of a file that lies there.  With a
    slash at its end a path names a directory, whatever lies there. -/
def write (tree : FileTree) (path : String) (content : ByteArray) : Except FileFault FileTree := do
  checkPath path
  let place ← tree.locate (withoutEndSlashes path)
  match tree.find? place with
  | some .directory => .error .isADirectory
  | some (.file _) | none =>
    if path.toList.getLast? == some '/' then .error .isADirectory
    else .ok (tree.put place (.file content))

/-- Makes one directory where a path leads to. -/
def makeDirectory (tree : FileTree) (path : String) : Except FileFault FileTree := do
  let place ← tree.locate path
  match tree.find? place with
  | some _ => .error .alreadyExists
  | none => .ok (tree.put place .directory)

/-- Makes a directory, or leaves it if it is there. -/
def ensureDirectory (tree : FileTree) (path : String) : Except FileFault FileTree :=
  match tree.makeDirectory path with
  | .ok tree => .ok tree
  | .error fault => if tree.isDirectory path then .ok tree else .error fault

/-- Makes a directory and those that hold it, as far as they are missing.
    Every step shortens the path, so `fuel` may be its length. -/
def ensureDirectories (tree : FileTree) : (fuel : Nat) → (path : String) → Except FileFault FileTree
  | 0, _ => .ok tree
  | fuel + 1, path =>
    if path = "" then .ok tree
    else match tree.ensureDirectory path with
      -- the directory that holds it is missing too
      | .error .notFound => do
        let tree ← tree.ensureDirectories fuel (parentPath path)
        tree.ensureDirectory path
      | result => result

/-- Writes a file and makes the directories that hold it.  A failure comes with
    the path that it is about. -/
def writeFile (tree : FileTree) (path : String) (content : ByteArray) :
    Except (String × FileFault) FileTree := do
  let parent := parentPath path
  let tree ← (tree.ensureDirectories parent.length parent).mapError fun fault => (parent, fault)
  (tree.write path content).mapError fun fault => (path, fault)

end FileTree

end LayeredConfig
