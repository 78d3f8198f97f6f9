import CommandTemplate.Text.Basic

/-!
# Files and the surroundings of a run

A run takes its texts from files and from standard input, in a monad of its caller.  A text that
cannot be read has a fault, which is worded as the operating system words it.

A tree of files holds texts by their places below a root.  A name is looked up part by part, from
the root if it begins with a slash and else from the working directory.  An empty part and a single
dot stay in a directory, two dots lead to the directory above, and only the last part may be the
name of a file.
-/

namespace CommandTemplate

/-! ## Surroundings -/

/-- Why a file cannot be read. -/
inductive FileFault
  /-- Nothing has the name. -/
  | missing
  /-- The file may not be read. -/
  | forbidden
  /-- The name goes on after the name of a file. -/
  | notDirectory
  /-- The name is the name of a directory. -/
  | isDirectory
  /-- The name, or one of its parts, is longer than a name can be. -/
  | longName
  /-- The file is not in UTF-8. -/
  | notText
  | other (reason : Text)
deriving DecidableEq, Repr

def FileFault.message : FileFault → Text
  | .missing => "No such file or directory (os error 2)".toList
  | .forbidden => "Permission denied (os error 13)".toList
  | .notDirectory => "Not a directory (os error 20)".toList
  | .isDirectory => "Is a directory (os error 21)".toList
  | .longName => "File name too long (os error 36)".toList
  | .notText => "stream did not contain valid UTF-8".toList
  | .other reason => reason

/-- Where a run takes its texts from. -/
structure Surroundings (m : Type → Type) where
  file : Text → m (Except FileFault Text)
  input : m (Except FileFault Text)

/-! ## Trees of files -/

/-- The names that lead from the root of a tree to a file or a directory. -/
abbrev Place := List Text

/-- Files and directories with a working directory.  Every place on the way to one of them is a
directory. -/
structure FileTree where
  files : List (Place × Text)
  directories : List Place
  workingDirectory : Place

namespace FileTree

inductive Node
  | file (content : Text)
  | directory
deriving DecidableEq, Repr

/-- What stands at a place of a tree, if anything does. -/
def node? (tree : FileTree) (place : Place) : Option Node :=
  match tree.files.lookup place with
  | some content => some (.file content)
  | none =>
    let ends := tree.workingDirectory :: tree.directories ++ tree.files.map Prod.fst
    if ends.any place.isPrefixOf then some .directory else none

def maxPartSize : Nat := 255

def maxNameSize : Nat := 4095

/-- Reads the file to which the parts of a name lead from a directory. -/
def follow (tree : FileTree) (directory : Place) : List Text → Except FileFault Text
  | [] => .error .isDirectory
  | part :: parts =>
    if part = [] ∨ part = ['.'] then tree.follow directory parts
    else if part = ['.', '.'] then tree.follow directory.dropLast parts
    else if maxPartSize < part.size then .error .longName
    else
      match tree.node? (directory ++ [part]) with
      | none => .error .missing
      | some .directory => tree.follow (directory ++ [part]) parts
      | some (.file content) => if parts = [] then .ok content else .error .notDirectory

def read (tree : FileTree) (name : Text) : Except FileFault Text :=
  if name = [] then .error .missing
  else if maxNameSize < name.size then .error .longName
  else
    tree.follow (if name.startsWith ['/'] then [] else tree.workingDirectory)
      (Text.parts '/' name)

/-- The surroundings of a run that finds the files of a tree and the given standard input. -/
def surroundings (tree : FileTree) (input : Text) : Surroundings Id where
  file name := tree.read name
  input := .ok input

end FileTree
end CommandTemplate
