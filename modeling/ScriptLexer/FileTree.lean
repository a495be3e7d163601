import ScriptLexer.Path

/-!
Trees of files, and what a path leads to in them.

A path is followed name by name, from the working directory or from the root, and every name but
the last has to lead to a directory. Of the directories around the working directory it is known
that they are there; their names are not known, so that no way leads back by name.
-/

namespace ScriptLexer

/-- What a path leads to. -/
inductive Found where
  | missing
  | tooLong
  | directory
  | file (bytes : List UInt8)
deriving Repr, DecidableEq

/-- A directory that is always there. -/
inductive Base where
  | root
  /-- So many levels above the working directory, which is at level zero. -/
  | level (height : Nat)
deriving Repr, DecidableEq

/-- A point of a tree: the names that lead there from a base. -/
structure Location where
  base : Base
  names : List String
deriving Repr, DecidableEq

namespace Location

/-- The root is its own parent. -/
def parent : Location → Location
  | ⟨.root, []⟩ => ⟨.root, []⟩
  | ⟨.level height, []⟩ => ⟨.level (height + 1), []⟩
  | ⟨base, names⟩ => ⟨base, names.dropLast⟩

def step (here : Location) (name : String) : Location :=
  if name = ".." then here.parent else ⟨here.base, here.names ++ [name]⟩

/-- All points on the way along names, both ends included. -/
def way (here : Location) : List String → List Location
  | [] => [here]
  | name :: names => here :: (here.step name).way names

/-- Whether the way to a point leads down through this one. -/
def isOnWayTo (here there : Location) : Bool :=
  here.base = there.base && here.names.isPrefixOf there.names

end Location

namespace Path

/-- How many bytes a name can have, and how many a whole path. -/
def nameLimit : Nat := 255

def lengthLimit : Nat := 4095

/-- No file can have a name with the zero character. -/
def isNameable (p : Path) : Bool := p.names.all (!·.toList.contains '\x00')

def start (p : Path) : Location := ⟨if p.root = .none then .level 0 else .root, []⟩

end Path

/-- Files and directories by their locations. A directory that holds something is there even if it
is not listed; of two files of one location the first counts. -/
structure FileTree where
  directories : List Location := []
  files : List (Location × List UInt8) := []
deriving Repr, DecidableEq

namespace FileTree

/-- The tree after directories and files have been written to it in order, so that of two files of
one location the later one stays. Every directory on the way is made, too, also where the way leads
up again. -/
def ofPaths (directories : List Path) (files : List (Path × List UInt8)) : FileTree where
  directories :=
    directories.flatMap (fun p => p.start.way p.names) ++
      files.flatMap (fun (p, _) => p.start.way p.names.dropLast)
  files := (files.map fun (p, bytes) => (p.names.foldl Location.step p.start, bytes)).reverse

def locations (t : FileTree) : List Location := t.directories ++ t.files.map Prod.fst

/-- What is at a location. -/
def find (t : FileTree) (here : Location) : Found :=
  match t.files.lookup here with
  | some bytes => .file bytes
  | none =>
    if here.names = [] ∨ t.locations.any here.isOnWayTo then .directory else .missing

/-- Follows names from a location. -/
def follow (t : FileTree) (here : Location) : List String → Found
  | [] => t.find here
  | name :: names =>
    match t.find here with
    | .directory =>
      if name ≠ ".." ∧ Path.nameLimit < name.utf8ByteSize then .tooLong
      else t.follow (here.step name) names
    | _ => .missing

/-- What a path leads to. -/
def lookup (t : FileTree) (p : Path) : Found :=
  if !p.isNameable then .missing
  else if Path.lengthLimit < p.render.utf8ByteSize then .tooLong
  else t.follow p.start p.names

end FileTree
end ScriptLexer
