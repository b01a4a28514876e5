/-
  MockServer.Files — the files of a directory, and the parts of a file
  name.

  Paths start in the directory; empty parts and single dots in them
  lead nowhere.  The part behind the last dot of a name is its
  extension, unless the dot is its first character; what comes before
  is its stem.
-/
import MockServer.Dict
import MockServer.Text.Split

namespace MockServer

/-- Why a file cannot be read. -/
inductive FileError where
  /-- There is no such file. -/
  | missing
  /-- It is a directory. -/
  | directory
  /-- Something on the way to it is no directory. -/
  | blocked
  deriving DecidableEq, Repr

def FileError.message : FileError → String
  | .missing => "No such file or directory (os error 2)"
  | .directory => "Is a directory (os error 21)"
  | .blocked => "Not a directory (os error 20)"

/-- The texts of the files of a directory by name. -/
structure Files where
  texts : Dict String
  deriving DecidableEq, Repr, Inhabited

namespace Files

def empty : Files := ⟨.empty⟩

/-- The parts of a path, without those that lead nowhere. -/
def steps (path : String) : List (List Char) :=
  (Text.splitOn '/' path.toList).filter fun part => !part.isEmpty && part != ['.']

/-- Does the path end in a part that only a directory can have? -/
def endsInside (path : String) : Bool :=
  match (Text.splitOn '/' path.toList).getLast? with
  | some part => part.isEmpty || part == ['.']
  | none => true

/-- Does one path go on from the other? -/
def isBeyond (steps start : List (List Char)) : Bool :=
  match Text.after? start steps with
  | some rest => !rest.isEmpty
  | none => false

def read (fs : Files) (path : String) : Except FileError String :=
  let way := steps path
  let found := fs.texts.entries.find? fun f => steps f.1 == way
  if way.isEmpty then .error .directory
  else
    match found with
    | some (_, text) => if endsInside path then .error .blocked else .ok text
    | none =>
      if fs.texts.entries.any fun f => isBeyond (steps f.1) way then .error .directory
      else if fs.texts.entries.any fun f => isBeyond way (steps f.1) then .error .blocked
      else .error .missing

end Files

namespace FileName

def last (path : String) : List Char := ((Text.splitOn '/' path.toList).getLast?).getD []

/-- The parts of a name before and behind its last dot, if there is something before it. -/
def atDot? (name : List Char) : Option (List Char × List Char) :=
  match Text.splitFirst '.' name.reverse with
  | some (behind, before) => if before.isEmpty then none else some (before.reverse, behind.reverse)
  | none => none

/-- The name of a file without its extension. -/
def stem (path : String) : String :=
  let name := last path
  String.ofList ((atDot? name).map Prod.fst |>.getD name)

/-- The extension of the name of a file. -/
def extension? (path : String) : Option String :=
  (atDot? (last path)).map fun p => String.ofList p.2

end FileName

end MockServer
