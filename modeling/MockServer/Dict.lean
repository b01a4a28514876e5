/-
  MockServer.Dict — tables from names to values, in the order of the
  names.

  Every table an answer shows (JSON members, variables, headers of a
  step) lists its names in the order of their code points, which is
  also the order of their UTF-8 bytes.  A later entry for a name
  replaces the earlier one.
-/

namespace MockServer

/-- Entries with strictly increasing names, when built by `insert` from `empty`. -/
structure Dict (α : Type) where
  entries : List (String × α)
  deriving Repr, DecidableEq, Inhabited

namespace Dict

variable {α β : Type}

def empty : Dict α := ⟨[]⟩

/-- Puts an entry at its place in an ordered list of entries. -/
def insertEntry (name : String) (value : α) : List (String × α) → List (String × α)
  | [] => [(name, value)]
  | (k, v) :: rest =>
    if name = k then (name, value) :: rest
    else if name < k then (name, value) :: (k, v) :: rest
    else (k, v) :: insertEntry name value rest

def insert (d : Dict α) (name : String) (value : α) : Dict α :=
  ⟨insertEntry name value d.entries⟩

def erase (d : Dict α) (name : String) : Dict α := ⟨d.entries.eraseP fun e => e.1 == name⟩

def get? (d : Dict α) (name : String) : Option α :=
  d.entries.lookup name

def contains (d : Dict α) (name : String) : Bool :=
  (d.get? name).isSome

/-- The table of a list of entries; the last entry for a name counts. -/
def ofList (entries : List (String × α)) : Dict α :=
  entries.foldl (fun d e => d.insert e.1 e.2) empty

def names (d : Dict α) : List String := d.entries.map Prod.fst

def isEmpty (d : Dict α) : Bool := d.entries.isEmpty

def size (d : Dict α) : Nat := d.entries.length

end Dict

end MockServer
