/-!
# Files/Node — a tree of files, directories and links

A directory lists its entries by name, in order.  `Entries.put` and `Entries.erase` change one entry
and `Node.putAt` one entry of a directory deep in the tree; putting in a new name and erasing it again
changes nothing (`erase_put`).
-/

namespace PinnedManifest.Files

/-- The twelve permission bits. -/
abbrev Mode := BitVec 12

/-- What a name stands for. -/
inductive Node
  | file (mode : Mode) (content : List UInt8)
  | directory (mode : Mode) (entries : List (String × Node))
  | link (target : String)
  deriving Repr

/-- The entries of a directory. -/
abbrev Entries := List (String × Node)

namespace Entries

/-- The entry of a name. -/
def find? (name : String) : Entries → Option Node
  | [] => none
  | (k, n) :: rest => if k = name then some n else find? name rest

/-- The entries with one put in: in place of an entry of that name, or in front of the first greater
name. -/
def put (name : String) (node : Node) : Entries → Entries
  | [] => [(name, node)]
  | (k, n) :: rest =>
    if k = name then (k, node) :: rest
    else if name < k then (name, node) :: (k, n) :: rest
    else (k, n) :: put name node rest

/-- The entries without one name. -/
def erase (name : String) : Entries → Entries
  | [] => []
  | (k, n) :: rest => if k = name then rest else (k, n) :: erase name rest

/-- The entries with one changed. -/
def modify (name : String) (f : Node → Node) : Entries → Entries
  | [] => []
  | (k, n) :: rest => if k = name then (k, f n) :: rest else (k, n) :: modify name f rest

/-- **Putting in a new name and erasing it changes nothing.** -/
theorem erase_put {name : String} (node : Node) :
    ∀ {es : Entries}, find? name es = none → erase name (put name node es) = es
  | [], _ => by simp [put, erase]
  | (k, n) :: rest, h => by
      by_cases hk : k = name
      · simp [find?, hk] at h
      · rw [find?, if_neg hk] at h
        by_cases hlt : name < k
        · simp [put, erase, hk, hlt]
        · simp [put, erase, hk, hlt, erase_put node h]

/-- What was put in is found. -/
theorem find?_put (name : String) (node : Node) :
    ∀ es : Entries, find? name (put name node es) = some node
  | [] => by simp [put, find?]
  | (k, n) :: rest => by
      by_cases hk : k = name
      · simp [put, find?, hk]
      · by_cases hlt : name < k
        · simp [put, find?, hk, hlt]
        · simp [put, find?, hk, hlt, find?_put name node rest]

/-- Putting in one name leaves the others. -/
theorem find?_put_of_ne {name other : String} (h : other ≠ name) (node : Node) :
    ∀ es : Entries, find? other (put name node es) = find? other es
  | [] => by simp [put, find?, h.symm]
  | (k, n) :: rest => by
      by_cases hk : k = name
      · subst hk
        simp [put, find?, h.symm]
      · by_cases hlt : name < k
        · simp [put, find?, hk, hlt, h.symm]
        · simp [put, find?, hk, hlt, find?_put_of_ne h node rest]

end Entries

/-- A place in a tree: the names that lead to it from the root. -/
abbrev Location := List String

namespace Node

/-- The node at a place. -/
def at? : Location → Node → Option Node
  | [], n => some n
  | name :: rest, .directory _ entries => (Entries.find? name entries).bind (at? rest)
  | _ :: _, _ => none

/-- The tree with the node at a place changed. -/
def modifyAt (f : Node → Node) : Location → Node → Node
  | [], n => f n
  | name :: rest, .directory mode entries =>
    .directory mode (Entries.modify name (modifyAt f rest) entries)
  | _ :: _, n => n

/-- The directory with other entries. -/
def mapEntries (f : Entries → Entries) : Node → Node
  | .directory mode entries => .directory mode (f entries)
  | n => n

/-- The tree with an entry put into the directory at a place. -/
def putAt (root : Node) (place : Location) (name : String) (node : Node) : Node :=
  modifyAt (mapEntries (Entries.put name node)) place root

/-- The tree with an entry erased from the directory at a place. -/
def eraseAt (root : Node) (place : Location) (name : String) : Node :=
  modifyAt (mapEntries (Entries.erase name)) place root

/-- The permission bits; a link has none of its own. -/
def mode? : Node → Option Mode
  | .file mode _ => some mode
  | .directory mode _ => some mode
  | .link _ => none

/-- The node with other permission bits. -/
def withMode (mode : Mode) : Node → Node
  | .file _ content => .file mode content
  | .directory _ entries => .directory mode entries
  | .link target => .link target

end Node

end PinnedManifest.Files
