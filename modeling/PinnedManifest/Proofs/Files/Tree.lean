import PinnedManifest.Files.Replacement

/-!
# Proofs/Files/Tree — one entry of a tree changed

Whatever is done to a file is a change of the entries of the directory that holds it
(`modifyAt_append_singleton`), so changes made one after the other are one change
(`modifyAt_modifyAt`), and putting in a new entry, changing it and erasing it again is none at all
(`erase_put_of_node?`).  Away from the entry every node keeps its face (`face_put`), and so its kind,
which is all that following a path looks at.
-/

namespace PinnedManifest.Files

namespace Entries

theorem modify_modify (name : String) (f g : Node → Node) :
    ∀ es : Entries, modify name g (modify name f es) = modify name (fun n => g (f n)) es
  | [] => rfl
  | (k, n) :: rest => by
      by_cases hk : k = name
      · simp [modify, hk]
      · simp [modify, hk, modify_modify name f g rest]

/-- Changing what was just put in is putting in the changed node. -/
theorem modify_put (name : String) (f : Node → Node) (node : Node) :
    ∀ es : Entries, modify name f (put name node es) = put name (f node) es
  | [] => by simp [put, modify]
  | (k, n) :: rest => by
      by_cases hk : k = name
      · simp [put, modify, hk]
      · by_cases hlt : name < k
        · simp [put, modify, hk, hlt]
        · simp [put, modify, hk, hlt, modify_put name f node rest]

/-- What is put in last counts. -/
theorem put_put (name : String) (node node' : Node) :
    ∀ es : Entries, put name node' (put name node es) = put name node' es
  | [] => by simp [put]
  | (k, n) :: rest => by
      by_cases hk : k = name
      · simp [put, hk]
      · by_cases hlt : name < k
        · simp [put, hk, hlt]
        · simp [put, hk, hlt, put_put name node node' rest]

/-- A change that leaves the entry as it is leaves all of them. -/
theorem modify_eq_self {name : String} {f : Node → Node} :
    ∀ {es : Entries}, (∀ n, find? name es = some n → f n = n) → modify name f es = es
  | [], _ => rfl
  | (k, n) :: rest, h => by
      by_cases hk : k = name
      · rw [modify, if_pos hk, h n (by rw [find?, if_pos hk])]
      · rw [modify, if_neg hk, modify_eq_self fun m hm => h m (by rwa [find?, if_neg hk])]

theorem find?_modify (name other : String) (f : Node → Node) :
    ∀ es : Entries, find? other (modify name f es)
      = if other = name then (find? other es).map f else find? other es
  | [] => by simp [modify, find?]
  | (k, n) :: rest => by
      by_cases hk : k = name
      · subst hk
        by_cases ho : other = k
        · simp [modify, find?, ho]
        · simp [modify, find?, ho, Ne.symm ho]
      · by_cases ho : k = other
        · subst ho
          simp [modify, find?, hk]
        · simp [modify, find?, hk, ho, find?_modify name other f rest]

/-- Only names that are listed are found. -/
theorem find?_eq_none {name : String} :
    ∀ {es : Entries}, name ∉ es.map (·.1) → find? name es = none
  | [], _ => rfl
  | (k, n) :: rest, h => by
      have hk : k ≠ name := fun e => h (by simp [e])
      rw [find?, if_neg hk]
      exact find?_eq_none fun hm => h (List.mem_cons_of_mem _ hm)

end Entries

namespace Node

theorem at?_append (q : Location) :
    ∀ (p : Location) (n : Node), at? (p ++ q) n = (at? p n).bind (at? q)
  | [], n => by simp [at?]
  | _ :: _, .file _ _ => rfl
  | _ :: _, .link _ => rfl
  | name :: p, .directory _ es => by
      simp only [List.cons_append, at?]
      cases Entries.find? name es with
      | none => rfl
      | some n => exact at?_append q p n

/-- The node under a name of a directory. -/
theorem at?_singleton (name : String) (mode : Mode) (es : Entries) :
    at? [name] (.directory mode es) = Entries.find? name es := by
  rw [at?]
  cases Entries.find? name es <;> rfl

theorem at?_modifyAt (f : Node → Node) :
    ∀ (p : Location) (n : Node), at? p (modifyAt f p n) = (at? p n).map f
  | [], n => by simp [at?, modifyAt]
  | _ :: _, .file _ _ => rfl
  | _ :: _, .link _ => rfl
  | name :: p, .directory _ es => by
      simp only [at?, modifyAt, Entries.find?_modify, if_true]
      cases Entries.find? name es with
      | none => rfl
      | some n => exact at?_modifyAt f p n

/-- **Two changes at one place are one.** -/
theorem modifyAt_modifyAt (f g : Node → Node) :
    ∀ (p : Location) (n : Node),
      modifyAt g p (modifyAt f p n) = modifyAt (fun m => g (f m)) p n
  | [], n => by simp [modifyAt]
  | _ :: _, .file _ _ => rfl
  | _ :: _, .link _ => rfl
  | name :: p, .directory mode es => by
      simp only [modifyAt, Entries.modify_modify]
      exact congrArg (fun h => Node.directory mode (Entries.modify name h es))
        (funext (modifyAt_modifyAt f g p))

/-- A change that leaves the node at the place as it is leaves the tree. -/
theorem modifyAt_eq_self {f : Node → Node} :
    ∀ {p : Location} {n : Node}, (∀ m, at? p n = some m → f m = m) → modifyAt f p n = n
  | [], n, h => h n rfl
  | _ :: _, .file _ _, _ => rfl
  | _ :: _, .link _, _ => rfl
  | name :: p, .directory mode es, h => by
      rw [modifyAt, Entries.modify_eq_self]
      intro n hn
      exact modifyAt_eq_self fun m hm => h m (by rw [at?, hn]; exact hm)

/-- **A change to a node is a change of the entries that hold it.** -/
theorem modifyAt_append_singleton (f : Node → Node) (name : String) :
    ∀ (p : Location) (n : Node),
      modifyAt f (p ++ [name]) n = modifyAt (mapEntries (Entries.modify name f)) p n
  | [], .file _ _ => rfl
  | [], .link _ => rfl
  | [], .directory _ es => by simp only [List.nil_append, modifyAt, mapEntries]
  | _ :: _, .file _ _ => rfl
  | _ :: _, .link _ => rfl
  | head :: p, .directory mode es => by
      simp only [List.cons_append, modifyAt]
      exact congrArg (fun h => Node.directory mode (Entries.modify head h es))
        (funext (modifyAt_append_singleton f name p))

end Node

/-! ## Nodes by themselves

What a node is apart from the nodes below it is its face.  Following a path looks at less still, and at
no content: there a node counts only as a file, a directory of some mode or a link to some target. -/

/-- What a node is by itself. -/
inductive Face
  | file (mode : Mode) (content : List UInt8)
  | directory (mode : Mode)
  | link (target : String)
  deriving DecidableEq

/-- The face of a node. -/
def Node.face : Node → Face
  | .file mode content => .file mode content
  | .directory mode _ => .directory mode
  | .link target => .link target

/-- What following a path sees of a node. -/
inductive Kind
  | file
  | directory (mode : Mode)
  | link (target : String)

/-- The kind of a node. -/
def Node.kind : Node → Kind
  | .file _ _ => .file
  | .directory mode _ => .directory mode
  | .link target => .link target

namespace Node

/-- Nodes of one face are of one kind. -/
theorem map_kind_of_map_face {n n' : Option Node} (h : n.map face = n'.map face) :
    n.map kind = n'.map kind := by
  cases n with
  | none =>
    cases n' with
    | none => rfl
    | some => cases h
  | some n =>
    cases n' with
    | none => cases h
    | some n' => cases n <;> cases n' <;> cases h <;> rfl

/-- **Away from an entry, putting it in changes no face.** -/
theorem face_at?_putAt (name : String) (node : Node) :
    ∀ (p q : Location) (n : Node), ¬ p ++ [name] <+: q →
      (at? q (putAt n p name node)).map face = (at? q n).map face
  | [], _, .file _ _, _ => rfl
  | [], _, .link _, _ => rfl
  | _ :: _, _, .file _ _, _ => rfl
  | _ :: _, _, .link _, _ => rfl
  | [], [], .directory _ _, _ => rfl
  | _ :: _, [], .directory _ _, _ => rfl
  | [], k :: q, .directory mode es, h => by
      have hk : k ≠ name := fun e => h (by rw [e]; exact List.prefix_append [name] q)
      change ((Entries.find? k (Entries.put name node es)).bind (at? q)).map face = _
      rw [Entries.find?_put_of_ne hk, at?]
  | head :: p, k :: q, .directory mode es, h => by
      change ((Entries.find? k (Entries.modify head
        (modifyAt (mapEntries (Entries.put name node)) p) es)).bind (at? q)).map face = _
      rw [Entries.find?_modify, at?]
      split
      next hk =>
        subst hk
        cases Entries.find? k es with
        | none => rfl
        | some n =>
          exact face_at?_putAt name node p q n fun hpre => h (List.cons_prefix_cons.mpr ⟨rfl, hpre⟩)
      next => rfl

/-- **Away from an entry and from what holds it, putting it in changes nothing.** -/
theorem at?_putAt (name : String) (node : Node) :
    ∀ (p q : Location) (n : Node), ¬ p ++ [name] <+: q → ¬ q <+: p →
      at? q (putAt n p name node) = at? q n
  | [], _, .file _ _, _, _ => rfl
  | [], _, .link _, _, _ => rfl
  | _ :: _, _, .file _ _, _, _ => rfl
  | _ :: _, _, .link _, _, _ => rfl
  | _, [], .directory _ _, _, hq => absurd List.nil_prefix hq
  | [], k :: q, .directory mode es, h, _ => by
      have hk : k ≠ name := fun e => h (by rw [e]; exact List.prefix_append [name] q)
      change (Entries.find? k (Entries.put name node es)).bind (at? q) = _
      rw [Entries.find?_put_of_ne hk, at?]
  | head :: p, k :: q, .directory mode es, h, hq => by
      change (Entries.find? k (Entries.modify head
        (modifyAt (mapEntries (Entries.put name node)) p) es)).bind (at? q) = _
      rw [Entries.find?_modify, at?]
      split
      next hk =>
        subst hk
        cases Entries.find? k es with
        | none => rfl
        | some n =>
          exact at?_putAt name node p q n
            (fun hpre => h (List.cons_prefix_cons.mpr ⟨rfl, hpre⟩))
            (fun hpre => hq (List.cons_prefix_cons.mpr ⟨rfl, hpre⟩))
      next => rfl

/-- A directory is its kind. -/
theorem exists_directory_of_kind {n : Node} {mode : Mode} (h : n.kind = .directory mode) :
    ∃ es, n = .directory mode es := by
  cases n with
  | file | link => cases h
  | directory _ es =>
    cases h
    exact ⟨es, rfl⟩

end Node

namespace Volume

variable {v : Volume} {place : Location} {name : String} {node : Node} {mode : Mode} {es : Entries}

theorem node?_append (v : Volume) (p q : Location) :
    v.node? (p ++ q) = (v.node? p).bind (Node.at? q) := Node.at?_append q p v.root

/-- The node under a name of a directory. -/
theorem node?_child (h : v.node? place = some (.directory mode es)) (name : String) :
    v.node? (place ++ [name]) = Entries.find? name es := by
  rw [node?_append, h, Option.bind_some, Node.at?_singleton]

/-- The directory that an entry was put into. -/
theorem node?_put_place (h : v.node? place = some (.directory mode es)) :
    (v.put place name node).node? place = some (.directory mode (Entries.put name node es)) := by
  have hput : (v.put place name node).node? place
      = (v.node? place).map (Node.mapEntries (Entries.put name node)) :=
    Node.at?_modifyAt _ place v.root
  rw [hput, h]
  rfl

/-- **What was put in is there.** -/
theorem node?_put (h : v.node? place = some (.directory mode es)) :
    (v.put place name node).node? (place ++ [name]) = some node := by
  rw [node?_child (node?_put_place h), Entries.find?_put]

/-- Below a place that is no directory nothing is put in. -/
theorem put_eq_self (h : ∀ mode es, v.node? place ≠ some (.directory mode es)) :
    v.put place name node = v := by
  have hroot : v.root.putAt place name node = v.root := by
    refine Node.modifyAt_eq_self fun m hm => ?_
    cases m with
    | file | link => rfl
    | directory mode es => exact absurd hm (h mode es)
  rw [put, hroot]

/-- **A new entry put in and erased again is no change.** -/
theorem erase_put_of_node? (h : v.node? place = some (.directory mode es))
    (hnew : Entries.find? name es = none) : (v.put place name node).erase place name = v := by
  have hroot : (v.root.putAt place name node).eraseAt place name = v.root := by
    rw [Node.eraseAt, Node.putAt, Node.modifyAt_modifyAt]
    refine Node.modifyAt_eq_self fun m hm => ?_
    obtain rfl : m = .directory mode es := Option.some.inj (hm.symm.trans h)
    simp only [Node.mapEntries, Entries.erase_put node hnew]
  rw [erase, put, hroot]

/-- A staged file changed is the changed file staged. -/
theorem mapStaged_put (v : Volume) (s : StagedFile) (node : Node) (f : Node → Node) :
    (v.put s.place s.name node).mapStaged s f = v.put s.place s.name (f node) := by
  have hroot : Node.modifyAt f (s.place ++ [s.name]) (v.root.putAt s.place s.name node)
      = v.root.putAt s.place s.name (f node) := by
    rw [Node.modifyAt_append_singleton, Node.putAt, Node.modifyAt_modifyAt, Node.putAt]
    refine congrArg (fun h => Node.modifyAt h s.place v.root) (funext fun n => ?_)
    cases n with
    | file | link => rfl
    | directory mode es => simp only [Node.mapEntries, Entries.modify_put]
  rw [mapStaged, put, hroot, put]

/-- What is put in last counts. -/
theorem put_put (v : Volume) (place : Location) (name : String) (node node' : Node) :
    (v.put place name node).put place name node' = v.put place name node' := by
  have hroot : (v.root.putAt place name node).putAt place name node'
      = v.root.putAt place name node' := by
    rw [Node.putAt, Node.putAt, Node.modifyAt_modifyAt, Node.putAt]
    refine congrArg (fun h => Node.modifyAt h place v.root) (funext fun n => ?_)
    cases n with
    | file | link => rfl
    | directory mode es => simp only [Node.mapEntries, Entries.put_put]
  rw [put, put, hroot, put]

theorem node?_put_apart {q : Location} (h : ¬ place ++ [name] <+: q) (hq : ¬ q <+: place) :
    (v.put place name node).node? q = v.node? q :=
  Node.at?_putAt name node place q v.root h hq

theorem face_put {q : Location} (h : ¬ place ++ [name] <+: q) :
    ((v.put place name node).node? q).map Node.face = (v.node? q).map Node.face :=
  Node.face_at?_putAt name node place q v.root h

theorem kind_put {q : Location} (h : ¬ place ++ [name] <+: q) :
    ((v.put place name node).node? q).map Node.kind = (v.node? q).map Node.kind :=
  Node.map_kind_of_map_face (face_put h)

end Volume

end PinnedManifest.Files
