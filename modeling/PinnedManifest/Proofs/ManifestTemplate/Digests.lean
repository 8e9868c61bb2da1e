import PinnedManifest.Proofs.ManifestTemplate.Shipped

/-!
# Proofs/ManifestTemplate/Digests — where a manifest shows its digests

The blocks of both shipped templates begin with a path and a digest (`Layout`).  A digest takes as many
characters as any other, so manifests about records that agree but for their digests have one length,
and differ inside the digests that differ and nowhere else (`Layout.differAt_text`).  Nothing is read
back from a text: what the other fields hold does not matter.
-/

namespace PinnedManifest

/-! ## Lists that differ in places -/

/-- Two lists of one length that differ at some of the given positions only. -/
structure DifferAt {α : Type} (D : Nat → Prop) (x y : List α) : Prop where
  length_eq : x.length = y.length
  of_ne : ∀ k, x[k]? ≠ y[k]? → D k

namespace DifferAt

variable {α : Type} {D : Nat → Prop} {x x' y y' : List α}

theorem refl (x : List α) : DifferAt D x x := ⟨rfl, fun _ h => absurd rfl h⟩

/-- Two lists of one length, which may differ anywhere if they differ. -/
theorem of_length_eq (h : x.length = y.length) (hD : x ≠ y → ∀ k < x.length, D k) :
    DifferAt D x y := by
  refine ⟨h, fun k hk => hD (fun heq => hk (by rw [heq])) k ?_⟩
  by_contra hout
  rw [not_lt] at hout
  exact hk (by rw [List.getElem?_eq_none hout, List.getElem?_eq_none (h ▸ hout)])

/-- **One pair of lists behind the other.** -/
theorem append (h : DifferAt D x y) (h' : DifferAt (fun k => D (x.length + k)) x' y') :
    DifferAt D (x ++ x') (y ++ y') := by
  refine ⟨by rw [List.length_append, List.length_append, h.length_eq, h'.length_eq], fun k hk => ?_⟩
  by_cases hin : k < x.length
  · rw [List.getElem?_append_left hin, List.getElem?_append_left (h.length_eq ▸ hin)] at hk
    exact h.of_ne k hk
  · rw [not_lt] at hin
    rw [List.getElem?_append_right hin, List.getElem?_append_right (h.length_eq ▸ hin),
      ← h.length_eq] at hk
    have hD := h'.of_ne _ hk
    rwa [Nat.add_sub_cancel' hin] at hD

/-- Lists that may differ nowhere are the same. -/
theorem eq (h : DifferAt D x y) (hD : ∀ k, ¬ D k) : x = y :=
  List.ext_getElem? fun k => by_contra fun hk => hD k (h.of_ne k hk)

end DifferAt

/-- The same record with another digest. -/
def Record.SameArtifact (r r' : Record) : Prop := { r with sha256 := r'.sha256 } = r'

namespace ManifestTemplate

open Template

/-! ## The layout -/

/-- The slots that the shipped templates have first. -/
def digestSlots : List Slot := [⟨"  - path: ", 5, 11, "path"⟩, ⟨"\n    sha256: ", 6, 13, "sha256"⟩]

/-- A source of the common shape whose blocks begin with a path and a digest, and have no other
digest. -/
structure Layout where
  source : String
  /-- The text in front of the revision. -/
  before : String
  /-- The column of the revision. -/
  column : Nat
  /-- The text behind the revision. -/
  after : String
  /-- The variable that holds the records. -/
  key : String
  /-- The slots behind the digest. -/
  slots : List Slot
  last : String
  parse (path : String) :
    ofSource path source = .ok ⟨path, shape before column after key (digestSlots ++ slots) last⟩
  key_ne : revisionKey ≠ key
  plain : ∀ slot ∈ digestSlots ++ slots, Helper.ofName? ("this." ++ slot.field) = none
  once : ∀ slot ∈ slots, slot.field ≠ "sha256"

namespace Layout

/-- The layout of the template for the signed blobs. -/
def blobs : Layout where
  source := blobsSource
  before := "# Generated by update-blobs at revision "
  column := 41
  after := ". Do not edit.\nname: nrfxlib\nblobs:\n"
  key := "blobs"
  slots := blobsSlots.drop 2
  last := "\n"
  parse := ofSource_blobsSource
  key_ne := by decide
  plain := by decide
  once := by decide

/-- The layout of the template for the Wi-Fi firmware. -/
def wifiFirmware : Layout where
  source := wifiFirmwareSource
  before := "# Generated by update-wifi-fw at revision "
  column := 43
  after := ". Do not edit.\nname: nrf_wifi\nblobs:\n"
  key := "firmwares"
  slots := wifiFirmwareSlots.drop 2
  last := wifiFirmwareLast
  parse := ofSource_wifiFirmwareSource
  key_ne := by decide
  plain := by decide
  once := by decide

variable (t : Layout)

/-- What a block has in front of its digest. -/
def lead (r : Record) : String := "  - path: " ++ r.path ++ "\n    sha256: "

/-- A block about a record. -/
def block (r : Record) : String := blockText t.last r (digestSlots ++ t.slots)

/-- A manifest at a revision about records. -/
def text (revision : Revision) (records : List Record) : String :=
  t.before ++ revision.text ++ t.after ++ String.join (records.map t.block)

/-- Where a manifest shows the digest of one of its records. -/
def digestStart (revision : Revision) (records : List Record) (i : Nat) : Nat :=
  (t.text revision (records.take i)).length + (records[i]?.map fun r => (lead r).length).getD 0

/-- **A template with the layout, rendered over records of distinct names.** -/
theorem render_eq (path : String) {records : Records} (h : records.names.Nodup)
    (revision : Revision) :
    render ⟨path, shape t.before t.column t.after t.key (digestSlots ++ t.slots) t.last⟩
        (manifestContext t.key records revision)
      = .ok (t.text revision (records.entries.map (·.2))) := by
  rw [render_shape t.key_ne t.plain, Json.latest_of_nodup h, text, List.map_map]
  rfl

/-! ## Blocks -/

/-- Paths are shown whatever the digests are. -/
theorem lead_congr {r r' : Record} (h : r.SameArtifact r') : lead r = lead r' := by
  rw [lead, lead, ← h]

/-- Every other field of a record is shown whatever its digest is. -/
theorem fieldText_congr {r r' : Record} (h : r.SameArtifact r') {name : String}
    (hname : name ≠ "sha256") : fieldText r name = fieldText r' name := by
  rw [← h, fieldText, fieldText, Record.members, Record.members]
  simp only [Json.Members.find?, if_neg (Ne.symm hname)]

theorem blockText_congr {r r' : Record} (h : r.SameArtifact r') (last : String) :
    ∀ {slots : List Slot}, (∀ slot ∈ slots, slot.field ≠ "sha256") →
      blockText last r slots = blockText last r' slots
  | [], _ => rfl
  | slot :: slots, hslots => by
      rw [blockText, blockText, fieldText_congr h (hslots slot List.mem_cons_self),
        blockText_congr h last fun slot' hmem => hslots slot' (List.mem_cons_of_mem _ hmem)]

/-- **A block** is what is in front of the digest, the digest, and what is behind it. -/
theorem toList_block (r : Record) :
    (t.block r).toList
      = (lead r).toList ++ (r.sha256.text.toList ++ (blockText t.last r t.slots).toList) := by
  have hpath : fieldText r "path" = r.path := rfl
  have hdigest : fieldText r "sha256" = r.sha256.text := rfl
  rw [block, digestSlots]
  simp only [List.cons_append, List.nil_append, blockText, hpath, hdigest, lead, String.toList_append,
    List.append_assoc]

/-- A manifest about more records. -/
theorem toList_text_append (revision : Revision) (records more : List Record) :
    (t.text revision (records ++ more)).toList
      = (t.text revision records).toList ++ (String.join (more.map t.block)).toList := by
  simp [text, String.toList_append, List.append_assoc]

/-- A manifest about one more record. -/
theorem toList_text_concat (revision : Revision) (records : List Record) (r : Record) :
    (t.text revision (records ++ [r])).toList
      = (t.text revision records).toList ++ (t.block r).toList := by
  rw [toList_text_append, List.map_singleton, String.join_cons, String.join_nil, String.append_empty]

/-! ## Two manifests -/

section Two

variable (revision : Revision) {records records' : List Record}

/-- Records that agree but for their digests. -/
structure Agree (records records' : List Record) : Prop where
  length_eq : records.length = records'.length
  sameArtifact (i : Nat) (r r' : Record) :
    records[i]? = some r → records'[i]? = some r' → r.SameArtifact r'

/-- A position inside a digest that is another one in the other manifest. -/
def Changed (t : Layout) (revision : Revision) (records records' : List Record) (k : Nat) : Prop :=
  ∃ i r r', records[i]? = some r ∧ records'[i]? = some r' ∧ r.sha256 ≠ r'.sha256 ∧
    t.digestStart revision records i ≤ k ∧ k < t.digestStart revision records i + 64

theorem digestStart_of_getElem? {i : Nat} {r : Record} (hr : records[i]? = some r) :
    t.digestStart revision records i
      = (t.text revision (records.take i)).toList.length + (lead r).toList.length := by
  rw [digestStart, hr, String.length_toList, String.length_toList]
  rfl

/-- **A record's digest stands at its place.** -/
theorem digest_shown {i : Nat} {r : Record} (hr : records[i]? = some r) :
    ((t.text revision records).toList.drop (t.digestStart revision records i)).take 64
      = r.sha256.text.toList := by
  obtain ⟨hi, rfl⟩ := List.getElem?_eq_some_iff.mp hr
  have hsplit : (t.text revision records).toList
      = (t.text revision (records.take i)).toList ++ (lead records[i]).toList
        ++ (records[i].sha256.text.toList ++ ((blockText t.last records[i] t.slots).toList
        ++ (String.join ((records.drop (i + 1)).map t.block)).toList)) := by
    conv_lhs => rw [← List.take_append_drop (i + 1) records, ← List.take_append_getElem hi]
    rw [toList_text_append, toList_text_concat, toList_block]
    simp only [List.append_assoc]
  rw [t.digestStart_of_getElem? revision hr, hsplit, List.drop_left' (List.length_append ..),
    List.take_left' (Digest.length_text _)]

/-- **Manifests whose records agree differ inside their digests only**, up to any record. -/
theorem differAt_text_take (t : Layout) (revision : Revision) (h : Agree records records') : ∀ n, n ≤ records.length →
    DifferAt (t.Changed revision records records') (t.text revision (records.take n)).toList
      (t.text revision (records'.take n)).toList
  | 0, _ => by
      rw [List.take_zero, List.take_zero]
      exact .refl _
  | n + 1, hn => by
      have hn' : n < records'.length := h.length_eq ▸ hn
      have hr : records[n]? = some records[n] := List.getElem?_eq_getElem hn
      have hr' : records'[n]? = some records'[n] := List.getElem?_eq_getElem hn'
      have hartifact := h.sameArtifact n _ _ hr hr'
      have hstart := t.digestStart_of_getElem? revision hr
      rw [← List.take_append_getElem hn, ← List.take_append_getElem hn', toList_text_concat,
        toList_text_concat, toList_block, toList_block, ← lead_congr hartifact,
        blockText_congr hartifact t.last t.once]
      refine (t.differAt_text_take revision h n (by omega)).append (.append (.refl _)
        (.append (.of_length_eq ?_ fun hne k hk => ?_) (.refl _)))
      · rw [Digest.length_text, Digest.length_text]
      · rw [Digest.length_text] at hk
        refine ⟨n, _, _, hr, hr', fun heq => hne (by rw [heq]), ?_, ?_⟩ <;> omega

theorem differAt_text (h : Agree records records') :
    DifferAt (t.Changed revision records records') (t.text revision records).toList
      (t.text revision records').toList := by
  have htake := t.differAt_text_take revision h records.length le_rfl
  rwa [List.take_length, h.length_eq, List.take_length] at htake

/-- The digests stand at the same places. -/
theorem digestStart_congr (h : Agree records records') {i : Nat} (hi : i < records.length) :
    t.digestStart revision records' i = t.digestStart revision records i := by
  have hi' : i < records'.length := h.length_eq ▸ hi
  have hr : records[i]? = some records[i] := List.getElem?_eq_getElem hi
  have hr' : records'[i]? = some records'[i] := List.getElem?_eq_getElem hi'
  rw [t.digestStart_of_getElem? revision hr, t.digestStart_of_getElem? revision hr',
    (t.differAt_text_take revision h i hi.le).length_eq,
    lead_congr (h.sameArtifact i _ _ hr hr')]

/-- **Manifests whose records agree are the same if and only if the digests are.** -/
theorem text_eq_iff (h : Agree records records') :
    t.text revision records = t.text revision records'
      ↔ records.map (·.sha256) = records'.map (·.sha256) := by
  constructor
  · intro heq
    refine List.ext_getElem (by simpa using h.length_eq) fun i hi hi' => ?_
    rw [List.length_map] at hi hi'
    have hshown := t.digest_shown revision (List.getElem?_eq_getElem hi)
    rw [heq, ← t.digestStart_congr revision h hi, t.digest_shown revision (List.getElem?_eq_getElem hi')] at hshown
    simpa using (Digest.text_injective (String.toList_inj.mp hshown)).symm
  · intro hdigests
    refine String.toList_inj.mp ((t.differAt_text revision h).eq ?_)
    rintro k ⟨i, r, r', hr, hr', hne, -⟩
    have hi := congrArg (·[i]?) hdigests
    simp only [List.getElem?_map, hr, hr', Option.map_some, Option.some.injEq] at hi
    exact hne hi

end Two

end Layout

end ManifestTemplate

end PinnedManifest
