import PinnedManifest.Proofs.Json.Latest
import PinnedManifest.Record

/-!
# Proofs/Record/Mapping — records as the mapping that a template sees

A template sees one member for each name, in the order of first pushes, about the record pushed last
(`manifestContext_latest_pushes`).  The records themselves answer to a name with the one pushed first
and count every push, so they are that mapping exactly when no name was pushed twice
(`records_are_mapping_iff`).
-/

namespace PinnedManifest

open Json

/-- **The seven fields of a record**, in their order, null where one is absent. -/
theorem Record.json_eq (r : Record) : r.json = .object
    [("path", .string r.path), ("rpath", .string r.remotePath),
      ("version", r.version.elim .null .string), ("sha256", .string r.sha256.text),
      ("description", .string r.description), ("url", .string r.url),
      ("doc_url", r.docUrl.elim .null .string)] := by
  have hoptional (text : Option String) : optional text = text.elim .null .string := by
    cases text <;> rfl
  rw [json, members, hoptional, hoptional]

namespace Records

/-- Records pushed one after the other. -/
def ofPushes (pushes : List (String × Record)) : Records :=
  pushes.foldl (fun records push => records.push push.1 push.2) .empty

/-- **All pushes are kept**, in their order. -/
@[simp] theorem entries_ofPushes (pushes : List (String × Record)) :
    (ofPushes pushes).entries = pushes := by
  induction pushes using List.reverseRecOn with
  | nil => rfl
  | append_singleton pushes push ih =>
    rw [ofPushes, List.foldl_append, ← ofPushes, List.foldl_cons, List.foldl_nil, Records.push, ih]

/-- The records as a mapping: each name with the record pushed last under it. -/
def mapping (records : Records) : Members :=
  (latest records.entries).map fun entry => (entry.1, entry.2.json)

/-- Members put in one after the other leave the mapping. -/
theorem ofList_members (records : Records) : Members.ofList records.members = records.mapping := by
  rw [Members.ofList_eq_latest, members, latest_map, mapping]

/-- **Each name is a member once**, in the order of first pushes. -/
theorem names_mapping (records : Records) :
    records.mapping.map (·.1) = records.names.eraseDups := by
  rw [mapping, List.map_map, names, ← names_latest]
  rfl

/-- What was pushed last under a name. -/
theorem map_json_last?_eq_some_iff {entries : List (String × Record)} {name : String}
    {value : Value} : (last? name entries).map Record.json = some value ↔ ∃ before r after,
      entries = before ++ (name, r) :: after ∧ name ∉ after.map (·.1) ∧ value = r.json := by
  rw [Option.map_eq_some_iff]
  constructor
  · rintro ⟨r, hr, rfl⟩
    obtain ⟨before, after, hsplit, hafter⟩ := last?_eq_some_iff.mp hr
    exact ⟨before, r, after, hsplit, hafter, rfl⟩
  · rintro ⟨before, r, after, hsplit, hafter, rfl⟩
    exact ⟨r, last?_eq_some_iff.mpr ⟨before, after, hsplit, hafter⟩, rfl⟩

/-- **A member holds the record pushed last** under its name. -/
theorem mem_mapping_iff {records : Records} {name : String} {value : Value} :
    (name, value) ∈ records.mapping ↔ ∃ before r after,
      records.entries = before ++ (name, r) :: after ∧ name ∉ after.map (·.1) ∧ value = r.json := by
  rw [mapping, ← latest_map, mem_latest_iff, last?_map]
  exact map_json_last?_eq_some_iff

/-- The member of a name. -/
theorem find?_mapping (records : Records) (name : String) :
    Members.find? name records.mapping = (last? name records.entries).map Record.json := by
  rw [mapping, ← latest_map, Members.find?_latest, last?_map]

theorem length_mapping (records : Records) :
    records.mapping.length = (latest records.entries).length := by
  rw [mapping, List.length_map]

end Records

/-- **What a template sees**: the records under their variable, then the revision under its own. -/
theorem manifestContext_of_ne {contextKey : String} (hkey : contextKey ≠ "latest_sha")
    (records : Records) (revision : Revision) :
    manifestContext contextKey records revision
      = .object [(contextKey, .object records.mapping), ("latest_sha", .string revision.text)] := by
  simp [manifestContext, Records.ofList_members, Members.insert, revisionKey, hkey]

/-- Where the two variables are one, the revision wins. -/
theorem manifestContext_revisionKey (records : Records) (revision : Revision) :
    manifestContext "latest_sha" records revision
      = .object [("latest_sha", .string revision.text)] := by
  simp [manifestContext, Members.insert, revisionKey]

namespace Sample

/-! ## Records pushed under one name -/

/-- A record that differs from others in its path. -/
def recordAt (path : String) : Record where
  path := path
  remotePath := "a.bin"
  version := none
  sha256 := Digest.of []
  description := "first"
  url := "https://h/r1/a.bin"
  docUrl := some "https://h/r1/a.html"

def taggedRevision : Revision := ⟨"v1", rfl⟩

/-- A name that is pushed again behind another one. -/
def pushedAgain : List (String × Record) :=
  [("a", recordAt "x"), ("b", recordAt "y"), ("a", recordAt "z")]

end Sample

/-- **Records under a variable** — a template sees two members, the records and the revision.  The
records are an object with one member for each name, in the order of first pushes, which is the record
pushed last with its seven fields in their order, null where a field is absent.  Under the revision's
variable it sees the revision alone. -/
theorem manifestContext_latest_pushes :
    (∀ (contextKey : String) (records : Records) (revision : Revision), contextKey ≠ "latest_sha" →
      ∃ mapping : Members,
        manifestContext contextKey records revision
          = .object [(contextKey, .object mapping), ("latest_sha", .string revision.text)] ∧
        mapping.map (·.1) = records.names.eraseDups ∧
        ∀ name value, (name, value) ∈ mapping ↔ ∃ before r after,
          records.entries = before ++ (name, r) :: after ∧ name ∉ after.map (·.1) ∧
          value = .object
            [("path", .string r.path), ("rpath", .string r.remotePath),
              ("version", r.version.elim .null .string), ("sha256", .string r.sha256.text),
              ("description", .string r.description), ("url", .string r.url),
              ("doc_url", r.docUrl.elim .null .string)]) ∧
    ∀ (records : Records) (revision : Revision),
      manifestContext "latest_sha" records revision
        = .object [("latest_sha", .string revision.text)] := by
  refine ⟨fun contextKey records revision hkey => ?_, manifestContext_revisionKey⟩
  refine ⟨records.mapping, manifestContext_of_ne hkey records revision, records.names_mapping,
    fun name value => ?_⟩
  simp only [Records.mem_mapping_iff, Record.json_eq]

/-- A name that is pushed again keeps its place and has the later record. -/
theorem manifestContext_latest_pushes_sample :
    "blobs" ≠ "latest_sha" ∧ ∃ mapping : Members,
      manifestContext "blobs" (.ofPushes Sample.pushedAgain) Sample.taggedRevision
        = .object [("blobs", .object mapping), ("latest_sha", .string "v1")] ∧
      mapping.map (·.1) = ["a", "b"] ∧ ("a", (Sample.recordAt "z").json) ∈ mapping := by
  have hkey : "blobs" ≠ "latest_sha" := by decide
  obtain ⟨mapping, hcontext, hnames, hmem⟩ := manifestContext_latest_pushes.1 "blobs"
    (.ofPushes Sample.pushedAgain) Sample.taggedRevision hkey
  refine ⟨hkey, mapping, hcontext, hnames.trans (by decide), (hmem _ _).mpr ?_⟩
  exact ⟨[("a", Sample.recordAt "x"), ("b", Sample.recordAt "y")], Sample.recordAt "z", [], rfl,
    List.not_mem_nil, rfl⟩

/-- The records and a mapping are one and the same: a name leads to the same record in both, and there
are as many. -/
structure Records.Same (records : Records) (mapping : Members) : Prop where
  get : ∀ name, Members.find? name mapping = (records.get? name).map Record.json
  size : records.size = mapping.length

/-- **Records are the mapping that a template sees exactly when no name is pushed twice.**  Both know
the same names, but of the records pushed under one the template sees the last, and the other way of
reading finds the first. -/
theorem records_are_mapping_iff {contextKey : String} (hkey : contextKey ≠ "latest_sha")
    (pushes : List (String × Record)) (revision : Revision) :
    ∃ mapping : Members,
      manifestContext contextKey (.ofPushes pushes) revision
        = .object [(contextKey, .object mapping), ("latest_sha", .string revision.text)] ∧
      (∀ name, ((Records.ofPushes pushes).get? name).isSome
        ↔ (Members.find? name mapping).isSome) ∧
      (∀ name r, (Records.ofPushes pushes).get? name = some r ↔ ∃ before after,
        pushes = before ++ (name, r) :: after ∧ name ∉ before.map (·.1)) ∧
      (∀ name value, Members.find? name mapping = some value ↔ ∃ before r after,
        pushes = before ++ (name, r) :: after ∧ name ∉ after.map (·.1) ∧ value = r.json) ∧
      ((Records.ofPushes pushes).Same mapping ↔ (pushes.map (·.1)).Nodup) := by
  have hget (name : String) : (Records.ofPushes pushes).get? name = first? name pushes := by
    rw [Records.get?, Records.entries_ofPushes, first?]
  have hfind (name : String) : Members.find? name (Records.ofPushes pushes).mapping
      = (last? name pushes).map Record.json := by
    rw [Records.find?_mapping, Records.entries_ofPushes]
  refine ⟨(Records.ofPushes pushes).mapping, manifestContext_of_ne hkey _ revision,
    fun name => ?names, fun name r => ?first, fun name value => ?last, fun hsame => ?distinct,
    fun hnodup => ?same⟩
  case names =>
    rw [hget, hfind, Option.isSome_map, isSome_first?_iff]
    refine ⟨isSome_last?, fun h => ?_⟩
    obtain ⟨r, hr⟩ := Option.isSome_iff_exists.mp h
    obtain ⟨before, after, rfl, -⟩ := last?_eq_some_iff.mp hr
    simp
  case first => rw [hget, first?_eq_some_iff]
  case last =>
    rw [hfind]
    exact Records.map_json_last?_eq_some_iff
  case distinct =>
    have hsize := hsame.size
    rw [Records.length_mapping, Records.size, Records.entries_ofPushes] at hsize
    exact length_latest_eq_iff.mp hsize.symm
  case same =>
    refine ⟨fun name => ?_, ?_⟩
    · rw [hfind, hget, first?_eq_last?_of_nodup hnodup]
    · rw [Records.length_mapping, Records.size, Records.entries_ofPushes]
      exact (length_latest_eq_iff.mpr hnodup).symm

/-- Two records under two names. -/
theorem records_are_mapping_iff_sample :
    "blobs" ≠ "latest_sha" ∧ ∃ mapping : Members,
      manifestContext "blobs" (.ofPushes [("a", Sample.recordAt "x"), ("b", Sample.recordAt "y")])
          Sample.taggedRevision
        = .object [("blobs", .object mapping), ("latest_sha", .string "v1")] ∧
      (Records.ofPushes [("a", Sample.recordAt "x"), ("b", Sample.recordAt "y")]).Same mapping := by
  have hkey : "blobs" ≠ "latest_sha" := by decide
  obtain ⟨mapping, hcontext, -, -, -, hsame⟩ := records_are_mapping_iff hkey
    [("a", Sample.recordAt "x"), ("b", Sample.recordAt "y")] Sample.taggedRevision
  exact ⟨hkey, mapping, hcontext, hsame.mpr (by decide)⟩

/-- **A repeated name is read in two ways** — the record found under it is the first one, the template
sees the second, and one of the two records counted is missing from what it sees. -/
theorem repeated_name_read_twice :
    ∃ mapping : Members,
      manifestContext "blobs" (.ofPushes [("a", Sample.recordAt "x"), ("a", Sample.recordAt "y")])
          Sample.taggedRevision
        = .object [("blobs", .object mapping), ("latest_sha", .string "v1")] ∧
      (Records.ofPushes [("a", Sample.recordAt "x"), ("a", Sample.recordAt "y")]).get? "a"
        = some (Sample.recordAt "x") ∧
      Members.find? "a" mapping = some (Sample.recordAt "y").json ∧
      (Sample.recordAt "y").json ≠ (Sample.recordAt "x").json ∧
      (Records.ofPushes [("a", Sample.recordAt "x"), ("a", Sample.recordAt "y")]).size = 2 ∧
      mapping.length = 1 := by
  refine ⟨[("a", (Sample.recordAt "y").json)], rfl, rfl, rfl, ?_, rfl, rfl⟩
  simp [Record.json, Record.members, Sample.recordAt]

end PinnedManifest
