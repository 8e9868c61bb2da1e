import PinnedManifest.Proofs.Json.ReadBack
import PinnedManifest.Proofs.Record.Mapping

/-!
# Proofs/Record/Text — the text of records says all that they hold

The compact text of records holds an object with a member for each push, repeated names included, and
reads back as that object.  As the members of a record tell its fields apart, and null an absent field
from an empty one, records are equal exactly when their texts are (`records_text_faithful`).
-/

namespace PinnedManifest

open Json

namespace Record

theorem numberless_optional (depth : Nat) (text : Option String) :
    (optional text).Numberless depth := by
  cases text with
  | none => exact .null
  | some s => exact .string s

/-- A record is an object without containers in it. -/
theorem numberless_json (r : Record) (depth : Nat) : r.json.Numberless (depth + 1) := by
  refine .object fun m hm => ?_
  simp only [members, List.mem_cons, List.not_mem_nil, or_false] at hm
  rcases hm with rfl | rfl | rfl | rfl | rfl | rfl | rfl
  all_goals first | exact .string _ | exact numberless_optional _ _

/-- Absent, empty and other texts are told apart. -/
theorem optional_injective {text text' : Option String} (h : optional text = optional text') :
    text = text' := by
  cases text <;> cases text' <;> cases h <;> rfl

/-- **A record's members say all that it holds.** -/
theorem json_injective {r r' : Record} (h : r.json = r'.json) : r = r' := by
  have hmembers := Value.object.inj h
  simp only [members, List.cons.injEq, Prod.mk.injEq, Value.string.injEq, true_and, and_true]
    at hmembers
  obtain ⟨hpath, hremote, hversion, hdigest, hdescription, hurl, hdoc⟩ := hmembers
  have hversion := optional_injective hversion
  have hdoc := optional_injective hdoc
  have hdigest := Digest.text_injective hdigest
  cases r
  cases r'
  simp_all

end Record

namespace Records

/-- **The text of records reads back** as one member for each push, in order. -/
theorem read?_text (records : Records) : read? records.text = some (.object records.members) := by
  refine Json.read?_text (.object fun m hm => ?_)
  obtain ⟨entry, -, rfl⟩ := List.mem_map.mp hm
  exact entry.2.numberless_json _

/-- **Records with one text are one.** -/
theorem text_injective {records records' : Records} (h : records.text = records'.text) :
    records = records' := by
  have hread := records.read?_text
  rw [h, records'.read?_text, Option.some.injEq, Value.object.injEq] at hread
  have hentry : Function.Injective fun entry : String × Record => (entry.1, entry.2.json) := by
    rintro ⟨name, r⟩ ⟨name', r'⟩ heq
    obtain ⟨hname, hjson⟩ := Prod.mk.inj heq
    rw [Prod.mk.injEq]
    exact ⟨hname, Record.json_injective hjson⟩
  have hentries := hentry.list_map hread
  cases records
  cases records'
  cases hentries
  rfl

end Records

/-- **The text of records is faithful** — a reader that keeps members in their order, repeated names and
all, gets back the pushes, in order, each record with its seven fields in theirs, null where a field is
absent; and records have the same text exactly when they are equal. -/
theorem records_text_faithful :
    (∀ pushes : List (String × Record), read? (Records.ofPushes pushes).text
      = some (.object (pushes.map fun push => (push.1, .object
        [("path", .string push.2.path), ("rpath", .string push.2.remotePath),
          ("version", push.2.version.elim .null .string), ("sha256", .string push.2.sha256.text),
          ("description", .string push.2.description), ("url", .string push.2.url),
          ("doc_url", push.2.docUrl.elim .null .string)])))) ∧
    ∀ records records' : Records, records.text = records'.text ↔ records = records' := by
  refine ⟨fun pushes => ?_, fun records records' => ⟨Records.text_injective, congrArg Records.text⟩⟩
  rw [Records.read?_text, Records.members, Records.entries_ofPushes]
  simp only [Record.json_eq]

end PinnedManifest
