import Mathlib
import PinnedManifest.ManifestTemplate.Shipped
import PinnedManifest.Proofs.Record.Mapping
import PinnedManifest.Proofs.Template.Writing

/-!
# Proofs/ManifestTemplate/Shipped — what the shipped templates make of records

Both templates have one shape: the revision between two texts, then a block for each record, whose
fields stand between fixed texts.  A template of that shape writes a block for every name, where it was
first pushed, about the record pushed last (`render_shape`), whatever the fields of the records hold.
-/

namespace PinnedManifest.ManifestTemplate

open Template

/-! ## The shape -/

/-- A field of the record in focus, at a place, and the text in front of it. -/
structure Slot where
  text : String
  line : Nat
  column : Nat
  field : String

/-- A tag that shows a member of what is in focus. -/
def memberTag (line column : Nat) (source name : String) : Element :=
  .value ⟨line, column⟩ (.path ⟨source, false, false, 0, [name]⟩)

/-- The elements of a block: its slots and the text behind them. -/
def blockBody (last : String) : List Slot → Body
  | [] => [.text last]
  | slot :: slots =>
    .text slot.text :: memberTag slot.line slot.column ("this." ++ slot.field) slot.field
      :: blockBody last slots

/-- The revision between two texts, at a column of the first line, and a block for each record under a
key, with its opening tag at the start of the fourth line. -/
def shape (before : String) (column : Nat) (after key : String) (slots : List Slot) (last : String) :
    Body :=
  [.text before, memberTag 1 column revisionKey revisionKey, .text after,
    .block (some ⟨4, 1⟩) true ⟨"each", [.positional (.path ⟨key, false, false, 0, [key]⟩)]⟩ []
      (blockBody last slots) none,
    .text ""]

/-- A field of a record as it is shown. -/
def fieldText (r : Record) (name : String) : String :=
  shown ((Json.Members.find? name r.members).getD .null)

/-- The text of a block about a record. -/
def blockText (last : String) (r : Record) : List Slot → String
  | [] => last
  | slot :: slots => slot.text ++ (fieldText r slot.field ++ blockText last r slots)

/-! ## The text of the shape -/

section Writing

variable {expand : Expand} {s : Setting}

/-- A member is shown as its value, nothing when there is none. -/
theorem writes_memberTag {members : Json.Members} {source name out : String}
    (hs : s.indent = "") (hscope : s.scope.Unaliased) (hfocus : s.scope.inner.focus = .object members)
    (hname : Helper.ofName? source = none)
    (hout : shown ((Json.Members.find? name members).getD .null) = out) (line column : Nat) :
    (memberTag line column source name).Writes expand s out := by
  rw [← hout]
  exact .value hs hname (hscope.find hfocus source name) _

/-- **A block about a record** has the record's fields in its slots, character for character. -/
theorem writes_blockBody {r : Record} (hs : s.indent = "") (hscope : s.scope.Unaliased)
    (hfocus : s.scope.inner.focus = r.json) (last : String) :
    ∀ {slots : List Slot}, (∀ slot ∈ slots, Helper.ofName? ("this." ++ slot.field) = none) →
      Body.Writes expand s (blockBody last slots) (blockText last r slots)
  | [], _ => by
      have hlast : Body.Writes expand s [.text last] (last ++ "") := .cons (.text hs last) .nil
      rwa [String.append_empty] at hlast
  | slot :: slots, hslots => by
      have hslot := hslots slot List.mem_cons_self
      have hrest := writes_blockBody hs hscope hfocus last fun slot' hmem =>
        hslots slot' (List.mem_cons_of_mem _ hmem)
      exact .cons (.text hs slot.text)
        (.cons (writes_memberTag hs hscope hfocus hslot rfl slot.line slot.column) hrest)

end Writing

/-- **A template of the shape** has the revision in its place, and one block for each name that was
pushed, in the order of first pushes, about the record pushed last under that name. -/
theorem render_shape {before after key last : String} {column : Nat} {slots : List Slot}
    (hkey : revisionKey ≠ key) (hslots : ∀ slot ∈ slots, Helper.ofName? ("this." ++ slot.field) = none)
    (path : String) (records : Records) (revision : Revision) :
    render ⟨path, shape before column after key slots last⟩ (manifestContext key records revision)
      = .ok (before ++ revision.text ++ after
          ++ String.join ((Json.latest records.entries).map fun entry =>
            blockText last entry.2 slots)) := by
  have hscope := Scope.Unaliased.ofRoot (manifestContext key records revision)
  have hrevision : shown ((Json.Members.find? revisionKey
      (Json.Members.insert revisionKey (.string revision.text)
        (Json.Members.insert key (.object (Json.Members.ofList records.members)) []))).getD .null)
      = revision.text := by
    rw [Json.Members.find?_insert, if_pos rfl]
    rfl
  have hwrites (expand : Expand) : Body.Writes expand
      (.start path (shape before column after key slots last) (manifestContext key records revision))
      (shape before column after key slots last)
      (before ++ (revision.text ++ (after ++ (String.join ((Json.latest records.entries).map
        fun entry => blockText last entry.2 slots) ++ ("" ++ ""))))) := by
    have hpath := hscope.find rfl key key
    rw [Json.Members.find?_insert, if_neg hkey, Json.Members.find?_insert, if_pos rfl,
      Records.ofList_members, Records.mapping] at hpath
    refine .cons (.text rfl before) (.cons (writes_memberTag rfl hscope rfl rfl hrevision 1 column)
      (.cons (.text rfl after) (.cons (.each Record.json (blockText last · slots) hpath
        (fun _ r haliases hfocus => ?_) _ _) (.cons (.text rfl "") .nil))))
    exact writes_blockBody rfl (hscope.push haliases) hfocus last hslots
  rw [render, render_of_writes hwrites]
  simp [String.append_assoc]

/-! ## The texts -/

/-- The text of some lines. -/
def lines (texts : List String) : String := String.join (texts.map (· ++ "\n"))

/-- A manifest: three lines at the top, then a block for each record. -/
def manifestText (command project : String) (block : Record → String) (revision : Revision)
    (records : List Record) : String :=
  lines
      ["# Generated by " ++ command ++ " at revision " ++ revision.text ++ ". Do not edit.",
        "name: " ++ project,
        "blobs:"]
    ++ String.join (records.map block)

/-- The eight lines about a signed blob. -/
def blobsBlock (r : Record) : String :=
  lines
    ["  - path: " ++ r.path,
      "    sha256: " ++ r.sha256.text,
      "    type: img",
      "    version: '" ++ r.version.getD "" ++ "'",
      "    license-path: LICENSE",
      "    url: " ++ r.url,
      "    description: \"" ++ r.description ++ "\"",
      "    doc-url: " ++ r.docUrl.getD ""]

/-- The eight lines about a firmware variant. -/
def wifiFirmwareBlock (r : Record) : String :=
  lines
    ["  - path: " ++ r.path,
      "    sha256: " ++ r.sha256.text,
      "    type: img",
      "    version: '1.0.0'",
      "    license-path: LICENSE",
      "    url: " ++ r.url,
      "    description: \"nRF70 Wi-Fi firmware (" ++ r.description ++ ")\"",
      "    doc-url: https://docs.nordicsemi.com/bundle/ncs-latest/page/nrf/drivers/wifi/nrf70_native.html"]

/-- The slots of the block about a signed blob. -/
def blobsSlots : List Slot :=
  [⟨"  - path: ", 5, 11, "path"⟩, ⟨"\n    sha256: ", 6, 13, "sha256"⟩,
    ⟨"\n    type: img\n    version: '", 8, 15, "version"⟩,
    ⟨"'\n    license-path: LICENSE\n    url: ", 10, 10, "url"⟩,
    ⟨"\n    description: \"", 11, 19, "description"⟩, ⟨"\"\n    doc-url: ", 12, 14, "doc_url"⟩]

/-- The slots of the block about a firmware variant. -/
def wifiFirmwareSlots : List Slot :=
  [⟨"  - path: ", 5, 11, "path"⟩, ⟨"\n    sha256: ", 6, 13, "sha256"⟩,
    ⟨"\n    type: img\n    version: '1.0.0'\n    license-path: LICENSE\n    url: ", 10, 10, "url"⟩,
    ⟨"\n    description: \"nRF70 Wi-Fi firmware (", 11, 41, "description"⟩]

/-- The text behind the last slot of the block about a firmware variant. -/
def wifiFirmwareLast : String :=
  ")\"\n    doc-url: https://docs.nordicsemi.com/bundle/ncs-latest/page/nrf/drivers/wifi/nrf70_native.html\n"

theorem shown_optional (text : Option String) : shown (Record.optional text) = text.getD "" := by
  cases text <;> simp [Record.optional, shown]

theorem blockText_blobsSlots (r : Record) : blockText "\n" r blobsSlots = blobsBlock r := by
  simp only [blockText, blobsSlots, blobsBlock, lines, ← String.toList_inj]
  simp [fieldText, Record.members, Json.Members.find?, shown, shown_optional]

theorem blockText_wifiFirmwareSlots (r : Record) :
    blockText wifiFirmwareLast r wifiFirmwareSlots = wifiFirmwareBlock r := by
  simp only [blockText, wifiFirmwareSlots, wifiFirmwareBlock, wifiFirmwareLast, lines,
    ← String.toList_inj]
  simp [fieldText, Record.members, Json.Members.find?, shown]

/-! ## The templates -/

set_option maxRecDepth 100000 in
/-- The template for the signed blobs has the shape. -/
theorem ofSource_blobsSource (path : String) :
    ofSource path blobsSource
      = .ok ⟨path, shape "# Generated by update-blobs at revision " 41
          ". Do not edit.\nname: nrfxlib\nblobs:\n" "blobs" blobsSlots "\n"⟩ := by
  have hbody : Template.ofSource blobsSource
      = .ok (shape "# Generated by update-blobs at revision " 41
          ". Do not edit.\nname: nrfxlib\nblobs:\n" "blobs" blobsSlots "\n") := by
    -- one literal after the other: taking the whole source apart at once is slow
    delta blobsSource
    rw [Template.ofSource]
    simp only [String.toList_append]
    cbv
  rw [ofSource, hbody]

set_option maxRecDepth 100000 in
/-- The template for the Wi-Fi firmware has the shape. -/
theorem ofSource_wifiFirmwareSource (path : String) :
    ofSource path wifiFirmwareSource
      = .ok ⟨path, shape "# Generated by update-wifi-fw at revision " 43
          ". Do not edit.\nname: nrf_wifi\nblobs:\n" "firmwares" wifiFirmwareSlots
          wifiFirmwareLast⟩ := by
  have hbody : Template.ofSource wifiFirmwareSource
      = .ok (shape "# Generated by update-wifi-fw at revision " 43
          ". Do not edit.\nname: nrf_wifi\nblobs:\n" "firmwares" wifiFirmwareSlots
          wifiFirmwareLast) := by
    delta wifiFirmwareSource
    rw [Template.ofSource]
    simp only [String.toList_append]
    cbv
  rw [ofSource, hbody]

/-- **The shipped templates are complete, ordered and verbatim** — each is a template, and over any
records its text is three lines with the revision, then for every name, in the order of first pushes,
one block with the fields of the record pushed last. -/
theorem shipped_templates_render :
    (∀ (path : String) (records : Records) (revision : Revision), ∃ t,
      ofSource path blobsSource = .ok t ∧
      t.render (manifestContext "blobs" records revision)
        = .ok (manifestText "update-blobs" "nrfxlib" blobsBlock revision
            ((Json.latest records.entries).map (·.2)))) ∧
    ∀ (path : String) (records : Records) (revision : Revision), ∃ t,
      ofSource path wifiFirmwareSource = .ok t ∧
      t.render (manifestContext "firmwares" records revision)
        = .ok (manifestText "update-wifi-fw" "nrf_wifi" wifiFirmwareBlock revision
            ((Json.latest records.entries).map (·.2))) := by
  refine ⟨fun path records revision => ⟨_, ofSource_blobsSource path, ?blobs⟩,
    fun path records revision => ⟨_, ofSource_wifiFirmwareSource path, ?wifiFirmware⟩⟩
  case blobs =>
    rw [render_shape (by decide) (by decide)]
    simp only [blockText_blobsSlots, manifestText, lines, List.map_map, Except.ok.injEq,
      ← String.toList_inj]
    simp [Function.comp_def]
  case wifiFirmware =>
    rw [render_shape (by decide) (by decide)]
    simp only [blockText_wifiFirmwareSlots, manifestText, lines, List.map_map, Except.ok.injEq,
      ← String.toList_inj]
    simp [Function.comp_def]

end PinnedManifest.ManifestTemplate
