import Mathlib.Data.List.Infix
import Mathlib.Data.List.TakeWhile
import PinnedManifest.Proofs.PinnedUrls.Joining
import PinnedManifest.Proofs.Revision.Rules
import PinnedManifest.Proofs.Text.Pieces

/-!
# Proofs/PinnedUrls/Segments — what a revision brings into an address

An address is its parts with slashes between them (`joined`).  Whatever lacks slashes, be it two full
stops or a single character, stands in an address only where it stands in a part, and of the parts the
revision has none of what its rules forbid (`infix_artifact_iff`).  So pinning adds neither a traversal
nor a blank, and its segments are those of its parts in their order (`pinning_adds_no_hazard`).
-/

namespace PinnedManifest

/-! ## Parts of an address -/

/-- The segments of an address: what stands between slashes. -/
def segments (text : String) : List (List Char) := Text.split '/' text.toList

/-- Two full stops stand side by side in a text. -/
def HasDoubleDot (text : String) : Prop := ['.', '.'] <:+: text.toList

instance (text : String) : Decidable (HasDoubleDot text) :=
  inferInstanceAs (Decidable (['.', '.'] <:+: text.toList))

/-- Parts with a slash between them. -/
def joined (parts : List String) : String := String.ofList (Text.join '/' (parts.map String.toList))

section Joined

variable {parts : List String}

/-- **What lacks slashes** stands in joined parts exactly when it stands in one of them. -/
theorem infix_joined_iff {pattern : List Char} (h : '/' ∉ pattern) (hne : parts ≠ []) :
    pattern <:+: (joined parts).toList ↔ ∃ part ∈ parts, pattern <:+: part.toList := by
  rw [joined, String.toList_ofList, Text.infix_join_iff h (by simpa using hne)]
  simp only [List.mem_map, exists_exists_and_eq_and]

/-- **The segments of joined parts** are those of each part, in their order. -/
theorem segments_joined (hne : parts ≠ []) : segments (joined parts) = parts.flatMap segments := by
  rw [segments, joined, String.toList_ofList, Text.split_join_eq_flatMap '/' (by simpa using hne),
    List.flatMap_map]
  rfl

end Joined

/-! ## Slashes at the ends -/

/-- What is left of a text lost slashes at its ends only. -/
theorem exists_eq_slashes_append (s : String) :
    ∃ m n, s = slashes m ++ withoutEdgeSlashes s ++ slashes n := by
  have hstart : ∀ c ∈ s.toList.takeWhile (· == '/'), (c == '/') = true := fun c hc =>
    List.mem_takeWhile_imp (p := (· == '/')) hc
  obtain ⟨m, hm⟩ := exists_slashes hstart
  obtain ⟨run, hrun, hslash⟩ := Text.exists_dropEnd_append (· == '/') (s.toList.dropWhile (· == '/'))
  obtain ⟨n, hn⟩ := exists_slashes hslash
  refine ⟨m, n, ?_⟩
  rw [← hm, ← hn, withoutEdgeSlashes, Text.dropEnds, ← String.ofList_append, ← String.ofList_append,
    List.append_assoc, ← hrun, List.takeWhile_append_dropWhile, String.ofList_toList]

/-- A character that is no slash is not lost with the slashes at the ends. -/
theorem mem_withoutEdgeSlashes_iff {c : Char} (hc : c ≠ '/') (s : String) :
    c ∈ (withoutEdgeSlashes s).toList ↔ c ∈ s.toList := by
  obtain ⟨m, n, hs⟩ := exists_eq_slashes_append s
  have hslashes (k : Nat) : c ∉ (slashes k).toList := fun h =>
    hc (beq_iff_eq.mp (isSlash_of_mem_slashes h))
  conv_rhs => rw [hs]
  simp [hslashes]

theorem mem_withoutFinalSlashes_iff {c : Char} (hc : c ≠ '/') (s : String) :
    c ∈ (withoutFinalSlashes s).toList ↔ c ∈ s.toList := by
  obtain ⟨n, hs⟩ := exists_eq_append_slashes s
  have hslashes : c ∉ (slashes n).toList := fun h => hc (beq_iff_eq.mp (isSlash_of_mem_slashes h))
  conv_rhs => rw [hs]
  simp [hslashes]

namespace PinnedUrls

variable {base remoteDir path : String} {revision : Revision} {pattern : List Char}

/-! ## The parts of a pinned address -/

/-- The remote directory as a part, if anything remains of it. -/
def dirParts (remoteDir : String) : List String :=
  if (withoutEdgeSlashes remoteDir).isEmpty then [] else [withoutEdgeSlashes remoteDir]

theorem artifact_eq_joined : (ofBase base revision).artifact remoteDir path
    = joined (withoutFinalSlashes base :: revision.text :: (dirParts remoteDir ++ [path])) := by
  rw [← String.toList_inj, artifact, ofBase, dirParts]
  by_cases hdir : (withoutEdgeSlashes remoteDir).isEmpty = true <;>
    simp [hdir, joined, Text.join]

theorem doc_eq_joined : (ofBase base revision).doc path
    = joined [withoutFinalSlashes base, revision.text, path] := by
  rw [← String.toList_inj, doc, ofBase]
  simp [joined, Text.join]

/-- **What lacks slashes and is not in the revision** stands in an artefact's address exactly when it
stands in the base, the remote directory or the path. -/
theorem infix_artifact_iff (hslash : '/' ∉ pattern) (hne : pattern ≠ [])
    (hrevision : ¬pattern <:+: revision.text.toList) :
    pattern <:+: ((ofBase base revision).artifact remoteDir path).toList ↔
      pattern <:+: (withoutFinalSlashes base).toList ∨
        pattern <:+: (withoutEdgeSlashes remoteDir).toList ∨ pattern <:+: path.toList := by
  have hdir : (∃ part ∈ dirParts remoteDir, pattern <:+: part.toList) ↔
      pattern <:+: (withoutEdgeSlashes remoteDir).toList := by
    rw [dirParts]
    split
    next hempty => simp [String.isEmpty_iff.mp hempty, hne]
    next => simp
  rw [artifact_eq_joined, infix_joined_iff hslash (List.cons_ne_nil _ _)]
  simp only [List.mem_cons, List.mem_append, List.not_mem_nil, or_false, or_and_right, exists_or,
    exists_eq_left, hdir, hrevision, false_or]

theorem infix_doc_iff (hslash : '/' ∉ pattern) (hrevision : ¬pattern <:+: revision.text.toList) :
    pattern <:+: ((ofBase base revision).doc path).toList ↔
      pattern <:+: (withoutFinalSlashes base).toList ∨ pattern <:+: path.toList := by
  rw [doc_eq_joined, infix_joined_iff hslash (List.cons_ne_nil _ _)]
  simp [hrevision]

/-! ## Characters of an address -/

/-- What a revision forbids is no slash. -/
theorem ne_slash_of_forbids {c : Char} (h : Revision.forbids c = true) : c ≠ '/' := by
  rintro rfl
  exact absurd h (by decide)

/-- A character that a revision forbids is not in one, as a pattern of its own. -/
theorem not_infix_of_forbids {c : Char} (h : Revision.forbids c = true) (revision : Revision) :
    ¬[c] <:+: revision.text.toList := by
  rw [List.singleton_infix_iff]
  intro hmem
  rw [revision.rules.plain c hmem] at h
  cases h

/-- **A blank or control character** is in an artefact's address exactly when it is in the base, the
remote directory or the path. -/
theorem mem_artifact_iff {c : Char} (h : Revision.forbids c = true) :
    c ∈ ((ofBase base revision).artifact remoteDir path).toList ↔
      c ∈ base.toList ∨ c ∈ remoteDir.toList ∨ c ∈ path.toList := by
  have hc := ne_slash_of_forbids h
  have hslash : '/' ∉ [c] := by simpa using hc.symm
  have hinfix : [c] <:+: ((ofBase base revision).artifact remoteDir path).toList ↔
      [c] <:+: (withoutFinalSlashes base).toList ∨ [c] <:+: (withoutEdgeSlashes remoteDir).toList ∨
        [c] <:+: path.toList :=
    infix_artifact_iff hslash (List.cons_ne_nil c []) (not_infix_of_forbids h revision)
  simpa only [List.singleton_infix_iff, mem_withoutFinalSlashes_iff hc, mem_withoutEdgeSlashes_iff hc]
    using hinfix

theorem mem_doc_iff {c : Char} (h : Revision.forbids c = true) :
    c ∈ ((ofBase base revision).doc path).toList ↔ c ∈ base.toList ∨ c ∈ path.toList := by
  have hc := ne_slash_of_forbids h
  have hslash : '/' ∉ [c] := by simpa using hc.symm
  have hinfix : [c] <:+: ((ofBase base revision).doc path).toList ↔
      [c] <:+: (withoutFinalSlashes base).toList ∨ [c] <:+: path.toList :=
    infix_doc_iff hslash (not_infix_of_forbids h revision)
  simpa only [List.singleton_infix_iff, mem_withoutFinalSlashes_iff hc] using hinfix

end PinnedUrls

/-- The characters that end a line: the four of ASCII, next line, and the two separators. -/
def Text.lineBreaks : List Char :=
  ['\n', '\x0b', '\x0c', '\r', Char.ofNat 0x85, Char.ofNat 0x2028, Char.ofNat 0x2029]

/-- **Pinning adds no hazard to an address**, whatever the revision.

* Two full stops stand side by side in it only where they do in what it is made of.
* A character that is white space or a control character, a line break among them, is in it only where it
  is in the base, the remote directory or the path.
* Its segments are those of the base, then those of the revision, the first and the last of which are not
  empty, then those of the remote directory, none when nothing remains of it, and those of the path. -/
theorem pinning_adds_no_hazard (base : String) (revision : Revision) (remoteDir path : String) :
    ((HasDoubleDot ((PinnedUrls.ofBase base revision).artifact remoteDir path) ↔
        HasDoubleDot (withoutFinalSlashes base) ∨ HasDoubleDot (withoutEdgeSlashes remoteDir) ∨
          HasDoubleDot path) ∧
      (HasDoubleDot ((PinnedUrls.ofBase base revision).doc path) ↔
        HasDoubleDot (withoutFinalSlashes base) ∨ HasDoubleDot path)) ∧
    (∀ c, Text.isWhite c = true ∨ Text.isControl c = true ∨ c ∈ Text.lineBreaks →
      (c ∈ ((PinnedUrls.ofBase base revision).artifact remoteDir path).toList ↔
        c ∈ base.toList ∨ c ∈ remoteDir.toList ∨ c ∈ path.toList) ∧
      (c ∈ ((PinnedUrls.ofBase base revision).doc path).toList ↔
        c ∈ base.toList ∨ c ∈ path.toList)) ∧
    segments ((PinnedUrls.ofBase base revision).artifact remoteDir path)
      = segments (withoutFinalSlashes base) ++ segments revision.text
        ++ (if withoutEdgeSlashes remoteDir = "" then [] else segments (withoutEdgeSlashes remoteDir))
        ++ segments path ∧
    segments ((PinnedUrls.ofBase base revision).doc path)
      = segments (withoutFinalSlashes base) ++ segments revision.text ++ segments path ∧
    ∃ first last, (segments revision.text).head? = some first ∧ first ≠ [] ∧
      (segments revision.text).getLast? = some last ∧ last ≠ [] := by
  have hslash : '/' ∉ ['.', '.'] := by decide
  refine ⟨⟨?artifactDots, ?docDots⟩, fun c hc => ?characters, ?artifactSegments, ?docSegments, ?ends⟩
  case artifactDots =>
    exact PinnedUrls.infix_artifact_iff hslash (List.cons_ne_nil _ _) revision.rules.dots
  case docDots => exact PinnedUrls.infix_doc_iff hslash revision.rules.dots
  case characters =>
    have hforbids : Revision.forbids c = true := by
      rw [Revision.forbids, Bool.or_eq_true]
      rcases hc with hwhite | hcontrol | hbreak
      · exact .inl hwhite
      · exact .inr hcontrol
      · exact .inl (List.all_eq_true.mp (by decide : Text.lineBreaks.all Text.isWhite = true) c hbreak)
    exact ⟨PinnedUrls.mem_artifact_iff hforbids, PinnedUrls.mem_doc_iff hforbids⟩
  case artifactSegments =>
    have hdir : (PinnedUrls.dirParts remoteDir).flatMap segments
        = if withoutEdgeSlashes remoteDir = "" then []
          else segments (withoutEdgeSlashes remoteDir) := by
      rw [PinnedUrls.dirParts]
      by_cases hempty : withoutEdgeSlashes remoteDir = "" <;> simp [hempty]
    rw [PinnedUrls.artifact_eq_joined, segments_joined (List.cons_ne_nil _ _)]
    simp only [List.flatMap_cons, List.flatMap_append, List.flatMap_nil, List.append_nil, hdir,
      List.append_assoc]
  case docSegments =>
    rw [PinnedUrls.doc_eq_joined, segments_joined (List.cons_ne_nil _ _)]
    simp only [List.flatMap_cons, List.flatMap_nil, List.append_nil, List.append_assoc]
  case ends =>
    obtain ⟨first, hfirst, hfirst'⟩ :=
      Text.exists_head?_split revision.rules.nonempty revision.rules.start
    obtain ⟨last, hlast, hlast'⟩ :=
      Text.exists_getLast?_split revision.rules.nonempty revision.rules.finish
    exact ⟨first, last, hfirst, hfirst', hlast, hlast'⟩

/-- A branch name of two segments, below a base and a remote directory with slashes at their ends. -/
theorem pinning_adds_no_hazard_sample :
    Char.ofNat 0x2028 ∈ Text.lineBreaks ∧
      Char.ofNat 0x2028 ∉
        ((PinnedUrls.ofBase "https://h//" ⟨"v1/x", rfl⟩).artifact "//lib/" "a.bin").toList ∧
      HasDoubleDot ((PinnedUrls.ofBase "https://h//" ⟨"v1/x", rfl⟩).artifact "//lib/" "../a.bin") ∧
      segments ((PinnedUrls.ofBase "https://h//" ⟨"v1/x", rfl⟩).artifact "//lib/" "a.bin")
        = ["https:", "", "h", "v1", "x", "lib", "a.bin"].map String.toList := by
  have hbreak : Char.ofNat 0x2028 ∈ Text.lineBreaks := by decide
  obtain ⟨-, hcharacters, hsegments, -⟩ :=
    pinning_adds_no_hazard "https://h//" ⟨"v1/x", rfl⟩ "//lib/" "a.bin"
  obtain ⟨⟨hdots, -⟩, -⟩ := pinning_adds_no_hazard "https://h//" ⟨"v1/x", rfl⟩ "//lib/" "../a.bin"
  refine ⟨hbreak, ?_, hdots.mpr (by decide), hsegments.trans (by decide)⟩
  rw [(hcharacters _ (.inr (.inr hbreak))).1]
  decide

end PinnedManifest
