import PinnedManifest.Proofs.Template.Respelling.Forms

/-!
# Proofs/Template/Respelling/Tags — whole tags in front of respelled ones

A tag starts with two braces and ends with two (`endsBefore_of_readTag`).  One that is kept is read as
the same tag, whatever braces are respelled behind it (`readTag_kept`): a comment ends where it ended,
and any other form is read to the end of the kept text in both spellings.
-/

namespace PinnedManifest.Template.Respelling

open Json (isBlank skipBlanks)

variable {α β : Type} {k : Nat} {s t u : List Stroke} {c : Char} {cs rest : List Char}

/-! ## Marks that trim -/

theorem exists_takeTrim (s : List Stroke) : ∃ trim u, u <:+ s ∧
    takeTrim (before s) = (trim, before u) ∧ takeTrim (after s) = (trim, after u) := by
  rw [takeTrim, takeTrim]
  obtain ⟨hbefore, hafter⟩ | ⟨v, hv, -, hbefore, hafter⟩ := leads_mark? (c := '~') rfl s
  · exact ⟨false, afterBlanks s, afterBlanks_suffix s, by simp [hbefore], by simp [hafter]⟩
  · exact ⟨true, afterBlanks v, (afterBlanks_suffix v).trans hv, by simp [hbefore], by simp [hafter]⟩

/-! ## Comments -/

theorem exists_of_skipPast {text : List Char} : ∀ {cs : List Char}, skipPast text cs = some rest →
    ∃ front, cs = front ++ (text ++ rest)
  | [], h => ⟨[], (after?_eq_some_iff.mp h : [] = text ++ rest)⟩
  | c :: cs, h => by
      rw [skipPast] at h
      split at h
      next left hleft =>
        obtain rfl := Option.some.inj h
        exact ⟨[], (after?_eq_some_iff.mp hleft : c :: cs = text ++ left)⟩
      next =>
        obtain ⟨front, rfl⟩ := exists_of_skipPast h
        exact ⟨c :: front, rfl⟩

theorem length_of_skipPast {text : List Char} (h : skipPast text cs = some rest) :
    rest.length + text.length ≤ cs.length := by
  obtain ⟨front, rfl⟩ := exists_of_skipPast h
  simp
  omega

/-- **A text that stands somewhere is found there**, whatever follows it. -/
theorem skipPast_append {text : List Char} (hne : text ≠ []) (rest' : List Char) :
    ∀ {front : List Char}, skipPast text (front ++ rest) = some rest →
      skipPast text (front ++ rest') = some rest'
  | [], h => by
      have hpos := List.length_pos_iff.mpr hne
      have hlength := length_of_skipPast h
      rw [List.nil_append] at hlength
      omega
  | c :: front, h => by
      rw [List.cons_append, skipPast] at h ⊢
      split at h
      next left hleft =>
        obtain rfl := Option.some.inj h
        have hfront : c :: front = text := List.append_cancel_right (after?_eq_some_iff.mp hleft)
        rw [after?_eq_some_iff.mpr (show c :: (front ++ rest') = text ++ rest' by rw [← hfront]; rfl)]
      next hnone =>
        have hlength := length_of_skipPast h
        rw [List.length_append] at hlength
        cases hleft : Json.after? text (c :: (front ++ rest')) with
        | none => exact skipPast_append hne rest' h
        | some left =>
          have htext : text <+: c :: front := by
            refine List.prefix_of_prefix_length_le ⟨left, (after?_eq_some_iff.mp hleft).symm⟩
              (List.prefix_append (c :: front) rest') ?_
            rw [List.length_cons]
            omega
          obtain ⟨more, hmore⟩ := htext
          have hsome : Json.after? text (c :: (front ++ rest)) = some (more ++ rest) :=
            after?_eq_some_iff.mpr (by rw [← List.append_assoc, hmore]; rfl)
          rw [hnone] at hsome
          cases hsome

/-- The end of a long comment. -/
def commentEnd : List Char := ['-', '-', '}', '}']

theorem skipPast_pass : ∀ (front cs : List Char), '-' ∉ front →
    skipPast commentEnd (front ++ cs) = skipPast commentEnd cs
  | [], _, _ => rfl
  | c :: front, cs, h => by
      have hc : '-' ≠ c := fun heq => h (heq ▸ List.mem_cons_self)
      have hnone : Json.after? commentEnd (c :: (front ++ cs)) = none := by
        simp [commentEnd, Json.after?, hc]
      rw [List.cons_append, skipPast, hnone]
      exact skipPast_pass front cs fun hmem => h (List.mem_cons_of_mem c hmem)

theorem isSome_after?_commentEnd (s : List Stroke) : (Json.after? commentEnd ('-' :: after s)).isSome =
    (Json.after? commentEnd ('-' :: before s)).isSome := by
  rw [commentEnd, after?_cons, after?_cons _ ('-' :: before s), char?, char?, if_pos rfl, if_pos rfl,
    Option.bind_some, Option.bind_some]
  rw [after?_cons, after?_cons _ (before s)]
  obtain ⟨hbefore, hafter⟩ | ⟨t, rfl, hbefore, hafter⟩ := char?_cases_of_not_brace (c := '-') rfl s
  · rw [hbefore, hafter]
  · rw [hbefore, hafter, Option.bind_some, Option.bind_some, isSome_after?_closing]

/-- **Respelling makes no end of a comment** — by induction on the strokes. -/
theorem skipPast_commentEnd_after : ∀ {s : List Stroke}, skipPast commentEnd (before s) = none →
    skipPast commentEnd (after s) = none
  | [], _ => rfl
  | .char c :: s, h => by
      by_cases hc : c = '-'
      · subst hc
        have hsome := isSome_after?_commentEnd s
        rw [before_char, skipPast] at h
        rw [after_char, skipPast]
        split at h
        next => cases h
        next hnone =>
          rw [hnone, Option.isSome_none, Option.isSome_eq_false_iff,
            Option.isNone_iff_eq_none] at hsome
          rw [hsome]
          exact skipPast_commentEnd_after h
      · have hpass (cs : List Char) : skipPast commentEnd (c :: cs) = skipPast commentEnd cs :=
          skipPast_pass [c] cs (by simp [Ne.symm hc])
        rw [before_char, hpass] at h
        rw [after_char, hpass]
        exact skipPast_commentEnd_after h
  | .ampersand lead hlead :: s, h => by
      have hdash : '-' ∉ lead := fun hmem => absurd (hlead _ hmem) (by decide)
      have hbefore := skipPast_pass ('{' :: '{' :: lead) (before s) (by simpa using hdash)
      have hafter := skipPast_pass ('{' :: '{' :: (lead ++ ['&'])) (after s)
        (by simpa using hdash)
      simp only [List.cons_append, List.append_assoc, List.nil_append] at hafter
      rw [after_ampersand, hafter]
      exact skipPast_commentEnd_after (hbefore.symm.trans h)
  | .opening :: s, h => by
      have hafter := skipPast_pass ['{', '{', '{'] (after s) (by decide)
      exact hafter.trans (skipPast_commentEnd_after h)
  | .closing :: s, h => by
      have hafter := skipPast_pass ['}', '}', '}'] (after s) (by decide)
      exact hafter.trans (skipPast_commentEnd_after h)

theorem skipComment_eq (cs : List Char) : skipComment ('{' :: '{' :: '!' :: cs) =
    ((Json.after? ['-', '-'] (skipBlanks cs)).bind (skipPast commentEnd)).orElse fun _ =>
      skipPast ['}', '}'] cs := by
  have hopen : Json.after? ['{', '{', '!'] ('{' :: '{' :: '!' :: cs) = some cs :=
    after?_eq_some_iff.mpr rfl
  rw [skipComment, hopen]
  rfl

/-- **A comment that is kept is read as the same comment.** -/
theorem skipComment_kept (h : skipComment ('{' :: '{' :: '!' :: (cs ++ before t)) = some (before t)) :
    skipComment ('{' :: '{' :: '!' :: (cs ++ after t)) = some (after t) := by
  have hkept := keptTo_append cs t
  have ht : t <:+ kept cs ++ t := List.suffix_append _ t
  have hbefore : cs ++ before t = before (kept cs ++ t) := by simp
  have hafter : cs ++ after t = after (kept cs ++ t) := by simp
  rw [skipComment_eq, hbefore, skipBlanks_before] at h
  rw [skipComment_eq, hafter, skipBlanks_after]
  have hblanks := afterBlanks_suffix (kept cs ++ t)
  have hshort (h : skipPast ['}', '}'] (before (kept cs ++ t)) = some (before t)) :
      skipPast ['}', '}'] (after (kept cs ++ t)) = some (after t) := by
    rw [← hbefore] at h
    rw [← hafter]
    exact skipPast_append (by simp) _ h
  have hdashes : braceless ['-', '-'] = true := rfl
  obtain ⟨hnone, hnone'⟩ | ⟨u, hu, -, hu', hu''⟩ :=
    leads_after? hdashes (by simp) (afterBlanks (kept cs ++ t))
  · rw [hnone] at h
    rw [hnone']
    exact hshort h
  · rw [hu', Option.bind_some] at h
    rw [hu'', Option.bind_some]
    cases hlong : skipPast commentEnd (before u) with
    | some rest =>
      rw [hlong] at h
      obtain rfl : rest = before t := Option.some.inj h
      have hlength := length_of_skipPast hlong
      obtain ⟨w, rfl⟩ := suffix_of_length (hu.trans hblanks) ht (by omega)
      obtain ⟨ds, rfl⟩ := (hkept.suffix (hu.trans hblanks)) w t rfl (Nat.le_refl _)
      rw [before_append, before_kept] at hlong
      rw [after_append, after_kept, skipPast_append (by simp [commentEnd]) _ hlong]
      rfl
    | none =>
      rw [hlong] at h
      rw [skipPast_commentEnd_after hlong]
      exact hshort h

/-! ## The two ends of a tag -/

theorem lawful_kept (ht : Lawful false t) : ∀ cs : List Char, Lawful false (kept cs ++ t)
  | [] => ht
  | _ :: cs => .char (lawful_kept ht cs)

/-- Characters in front of strokes that may be respelled are readable. -/
theorem readable_kept (ht : Lawful false t) (cs : List Char) : Readable t.length (kept cs ++ t) :=
  ⟨keptTo_append cs t, false, lawful_kept ht cs⟩

theorem readable_text (cs : List Char) : Readable 0 (kept cs) := by
  simpa using readable_kept .nil cs

theorem before_suffix (h : t <:+ s) : before t <:+ before s := by
  obtain ⟨u, rfl⟩ := h
  exact ⟨before u, before_append.symm⟩

theorem suffix_of_alike {o o' : Option (α × List Char)} {a : α} (h : Alike k (kept cs) o o')
    (hread : o = some (a, rest)) : rest <:+ cs := by
  obtain ⟨rfl, -⟩ | ⟨b, b', u, hu, -, -, rfl, -⟩ := h
  · cases hread
  · obtain ⟨-, rfl⟩ := Prod.mk.inj (Option.some.inj hread)
    simpa using before_suffix hu

theorem suffix_of_leads {o o' : Option (List Char)} (h : Leads (kept cs) o o')
    (hread : o = some rest) : rest <:+ cs := by
  obtain ⟨rfl, -⟩ | ⟨u, hu, -, rfl, -⟩ := h
  · cases hread
  · obtain rfl := Option.some.inj hread
    simpa using before_suffix hu

theorem suffix_of_readForm {form : Form} (h : readForm cs = some (form, rest)) : rest <:+ cs := by
  by_cases hbrace : cs.head? = some '{'
  · rcases cs with _ | ⟨c, cs⟩ <;> cases hbrace
    obtain ⟨⟨shown, left⟩, hshown, hlegacy⟩ := Option.bind_eq_some_iff.mp h
    obtain ⟨rest', hmark, heq⟩ := Option.bind_eq_some_iff.mp hlegacy
    obtain ⟨rfl, rfl⟩ := Prod.mk.inj (Option.some.inj heq)
    obtain ⟨bs, -, hleft⟩ := (mark?_eq_some_iff rfl).mp hmark
    have hread := alike_readShown (readable_text (skipBlanks cs))
    rw [before_kept, hshown] at hread
    have hsuffix := (suffix_of_alike hread rfl).trans (List.dropWhile_suffix _)
    rw [hleft] at hsuffix
    exact ((List.suffix_cons '}' _).trans (List.suffix_append bs _)).trans
      (hsuffix.trans (List.suffix_cons _ _))
  · have hread := alike_readForm (readable_text cs) (by simpa using hbrace)
    rw [before_kept, h] at hread
    exact suffix_of_alike hread rfl

theorem exists_of_finish {trim : Bool} {tag : Tag} {o : Option (Form × List Char)}
    (h : finish trim o = some (tag, rest)) : ∃ left mid, o = some (tag.form, left) ∧
      tag.trimBefore = trim ∧ left = mid ++ '}' :: '}' :: rest := by
  rw [finish_eq] at h
  obtain ⟨⟨form, left⟩, rfl, hread⟩ := Option.bind_eq_some_iff.mp h
  obtain ⟨⟨trimAfter, rest'⟩, hclosing, heq⟩ := Option.map_eq_some_iff.mp hread
  obtain ⟨rfl, rfl⟩ := Prod.mk.inj heq
  obtain ⟨pad, -, hleft⟩ := readClosing_eq_some_iff.mp hclosing
  exact ⟨left, pad, rfl, rfl, hleft⟩

/-- A text that ends in two closing braces, in front of a rest. -/
def EndsBefore (rest cs : List Char) : Prop := ∃ mid, cs = mid ++ '}' :: '}' :: rest

theorem EndsBefore.of_suffix {cs' : List Char} (h : EndsBefore rest cs') (hcs : cs' <:+ cs) :
    EndsBefore rest cs := by
  obtain ⟨mid, rfl⟩ := h
  obtain ⟨front, rfl⟩ := hcs
  exact ⟨front ++ mid, by simp⟩

theorem endsBefore_of_skipComment (h : skipComment cs = some rest) :
    ∃ body, cs = '{' :: '{' :: body ∧ EndsBefore rest body := by
  obtain ⟨body, hbody, hread⟩ := Option.bind_eq_some_iff.mp h
  obtain rfl := after?_eq_some_iff.mp hbody
  refine ⟨'!' :: body, rfl, EndsBefore.of_suffix ?_ (List.suffix_cons '!' body)⟩
  rw [Option.orElse_eq_or, Option.or_eq_some_iff] at hread
  rcases hread with hlong | ⟨-, hshort⟩
  · obtain ⟨left, hdashes, hlong⟩ := Option.bind_eq_some_iff.mp hlong
    obtain ⟨front, hleft⟩ := exists_of_skipPast hlong
    have hblanks : skipBlanks body <:+ body := List.dropWhile_suffix _
    rw [after?_eq_some_iff.mp hdashes, hleft] at hblanks
    exact EndsBefore.of_suffix ⟨['-', '-'] ++ front ++ ['-', '-'], by simp⟩ hblanks
  · obtain ⟨front, rfl⟩ := exists_of_skipPast hshort
    exact ⟨front, rfl⟩

theorem takeTrim_suffix (cs : List Char) : (takeTrim cs).2 <:+ cs := by
  obtain ⟨trim, u, hu, hbefore, -⟩ := exists_takeTrim (kept cs)
  rw [before_kept] at hbefore
  rw [hbefore]
  simpa using before_suffix hu

theorem readTriple_eq (cs : List Char) : readTriple cs =
    (Json.after? ['{', '{', '{'] cs).bind fun body =>
      (readShown (takeTrim body).2).bind fun x => (readClosing ['}', '}', '}'] x.2).map fun y =>
        (⟨.value x.1, (takeTrim body).1, y.1⟩, y.2) := by
  simp only [Option.map_eq_bind]
  rfl

theorem endsBefore_of_readTriple {tag : Tag} (h : readTriple cs = some (tag, rest)) :
    ∃ body, cs = '{' :: '{' :: body ∧ EndsBefore rest body := by
  rw [readTriple_eq] at h
  obtain ⟨body, hbody, hread⟩ := Option.bind_eq_some_iff.mp h
  obtain ⟨⟨shown, left⟩, hshown, hread⟩ := Option.bind_eq_some_iff.mp hread
  obtain ⟨⟨trimAfter, rest'⟩, hclosing, heq⟩ := Option.map_eq_some_iff.mp hread
  obtain ⟨-, rfl⟩ := Prod.mk.inj heq
  obtain ⟨pad, -, hleft⟩ := readClosing_eq_some_iff.mp hclosing
  have hread := alike_readShown (readable_text (takeTrim body).2)
  rw [before_kept, hshown] at hread
  have hsuffix := (suffix_of_alike hread rfl).trans ((takeTrim_suffix body).trans
    (List.suffix_cons '{' body))
  refine ⟨'{' :: body, after?_eq_some_iff.mp hbody, EndsBefore.of_suffix ?_ hsuffix⟩
  exact ⟨pad ++ ['}'], by simpa using hleft⟩

theorem endsBefore_of_finish {trim : Bool} {tag : Tag} {o : Option (Form × List Char)}
    (h : finish trim o = some (tag, rest)) (ho : ∀ form left, o = some (form, left) → left <:+ cs) :
    EndsBefore rest cs := by
  obtain ⟨left, mid, rfl, -, hleft⟩ := exists_of_finish h
  exact EndsBefore.of_suffix ⟨mid, hleft⟩ (ho _ left rfl)

theorem endsBefore_of_readAlternative {trim : Bool} {tag : Tag}
    (h : readAlternative trim cs = some (tag, rest)) : EndsBefore rest cs := by
  rw [readAlternative_eq] at h
  obtain ⟨left, hleft, hread⟩ := Option.bind_eq_some_iff.mp h
  have hsuffix : left <:+ cs := by
    have hleads := leads_skipOtherwise (kept cs)
    rw [before_kept] at hleads
    exact suffix_of_leads hleads hleft
  rw [Option.orElse_eq_or, Option.or_eq_some_iff] at hread
  rcases hread with hsingle | ⟨-, hchain⟩
  · refine EndsBefore.of_suffix (endsBefore_of_finish hsingle fun form left' heq => ?_) hsuffix
    obtain ⟨-, rfl⟩ := Prod.mk.inj (Option.some.inj heq)
    exact List.suffix_rfl
  · refine EndsBefore.of_suffix (endsBefore_of_finish hchain fun form left' heq => ?_) hsuffix
    have hread := alike_readChain (readable_text left)
    rw [before_kept] at hread
    exact suffix_of_alike hread heq

/-- **A tag starts with two braces and ends with two.** -/
theorem endsBefore_of_readTag {tag : Tag} (h : readTag cs = some (tag, rest)) :
    ∃ body, cs = '{' :: '{' :: body ∧ EndsBefore rest body := by
  rw [readTag] at h
  split at h
  next hcomment =>
    obtain ⟨-, rfl⟩ := Prod.mk.inj (Option.some.inj h)
    exact endsBefore_of_skipComment hcomment
  next =>
    rw [Option.orElse_eq_or, Option.or_eq_some_iff] at h
    rcases h with htriple | ⟨-, hplain⟩
    · exact endsBefore_of_readTriple htriple
    · obtain ⟨⟨trim, left⟩, hopening, hread⟩ := Option.bind_eq_some_iff.mp hplain
      obtain ⟨body, hbody, htrim⟩ := Option.map_eq_some_iff.mp hopening
      have hsuffix := takeTrim_suffix body
      rw [htrim] at hsuffix
      refine ⟨body, after?_eq_some_iff.mp hbody, EndsBefore.of_suffix ?_ hsuffix⟩
      dsimp only at hread
      rw [Option.orElse_eq_or, Option.or_eq_some_iff] at hread
      rcases hread with halternative | ⟨-, hform⟩
      · exact endsBefore_of_readAlternative halternative
      · exact endsBefore_of_finish hform fun form left' heq => suffix_of_readForm heq

/-! ## Kept tags -/

/-- What a tag says after its opening braces, when it is no comment and has two of them. -/
def readInside (cs : List Char) : Option (Tag × List Char) :=
  (readAlternative (takeTrim cs).1 (takeTrim cs).2).orElse fun _ =>
    finish (takeTrim cs).1 (readForm (takeTrim cs).2)

theorem readTag_plain (hbang : c ≠ '!') (hbrace : c ≠ '{') (cs : List Char) :
    readTag ('{' :: '{' :: c :: cs) = readInside (c :: cs) := by
  have hcomment : skipComment ('{' :: '{' :: c :: cs) = none := by
    simp [skipComment, Json.after?, hbang.symm]
  have htriple : readTriple ('{' :: '{' :: c :: cs) = none := by
    simp [readTriple, Json.after?, hbrace.symm]
  rw [readTag, hcomment, htriple]
  rfl

theorem readShown_brace (cs : List Char) : readShown ('{' :: cs) = none := rfl

theorem readShown_mark (cs : List Char) : readShown ('~' :: cs) = none := rfl

theorem readTag_brace (cs : List Char) : readTag ('{' :: '{' :: '{' :: cs) =
    (readTriple ('{' :: '{' :: '{' :: cs)).orElse fun _ => finish false (readForm ('{' :: cs)) := rfl

theorem readTag_bang (cs : List Char) : readTag ('{' :: '{' :: '!' :: cs) =
    (skipComment ('{' :: '{' :: '!' :: cs)).map fun rest => (⟨.comment, false, false⟩, rest) := by
  rw [readTag]
  cases skipComment ('{' :: '{' :: '!' :: cs) <;> rfl

theorem finish_readForm_brace (trim : Bool) (cs : List Char) :
    finish trim (readForm ('{' :: cs)) = (readShown (skipBlanks cs)).bind fun x =>
      (mark? '}' x.2).bind fun rest => (readClosing ['}', '}'] rest).map fun y =>
        (⟨.value x.1, trim, y.1⟩, y.2) := by
  have hform : readForm ('{' :: cs) = (readShown (skipBlanks cs)).bind fun x =>
      (mark? '}' x.2).bind fun rest => some (.value x.1, rest) := rfl
  rw [finish_eq, hform, Option.bind_assoc]
  simp only [Option.bind_assoc, Option.bind_some]

/-- A value in a brace of its own, inside two, is kept. -/
theorem finish_brace_kept {trim : Bool} {tag : Tag} (hu : u <:+ s) (ht : t <:+ s)
    (hs : Readable t.length s)
    (hread : finish trim (readForm ('{' :: before u)) = some (tag, before t)) :
    finish trim (readForm ('{' :: after u)) = some (tag, after t) := by
  rw [finish_readForm_brace, skipBlanks_before] at hread
  rw [finish_readForm_brace, skipBlanks_after]
  have hblanks := (afterBlanks_suffix u).trans hu
  exact close_kept (alike_readShown (hs.suffix hblanks)) hblanks ht hs.keptTo
    (fun shown => ((closes_readClosing ['}']).map fun trimAfter =>
      (⟨.value shown, trim, trimAfter⟩ : Tag)).mark (by decide)) hread

theorem readInside_kept {tag : Tag} (ht : Lawful false t)
    (h : readInside (cs ++ before t) = some (tag, before t)) :
    readInside (cs ++ after t) = some (tag, after t) := by
  have hs := readable_kept ht cs
  have hts : t <:+ kept cs ++ t := List.suffix_append _ t
  obtain ⟨trim, u, hu, hbefore, hafter⟩ := exists_takeTrim (kept cs ++ t)
  rw [before_append, before_kept] at hbefore
  rw [after_append, after_kept] at hafter
  have hsome := isSome_readAlternative trim hu hs
  rw [readInside, hbefore] at h
  rw [readInside, hafter]
  dsimp only at h ⊢
  cases halternative : readAlternative trim (before u) with
  | some x =>
    rw [halternative] at h
    rw [readAlternative_kept hu hts hs (halternative.trans h)]
    rfl
  | none =>
    rw [halternative, Option.isSome_none, Option.isSome_eq_false_iff,
      Option.isNone_iff_eq_none] at hsome
    rw [halternative] at h
    rw [hsome]
    change finish trim (readForm (before u)) = some (tag, before t) at h
    change finish trim (readForm (after u)) = some (tag, after t)
    by_cases hbrace : (before u).head? = some '{'
    · rcases u with _ | ⟨c | ⟨lead, hlead⟩ | _ | _, u⟩
      case cons.char =>
        obtain rfl : c = '{' := by simpa using hbrace
        exact finish_brace_kept ((List.suffix_cons _ u).trans hu) hts hs h
      case nil | cons.closing => cases hbrace
      -- Three opening braces would be four.
      all_goals cases h
    · exact finish_kept (alike_readForm (hs.suffix hu) hbrace) hu hts hs.keptTo h

theorem isSome_readClosing_three (hcs : ∀ c ∈ cs, isBlank c = true) (s : List Stroke) :
    (readClosing ['}', '}', '}'] (cs ++ '}' :: after s)).isSome =
      (readClosing ['}', '}', '}'] (cs ++ '}' :: before s)).isSome := by
  have heq (rest : List Char) : (readClosing ['}', '}', '}'] (cs ++ '}' :: rest)).isSome =
      (Json.after? ['}', '}'] rest).isSome := by
    rw [readClosing, mark?_of_trims hcs, skipBlanks_append hcs, skipBlanks_cons_of_not (by decide)]
    dsimp only
    rw [Option.isSome_map, after?_cons, char?, if_pos rfl, Option.bind_some]
  rw [heq, heq, isSome_after?_closing]

theorem readTriple_brace (cs : List Char) : readTriple ('{' :: '{' :: '{' :: cs) =
    (readShown (takeTrim cs).2).bind fun x => (readClosing ['}', '}', '}'] x.2).map fun y =>
      (⟨.value x.1, (takeTrim cs).1, y.1⟩, y.2) := by
  rw [readTriple_eq]
  rfl

theorem readTriple_kept {tag : Tag} (ht : Lawful false t)
    (h : readTriple ('{' :: '{' :: '{' :: (cs ++ before t)) = some (tag, before t)) :
    readTriple ('{' :: '{' :: '{' :: (cs ++ after t)) = some (tag, after t) := by
  have hs := readable_kept ht cs
  obtain ⟨trim, u, hu, hbefore, hafter⟩ := exists_takeTrim (kept cs ++ t)
  rw [before_append, before_kept] at hbefore
  rw [after_append, after_kept] at hafter
  rw [readTriple_brace, hbefore] at h
  rw [readTriple_brace, hafter]
  exact close_kept (alike_readShown (hs.suffix hu)) hu (List.suffix_append _ t) hs.keptTo
    (fun shown => (closes_readClosing ['}', '}']).map fun trimAfter =>
      (⟨.value shown, trim, trimAfter⟩ : Tag)) h

/-- Without a mark that trims, three braces and a brace inside two hold the same. -/
theorem takeTrim_of_readShown {x : Shown × List Char} (h : readShown (skipBlanks cs) = some x) :
    takeTrim cs = (false, skipBlanks cs) := by
  have hmark : mark? '~' cs = none := by
    cases hskip : skipBlanks cs with
    | nil => simp [mark?, hskip, char?]
    | cons c rest =>
      have hc : '~' ≠ c := by
        rintro rfl
        rw [hskip, readShown_mark] at h
        cases h
      simp [mark?, hskip, char?, hc]
  rw [takeTrim, hmark]

/-- **What is no tag in three braces is none in the other spelling**, when it is a value in a brace of
its own. -/
theorem readTriple_none_kept {tag : Tag} (ht : Lawful false t)
    (hnone : readTriple ('{' :: '{' :: '{' :: (cs ++ before t)) = none)
    (h : finish false (readForm ('{' :: (cs ++ before t))) = some (tag, before t)) :
    readTriple ('{' :: '{' :: '{' :: (cs ++ after t)) = none := by
  have hs := readable_kept ht cs
  have hbefore : cs ++ before t = before (kept cs ++ t) := by simp
  have hafter : cs ++ after t = after (kept cs ++ t) := by simp
  have hblanks := afterBlanks_suffix (kept cs ++ t)
  rw [hbefore, finish_readForm_brace, skipBlanks_before] at h
  rw [readTriple_brace, hbefore] at hnone
  rw [readTriple_brace, hafter]
  obtain ⟨hshown, -⟩ | ⟨shown, shown', v, hv, -, -, hshown, hshown'⟩ :=
    alike_readShown (hs.suffix hblanks)
  · rw [hshown] at h
    cases h
  rw [hshown, Option.bind_some] at h
  obtain ⟨left, hmark, hread⟩ := Option.bind_eq_some_iff.mp h
  obtain ⟨⟨trimAfter, rest⟩, hclosing, heq⟩ := Option.map_eq_some_iff.mp hread
  obtain rfl : rest = before t := (Prod.mk.inj heq).2
  obtain ⟨pad, -, rfl⟩ := readClosing_eq_some_iff.mp hclosing
  obtain ⟨bs, hbs, hleft⟩ := (mark?_eq_some_iff (by decide)).mp hmark
  dsimp only at hleft
  -- The value ends in front of kept braces, so the third brace is looked for among kept characters.
  obtain ⟨w, rfl⟩ := suffix_of_length (hv.trans hblanks) (List.suffix_append _ t)
    (show (before t).length ≤ (before v).length by rw [hleft]; simp; omega)
  obtain ⟨ds, rfl⟩ := (hs.suffix (hv.trans hblanks)).keptTo w t rfl (Nat.le_refl _)
  obtain rfl : ds = bs ++ '}' :: (pad ++ ['}', '}']) := by
    have hcancel : ds ++ before t = bs ++ '}' :: (pad ++ ['}', '}']) ++ before t := by
      simpa using hleft
    exact List.append_cancel_right hcancel
  have hthree := isSome_readClosing_three hbs (kept (pad ++ ['}', '}']) ++ t)
  rw [takeTrim_of_readShown (by rw [skipBlanks_before]; exact hshown), skipBlanks_before, hshown,
    Option.bind_some, Option.map_eq_none_iff] at hnone
  rw [takeTrim_of_readShown (by rw [skipBlanks_after]; exact hshown'), skipBlanks_after, hshown',
    Option.bind_some, Option.map_eq_none_iff]
  simp only [before_append, after_append, before_kept, after_kept, List.append_assoc,
    List.cons_append] at hthree hnone ⊢
  rw [hnone, Option.isSome_none, Option.isSome_eq_false_iff, Option.isNone_iff_eq_none] at hthree
  exact hthree

/-- **A tag that is kept is read as the same tag**, whatever braces are respelled behind it. -/
theorem readTag_kept {tag : Tag} (ht : Lawful false t)
    (h : readTag (cs ++ before t) = some (tag, before t)) :
    readTag (cs ++ after t) = some (tag, after t) := by
  obtain ⟨body, hcs, mid, rfl⟩ := endsBefore_of_readTag h
  obtain rfl : cs = '{' :: '{' :: (mid ++ ['}', '}']) := by
    have hcancel : cs ++ before t = '{' :: '{' :: (mid ++ ['}', '}']) ++ before t := by
      simpa using hcs
    exact List.append_cancel_right hcancel
  obtain ⟨c, ds, hmid⟩ : ∃ c ds, mid ++ ['}', '}'] = c :: ds := by
    cases mid with
    | nil => exact ⟨_, _, rfl⟩
    | cons c mid => exact ⟨_, _, rfl⟩
  rw [hmid, List.cons_append, List.cons_append, List.cons_append] at h ⊢
  by_cases hbang : c = '!'
  · subst hbang
    rw [readTag_bang] at h ⊢
    obtain ⟨rest, hcomment, heq⟩ := Option.map_eq_some_iff.mp h
    obtain ⟨rfl, rfl⟩ := Prod.mk.inj heq
    rw [skipComment_kept hcomment]
    rfl
  by_cases hbrace : c = '{'
  · subst hbrace
    rw [readTag_brace] at h ⊢
    cases htriple : readTriple ('{' :: '{' :: '{' :: (ds ++ before t)) with
    | some x =>
      rw [htriple] at h
      rw [readTriple_kept ht (htriple.trans h)]
      rfl
    | none =>
      rw [htriple] at h
      change finish false (readForm ('{' :: (ds ++ before t))) = some (tag, before t) at h
      rw [readTriple_none_kept ht htriple h]
      have hinside : finish false (readForm ('{' :: before (kept ds ++ t))) = some (tag, before t) := by
        simpa using h
      have hkept := finish_brace_kept List.suffix_rfl (List.suffix_append _ t) (readable_kept ht ds)
        hinside
      simpa using hkept
  · rw [readTag_plain hbang hbrace] at h ⊢
    rw [← List.cons_append] at h ⊢
    exact readInside_kept ht h

end PinnedManifest.Template.Respelling
