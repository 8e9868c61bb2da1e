import PinnedManifest.Proofs.Template.Respelling.Expressions
import PinnedManifest.Template.Tag

/-!
# Proofs/Template/Respelling/Forms — what stands inside a tag

The forms of tags are read alike in both spellings (`alike_readForm`, `alike_readClose`).  What ends a
tag looks at nothing behind it (`Closes`), so a reading that ends the tag where the kept text ends does
so in the other spelling too, with the same value (`close_kept`).
-/

namespace PinnedManifest.Template.Respelling

open Json (isBlank skipBlanks)

variable {α β : Type} {k : Nat} {s t u : List Stroke} {c : Char} {cs rest : List Char}

/-! ## Closing braces -/

/-- What stands in front of closing braces: blanks, with a mark that trims among them or without. -/
def Trims (cs : List Char) : Bool → Prop
  | true => ∃ as bs, cs = as ++ '~' :: bs ∧ (∀ c ∈ as, isBlank c = true) ∧ ∀ c ∈ bs, isBlank c = true
  | false => ∀ c ∈ cs, isBlank c = true

theorem skipBlanks_append (h : ∀ c ∈ cs, isBlank c = true) (rest : List Char) :
    skipBlanks (cs ++ rest) = skipBlanks rest := List.dropWhile_append_of_pos h

theorem skipBlanks_cons_of_not (h : isBlank c = false) (cs : List Char) :
    skipBlanks (c :: cs) = c :: cs := by simp [skipBlanks, h]

theorem exists_skipBlanks (cs : List Char) :
    ∃ bs, cs = bs ++ skipBlanks cs ∧ ∀ c ∈ bs, isBlank c = true :=
  ⟨cs.takeWhile isBlank, List.takeWhile_append_dropWhile.symm, fun _ h => List.mem_takeWhile_imp h⟩

theorem char?_eq_some_iff : char? c cs = some rest ↔ cs = c :: rest := by
  cases cs with
  | nil => simp [char?]
  | cons d cs =>
    rw [char?, List.cons.injEq]
    split
    next heq => simp [heq]
    next hne => simp [Ne.symm hne]

theorem mark?_eq_some_iff (hc : isBlank c = false) : mark? c cs = some rest ↔
    ∃ bs, (∀ d ∈ bs, isBlank d = true) ∧ cs = bs ++ c :: rest := by
  rw [mark?, char?_eq_some_iff]
  constructor
  · intro h
    obtain ⟨bs, hcs, hbs⟩ := exists_skipBlanks cs
    exact ⟨bs, hbs, by rw [← h]; exact hcs⟩
  · rintro ⟨bs, hbs, rfl⟩
    rw [skipBlanks_append hbs, skipBlanks_cons_of_not hc]

theorem mark?_of_trims {pad : List Char} (h : Trims pad false) (rest : List Char) :
    mark? '~' (pad ++ '}' :: rest) = none := by
  rw [mark?, skipBlanks_append h, skipBlanks_cons_of_not (by decide)]
  simp [char?]

/-- **Closing braces are read** exactly when they stand behind blanks and at most one mark. -/
theorem readClosing_eq_some_iff {trim : Bool} {braces : List Char} :
    readClosing ('}' :: braces) cs = some (trim, rest) ↔
      ∃ pad, Trims pad trim ∧ cs = pad ++ '}' :: (braces ++ rest) := by
  constructor
  · intro h
    rw [readClosing] at h
    split at h
    next left hmark =>
      obtain ⟨as, has, rfl⟩ := (mark?_eq_some_iff (by decide)).mp hmark
      obtain ⟨rest', hbraces, heq⟩ := Option.map_eq_some_iff.mp h
      obtain ⟨rfl, rfl⟩ := Prod.mk.inj heq
      obtain ⟨bs, hleft, hbs⟩ := exists_skipBlanks left
      refine ⟨as ++ '~' :: bs, ⟨as, bs, rfl, has, hbs⟩, ?_⟩
      rw [after?_eq_some_iff.mp hbraces] at hleft
      simp [hleft]
    next =>
      obtain ⟨rest', hbraces, heq⟩ := Option.map_eq_some_iff.mp h
      obtain ⟨rfl, rfl⟩ := Prod.mk.inj heq
      obtain ⟨bs, hcs, hbs⟩ := exists_skipBlanks cs
      rw [after?_eq_some_iff.mp hbraces] at hcs
      exact ⟨bs, hbs, hcs⟩
  · rintro ⟨pad, hpad, rfl⟩
    have hbraces : Json.after? ('}' :: braces) ('}' :: (braces ++ rest)) = some rest :=
      after?_eq_some_iff.mpr rfl
    rw [readClosing]
    cases trim with
    | false =>
      simp only [mark?_of_trims hpad]
      rw [skipBlanks_append hpad, skipBlanks_cons_of_not (by decide), hbraces]
      rfl
    | true =>
      obtain ⟨as, bs, rfl, has, hbs⟩ := hpad
      have hmark : mark? '~' (as ++ '~' :: bs ++ '}' :: (braces ++ rest)) =
          some (bs ++ '}' :: (braces ++ rest)) :=
        (mark?_eq_some_iff (by decide)).mpr ⟨as, has, by simp⟩
      simp only [hmark]
      rw [skipBlanks_append hbs, skipBlanks_cons_of_not (by decide), hbraces]
      rfl

theorem isSome_char? (s : List Stroke) :
    (char? c (after s)).isSome = (char? c (before s)).isSome := by
  have hhead := head?_after s
  cases hbefore : before s <;> cases hafter : after s <;> simp_all [char?]
  split <;> rfl

/-- Whether two closing braces come next does not depend on the spelling. -/
theorem isSome_after?_closing : ∀ s : List Stroke,
    (Json.after? ['}', '}'] (after s)).isSome = (Json.after? ['}', '}'] (before s)).isSome
  | .char c :: s => by
      have hone (cs : List Char) : (Json.after? ['}'] cs).isSome = (char? '}' cs).isSome := by
        rw [after?_cons]
        cases char? '}' cs <;> simp [after?_nil]
      rw [after_char, before_char, after?_cons, after?_cons _ (c :: before s), char?, char?]
      split
      · rw [Option.bind_some, Option.bind_some, hone, hone, isSome_char?]
      · rfl
  | [] | .opening :: _ | .ampersand _ _ :: _ => rfl
  | .closing :: s => by simp [after?_cons, char?, after?_nil]

theorem isSome_readClosing (s : List Stroke) :
    (readClosing ['}', '}'] (after s)).isSome = (readClosing ['}', '}'] (before s)).isSome := by
  rw [readClosing, readClosing]
  obtain ⟨hbefore, hafter⟩ | ⟨t, -, -, hbefore, hafter⟩ := leads_mark? (c := '~') rfl s
  · simp [hbefore, hafter, isSome_after?_closing]
  · simp [hbefore, hafter, isSome_after?_closing]

/-! ## Results at the end of a tag -/

/-- What ends a tag looks at nothing behind it. -/
def Closes (f : List Char → Option (β × List Char)) : Prop :=
  ∀ cs b rest, f cs = some (b, rest) →
    ∃ front, cs = front ++ rest ∧ ∀ rest', f (front ++ rest') = some (b, rest')

theorem closes_readClosing (braces : List Char) : Closes (readClosing ('}' :: braces)) := by
  intro cs trim rest h
  obtain ⟨pad, hpad, rfl⟩ := readClosing_eq_some_iff.mp h
  exact ⟨pad ++ '}' :: braces, by simp, fun rest' =>
    readClosing_eq_some_iff.mpr ⟨pad, hpad, by simp⟩⟩

theorem Closes.map {f : List Char → Option (α × List Char)} (hf : Closes f) (g : α → β) :
    Closes fun cs => (f cs).map fun x => (g x.1, x.2) := by
  intro cs b rest h
  obtain ⟨⟨a, rest⟩, hread, heq⟩ := Option.map_eq_some_iff.mp h
  obtain ⟨rfl, rfl⟩ := Prod.mk.inj heq
  obtain ⟨front, hcs, hall⟩ := hf cs a rest hread
  exact ⟨front, hcs, fun rest' => by simp [hall rest']⟩

theorem Closes.mark {f : List Char → Option (α × List Char)} (hf : Closes f)
    (hc : isBlank c = false) : Closes fun cs => (mark? c cs).bind f := by
  intro cs b rest h
  obtain ⟨left, hmark, hread⟩ := Option.bind_eq_some_iff.mp h
  obtain ⟨bs, hbs, rfl⟩ := (mark?_eq_some_iff hc).mp hmark
  obtain ⟨front, rfl, hall⟩ := hf left b rest hread
  refine ⟨bs ++ c :: front, by simp, fun rest' => ?_⟩
  have hmark' : mark? c (bs ++ c :: front ++ rest') = some (front ++ rest') :=
    (mark?_eq_some_iff hc).mpr ⟨bs, hbs, by simp⟩
  simp only [hmark', Option.bind_some, hall rest']

theorem suffix_of_length (hu : u <:+ s) (ht : t <:+ s)
    (h : (before t).length ≤ (before u).length) : t <:+ u := by
  rcases List.suffix_or_suffix_of_suffix ht hu with htu | ⟨v, rfl⟩
  · exact htu
  · have hpos := length_le_before v
    rw [before_append, List.length_append] at h
    rw [List.length_eq_zero_iff.mp (show v.length = 0 by omega)]
    exact List.suffix_rfl

/-- **A reading that closes at the end of the kept text closes there in both spellings**, with the same
value. -/
theorem close_kept {o o' : Option (α × List Char)}
    {f : α → List Char → Option (β × List Char)} {b : β} (h : Alike t.length u o o')
    (hu : u <:+ s) (ht : t <:+ s) (hkept : KeptTo t.length s) (hf : ∀ a, Closes (f a))
    (hread : (o.bind fun x => f x.1 x.2) = some (b, before t)) :
    (o'.bind fun x => f x.1 x.2) = some (b, after t) := by
  obtain ⟨rfl, rfl⟩ | ⟨a, a', v, hv, hlt, ha, rfl, rfl⟩ := h
  · cases hread
  · obtain ⟨front, hfront, hall⟩ := hf a (before v) b (before t) hread
    have htv : t <:+ v := suffix_of_length (hv.trans hu) ht (by rw [hfront]; simp)
    obtain ⟨w, rfl⟩ := htv
    obtain ⟨cs, rfl⟩ := hkept.suffix (hv.trans hu) w t rfl (Nat.le_refl _)
    obtain rfl : cs = front := by simpa using hfront
    obtain rfl := ha (by simp)
    simpa using hall (after t)

theorem finish_eq (trim : Bool) (o : Option (Form × List Char)) : finish trim o =
    o.bind fun x => (readClosing ['}', '}'] x.2).map fun y => (⟨x.1, trim, y.1⟩, y.2) := rfl

theorem finish_kept {trim : Bool} {tag : Tag} {o o' : Option (Form × List Char)}
    (h : Alike t.length u o o') (hu : u <:+ s) (ht : t <:+ s) (hkept : KeptTo t.length s)
    (hread : finish trim o = some (tag, before t)) : finish trim o' = some (tag, after t) := by
  rw [finish_eq] at hread ⊢
  exact close_kept h hu ht hkept
    (fun form => (closes_readClosing ['}']).map fun trimAfter => (⟨form, trim, trimAfter⟩ : Tag)) hread

/-- Where one spelling of a form is the end of a tag, the other is too, though perhaps of another. -/
theorem isSome_finish (trim : Bool) {o o' : Option (Form × List Char)} (h : Alike k s o o') :
    (finish trim o').isSome = (finish trim o).isSome := by
  rw [finish_eq, finish_eq]
  obtain ⟨rfl, rfl⟩ | ⟨a, a', v, -, -, -, rfl, rfl⟩ := h
  · rfl
  · simp [isSome_readClosing]

/-! ## Forms -/

theorem Alike.getD {o o' : Option (α × List Char)} (a : α) (h : Alike k s o o') :
    Meets k s (o.getD (a, before s)) (o'.getD (a, after s)) := by
  obtain ⟨rfl, rfl⟩ | ⟨b, b', v, hv, -, hb, rfl, rfl⟩ := h
  · exact ⟨s, List.suffix_rfl, fun _ => rfl, rfl, rfl⟩
  · exact ⟨v, hv, hb, rfl, rfl⟩

theorem readClose_eq (cs : List Char) : readClose cs =
    let ends (rest : List Char) : Bool := (readClosing ['}', '}'] rest).isSome
    let block := (readIdentifier cs).getD ("", cs)
    let insertion := (readPartialName cs).getD ("", cs)
    let name := if ends block.2 then some block.1 else none
    if ends insertion.2 then some (.close name (some insertion.1), insertion.2)
    else name.map fun name => (.close (some name) none, block.2) := rfl

/-- **The end of a block is read alike in both spellings.** -/
theorem alike_readClose (hu : u <:+ s) (hlt : u.length < s.length) (hs : Readable k s) :
    Alike k s (readClose (before u)) (readClose (after u)) := by
  obtain ⟨v, hv, hname, hblock, hblock'⟩ := (alike_readIdentifier 0 u).getD ""
  obtain ⟨w, hw, hpartial, hinsertion, hinsertion'⟩ :=
    (alike_readPartialName (hs.suffix hu)).getD ""
  simp only [readClose_eq, hblock, hblock', hinsertion, hinsertion', isSome_readClosing,
    hname (Nat.zero_le _)]
  split
  · exact .some (hw.trans hu) (hw.length_le.trans_lt hlt) fun hk => by rw [hpartial hk]
  · split
    · exact .some (hv.trans hu) (hv.length_le.trans_lt hlt) fun _ => rfl
    · exact .none

/-- What follows the mark of a block, without the mark. -/
def readBlock (cs : List Char) : Option (Form × List Char) :=
  match cs with
  | '*' :: rest => (readLine (skipBlanks rest)).map fun x => (.openDecorated x.1.1, x.2)
  | '>' :: rest => (readInsertion (skipBlanks rest)).map fun x => (.openInsert x.1.1 x.1.2, x.2)
  | rest => (readLine rest).map fun x => (.open x.1.1 x.1.2, x.2)

theorem alike_lineAfterBlanks (hs : Readable k s) :
    Alike k s (readLine (skipBlanks (before s))) (readLine (skipBlanks (after s))) :=
  Alike.skipBlanks (alike_readLine (hs.suffix (afterBlanks_suffix s)))

theorem alike_insertionAfterBlanks (hs : Readable k s) :
    Alike k s (readInsertion (skipBlanks (before s))) (readInsertion (skipBlanks (after s))) :=
  Alike.skipBlanks (alike_readInsertion (hs.suffix (afterBlanks_suffix s)))

theorem alike_readBlock (hs : Readable k s) :
    Alike k s (readBlock (before s)) (readBlock (after s)) := by
  have hline := (alike_readLine hs).map fun x => Form.open x.1 x.2
  rcases s with _ | ⟨c | ⟨lead, h⟩ | _ | _, s⟩
  case cons.char =>
    have hs' := hs.suffix (List.suffix_cons _ s)
    by_cases hstar : c = '*'
    · subst hstar
      exact ((alike_lineAfterBlanks hs').map fun x : Call × List String =>
        Form.openDecorated x.1).of_suffix (List.suffix_cons _ s)
    by_cases hmark : c = '>'
    · subst hmark
      exact ((alike_insertionAfterBlanks hs').map fun x : Target × List Argument =>
        Form.openInsert x.1 x.2).of_suffix (List.suffix_cons _ s)
    have heq (cs : List Char) : readBlock (c :: cs) =
        (readLine (c :: cs)).map fun x => (.open x.1.1 x.1.2, x.2) := by
      rw [readBlock.eq_def]
      split
      next h => exact absurd (List.cons.inj h).1 hstar
      next h => exact absurd (List.cons.inj h).1 hmark
      next => rfl
    rw [before_char, after_char, heq, heq]
    exact hline
  all_goals exact hline

theorem alike_referenceAfterBlanks (hs : Readable k s) :
    Alike k s (readReference (skipBlanks (before s))) (readReference (skipBlanks (after s))) :=
  Alike.skipBlanks (alike_readReference (hs.suffix (afterBlanks_suffix s)))

/-- What tells the forms of a tag apart. -/
def formMarks : List Char := ['#', '/', '*', '>', '&', '{']

theorem readForm_of_not_mark {cs : List Char} (hc : c ∉ formMarks) :
    readForm (c :: cs) = (readShown (c :: cs)).map fun x => (.value x.1, x.2) := by
  rw [readForm.eq_def]
  split
  all_goals first
    | rfl
    | next h => exact absurd (by simp [formMarks, (List.cons.inj h).1]) hc

/-- **A form is read alike in both spellings**, but for one in a brace of its own. -/
theorem alike_readForm (hs : Readable k s) (hbrace : (before s).head? ≠ some '{') :
    Alike k s (readForm (before s)) (readForm (after s)) := by
  have hshown := (alike_readShown hs).map Form.value
  rcases s with _ | ⟨c | ⟨lead, h⟩ | _ | _, s⟩
  case nil | cons.closing => exact hshown
  case cons.ampersand | cons.opening => exact (hbrace rfl).elim
  case cons.char =>
    have hs' := hs.suffix (List.suffix_cons _ s)
    by_cases hc : c ∈ formMarks
    · simp only [formMarks, List.mem_cons, List.not_mem_nil, or_false] at hc
      rcases hc with rfl | rfl | rfl | rfl | rfl | rfl
      · have hblock : Alike k s (readBlock (skipBlanks (before s)))
            (readBlock (skipBlanks (after s))) :=
          Alike.skipBlanks (alike_readBlock (hs'.suffix (afterBlanks_suffix s)))
        exact hblock.of_suffix (List.suffix_cons _ s)
      · have hclose := alike_readClose ((afterBlanks_suffix s).trans (List.suffix_cons _ s))
          (Nat.lt_succ_of_le (afterBlanks_suffix s).length_le) hs
        rwa [← skipBlanks_before, ← skipBlanks_after] at hclose
      · exact ((alike_lineAfterBlanks hs').map fun x : Call × List String =>
          Form.decorate x.1).of_suffix (List.suffix_cons _ s)
      · exact ((alike_insertionAfterBlanks hs').map fun x : Target × List Argument =>
          Form.insert x.1 x.2).of_suffix (List.suffix_cons _ s)
      · exact ((alike_referenceAfterBlanks hs').map Form.value).of_suffix (List.suffix_cons _ s)
      · exact (hbrace rfl).elim
    · rw [before_char, after_char, readForm_of_not_mark hc, readForm_of_not_mark hc]
      exact hshown

/-! ## Other cases of a block -/

theorem leads_skipOtherwise (s : List Stroke) :
    Leads s (skipOtherwise (before s)) (skipOtherwise (after s)) :=
  (leads_after? rfl (by decide) s).orElse (leads_char? rfl s)

/-- What follows the word for another case, as a form: a helper with its arguments and aliases. -/
def readChain (cs : List Char) : Option (Form × List Char) :=
  (readLine (skipBlanks cs)).map fun x => (.chain x.1.1 x.1.2, x.2)

theorem readAlternative_eq (trim : Bool) (cs : List Char) : readAlternative trim cs =
    (skipOtherwise cs).bind fun rest =>
      (finish trim (some (.otherwise, rest))).orElse fun _ => finish trim (readChain rest) := rfl

theorem alike_readChain (hs : Readable k s) :
    Alike k s (readChain (before s)) (readChain (after s)) :=
  (alike_lineAfterBlanks hs).map fun x : Call × List String => Form.chain x.1 x.2

theorem readAlternative_kept {trim : Bool} {tag : Tag} (hu : u <:+ s) (ht : t <:+ s)
    (hs : Readable t.length s) (hread : readAlternative trim (before u) = some (tag, before t)) :
    readAlternative trim (after u) = some (tag, after t) := by
  rw [readAlternative_eq] at hread ⊢
  obtain ⟨hbefore, -⟩ | ⟨v, hv, hlt, hbefore, hafter⟩ := leads_skipOtherwise u
  · simp [hbefore] at hread
  · have hvs := hv.trans hu
    have hsingle : Alike t.length u (some (Form.otherwise, before v))
        (some (Form.otherwise, after v)) :=
      .some hv hlt fun _ => rfl
    rw [hbefore, Option.bind_some] at hread
    rw [hafter, Option.bind_some]
    have hsome := isSome_finish trim hsingle
    cases hfinish : finish trim (some (.otherwise, before v)) with
    | some x =>
      rw [hfinish] at hread
      rw [finish_kept hsingle hu ht hs.keptTo (hfinish.trans hread)]
      rfl
    | none =>
      rw [hfinish, Option.isSome_none, Option.isSome_eq_false_iff, Option.isNone_iff_eq_none] at hsome
      rw [hfinish] at hread
      rw [hsome]
      exact finish_kept (alike_readChain (hs.suffix hvs)) hvs ht hs.keptTo hread

theorem isSome_readAlternative (trim : Bool) (hu : u <:+ s) (hs : Readable k s) :
    (readAlternative trim (after u)).isSome = (readAlternative trim (before u)).isSome := by
  rw [readAlternative_eq, readAlternative_eq]
  obtain ⟨hbefore, hafter⟩ | ⟨v, hv, hlt, hbefore, hafter⟩ := leads_skipOtherwise u
  · rw [hbefore, hafter]
  · have hsingle : Alike k u (some (Form.otherwise, before v)) (some (Form.otherwise, after v)) :=
      .some hv hlt fun _ => rfl
    have hsome := isSome_finish trim hsingle
    have hchain := isSome_finish trim (alike_readChain (hs.suffix (hv.trans hu)))
    rw [hbefore, hafter, Option.bind_some, Option.bind_some, Option.orElse_eq_or, Option.orElse_eq_or,
      Option.isSome_or, Option.isSome_or, hsome, hchain]

end PinnedManifest.Template.Respelling
