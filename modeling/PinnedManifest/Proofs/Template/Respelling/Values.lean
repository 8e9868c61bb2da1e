import PinnedManifest.Proofs.Template.Respelling.Tags

/-!
# Proofs/Template/Respelling/Values — value tags in their three spellings

A value tag that shows a path reads as the same tag with three braces, as long as the path has no
quotation mark, and with an ampersand (`readTag_triple`, `readTag_ampersand`).
-/

namespace PinnedManifest.Template.Respelling

open Json (isBlank skipBlanks)

variable {k : Nat} {s t u : List Stroke} {c : Char} {cs rest : List Char} {p : Path}

/-! ## Where a path starts and ends -/

/-- A character that a path may end with. -/
def endsName (c : Char) : Bool := isSymbol c || c == ']'

/-- A text that ends as a name does, in front of a rest. -/
def NamedBefore (rest cs : List Char) : Prop := ∃ front c, endsName c = true ∧ cs = front ++ c :: rest

theorem NamedBefore.of_suffix {cs' : List Char} (h : NamedBefore rest cs') (hcs : cs' <:+ cs) :
    NamedBefore rest cs := by
  obtain ⟨front, c, hc, rfl⟩ := h
  obtain ⟨front', rfl⟩ := hcs
  exact ⟨front' ++ front, c, hc, by simp⟩

theorem namedBefore_of_readIdentifier {name : String} (h : readIdentifier cs = some (name, rest)) :
    NamedBefore rest cs := by
  rw [readIdentifier] at h
  dsimp only at h
  cases hspan : cs.span isSymbol with
  | mk symbols left =>
    rw [hspan] at h
    obtain ⟨rfl, hsymbols, -⟩ := Text.span_eq_iff.mp hspan
    split at h
    · cases h
    next hne =>
      obtain ⟨-, rfl⟩ := Prod.mk.inj (Option.some.inj h)
      obtain ⟨front, c, rfl⟩ : ∃ front c, symbols = front ++ [c] :=
        ⟨_, _, (List.dropLast_concat_getLast (by simpa using hne)).symm⟩
      exact ⟨front, c, by simp [endsName, hsymbols c (by simp)], by simp⟩

theorem namedBefore_of_readName {name : String} (h : readName cs = some (name, rest)) :
    NamedBefore rest cs := by
  rw [readName.eq_def] at h
  split at h
  next cs =>
    cases hspan : cs.span (· != ']') with
    | mk inside left =>
      rw [hspan] at h
      obtain ⟨rfl, -, -⟩ := Text.span_eq_iff.mp hspan
      obtain ⟨left', hclose, heq⟩ := Option.map_eq_some_iff.mp h
      obtain ⟨-, rfl⟩ := Prod.mk.inj heq
      rw [char?_eq_some_iff.mp hclose]
      exact ⟨'[' :: inside, ']', rfl, rfl⟩
  next => exact namedBefore_of_readIdentifier h

theorem namedBefore_of_readNames : ∀ (n : Nat) (cs : List Char),
    (readNames n cs).2 = cs ∨ NamedBefore (readNames n cs).2 cs
  | 0, _ => .inl rfl
  | n + 1, cs => by
      rw [readNames_succ]
      split
      next name left hread =>
        obtain ⟨after, hseparator, hname⟩ := Option.bind_eq_some_iff.mp hread
        have hafter : after <:+ cs := by
          have hleads := leads_skipSeparator (kept cs)
          rw [before_kept] at hleads
          exact suffix_of_leads hleads hseparator
        have hnamed := (namedBefore_of_readName hname).of_suffix hafter
        refine .inr ?_
        rcases namedBefore_of_readNames n left with heq | hmore
        · rwa [heq]
        · obtain ⟨front, c, -, rfl⟩ := hnamed
          exact hmore.of_suffix ⟨front ++ [c], by simp⟩
      next => exact .inl rfl

theorem skipCurrent_suffix (cs : List Char) : skipCurrent cs <:+ cs := by
  obtain ⟨u, hu, hbefore, -⟩ := exists_skipCurrent (kept cs)
  rw [before_kept] at hbefore
  simpa [hbefore] using before_suffix hu

theorem getD_suffix {o o' : Option (List Char)} (h : Leads (kept cs) o o') : o.getD cs <:+ cs := by
  cases hread : o with
  | none => exact List.suffix_rfl
  | some rest => exact suffix_of_leads h hread

theorem countUps_suffix (cs : List Char) : (countUps cs).2 <:+ cs := by
  obtain ⟨n, u, hu, hbefore, -⟩ := exists_countUps (Nat.le_refl (kept cs).length)
  rw [before_kept] at hbefore
  simpa [hbefore] using before_suffix hu

theorem skipRoot?_suffix (cs : List Char) : (skipRoot? cs).getD cs <:+ cs := by
  have hleads := leads_skipRoot? (kept cs)
  rw [before_kept] at hleads
  exact getD_suffix hleads

theorem char?_suffix (hc : isBrace c = false) (cs : List Char) : (char? c cs).getD cs <:+ cs := by
  have hleads := leads_char? hc (kept cs)
  rw [before_kept] at hleads
  exact getD_suffix hleads

/-- **A path is the text in front of what it leaves**, and ends as a name does. -/
theorem readPath_source (h : readPath cs = some (p, rest)) :
    cs = p.source.toList ++ rest ∧ ∃ front c, endsName c = true ∧ p.source.toList = front ++ [c] := by
  rw [readPath_eq] at h
  obtain ⟨⟨first, left⟩, hname, heq⟩ := Option.map_eq_some_iff.mp h
  have hstart := (countUps_suffix _).trans ((char?_suffix (c := '@') rfl _).trans
    ((skipRoot?_suffix _).trans (skipCurrent_suffix cs)))
  have hnamed : NamedBefore rest cs := by
    have hfirst := (namedBefore_of_readName hname).of_suffix hstart
    obtain rfl : (readNames left.length left).2 = rest := (Prod.mk.inj heq).2
    rcases namedBefore_of_readNames left.length left with hsame | hmore
    · rwa [hsame]
    · obtain ⟨front, c, -, hcs⟩ := hfirst
      exact hmore.of_suffix ⟨front ++ [c], by rw [hcs]; simp⟩
  obtain ⟨front, c, hc, rfl⟩ := hnamed
  have hsource : p.source = String.ofList (front ++ [c]) := by
    obtain ⟨hp, hrest⟩ := Prod.mk.inj heq
    rw [← hp, hrest]
    rw [List.append_cons, consumed_append]
  rw [hsource, String.toList_ofList]
  exact ⟨by simp, front, c, hc, rfl⟩

/-- Characters that stand between the braces of a tag and start no path. -/
def noPathStart : List Char :=
  [' ', '\t', '\n', '\r', '~', '!', '#', '/', '*', '>', '&', '{', '^']

theorem readPath_eq_none (hc : c ∈ noPathStart) (cs : List Char) : readPath (c :: cs) = none := by
  simp only [noPathStart, List.mem_cons, List.not_mem_nil, or_false] at hc
  rcases hc with rfl | rfl | rfl | rfl | rfl | rfl | rfl | rfl | rfl | rfl | rfl | rfl | rfl <;> rfl

theorem readShown_path (h : readShown cs = some (.path p, rest)) :
    readReference cs = some (.path p, rest) := by
  rw [readShown, Option.orElse_eq_or, Option.or_eq_some_iff] at h
  rcases h with hcall | ⟨-, hreference⟩
  · obtain ⟨⟨call, left⟩, -, heq⟩ := Option.map_eq_some_iff.mp hcall
    cases heq
  · exact hreference

theorem readReference_path (h : readReference cs = some (.path p, rest)) :
    readPath cs = some (p, rest) := by
  rw [readReference, Option.orElse_eq_or, Option.or_eq_some_iff] at h
  rcases h with hcomputed | ⟨-, hpath⟩
  · obtain ⟨⟨e, left⟩, -, heq⟩ := Option.map_eq_some_iff.mp hcomputed
    cases heq
  · obtain ⟨⟨q, left⟩, hread, heq⟩ := Option.map_eq_some_iff.mp hpath
    cases heq
    exact hread

theorem exists_readPath_of_readForm (h : readForm cs = some (.value (.path p), rest)) :
    ∃ cs' rest', readPath cs' = some (p, rest') := by
  have hshown {cs : List Char} {shown : Shown} {left : List Char}
      (hread : readShown cs = some (shown, left)) (heq : shown = .path p) :
      ∃ cs' rest', readPath cs' = some (p, rest') :=
    ⟨cs, left, readReference_path (readShown_path (heq ▸ hread))⟩
  rw [readForm.eq_def] at h
  split at h
  next =>
    split at h <;> (obtain ⟨x, -, heq⟩ := Option.map_eq_some_iff.mp h; cases heq)
  next =>
    rw [readClose_eq] at h
    dsimp only at h
    split at h
    · cases h
    · obtain ⟨x, -, heq⟩ := Option.map_eq_some_iff.mp h
      cases heq
  next =>
    obtain ⟨x, -, heq⟩ := Option.map_eq_some_iff.mp h
    cases heq
  next =>
    obtain ⟨x, -, heq⟩ := Option.map_eq_some_iff.mp h
    cases heq
  next cs =>
    obtain ⟨⟨shown, left⟩, hread, heq⟩ := Option.map_eq_some_iff.mp h
    cases heq
    exact ⟨_, _, readReference_path hread⟩
  next cs =>
    obtain ⟨⟨shown, left⟩, hread, hmark⟩ := Option.bind_eq_some_iff.mp h
    obtain ⟨left', -, heq⟩ := Option.bind_eq_some_iff.mp hmark
    exact hshown hread (by cases heq; rfl)
  next =>
    obtain ⟨⟨shown, left⟩, hread, heq⟩ := Option.map_eq_some_iff.mp h
    exact hshown hread (by cases heq; rfl)

/-- Another case of a block is no value. -/
theorem form_of_readAlternative {trim : Bool} {tag : Tag}
    (h : readAlternative trim cs = some (tag, rest)) (shown : Shown) : tag.form ≠ .value shown := by
  rw [readAlternative_eq] at h
  obtain ⟨left, -, hread⟩ := Option.bind_eq_some_iff.mp h
  rw [Option.orElse_eq_or, Option.or_eq_some_iff] at hread
  rcases hread with hsingle | ⟨-, hchain⟩
  · obtain ⟨_, _, heq, -⟩ := exists_of_finish hsingle
    rw [← (Prod.mk.inj (Option.some.inj heq)).1]
    simp
  · obtain ⟨left', _, hform, -⟩ := exists_of_finish hchain
    obtain ⟨x, -, heq⟩ := Option.map_eq_some_iff.mp hform
    rw [← (Prod.mk.inj heq).1]
    simp

theorem exists_readPath_of_readTag {trimBefore trimAfter : Bool}
    (h : readTag cs = some (⟨.value (.path p), trimBefore, trimAfter⟩, rest)) :
    ∃ cs' rest', readPath cs' = some (p, rest') := by
  rw [readTag] at h
  split at h
  · cases h
  · rw [Option.orElse_eq_or, Option.or_eq_some_iff] at h
    rcases h with htriple | ⟨-, hplain⟩
    · rw [readTriple_eq] at htriple
      obtain ⟨body, -, hread⟩ := Option.bind_eq_some_iff.mp htriple
      obtain ⟨⟨shown, left⟩, hshown, hclosing⟩ := Option.bind_eq_some_iff.mp hread
      obtain ⟨y, -, heq⟩ := Option.map_eq_some_iff.mp hclosing
      cases heq
      exact ⟨_, _, readReference_path (readShown_path hshown)⟩
    · obtain ⟨⟨trim, left⟩, -, hread⟩ := Option.bind_eq_some_iff.mp hplain
      dsimp only at hread
      rw [Option.orElse_eq_or, Option.or_eq_some_iff] at hread
      rcases hread with halternative | ⟨-, hform⟩
      · exact (form_of_readAlternative halternative _ rfl).elim
      · obtain ⟨left', _, hform, -⟩ := exists_of_finish hform
        exact exists_readPath_of_readForm hform

/-! ## Value tags -/

theorem mem_noPathStart_of_isPadding (h : isPadding c = true) : c ∈ noPathStart := by
  simp only [isPadding, isBlank, Bool.or_eq_true, beq_iff_eq] at h
  rcases h with (((rfl | rfl) | rfl) | rfl) | rfl <;> decide

theorem isBlank_eq_false_of_isPadding (h : isPadding c = false) : isBlank c = false := by
  simp only [isPadding, Bool.or_eq_false_iff] at h
  exact h.1

/-- Padding is blanks, or goes on with a mark after blanks. -/
theorem padding_cases : ∀ {cs : List Char}, (∀ c ∈ cs, isPadding c = true) →
    (∀ c ∈ cs, isBlank c = true) ∨ ∃ bs more, cs = bs ++ '~' :: more ∧
      (∀ c ∈ bs, isBlank c = true) ∧ ∀ c ∈ more, isPadding c = true
  | [], _ => .inl (by simp)
  | c :: cs, h => by
      have hcs : ∀ d ∈ cs, isPadding d = true := fun d hd => h d (List.mem_cons_of_mem c hd)
      have hc := h c List.mem_cons_self
      simp only [isPadding, Bool.or_eq_true, beq_iff_eq] at hc
      rcases hc with hblank | rfl
      · rcases padding_cases hcs with hall | ⟨bs, more, rfl, hbs, hmore⟩
        · exact .inl (by simpa [hblank] using hall)
        · exact .inr ⟨c :: bs, more, rfl, by simpa [hblank] using hbs, hmore⟩
      · exact .inr ⟨[], cs, rfl, by simp, hcs⟩

/-- **A mark that trims is read off padding** whatever follows, up to a second mark if there is one. -/
theorem takeTrim_padding {lead : List Char} (hlead : ∀ c ∈ lead, isPadding c = true) :
    ∃ trim left, (∀ c ∈ left.head?, c = '~') ∧ ∀ c cs, isPadding c = false →
      takeTrim (lead ++ c :: cs) = (trim, left ++ c :: cs) := by
  rcases padding_cases hlead with hall | ⟨bs, more, rfl, hbs, hmore⟩
  · refine ⟨false, [], by simp, fun c cs hc => ?_⟩
    have hblank := isBlank_eq_false_of_isPadding hc
    have hmark : '~' ≠ c := by rintro rfl; exact absurd hc (by decide)
    rw [takeTrim, mark?, skipBlanks_append hall, skipBlanks_cons_of_not hblank, char?, if_neg hmark]
    rfl
  · have hfirst (cs : List Char) :
        takeTrim (bs ++ '~' :: more ++ cs) = (true, skipBlanks (more ++ cs)) := by
      have hmark : mark? '~' (bs ++ '~' :: more ++ cs) = some (more ++ cs) :=
        (mark?_eq_some_iff (by decide)).mpr ⟨bs, hbs, by simp⟩
      rw [takeTrim, hmark]
    rcases padding_cases hmore with hall | ⟨bs', more', rfl, hbs', -⟩
    · refine ⟨true, [], by simp, fun c cs hc => ?_⟩
      rw [hfirst, skipBlanks_append hall, skipBlanks_cons_of_not (isBlank_eq_false_of_isPadding hc)]
      rfl
    · refine ⟨true, '~' :: more', by simp, fun c cs _ => ?_⟩
      rw [hfirst, List.append_assoc, skipBlanks_append hbs', List.cons_append,
        skipBlanks_cons_of_not (by decide)]

theorem readTag_padding {lead : List Char} (hlead : ∀ c ∈ lead, isPadding c = true) (hbang : c ≠ '!')
    (hbrace : c ≠ '{') (cs : List Char) :
    readTag ('{' :: '{' :: (lead ++ c :: cs)) = readInside (lead ++ c :: cs) := by
  cases lead with
  | nil => exact readTag_plain hbang hbrace cs
  | cons d lead =>
    have hd := hlead d List.mem_cons_self
    exact readTag_plain (by rintro rfl; exact absurd hd (by decide))
      (by rintro rfl; exact absurd hd (by decide)) _

/-- The text of a value tag between two braces. -/
def plainTag (lead path trail : List Char) : List Char :=
  '{' :: '{' :: (lead ++ path ++ trail ++ ['}', '}'])

/-- The text of a value tag between three braces. -/
def tripleTag (lead path trail : List Char) : List Char :=
  '{' :: '{' :: '{' :: (lead ++ path ++ trail ++ ['}', '}', '}'])

/-- The text of a value tag with an ampersand. -/
def ampersandTag (lead path trail : List Char) : List Char :=
  '{' :: '{' :: (lead ++ '&' :: (path ++ trail ++ ['}', '}']))

section ValueTags

variable {lead trail : List Char} {trimBefore trimAfter : Bool}

theorem isPadding_of_not_mem (hc : c ∉ noPathStart) : isPadding c = false := by
  by_contra hpad
  exact hc (mem_noPathStart_of_isPadding (by simpa using hpad))

theorem not_mem_formMarks (hc : c ∉ noPathStart) : c ∉ formMarks := by
  intro hmem
  refine hc ?_
  revert hmem
  simp only [formMarks, noPathStart, List.mem_cons, List.not_mem_nil, or_false]
  tauto

/-- A value tag between two braces: behind the padding its path is read, then the end of the tag. -/
theorem inside_of_readTag (hlead : ∀ c ∈ lead, isPadding c = true) (hc : c ∉ noPathStart)
    (h : readTag ('{' :: '{' :: (lead ++ c :: cs)) =
      some (⟨.value (.path p), trimBefore, trimAfter⟩, rest)) :
    (∀ c cs, isPadding c = false → takeTrim (lead ++ c :: cs) = (trimBefore, c :: cs)) ∧
      ∃ left, readShown (c :: cs) = some (.path p, left) ∧
        readClosing ['}', '}'] left = some (trimAfter, rest) := by
  obtain ⟨trim, left, hleft, htrim⟩ := takeTrim_padding hlead
  rw [readTag_padding hlead (by rintro rfl; exact hc (by decide)) (by rintro rfl; exact hc (by decide)),
    readInside, htrim c _ (isPadding_of_not_mem hc), Option.orElse_eq_or, Option.or_eq_some_iff] at h
  rcases h with halternative | ⟨-, hform⟩
  · exact (form_of_readAlternative halternative _ rfl).elim
  obtain rfl : left = [] := by
    cases left with
    | nil => rfl
    | cons d left =>
      obtain rfl := hleft d rfl
      cases hform
  dsimp only at hform
  rw [List.nil_append, readForm_of_not_mark (not_mem_formMarks hc), finish_eq, Option.bind_map] at hform
  obtain ⟨⟨shown, left⟩, hshown, hread⟩ := Option.bind_eq_some_iff.mp hform
  obtain ⟨⟨trimAfter', rest'⟩, hclosing, heq⟩ := Option.map_eq_some_iff.mp hread
  cases heq
  exact ⟨fun d ds hd => by simpa using htrim d ds hd, left, hshown, hclosing⟩

theorem isPadding_of_trims {pad : List Char} : ∀ {trim : Bool}, Trims pad trim →
    ∀ c ∈ pad, isPadding c = true
  | true, ⟨as, bs, hpad, has, hbs⟩, c, hc => by
      rw [hpad, List.mem_append, List.mem_cons] at hc
      rcases hc with hc | rfl | hc
      · simp [isPadding, has c hc]
      · rfl
      · simp [isPadding, hbs c hc]
  | false, hpad, c, hc => by simp [isPadding, hpad c hc]

/-- **Every value tag between two braces** is a path with padding around it. -/
theorem exists_plainTag (hlead : ∀ c ∈ lead, isPadding c = true) (hc : c ∉ noPathStart)
    (h : readTag ('{' :: '{' :: (lead ++ c :: cs)) =
      some (⟨.value (.path p), trimBefore, trimAfter⟩, rest)) :
    ∃ trail, (∀ c ∈ trail, isPadding c = true) ∧
      '{' :: '{' :: (lead ++ c :: cs) = plainTag lead p.source.toList trail ++ rest := by
  obtain ⟨-, left, hshown, hclosing⟩ := inside_of_readTag hlead hc h
  obtain ⟨hpath, -⟩ := readPath_source (readReference_path (readShown_path hshown))
  obtain ⟨trail, htrail, hleft⟩ := readClosing_eq_some_iff.mp hclosing
  exact ⟨trail, isPadding_of_trims htrail, by rw [hpath, hleft]; simp [plainTag]⟩

/-- **What a value tag is made of**: its path, read where the padding ends, and the end of the tag. -/
theorem parts_of_readTag (hlead : ∀ c ∈ lead, isPadding c = true)
    (h : readTag (plainTag lead p.source.toList trail ++ rest) =
      some (⟨.value (.path p), trimBefore, trimAfter⟩, rest)) :
    (∃ c cs, p.source.toList = c :: cs ∧ c ∉ noPathStart) ∧
      (∃ front c, endsName c = true ∧ p.source.toList = front ++ [c]) ∧
      (∀ c cs, isPadding c = false → takeTrim (lead ++ c :: cs) = (trimBefore, c :: cs)) ∧
      ∃ left, readShown (p.source.toList ++ (trail ++ '}' :: '}' :: rest)) = some (.path p, left) ∧
        readClosing ['}', '}'] left = some (trimAfter, rest) := by
  obtain ⟨cs', rest', hpath⟩ := exists_readPath_of_readTag h
  obtain ⟨hcs', front, d, hd, hsource⟩ := readPath_source hpath
  obtain ⟨c, cs, hstart⟩ : ∃ c cs, p.source.toList = c :: cs := by
    cases hcases : p.source.toList with
    | nil => rw [hcases] at hsource; simp at hsource
    | cons c cs => exact ⟨c, cs, rfl⟩
  have hc : c ∉ noPathStart := by
    intro hmem
    rw [hcs', hstart, List.cons_append, readPath_eq_none hmem] at hpath
    cases hpath
  have htext : plainTag lead p.source.toList trail ++ rest =
      '{' :: '{' :: (lead ++ c :: (cs ++ (trail ++ '}' :: '}' :: rest))) := by
    simp [plainTag, hstart]
  rw [htext] at h
  obtain ⟨htrim, left, hshown, hclosing⟩ := inside_of_readTag hlead hc h
  rw [← List.cons_append, ← hstart] at hshown
  exact ⟨⟨c, cs, hstart, hc⟩, ⟨front, d, hd, hsource⟩, htrim, left, hshown, hclosing⟩

/-- **Two braces with an ampersand after them read as two braces.** -/
theorem readTag_ampersand (hlead : ∀ c ∈ lead, isPadding c = true) (ht : Lawful false t)
    (h : readTag (plainTag lead p.source.toList trail ++ before t) =
      some (⟨.value (.path p), trimBefore, trimAfter⟩, before t)) :
    readTag (ampersandTag lead p.source.toList trail ++ after t) =
      some (⟨.value (.path p), trimBefore, trimAfter⟩, after t) := by
  obtain ⟨⟨c, cs, hstart, hc⟩, -, htrim, left, hshown, hclosing⟩ := parts_of_readTag hlead h
  have hs := readable_kept ht (p.source.toList ++ trail ++ ['}', '}'])
  have hform : Alike t.length (kept (p.source.toList ++ trail ++ ['}', '}']) ++ t)
      ((readReference (p.source.toList ++ (trail ++ '}' :: '}' :: before t))).map
        fun x => (Form.value x.1, x.2))
      ((readReference (p.source.toList ++ (trail ++ '}' :: '}' :: after t))).map
        fun x => (Form.value x.1, x.2)) := by
    simpa using (alike_readReference hs).map Form.value
  have hfinish : finish trimBefore ((readReference (p.source.toList ++
      (trail ++ '}' :: '}' :: before t))).map fun x => (Form.value x.1, x.2)) =
      some (⟨.value (.path p), trimBefore, trimAfter⟩, before t) := by
    rw [readShown_path hshown, finish_eq, Option.map_some, Option.bind_some, hclosing]
    rfl
  have hkept := finish_kept hform List.suffix_rfl (List.suffix_append _ t) hs.keptTo hfinish
  have htext : ampersandTag lead p.source.toList trail ++ after t =
      '{' :: '{' :: (lead ++ '&' :: (p.source.toList ++ (trail ++ '}' :: '}' :: after t))) := by
    simp [ampersandTag]
  have hblank : isBlank c = false := isBlank_eq_false_of_isPadding (isPadding_of_not_mem hc)
  rw [htext, readTag_padding hlead (by decide) (by decide), readInside, htrim '&' _ (by decide)]
  have hskip : skipBlanks (p.source.toList ++ (trail ++ '}' :: '}' :: after t)) =
      p.source.toList ++ (trail ++ '}' :: '}' :: after t) := by
    rw [hstart, List.cons_append, skipBlanks_cons_of_not hblank]
  have hvalue (cs : List Char) : readForm ('&' :: cs) =
      (readReference (skipBlanks cs)).map fun x => (Form.value x.1, x.2) := rfl
  dsimp only
  rw [hvalue, hskip, hkept]
  rfl

theorem head?_afterBlanks_ne_closing : ∀ {cs : List Char}, (∃ c ∈ cs, isBlank c = false) →
    (afterBlanks (kept cs ++ s)).head? ≠ some .closing
  | [], h => by simp at h
  | c :: cs, h => by
      rw [kept_cons, List.cons_append, afterBlanks_char]
      split
      next hc => exact head?_afterBlanks_ne_closing (by simpa [hc] using h)
      next => simp

theorem isBlank_of_endsName (h : endsName c = true) : isBlank c = false := by
  by_contra hblank
  simp only [isBlank, Bool.not_eq_false, Bool.or_eq_true, beq_iff_eq] at hblank
  rcases hblank with ((rfl | rfl) | rfl) | rfl <;> exact absurd h (by decide)

theorem isQuote_of_endsName (h : endsName c = true) : isQuote c = false := by
  by_contra hquote
  simp only [isQuote, Bool.not_eq_false, Bool.or_eq_true, beq_iff_eq] at hquote
  rcases hquote with rfl | rfl <;> exact absurd h (by decide)

theorem isQuote_of_isPadding (h : isPadding c = true) : isQuote c = false := by
  by_contra hquote
  simp only [isQuote, Bool.not_eq_false, Bool.or_eq_true, beq_iff_eq] at hquote
  rcases hquote with rfl | rfl <;> exact absurd h (by decide)

theorem lawful_padding (ht : Lawful false t) : ∀ {trail : List Char},
    (∀ c ∈ trail, isPadding c = true) → Lawful true (kept trail ++ .closing :: t)
  | [], _ => .closing ht
  | c :: trail, htrail => by
      have hc := htrail c List.mem_cons_self
      refine .inner (isQuote_of_isPadding hc) (fun heq => ?_)
        (lawful_padding ht fun d hd => htrail d (List.mem_cons_of_mem c hd))
      subst heq
      exact absurd hc (by decide)

/-- **A path without a quotation mark may stand between braces that become three**: it ends as a name
does, so an object that begins in it is not closed by the braces. -/
theorem lawful_path (ht : Lawful false t) (htrail : ∀ c ∈ trail, isPadding c = true)
    (hc : endsName c = true) : ∀ {front : List Char}, (∀ d ∈ front, isQuote d = false) →
      Lawful true (kept (front ++ c :: trail) ++ .closing :: t)
  | [], _ => .inner (isQuote_of_endsName hc) (by rintro rfl; exact absurd hc (by decide))
      (lawful_padding ht htrail)
  | d :: front, hfront => .inner (hfront d List.mem_cons_self)
      (fun _ => head?_afterBlanks_ne_closing ⟨c, by simp, isBlank_of_endsName hc⟩)
      (lawful_path ht htrail hc fun e he => hfront e (List.mem_cons_of_mem d he))

/-- **Two braces with a third on either side read as two braces.** -/
theorem readTag_triple (hlead : ∀ c ∈ lead, isPadding c = true)
    (htrail : ∀ c ∈ trail, isPadding c = true) (hquotes : ∀ c ∈ p.source.toList, isQuote c = false)
    (ht : Lawful false t)
    (h : readTag (plainTag lead p.source.toList trail ++ before t) =
      some (⟨.value (.path p), trimBefore, trimAfter⟩, before t)) :
    readTag (tripleTag lead p.source.toList trail ++ after t) =
      some (⟨.value (.path p), trimBefore, trimAfter⟩, after t) := by
  obtain ⟨⟨c, cs, hstart, hc⟩, ⟨front, d, hd, hend⟩, htrim, left, hshown, hclosing⟩ :=
    parts_of_readTag hlead h
  have hs : Readable (t.length + 1) (kept (p.source.toList ++ trail) ++ .closing :: t) := by
    refine ⟨keptTo_append _ _, true, ?_⟩
    have hfront : ∀ e ∈ front, isQuote e = false := fun e he =>
      hquotes e (by rw [hend]; exact List.mem_append_left _ he)
    have hlawful := lawful_path ht htrail hd hfront
    rw [hend]
    simpa using hlawful
  have hread := alike_readShown hs
  rw [before_append, after_append, before_kept, after_kept, before_closing, after_closing,
    List.append_assoc, List.append_assoc, hshown] at hread
  obtain ⟨hnone, -⟩ | ⟨shown, shown', v, hv, -, hsame, hbefore, hafter⟩ := hread
  · cases hnone
  obtain ⟨rfl, rfl⟩ := Prod.mk.inj (Option.some.inj hbefore)
  obtain ⟨pad, hpad, hleft⟩ := readClosing_eq_some_iff.mp hclosing
  obtain ⟨w, rfl⟩ := suffix_of_length hv (List.suffix_append _ (.closing :: t))
    (by rw [hleft]; simp)
  obtain ⟨ds, rfl⟩ := hs.keptTo.suffix hv w (.closing :: t) rfl (Nat.le_refl _)
  obtain rfl : ds = pad := by
    have hcancel : ds ++ '}' :: '}' :: before t = pad ++ '}' :: '}' :: before t := by
      simpa using hleft
    exact List.append_cancel_right hcancel
  obtain rfl := hsame (by simp)
  have hthree : readClosing ['}', '}', '}'] (ds ++ '}' :: '}' :: '}' :: after t) =
      some (trimAfter, after t) := readClosing_eq_some_iff.mpr ⟨ds, hpad, rfl⟩
  have htext : tripleTag lead p.source.toList trail ++ after t = '{' :: '{' :: '{' ::
      (lead ++ c :: (cs ++ (trail ++ '}' :: '}' :: '}' :: after t))) := by
    simp [tripleTag, hstart]
  rw [hstart, List.cons_append] at hafter
  rw [htext, readTag_brace, readTriple_brace, htrim c _ (isPadding_of_not_mem hc), hafter,
    Option.bind_some]
  simp [hthree]

end ValueTags

end PinnedManifest.Template.Respelling
