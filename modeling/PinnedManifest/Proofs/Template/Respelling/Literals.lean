import PinnedManifest.Proofs.Template.Respelling.Strokes

/-!
# Proofs/Template/Respelling/Literals — literals read over respelled tags

A literal may begin before a respelled tag and run across it, since a string holds any braces.  No
literal ends inside one: outside a string two opening braces are no literal, and between braces that
become three no quotation mark may stand (`Lawful`), so that a string is never left there.  Without that
condition a third brace could close an object that began before the tag.
-/

namespace PinnedManifest.Template.Respelling

open Json (isBlank skipBlanks)

/-- Whether a character is a quotation mark of one of the two kinds. -/
def isQuote (c : Char) : Bool := c == '"' || c == '\''

/-- **Strokes that start outside or inside braces that become three.**  Inside there is no quotation
mark, and the braces do not close an object. -/
inductive Lawful : Bool → List Stroke → Prop
  | nil : Lawful false []
  | char {c : Char} {s : List Stroke} : Lawful false s → Lawful false (.char c :: s)
  | ampersand {lead : List Char} {h : ∀ c ∈ lead, isPadding c = true} {s : List Stroke} :
    Lawful false s → Lawful false (.ampersand lead h :: s)
  | opening {s : List Stroke} : Lawful true s → Lawful false (.opening :: s)
  | inner {c : Char} {s : List Stroke} : isQuote c = false →
    (c = '{' → (afterBlanks s).head? ≠ some .closing) → Lawful true s → Lawful true (.char c :: s)
  | closing {s : List Stroke} : Lawful false s → Lawful true (.closing :: s)

variable {inside : Bool} {k : Nat} {s t : List Stroke} {c : Char}

theorem Lawful.of_char (h : Lawful inside (.char c :: s)) : Lawful inside s := by
  cases h with
  | char h => exact h
  | inner _ _ h => exact h

theorem Lawful.of_kept : ∀ {cs : List Char}, Lawful inside (kept cs ++ s) → Lawful inside s
  | [], h => h
  | _ :: _, h => Lawful.of_kept (Lawful.of_char h)

theorem Lawful.afterBlanks : ∀ {s : List Stroke}, Lawful inside s → Lawful inside (afterBlanks s)
  | .char c :: s, h => by
      rw [afterBlanks_char]
      split
      · exact Lawful.afterBlanks h.of_char
      · exact h
  | [], h | .ampersand _ _ :: _, h | .opening :: _, h | .closing :: _, h => h

theorem Lawful.head?_ne_closing (h : Lawful false s) : s.head? ≠ some .closing := by
  cases h <;> simp

theorem Lawful.exists_tail {x : Stroke} (h : Lawful inside (x :: s)) : ∃ inside', Lawful inside' s := by
  cases h <;> exact ⟨_, ‹_›⟩

theorem Lawful.exists_suffix : ∀ {u : List Stroke} {inside : Bool}, Lawful inside (u ++ t) →
    ∃ inside', Lawful inside' t
  | [], _, h => ⟨_, h⟩
  | _ :: _, _, h => by
      obtain ⟨_, htail⟩ := h.exists_tail
      exact htail.exists_suffix

/-! ## Strokes left on the same side -/

/-- Both runs fail, or both leave the same strokes, fewer than before, on a given side. -/
def LeadsOn (inside : Bool) (s : List Stroke) (o o' : Option (List Char)) : Prop :=
  o = none ∧ o' = none ∨ ∃ t, t <:+ s ∧ t.length < s.length ∧ Lawful inside t ∧
    o = some (before t) ∧ o' = some (after t)

/-- Both runs leave the same strokes, on a given side. -/
def StaysOn (inside : Bool) (s : List Stroke) (cs cs' : List Char) : Prop :=
  ∃ t, t <:+ s ∧ Lawful inside t ∧ cs = before t ∧ cs' = after t

theorem LeadsOn.none : LeadsOn inside s none none := .inl ⟨rfl, rfl⟩

theorem LeadsOn.of_suffix {o o' : Option (List Char)} (hts : t <:+ s) (h : LeadsOn inside t o o') :
    LeadsOn inside s o o' := by
  obtain h | ⟨v, hv, hlt, hlawful, rfl, rfl⟩ := h
  · exact .inl h
  · exact .inr ⟨v, hv.trans hts, hlt.trans_le hts.length_le, hlawful, rfl, rfl⟩

theorem LeadsOn.bind {o o' : Option (List Char)} {f f' : List Char → Option (List Char)}
    (h : LeadsOn inside s o o')
    (hf : ∀ t, t <:+ s → t.length < s.length → Lawful inside t →
      LeadsOn inside t (f (before t)) (f' (after t))) :
    LeadsOn inside s (o.bind f) (o'.bind f') := by
  obtain ⟨rfl, rfl⟩ | ⟨t, hts, hlt, hlawful, rfl, rfl⟩ := h
  · exact .none
  · exact (hf t hts hlt hlawful).of_suffix hts

theorem LeadsOn.orElse {o o' : Option (List Char)} {p p' : Unit → Option (List Char)}
    (h : LeadsOn inside s o o') (hp : LeadsOn inside s (p ()) (p' ())) :
    LeadsOn inside s (o.orElse p) (o'.orElse p') := by
  obtain ⟨rfl, rfl⟩ | h := h
  · exact hp
  · obtain ⟨t, hts, hlt, hlawful, rfl, rfl⟩ := h
    exact .inr ⟨t, hts, hlt, hlawful, rfl, rfl⟩

theorem LeadsOn.getD {o o' : Option (List Char)} (hs : Lawful inside s) (h : LeadsOn inside s o o') :
    StaysOn inside s (o.getD (before s)) (o'.getD (after s)) := by
  obtain ⟨rfl, rfl⟩ | ⟨t, hts, -, hlawful, rfl, rfl⟩ := h
  · exact ⟨s, List.suffix_refl s, hs, rfl, rfl⟩
  · exact ⟨t, hts, hlawful, rfl, rfl⟩

theorem leadsOn_char? (hs : Lawful inside s) (hopen : c ≠ '{')
    (hclose : c = '}' → s.head? ≠ some .closing) :
    LeadsOn inside s (char? c (before s)) (char? c (after s)) := by
  obtain h | ⟨t, rfl, hbefore, hafter⟩ := char?_cases hopen s hclose
  · exact .inl h
  · exact .inr ⟨t, List.suffix_cons _ t, by simp, hs.of_char, hbefore, hafter⟩

theorem leadsOn_mark? (hs : Lawful inside s) (hopen : c ≠ '{')
    (hclose : c = '}' → (afterBlanks s).head? ≠ some .closing) :
    LeadsOn inside s (mark? c (before s)) (mark? c (after s)) := by
  rw [mark?, mark?, skipBlanks_before, skipBlanks_after]
  exact (leadsOn_char? hs.afterBlanks hopen hclose).of_suffix (afterBlanks_suffix s)

/-! ## Strings -/

/-- Where a reader stands in a string. -/
inductive StringState
  | plain
  /-- After a backslash. -/
  | escape
  /-- In a code point, with so many digits and one more to come. -/
  | digits (more : Nat)

/-- The state after a digit with so many more to come. -/
def StringState.ofMore : Nat → StringState
  | 0 => .plain
  | more + 1 => .digits more

/-- The rest after a string's closing quote, one character at a time. -/
def skipStringFrom (quote : Char) : StringState → List Char → Option (List Char)
  | _, [] => none
  | .plain, c :: rest =>
    if c = quote then some rest
    else if c = '\\' then skipStringFrom quote .escape rest
    else skipStringFrom quote .plain rest
  | .escape, c :: rest =>
    if c = 'u' then skipStringFrom quote (.digits 3) rest
    else if isEscapeLetter quote c then skipStringFrom quote .plain rest
    else none
  | .digits more, c :: rest =>
    if (Text.Hex.value? c).isSome then skipStringFrom quote (.ofMore more) rest else none

theorem skipStringFrom_digits {quote a b c d : Char} {rest : List Char} :
    skipStringFrom quote (.digits 3) (a :: b :: c :: d :: rest) =
      if (Json.hexUnit a b c d).isSome then skipStringFrom quote .plain rest else none := by
  rw [Json.hexUnit]
  cases ha : Text.Hex.value? a <;> cases hb : Text.Hex.value? b <;> cases hc : Text.Hex.value? c <;>
    cases hd : Text.Hex.value? d <;> simp [skipStringFrom, StringState.ofMore, ha, hb, hc, hd]

/-- A text that ends among the digits of a code point ends no string. -/
theorem skipStringFrom_short {quote : Char} : ∀ {more : Nat} {cs : List Char}, cs.length ≤ more →
    skipStringFrom quote (.digits more) cs = none
  | _, [], _ => by simp [skipStringFrom]
  | more + 1, c :: cs, h => by
      rw [skipStringFrom, StringState.ofMore, skipStringFrom_short (Nat.le_of_succ_le_succ h)]
      exact ite_self _

/-- Reading a string one character at a time changes nothing. -/
theorem skipString_eq {quote : Char} (hquote : isQuote quote = true) (cs : List Char) :
    skipString quote cs = skipStringFrom quote .plain cs := by
  have hslash : '\\' ≠ quote := by rintro rfl; exact absurd hquote (by decide)
  have hu : isEscapeLetter quote 'u' = false := by
    simp only [isQuote, Bool.or_eq_true, beq_iff_eq] at hquote
    rcases hquote with rfl | rfl <;> decide
  fun_induction skipString quote cs with
  | case1 => rfl
  | case2 a b c d rest hhex ih =>
    rw [ih, skipStringFrom, if_neg hslash, if_pos rfl, skipStringFrom, if_pos rfl,
      skipStringFrom_digits, if_pos hhex]
  | case3 a b c d rest hhex =>
    rw [skipStringFrom, if_neg hslash, if_pos rfl, skipStringFrom, if_pos rfl,
      skipStringFrom_digits, if_neg hhex]
  | case4 e rest hnot hletter ih =>
    have he : e ≠ 'u' := by
      rintro rfl
      exact absurd hletter (by simp [hu])
    rw [ih, skipStringFrom, if_neg hslash, if_pos rfl, skipStringFrom, if_neg he, if_pos hletter]
  | case5 e rest hnot hletter =>
    rw [skipStringFrom, if_neg hslash, if_pos rfl, skipStringFrom, if_neg hletter]
    split
    next he =>
      -- A code point of four digits would have been read as one.
      have hshort : rest.length ≤ 3 := by
        rcases rest with _ | ⟨a, _ | ⟨b, _ | ⟨c, _ | ⟨d, rest⟩⟩⟩⟩
        case cons.cons.cons.cons => exact (hnot a b c d rest he rfl).elim
        all_goals simp
      rw [skipStringFrom_short hshort]
    next => rfl
  | case6 rest => rw [skipStringFrom, if_pos rfl]
  | case7 rest hnot hnot' hquote' =>
    obtain rfl : rest = [] := by
      cases rest with
      | nil => rfl
      | cons e rest => exact (hnot' e rest rfl rfl).elim
    rw [skipStringFrom, if_neg hquote', if_pos rfl, skipStringFrom]
  | case8 c rest _ _ hquote' hslash' ih =>
    rw [ih, skipStringFrom, if_neg hquote', if_neg hslash']

theorem skipStringFrom_padding {quote : Char} (hquote : isQuote quote = true) :
    ∀ {lead : List Char} (rest : List Char), (∀ c ∈ lead, isPadding c = true) →
      skipStringFrom quote .plain (lead ++ rest) = skipStringFrom quote .plain rest
  | [], _, _ => rfl
  | c :: lead, rest, hlead => by
      have hc := hlead c List.mem_cons_self
      have hne : c ≠ quote := by
        rintro rfl
        simp only [isQuote, Bool.or_eq_true, beq_iff_eq] at hquote
        rcases hquote with rfl | rfl <;> exact absurd hc (by decide)
      have hslash : c ≠ '\\' := by rintro rfl; exact absurd hc (by decide)
      rw [List.cons_append, skipStringFrom, if_neg hne, if_neg hslash]
      exact skipStringFrom_padding hquote rest fun d hd => hlead d (List.mem_cons_of_mem c hd)

/-- Braces go on a string that no backslash ends in, and end any other. -/
theorem skipStringFrom_brace {quote : Char} (hquote : isQuote quote = true) (hc : isBrace c = true)
    (state : StringState) (rest : List Char) : skipStringFrom quote state (c :: rest) =
      match state with
      | .plain => skipStringFrom quote .plain rest
      | _ => none := by
  simp only [isQuote, isBrace, Bool.or_eq_true, beq_iff_eq] at hquote hc
  rcases hquote with rfl | rfl <;> rcases hc with rfl | rfl <;> cases state <;>
    simp [skipStringFrom, isEscapeLetter, Text.Hex.value?]

theorem skipStringFrom_ampersand {quote : Char} (hquote : isQuote quote = true) (rest : List Char) :
    skipStringFrom quote .plain ('&' :: rest) = skipStringFrom quote .plain rest := by
  simp only [isQuote, Bool.or_eq_true, beq_iff_eq] at hquote
  rcases hquote with rfl | rfl <;> simp [skipStringFrom]

/-- **A string ends at one place in both spellings**, and not between braces that become three — by
induction on the strokes, where only characters change the state. -/
theorem leadsOn_skipStringFrom {quote : Char} (hquote : isQuote quote = true) :
    ∀ {s : List Stroke} {inside : Bool} (state : StringState), Lawful inside s →
      LeadsOn false s (skipStringFrom quote state (before s)) (skipStringFrom quote state (after s))
  | [], _, _, _ => .inl ⟨by simp [skipStringFrom], by simp [skipStringFrom]⟩
  | .char c :: s, _, state, hs => by
      have ih (state : StringState) : LeadsOn false (.char c :: s)
          (skipStringFrom quote state (before s)) (skipStringFrom quote state (after s)) :=
        (leadsOn_skipStringFrom hquote state hs.of_char).of_suffix (List.suffix_cons _ s)
      rw [before_char, after_char]
      cases state with
      | plain =>
        rw [skipStringFrom, skipStringFrom]
        split
        next heq =>
          subst heq
          cases hs with
          | char hs => exact .inr ⟨s, List.suffix_cons _ s, by simp, hs, rfl, rfl⟩
          | inner hinner => exact absurd hquote (by simp [hinner])
        next =>
          split
          · exact ih .escape
          · exact ih .plain
      | escape =>
        rw [skipStringFrom, skipStringFrom]
        split
        · exact ih (.digits 3)
        · split
          · exact ih .plain
          · exact .none
      | digits more =>
        rw [skipStringFrom, skipStringFrom]
        split
        · exact ih (.ofMore more)
        · exact .none
  | .ampersand lead h :: s, _, state, hs => by
      obtain ⟨_, hs⟩ := hs.exists_tail
      have hbrace := skipStringFrom_brace hquote (show isBrace '{' = true from rfl)
      simp only [before_ampersand, after_ampersand, hbrace]
      cases state with
      | plain =>
        simp only [skipStringFrom_padding hquote _ h, skipStringFrom_ampersand hquote]
        exact (leadsOn_skipStringFrom hquote .plain hs).of_suffix (List.suffix_cons _ s)
      | escape | digits => exact .none
  | .opening :: s, _, state, hs => by
      obtain ⟨_, hs⟩ := hs.exists_tail
      have hbrace := skipStringFrom_brace hquote (show isBrace '{' = true from rfl)
      simp only [before_opening, after_opening, hbrace]
      cases state with
      | plain => exact (leadsOn_skipStringFrom hquote .plain hs).of_suffix (List.suffix_cons _ s)
      | escape | digits => exact .none
  | .closing :: s, _, state, hs => by
      obtain ⟨_, hs⟩ := hs.exists_tail
      have hbrace := skipStringFrom_brace hquote (show isBrace '}' = true from rfl)
      simp only [before_closing, after_closing, hbrace]
      cases state with
      | plain => exact (leadsOn_skipStringFrom hquote .plain hs).of_suffix (List.suffix_cons _ s)
      | escape | digits => exact .none

theorem skipQuoted_of_not_quote {cs : List Char} (h : ∀ c ∈ cs.head?, isQuote c = false) :
    skipQuoted cs = none := by
  rw [skipQuoted.eq_def]
  split
  · exact absurd (h '"' rfl) (by decide)
  · exact absurd (h '\'' rfl) (by decide)
  · rfl

theorem leadsOn_skipQuoted (hs : Lawful inside s) :
    LeadsOn inside s (skipQuoted (before s)) (skipQuoted (after s)) := by
  rcases s with _ | ⟨c | ⟨lead, h⟩ | _ | _, s⟩
  case cons.char =>
    rw [before_char, after_char]
    by_cases hc : isQuote c = true
    · cases hs with
      | inner hinner => exact absurd hc (by simp [hinner])
      | char hs =>
        have hstring : LeadsOn false (.char c :: s) (skipString c (before s))
            (skipString c (after s)) := by
          rw [skipString_eq hc, skipString_eq hc]
          exact (leadsOn_skipStringFrom hc .plain hs).of_suffix (List.suffix_cons _ s)
        simp only [isQuote, Bool.or_eq_true, beq_iff_eq] at hc
        rcases hc with rfl | rfl <;> exact hstring
    · have hhead (cs : List Char) : ∀ d ∈ (c :: cs).head?, isQuote d = false := by
        simpa using hc
      exact .inl ⟨skipQuoted_of_not_quote (hhead _), skipQuoted_of_not_quote (hhead _)⟩
  all_goals exact .inl ⟨rfl, rfl⟩

/-! ## Numbers and words -/

/-- A run of characters that are no braces leaves the same strokes on the same side. -/
theorem staysOn_span (p : Char → Bool) (hopen : p '{' = false) (hclose : p '}' = false)
    (hs : Lawful inside s) : ((before s).span p).1 = ((after s).span p).1 ∧
      StaysOn inside s ((before s).span p).2 ((after s).span p).2 := by
  obtain ⟨cs, t, rfl, hbefore, hafter⟩ := span_eq p hopen hclose s
  rw [hbefore, hafter]
  exact ⟨rfl, t, List.suffix_append _ t, hs.of_kept, rfl, rfl⟩

theorem StaysOn.refl (hs : Lawful inside s) : StaysOn inside s (before s) (after s) :=
  ⟨s, List.suffix_refl s, hs, rfl, rfl⟩

theorem StaysOn.of_suffix {cs cs' : List Char} (hts : t <:+ s) (h : StaysOn inside t cs cs') :
    StaysOn inside s cs cs' := by
  obtain ⟨v, hv, hlawful, rfl, rfl⟩ := h
  exact ⟨v, hv.trans hts, hlawful, rfl, rfl⟩

/-- A text without a minus at its start. -/
def skipMinus : List Char → List Char
  | '-' :: rest => rest
  | cs => cs

/-- A text without a point and the digits after it. -/
def skipPoint : List Char → List Char
  | '.' :: rest => (Number.takeDigits rest).2
  | cs => cs

/-- A text without an exponent. -/
def skipExponent : List Char → List Char
  | 'E' :: rest =>
    let (ds, left) := Number.takeDigits (skipMinus rest)
    if ds.isEmpty then 'E' :: rest else left
  | cs => cs

/-- A number step by step. -/
theorem skipNumber_eq (cs : List Char) : skipNumber cs =
    let (whole, rest) := Number.takeDigits (skipMinus cs)
    if whole.isEmpty then none
    else
      let rest := skipExponent (skipPoint rest)
      if startsWithSymbol rest then none else some rest := rfl

/-- A step that one character starts leaves the same strokes when what follows does. -/
theorem StaysOn.of_char {f : List Char → List Char} (c : Char) (hc : isBrace c = false)
    (hstep : ∀ cs, char? c cs = none → f cs = cs)
    (hmeet : ∀ t, s = .char c :: t → Lawful inside t →
      StaysOn inside s (f (c :: before t)) (f (c :: after t)))
    (hs : Lawful inside s) : StaysOn inside s (f (before s)) (f (after s)) := by
  obtain ⟨hbefore, hafter⟩ | ⟨t, rfl, -, -⟩ := char?_cases_of_not_brace hc s
  · rw [hstep _ hbefore, hstep _ hafter]
    exact .refl hs
  · exact hmeet t rfl hs.of_char

theorem staysOn_skipMinus (hs : Lawful inside s) :
    StaysOn inside s (skipMinus (before s)) (skipMinus (after s)) := by
  refine .of_char '-' rfl ?_ ?_ hs
  · intro cs hnone
    rw [skipMinus.eq_def]
    split
    next => cases hnone
    next => rfl
  · rintro t rfl ht
    exact (StaysOn.refl ht).of_suffix (List.suffix_cons _ t)

theorem staysOn_skipPoint (hs : Lawful inside s) :
    StaysOn inside s (skipPoint (before s)) (skipPoint (after s)) := by
  refine .of_char '.' rfl ?_ ?_ hs
  · intro cs hnone
    rw [skipPoint.eq_def]
    split
    next => cases hnone
    next => rfl
  · rintro t rfl ht
    exact (staysOn_span Char.isDigit rfl rfl ht).2.of_suffix (List.suffix_cons _ t)

theorem staysOn_skipExponent (hs : Lawful inside s) :
    StaysOn inside s (skipExponent (before s)) (skipExponent (after s)) := by
  refine .of_char 'E' rfl ?_ ?_ hs
  · intro cs hnone
    rw [skipExponent.eq_def]
    split
    next => cases hnone
    next => rfl
  · rintro t rfl ht
    obtain ⟨v, hv, hlawful, hbefore, hafter⟩ := staysOn_skipMinus ht
    obtain ⟨hdigits, hleft⟩ := staysOn_span Char.isDigit rfl rfl hlawful
    simp only [skipExponent, hbefore, hafter, Number.takeDigits, hdigits]
    split
    · exact .refl hs
    · exact hleft.of_suffix (hv.trans (List.suffix_cons _ t))

theorem leadsOn_skipNumber (hs : Lawful inside s) :
    LeadsOn inside s (skipNumber (before s)) (skipNumber (after s)) := by
  obtain ⟨v, hv, hlawful, hbefore, hafter⟩ := staysOn_skipMinus hs
  obtain ⟨cs, t, rfl, hspan, hspan'⟩ := span_eq Char.isDigit rfl rfl v
  obtain ⟨w, hw, hpoint, hwbefore, hwafter⟩ := staysOn_skipPoint hlawful.of_kept
  obtain ⟨x, hx, hexponent, hxbefore, hxafter⟩ := staysOn_skipExponent hpoint
  simp only [skipNumber_eq, hbefore, hafter, Number.takeDigits, hspan, hspan', hwbefore, hwafter,
    hxbefore, hxafter, startsWithSymbol_after]
  split
  · exact .none
  next hdigits =>
    split
    · exact .none
    · have hlt : t.length < (kept cs ++ t).length := by
        rw [List.length_append, length_kept]
        have hpos : 0 < cs.length := List.length_pos_iff.mpr (by simpa using hdigits)
        omega
      exact .inr ⟨x, (hx.trans hw).trans ((List.suffix_append _ t).trans hv),
        ((hx.trans hw).length_le.trans_lt hlt).trans_le hv.length_le, hexponent, rfl, rfl⟩

theorem leadsOn_skipWord {word : String} (hword : braceless word.toList = true)
    (hne : word.toList ≠ []) (hs : Lawful inside s) :
    LeadsOn inside s (skipWord word (before s)) (skipWord word (after s)) := by
  rw [skipWord, skipWord]
  obtain ⟨hbefore, hafter⟩ | ⟨t, rfl, hbefore, hafter⟩ := after?_cases hword s
  · rw [hbefore, hafter]
    exact .none
  · rw [hbefore, hafter]
    simp only [startsWithSymbol_after]
    split
    · exact .none
    · have hpos := List.length_pos_iff.mpr hne
      exact .inr ⟨t, List.suffix_append _ t, by simp; omega, hs.of_kept, rfl, rfl⟩

/-! ## Containers -/

section Items

variable {l : Nat} {item item' : List Char → Option (List Char)}

theorem skipMore_eq_self {cs : List Char}
    (h : ((mark? ',' cs).bind fun rest => item (skipBlanks rest)) = none) :
    ∀ n, skipMore item n cs = cs
  | 0 => rfl
  | n + 1 => by rw [skipMore, h]

/-- **Items go on up to one place**, given that each of them ends at one — by induction on how many
may come, since a comma goes with each. -/
theorem staysOn_skipMore (hitem : ∀ t : List Stroke, t.length ≤ l → Lawful inside t →
      LeadsOn inside t (item (before t)) (item' (after t))) :
    ∀ {s : List Stroke} {n m : Nat}, s.length ≤ l → s.length ≤ n → s.length ≤ m → Lawful inside s →
      StaysOn inside s (skipMore item n (before s)) (skipMore item' m (after s)) := by
  intro s n
  induction n generalizing s with
  | zero =>
    intro m _ hn _ hs
    obtain rfl := List.length_eq_zero_iff.mp (Nat.le_zero.mp hn)
    rw [skipMore_eq_self rfl, skipMore_eq_self rfl]
    exact .refl hs
  | succ n ih =>
    intro m hl hn hm hs
    have hround : LeadsOn inside s ((mark? ',' (before s)).bind fun rest => item (skipBlanks rest))
        ((mark? ',' (after s)).bind fun rest => item' (skipBlanks rest)) := by
      refine (leadsOn_mark? hs (by decide) fun h => absurd h (by decide)).bind fun t _ hlt ht => ?_
      rw [skipBlanks_before, skipBlanks_after]
      have hblanks := (afterBlanks_suffix t).length_le
      exact (hitem _ (by omega) ht.afterBlanks).of_suffix (afterBlanks_suffix t)
    obtain ⟨hbefore, hafter⟩ | ⟨t, hts, hlt, ht, hbefore, hafter⟩ := hround
    · rw [skipMore_eq_self hbefore, skipMore_eq_self hafter]
      exact .refl hs
    · obtain ⟨m, rfl⟩ : ∃ m', m = m' + 1 := ⟨m - 1, by omega⟩
      rw [skipMore, skipMore, hbefore, hafter]
      exact (ih (by omega) (by omega) (by omega) ht).of_suffix hts

/-- **A list of items closes at one place**, unless it does so with a brace of a respelled tag. -/
theorem leadsOn_skipItems (hitem : ∀ t : List Stroke, t.length ≤ l → Lawful inside t →
      LeadsOn inside t (item (before t)) (item' (after t)))
    (hopen : c ≠ '{') (hclose : c = '}' → ∀ t, t <:+ s → Lawful inside t →
      (afterBlanks t).head? ≠ some .closing)
    (hl : s.length ≤ l) (hs : Lawful inside s) :
    LeadsOn inside s (skipItems item c (before s)) (skipItems item' c (after s)) := by
  have hblanks := (afterBlanks_suffix s).length_le
  have hfirst : StaysOn inside s ((item (skipBlanks (before s))).getD (before s))
      ((item' (skipBlanks (after s))).getD (after s)) := by
    rw [skipBlanks_before, skipBlanks_after]
    exact ((hitem _ (by omega) hs.afterBlanks).of_suffix (afterBlanks_suffix s)).getD hs
  obtain ⟨t, hts, ht, hbefore, hafter⟩ := hfirst
  have hlength := hts.length_le
  obtain ⟨v, hvt, hv, hmore, hmore'⟩ := staysOn_skipMore hitem (s := t) (by omega)
    (length_le_before t) (length_le_after t) ht
  rw [skipItems, skipItems, hbefore, hafter, hmore, hmore']
  exact (leadsOn_mark? hv hopen fun hc => hclose hc v (hvt.trans hts) hv).of_suffix (hvt.trans hts)

end Items

/-- The rest after a member of an object. -/
def skipMember (inner : List Char → Option (List Char)) (cs : List Char) : Option (List Char) :=
  ((skipQuoted cs).bind (mark? ':')).bind fun rest => inner (skipBlanks rest)

theorem Lawful.skipQuoted_eq_none (ht : Lawful true t) :
    skipQuoted (before t) = none ∧ skipQuoted (after t) = none := by
  cases ht with
  | inner hquote =>
    exact ⟨skipQuoted_of_not_quote (by simpa using hquote),
      skipQuoted_of_not_quote (by simpa using hquote)⟩
  | closing => exact ⟨rfl, rfl⟩

/-- Between braces that become three an object has no members. -/
theorem Lawful.skipMember_eq_none (inner : List Char → Option (List Char)) (ht : Lawful true t) :
    skipMember inner (before t) = none ∧ skipMember inner (after t) = none := by
  obtain ⟨hbefore, hafter⟩ := ht.skipQuoted_eq_none
  exact ⟨by simp [skipMember, hbefore], by simp [skipMember, hafter]⟩

theorem skipItems_eq_mark? {item : List Char → Option (List Char)} {cs : List Char}
    (hfirst : item (skipBlanks cs) = none)
    (hnext : ((mark? ',' cs).bind fun rest => item (skipBlanks rest)) = none) :
    skipItems item c cs = mark? c cs := by
  rw [skipItems, hfirst, Option.getD_none, skipMore_eq_self hnext]

theorem Lawful.skipItems_eq (inner inner' : List Char → Option (List Char)) (hs : Lawful true s) :
    skipItems (skipMember inner) c (before s) = mark? c (before s) ∧
      skipItems (skipMember inner') c (after s) = mark? c (after s) := by
  have hfirst (inner : List Char → Option (List Char)) := hs.afterBlanks.skipMember_eq_none inner
  constructor <;> apply skipItems_eq_mark?
  · rw [skipBlanks_before, (hfirst inner).1]
  · obtain ⟨hcomma, -⟩ | ⟨t, -, -, ht, hcomma, -⟩ :=
      leadsOn_mark? (c := ',') hs (by decide) fun h => absurd h (by decide)
    · rw [hcomma, Option.bind_none]
    · rw [hcomma, Option.bind_some, skipBlanks_before, (ht.afterBlanks.skipMember_eq_none inner).1]
  · rw [skipBlanks_after, (hfirst inner').2]
  · obtain ⟨-, hcomma⟩ | ⟨t, -, -, ht, -, hcomma⟩ :=
      leadsOn_mark? (c := ',') hs (by decide) fun h => absurd h (by decide)
    · rw [hcomma, Option.bind_none]
    · rw [hcomma, Option.bind_some, skipBlanks_after, (ht.afterBlanks.skipMember_eq_none inner').2]

section Literals

variable {l : Nat} {inner inner' : List Char → Option (List Char)}

theorem leadsOn_skipMember (hinner : ∀ t : List Stroke, t.length ≤ l → Lawful inside t →
      LeadsOn inside t (inner (before t)) (inner' (after t)))
    (t : List Stroke) (hl : t.length ≤ l) (ht : Lawful inside t) :
    LeadsOn inside t (skipMember inner (before t)) (skipMember inner' (after t)) := by
  have hname : LeadsOn inside t ((skipQuoted (before t)).bind (mark? ':'))
      ((skipQuoted (after t)).bind (mark? ':')) :=
    (leadsOn_skipQuoted ht).bind fun v _ _ hv =>
      leadsOn_mark? hv (by decide) fun h => absurd h (by decide)
  refine hname.bind fun v hv _ hlawful => ?_
  rw [skipBlanks_before, skipBlanks_after]
  have hlength := hv.length_le
  have hblanks := (afterBlanks_suffix v).length_le
  exact (hinner _ (by omega) hlawful.afterBlanks).of_suffix (afterBlanks_suffix v)

/-- **An object ends at one place.**  Outside respelled braces none of them is reached; between braces
that become three an object has no members, and is closed before them. -/
theorem leadsOn_object (hinner : ∀ t : List Stroke, t.length ≤ l → Lawful inside t →
      LeadsOn inside t (inner (before t)) (inner' (after t)))
    (hl : s.length ≤ l) (hs : Lawful inside (.char '{' :: s)) :
    LeadsOn inside s (skipItems (skipMember inner) '}' (before s))
      (skipItems (skipMember inner') '}' (after s)) := by
  cases hs with
  | char hs =>
    refine leadsOn_skipItems (leadsOn_skipMember hinner) (by decide) (fun _ t _ ht hhead => ?_) hl hs
    exact ht.afterBlanks.head?_ne_closing hhead
  | inner _ hclose hs =>
    obtain ⟨hbefore, hafter⟩ := hs.skipItems_eq (c := '}') inner inner'
    rw [hbefore, hafter]
    exact leadsOn_mark? hs (by decide) fun _ => hclose rfl

/-- The rest after a number or a word. -/
def skipScalar (cs : List Char) : Option (List Char) :=
  (skipNumber cs).orElse fun _ => (skipWord "null" cs).orElse fun _ =>
    (skipWord "true" cs).orElse fun _ => skipWord "false" cs

theorem leadsOn_skipScalar (hs : Lawful inside s) :
    LeadsOn inside s (skipScalar (before s)) (skipScalar (after s)) :=
  (leadsOn_skipNumber hs).orElse <|
    (leadsOn_skipWord rfl (by decide) hs).orElse <|
      (leadsOn_skipWord rfl (by decide) hs).orElse <|
        leadsOn_skipWord rfl (by decide) hs

theorem skipLiteralWith_scalar {cs : List Char} (hquote : isQuote c = false) (hopen : c ≠ '[')
    (hbrace : c ≠ '{') : skipLiteralWith inner (c :: cs) = skipScalar (c :: cs) := by
  simp only [isQuote, Bool.or_eq_false_iff, beq_eq_false_iff_ne] at hquote
  rw [skipLiteralWith.eq_def]
  split
  next heq => exact absurd (List.cons.inj heq).1 hquote.1
  next heq => exact absurd (List.cons.inj heq).1 hquote.2
  next heq => exact absurd (List.cons.inj heq).1 hopen
  next heq => exact absurd (List.cons.inj heq).1 hbrace
  next => rfl

/-- Two opening braces are no literal. -/
theorem skipLiteralWith_braces (cs : List Char) : skipLiteralWith inner ('{' :: '{' :: cs) = none :=
  skipItems_eq_mark? rfl rfl

/-- **A literal ends at one place**, given that the literals inside it do. -/
theorem leadsOn_skipLiteralWith (hinner : ∀ t : List Stroke, t.length ≤ l → Lawful inside t →
      LeadsOn inside t (inner (before t)) (inner' (after t)))
    (hl : s.length ≤ l + 1) (hs : Lawful inside s) :
    LeadsOn inside s (skipLiteralWith inner (before s)) (skipLiteralWith inner' (after s)) := by
  rcases s with _ | ⟨c | ⟨lead, h⟩ | _ | _, s⟩
  case cons.char =>
    have hl' : s.length ≤ l := Nat.le_of_succ_le_succ hl
    by_cases hquote : isQuote c = true
    · have hquoted := leadsOn_skipQuoted hs
      simp only [isQuote, Bool.or_eq_true, beq_iff_eq] at hquote
      rcases hquote with rfl | rfl <;> exact hquoted
    by_cases hopen : c = '['
    · subst hopen
      have hitems : LeadsOn inside s (skipItems inner ']' (before s))
          (skipItems inner' ']' (after s)) :=
        leadsOn_skipItems hinner (by decide) (fun h => absurd h (by decide)) hl' hs.of_char
      exact hitems.of_suffix (List.suffix_cons _ s)
    by_cases hbrace : c = '{'
    · subst hbrace
      exact (leadsOn_object hinner hl' hs).of_suffix (List.suffix_cons _ s)
    have hscalar := leadsOn_skipScalar hs
    rw [before_char, after_char] at hscalar ⊢
    rwa [skipLiteralWith_scalar (by simpa using hquote) hopen hbrace,
      skipLiteralWith_scalar (by simpa using hquote) hopen hbrace]
  case cons.closing =>
    have hscalar := leadsOn_skipScalar hs
    rw [before_closing, after_closing] at hscalar ⊢
    rwa [skipLiteralWith_scalar rfl (by decide) (by decide),
      skipLiteralWith_scalar rfl (by decide) (by decide)]
  case nil => exact leadsOn_skipScalar hs
  all_goals exact .inl ⟨skipLiteralWith_braces _, skipLiteralWith_braces _⟩

end Literals

/-- **A literal ends at one place in both spellings**, however deep it may be nested on either side, as
long as that is deep enough — by induction on how many strokes there are. -/
theorem leadsOn_skipLiteral : ∀ {l : Nat} {s : List Stroke} {n m : Nat}, s.length ≤ l → l ≤ n → l ≤ m →
    Lawful inside s → LeadsOn inside s (skipLiteral n (before s)) (skipLiteral m (after s)) := by
  intro l
  induction l with
  | zero =>
    intro s n m hl _ _ _
    obtain rfl := List.length_eq_zero_iff.mp (Nat.le_zero.mp hl)
    have hnil : ∀ n, skipLiteral n [] = none := fun n => by cases n <;> rfl
    exact .inl ⟨hnil n, hnil m⟩
  | succ l ih =>
    intro s n m hl hn hm hs
    obtain ⟨n, rfl⟩ : ∃ n', n = n' + 1 := ⟨n - 1, by omega⟩
    obtain ⟨m, rfl⟩ : ∃ m', m = m' + 1 := ⟨m - 1, by omega⟩
    exact leadsOn_skipLiteralWith (fun t ht hlawful => ih ht (by omega) (by omega) hlawful) hl hs

/-- What a literal is, by how it is written. -/
def literalOf (source : List Char) : Except String Json.Value :=
  match Json.read? (literalText source) with
  | some v => .ok v.merged
  | none => .error (String.ofList source)

theorem readLiteral_eq (cs : List Char) : readLiteral cs =
    (skipLiteral cs.length cs).map fun rest => (literalOf (consumed cs rest), rest) := by
  rw [readLiteral]
  congr 1
  funext rest
  dsimp only
  rw [literalOf]
  cases Json.read? (literalText (consumed cs rest)) <;> rfl

/-- **A literal is read alike in both spellings.** -/
theorem alike_readLiteral (hkept : KeptTo k s) (hs : Lawful inside s) :
    Alike k s (readLiteral (before s)) (readLiteral (after s)) := by
  rw [readLiteral_eq, readLiteral_eq]
  obtain ⟨hbefore, hafter⟩ | ⟨t, hts, hlt, -, hbefore, hafter⟩ :=
    leadsOn_skipLiteral (Nat.le_refl s.length) (length_le_before s) (length_le_after s) hs
  · rw [hbefore, hafter]
    exact .none
  · rw [hbefore, hafter]
    exact .some hts hlt fun hk => by rw [hkept.consumed_eq hts hk]

end PinnedManifest.Template.Respelling
