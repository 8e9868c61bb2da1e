import PinnedManifest.Proofs.Text.Span
import PinnedManifest.Template.Expression

/-!
# Proofs/Template/Respelling/Strokes — two texts that differ in the braces of some tags

A respelling is a row of strokes, each a piece of text in two spellings: all in their first spelling
make the text `before`, all in their second the text `after`.  A reader run on both from one place
should stop at one place: both runs fail, or both leave the two texts of the same remaining strokes.
`Leads` says so of what skips text and `Alike` of what reads a value.  The two values may differ where
a brace was respelled inside what was read, and are the same while the strokes that remain reach back
to a given place.
-/

namespace PinnedManifest.Template.Respelling

open Json (isBlank skipBlanks)

/-! ## Strokes -/

/-- What may stand between the braces of a tag and the path it shows. -/
def isPadding (c : Char) : Bool := isBlank c || c == '~'

/-- A piece of text in two spellings. -/
inductive Stroke
  | char (c : Char)
  /-- The start of a tag that gets an ampersand. -/
  | ampersand (lead : List Char) (h : ∀ c ∈ lead, isPadding c = true)
  /-- Opening braces of a tag that get a third one. -/
  | opening
  /-- Closing braces of the same. -/
  | closing

/-- The first spelling of a stroke. -/
def Stroke.before : Stroke → List Char
  | .char c => [c]
  | .ampersand lead _ => '{' :: '{' :: lead
  | .opening => ['{', '{']
  | .closing => ['}', '}']

/-- The second spelling of a stroke. -/
def Stroke.after : Stroke → List Char
  | .char c => [c]
  | .ampersand lead _ => '{' :: '{' :: (lead ++ ['&'])
  | .opening => ['{', '{', '{']
  | .closing => ['}', '}', '}']

/-- The text of strokes in their first spelling. -/
def before (s : List Stroke) : List Char := s.flatMap Stroke.before

/-- The text of strokes in their second spelling. -/
def after (s : List Stroke) : List Char := s.flatMap Stroke.after

/-- Characters that have one spelling. -/
def kept (cs : List Char) : List Stroke := cs.map .char

variable {α β : Type} {k : Nat} {s t : List Stroke} {c : Char} {cs : List Char}

@[simp] theorem before_nil : before [] = [] := rfl

@[simp] theorem after_nil : after [] = [] := rfl

@[simp] theorem before_char : before (.char c :: s) = c :: before s := rfl

@[simp] theorem after_char : after (.char c :: s) = c :: after s := rfl

@[simp] theorem before_ampersand {h : ∀ c ∈ cs, isPadding c = true} :
    before (.ampersand cs h :: s) = '{' :: '{' :: (cs ++ before s) := rfl

@[simp] theorem after_ampersand {h : ∀ c ∈ cs, isPadding c = true} :
    after (.ampersand cs h :: s) = '{' :: '{' :: (cs ++ '&' :: after s) := by
  simp [after, Stroke.after]

@[simp] theorem before_opening : before (.opening :: s) = '{' :: '{' :: before s := rfl

@[simp] theorem after_opening : after (.opening :: s) = '{' :: '{' :: '{' :: after s := rfl

@[simp] theorem before_closing : before (.closing :: s) = '}' :: '}' :: before s := rfl

@[simp] theorem after_closing : after (.closing :: s) = '}' :: '}' :: '}' :: after s := rfl

@[simp] theorem before_append : before (s ++ t) = before s ++ before t := List.flatMap_append

@[simp] theorem after_append : after (s ++ t) = after s ++ after t := List.flatMap_append

@[simp] theorem before_kept : before (kept cs) = cs := by
  induction cs with
  | nil => rfl
  | cons c cs ih => exact congrArg (c :: ·) ih

@[simp] theorem after_kept : after (kept cs) = cs := by
  induction cs with
  | nil => rfl
  | cons c cs ih => exact congrArg (c :: ·) ih

@[simp] theorem kept_nil : kept [] = [] := rfl

@[simp] theorem kept_cons : kept (c :: cs) = .char c :: kept cs := rfl

@[simp] theorem length_kept : (kept cs).length = cs.length := by simp [kept]

theorem length_lt_kept (c : Char) (cs : List Char) (t : List Stroke) :
    t.length < (kept (c :: cs) ++ t).length := by
  rw [List.length_append, length_kept, List.length_cons]
  omega

theorem Stroke.length_before_pos : ∀ x : Stroke, 0 < x.before.length
  | .char _ | .ampersand _ _ | .opening | .closing => by simp [Stroke.before]

theorem Stroke.length_after_pos : ∀ x : Stroke, 0 < x.after.length
  | .char _ | .ampersand _ _ | .opening | .closing => by simp [Stroke.after]

/-- A text is as long as its strokes are many. -/
theorem length_le_before : ∀ s : List Stroke, s.length ≤ (before s).length
  | [] => Nat.le_refl 0
  | x :: s => by
      have hx := x.length_before_pos
      have ih := length_le_before s
      change s.length + 1 ≤ (x.before ++ before s).length
      rw [List.length_append]
      omega

theorem length_le_after : ∀ s : List Stroke, s.length ≤ (after s).length
  | [] => Nat.le_refl 0
  | x :: s => by
      have hx := x.length_after_pos
      have ih := length_le_after s
      change s.length + 1 ≤ (x.after ++ after s).length
      rw [List.length_append]
      omega

/-! ## Where only characters stand -/

/-- Only characters stand in front of the last strokes, so many. -/
def KeptTo (k : Nat) (s : List Stroke) : Prop :=
  ∀ u t, s = u ++ t → k ≤ t.length → ∃ cs, u = kept cs

theorem KeptTo.suffix (hs : KeptTo k s) (hts : t <:+ s) : KeptTo k t := by
  obtain ⟨u, rfl⟩ := hts
  rintro v w rfl hw
  obtain ⟨cs, hcs⟩ := hs (u ++ v) w (by simp) hw
  obtain ⟨as, bs, -, -, hv⟩ := List.map_eq_append_iff.mp hcs.symm
  exact ⟨bs, hv.symm⟩

theorem keptTo_append (cs : List Char) (s : List Stroke) : KeptTo s.length (kept cs ++ s) := by
  intro u t heq hk
  rcases List.append_eq_append_iff.mp heq with ⟨as, hu, hs⟩ | ⟨bs, hcs, -⟩
  · have has : as = [] := by
      have hlength := congrArg List.length hs
      rw [List.length_append] at hlength
      exact List.length_eq_zero_iff.mp (by omega)
    exact ⟨cs, by rw [hu, has, List.append_nil]⟩
  · obtain ⟨as, _, -, hu, -⟩ := List.map_eq_append_iff.mp hcs
    exact ⟨as, hu.symm⟩

theorem consumed_append (cs rest : List Char) : consumed (cs ++ rest) rest = cs := by
  simp [consumed]

/-- **What is read in front of the last strokes is the same text in both spellings.** -/
theorem KeptTo.consumed_eq (hs : KeptTo k s) (hts : t <:+ s) (hk : k ≤ t.length) :
    consumed (before s) (before t) = consumed (after s) (after t) := by
  obtain ⟨u, rfl⟩ := hts
  obtain ⟨cs, rfl⟩ := hs u t rfl hk
  simp [consumed_append]

/-! ## Results at one place -/

/-- Both runs of a skipping reader fail, or both leave the same strokes, fewer than before. -/
def Leads (s : List Stroke) (o o' : Option (List Char)) : Prop :=
  o = none ∧ o' = none ∨
    ∃ t, t <:+ s ∧ t.length < s.length ∧ o = some (before t) ∧ o' = some (after t)

/-- Both runs of a reader fail, or both leave the same strokes, fewer than before, with the same value
unless fewer are left than given. -/
def Alike (k : Nat) (s : List Stroke) (o o' : Option (α × List Char)) : Prop :=
  o = none ∧ o' = none ∨
    ∃ a a' t, t <:+ s ∧ t.length < s.length ∧ (k ≤ t.length → a = a') ∧
      o = some (a, before t) ∧ o' = some (a', after t)

theorem Alike.none : Alike k s (none : Option (α × List Char)) none := .inl ⟨rfl, rfl⟩

theorem Alike.some {a a' : α} (hts : t <:+ s) (hlt : t.length < s.length)
    (ha : k ≤ t.length → a = a') : Alike k s (some (a, before t)) (some (a', after t)) :=
  .inr ⟨a, a', t, hts, hlt, ha, rfl, rfl⟩

theorem Alike.of_suffix {o o' : Option (α × List Char)} (hts : t <:+ s) (h : Alike k t o o') :
    Alike k s o o' := by
  obtain h | ⟨a, a', v, hv, hlt, ha, rfl, rfl⟩ := h
  · exact .inl h
  · exact .some (hv.trans hts) (hlt.trans_le hts.length_le) ha

theorem Alike.orElse {o o' : Option (α × List Char)} {p p' : Unit → Option (α × List Char)}
    (h : Alike k s o o') (hp : Alike k s (p ()) (p' ())) :
    Alike k s (o.orElse p) (o'.orElse p') := by
  obtain ⟨rfl, rfl⟩ | ⟨a, a', t, hts, hlt, ha, rfl, rfl⟩ := h
  · exact hp
  · exact .some hts hlt ha

theorem Alike.bind {o o' : Option (α × List Char)} {f f' : α × List Char → Option (β × List Char)}
    (h : Alike k t o o')
    (hf : ∀ a a' u, u <:+ t → u.length < t.length → (k ≤ u.length → a = a') →
      Alike k s (f (a, before u)) (f' (a', after u))) :
    Alike k s (o.bind f) (o'.bind f') := by
  obtain ⟨rfl, rfl⟩ | ⟨a, a', u, hut, hlt, ha, rfl, rfl⟩ := h
  · exact .none
  · exact hf a a' u hut hlt ha

theorem Alike.map {o o' : Option (α × List Char)} (f : α → β) (h : Alike k s o o') :
    Alike k s (o.map fun x => (f x.1, x.2)) (o'.map fun x => (f x.1, x.2)) := by
  obtain ⟨rfl, rfl⟩ | ⟨a, a', t, hts, hlt, ha, rfl, rfl⟩ := h
  · exact .none
  · exact .some hts hlt fun hk => congrArg f (ha hk)

theorem Leads.bind {o o' : Option (List Char)} {f f' : List Char → Option (α × List Char)}
    (h : Leads t o o')
    (hf : ∀ u, u <:+ t → u.length < t.length → Alike k s (f (before u)) (f' (after u))) :
    Alike k s (o.bind f) (o'.bind f') := by
  obtain ⟨rfl, rfl⟩ | ⟨u, hut, hlt, rfl, rfl⟩ := h
  · exact .none
  · exact hf u hut hlt

/-! ## Runs of characters -/

/-- Whether a character begins a stroke that is spelled in two ways. -/
def isBrace (c : Char) : Bool := c == '{' || c == '}'

/-- **A run of characters that are no braces** has one length in both spellings. -/
theorem span_eq (p : Char → Bool) (hopen : p '{' = false) (hclose : p '}' = false) :
    ∀ s : List Stroke, ∃ cs t, s = kept cs ++ t ∧
      (before s).span p = (cs, before t) ∧ (after s).span p = (cs, after t)
  | .char c :: s => by
      obtain ⟨cs, t, rfl, hbefore, hafter⟩ := span_eq p hopen hclose s
      rw [List.span_eq_takeWhile_dropWhile, Prod.mk.injEq] at hbefore hafter
      cases hc : p c with
      | true => exact ⟨c :: cs, t, rfl, by simp_all, by simp_all⟩
      | false => exact ⟨[], .char c :: (kept cs ++ t), rfl, by simp_all, by simp_all⟩
  | [] => ⟨[], [], rfl, by simp, by simp⟩
  | .ampersand lead h :: s => ⟨[], .ampersand lead h :: s, rfl, by simp [hopen], by simp [hopen]⟩
  | .opening :: s => ⟨[], .opening :: s, rfl, by simp [hopen], by simp [hopen]⟩
  | .closing :: s => ⟨[], .closing :: s, rfl, by simp [hclose], by simp [hclose]⟩

/-- Strokes without the blanks at their start. -/
def afterBlanks (s : List Stroke) : List Stroke :=
  s.dropWhile fun
    | .char c => isBlank c
    | _ => false

theorem afterBlanks_char :
    afterBlanks (.char c :: s) = if isBlank c then afterBlanks s else .char c :: s := by
  rw [afterBlanks, List.dropWhile_cons, afterBlanks]

theorem afterBlanks_suffix (s : List Stroke) : afterBlanks s <:+ s := List.dropWhile_suffix _

@[simp] theorem skipBlanks_before : ∀ s : List Stroke, skipBlanks (before s) = before (afterBlanks s)
  | .char c :: s => by
      have ih := skipBlanks_before s
      rw [skipBlanks] at ih ⊢
      cases hc : isBlank c <;> simp_all [afterBlanks]
  | [] | .ampersand _ _ :: _ | .opening :: _ | .closing :: _ => rfl

@[simp] theorem skipBlanks_after : ∀ s : List Stroke, skipBlanks (after s) = after (afterBlanks s)
  | .char c :: s => by
      have ih := skipBlanks_after s
      rw [skipBlanks] at ih ⊢
      cases hc : isBlank c <;> simp_all [afterBlanks]
  | .ampersand lead h :: s => by simp [skipBlanks, afterBlanks, isBlank]
  | [] | .opening :: _ | .closing :: _ => rfl

/-- What is read alike behind blanks is read alike from in front of them. -/
theorem Alike.skipBlanks {f f' : List Char → Option (α × List Char)}
    (h : Alike k (afterBlanks s) (f (before (afterBlanks s))) (f' (after (afterBlanks s)))) :
    Alike k s (f (skipBlanks (before s))) (f' (skipBlanks (after s))) := by
  rw [skipBlanks_before, skipBlanks_after]
  exact h.of_suffix (afterBlanks_suffix s)

/-! ## Given characters -/

/-- **A character is found in both spellings, as a stroke of its own, or in none**, unless it may be a
brace of a respelled tag. -/
theorem char?_cases (hopen : c ≠ '{') : ∀ s : List Stroke,
    (c = '}' → s.head? ≠ some .closing) →
    char? c (before s) = none ∧ char? c (after s) = none ∨
      ∃ t, s = .char c :: t ∧ char? c (before s) = some (before t) ∧ char? c (after s) = some (after t)
  | .char d :: s, _ => by
      by_cases hd : c = d
      · exact .inr ⟨s, by rw [hd], by simp [char?, hd], by simp [char?, hd]⟩
      · exact .inl ⟨by simp [char?, hd], by simp [char?, hd]⟩
  | [], _ => .inl ⟨rfl, rfl⟩
  | .ampersand _ _ :: _, _ | .opening :: _, _ => .inl ⟨by simp [char?, hopen], by simp [char?, hopen]⟩
  | .closing :: _, hclose => by
      have hne : c ≠ '}' := fun hc => hclose hc rfl
      exact .inl ⟨by simp [char?, hne], by simp [char?, hne]⟩

theorem char?_cases_of_not_brace (hc : isBrace c = false) (s : List Stroke) :
    char? c (before s) = none ∧ char? c (after s) = none ∨
      ∃ t, s = .char c :: t ∧ char? c (before s) = some (before t) ∧
        char? c (after s) = some (after t) := by
  simp only [isBrace, Bool.or_eq_false_iff, beq_eq_false_iff_ne] at hc
  exact char?_cases hc.1 s fun h => absurd h hc.2

theorem leads_char? (hc : isBrace c = false) (s : List Stroke) :
    Leads s (char? c (before s)) (char? c (after s)) := by
  obtain h | ⟨t, rfl, hbefore, hafter⟩ := char?_cases_of_not_brace hc s
  · exact .inl h
  · exact .inr ⟨t, List.suffix_cons _ t, by simp, hbefore, hafter⟩

theorem leads_mark? (hc : isBrace c = false) (s : List Stroke) :
    Leads s (mark? c (before s)) (mark? c (after s)) := by
  rw [mark?, mark?, skipBlanks_before, skipBlanks_after]
  obtain h | ⟨t, hts, hlt, hbefore, hafter⟩ := leads_char? hc (afterBlanks s)
  · exact .inl h
  · exact .inr ⟨t, hts.trans (afterBlanks_suffix s), hlt.trans_le (afterBlanks_suffix s).length_le,
      hbefore, hafter⟩

theorem after?_nil (cs : List Char) : Json.after? [] cs = some cs := by
  cases cs <;> rfl

theorem after?_cons (word cs : List Char) :
    Json.after? (c :: word) cs = (char? c cs).bind (Json.after? word) := by
  cases cs with
  | nil => rfl
  | cons d cs =>
    rw [Json.after?, char?]
    split <;> rfl

/-- **A word is read off a text** exactly when the text starts with it. -/
theorem after?_eq_some_iff : ∀ {word cs rest : List Char},
    Json.after? word cs = some rest ↔ cs = word ++ rest
  | [], cs, rest => by simp [after?_nil]
  | c :: word, [], rest => by simp [Json.after?]
  | c :: word, d :: cs, rest => by
      rw [Json.after?, List.cons_append, List.cons.injEq]
      split
      next heq => simp [heq, after?_eq_some_iff]
      next hne => simp [Ne.symm hne]

/-- Whether a word holds no braces. -/
def braceless (word : List Char) : Bool := word.all fun c => !isBrace c

/-- **A word without braces** is found in both spellings, as strokes of its own, or in none. -/
theorem after?_cases : ∀ {word : List Char}, braceless word = true → ∀ s : List Stroke,
    Json.after? word (before s) = none ∧ Json.after? word (after s) = none ∨
      ∃ t, s = kept word ++ t ∧
        Json.after? word (before s) = some (before t) ∧ Json.after? word (after s) = some (after t)
  | [], _, s => .inr ⟨s, rfl, after?_nil _, after?_nil _⟩
  | c :: word, hword, s => by
      obtain ⟨hc, hrest⟩ : isBrace c = false ∧ braceless word = true := by
        simpa [braceless] using hword
      rw [after?_cons, after?_cons]
      obtain ⟨hbefore, hafter⟩ | ⟨t, rfl, hbefore, hafter⟩ := char?_cases_of_not_brace hc s
      · exact .inl ⟨by rw [hbefore]; rfl, by rw [hafter]; rfl⟩
      · rw [hbefore, hafter]
        obtain h | ⟨v, rfl, hword⟩ := after?_cases hrest t
        · exact .inl h
        · exact .inr ⟨v, rfl, hword⟩

theorem leads_after? {word : List Char} (hword : braceless word = true) (hne : word ≠ [])
    (s : List Stroke) : Leads s (Json.after? word (before s)) (Json.after? word (after s)) := by
  obtain h | ⟨t, rfl, hbefore, hafter⟩ := after?_cases hword s
  · exact .inl h
  · have hpos := List.length_pos_iff.mpr hne
    exact .inr ⟨t, List.suffix_append _ t, by simp; omega, hbefore, hafter⟩

/-! ## What a text starts with -/

theorem head?_after : ∀ s : List Stroke, (after s).head? = (before s).head?
  | [] | .char _ :: _ | .opening :: _ | .closing :: _ => rfl
  | .ampersand _ _ :: _ => by simp

theorem startsWithSymbol_after : ∀ s : List Stroke,
    startsWithSymbol (after s) = startsWithSymbol (before s)
  | [] | .char _ :: _ | .opening :: _ | .closing :: _ => rfl
  | .ampersand _ _ :: _ => by simp [startsWithSymbol]

theorem startsWithKeyword_after (s : List Stroke) :
    startsWithKeyword (after s) = startsWithKeyword (before s) := by
  have hwords (word : List Char) (hword : braceless word = true) := after?_cases hword s
  rw [startsWithKeyword, startsWithKeyword]
  obtain ⟨has, has'⟩ | ⟨t, -, has, has'⟩ := hwords "as".toList rfl
  · obtain ⟨helse, helse'⟩ | ⟨t, -, helse, helse'⟩ := hwords "else".toList rfl
    · rw [has, has', helse, helse']
    · rw [has, has', helse, helse']
      simp [startsWithSymbol_after]
  · rw [has, has']
    simp [startsWithSymbol_after]

end PinnedManifest.Template.Respelling
