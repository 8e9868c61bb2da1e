import PinnedManifest.CommandLine.Settings
import PinnedManifest.Proofs.Text.Span

/-!
# Proofs/CommandLine/Naming — which arguments name a parameter

A parameter without a letter is named by its long name and in no other way: alone, or with a value
behind an equals sign.  Arguments that all have their place set such a parameter exactly when one of
them names it (`has_iff_named`), wherever the other arguments put their values.
-/

namespace PinnedManifest.CommandLine

variable {arg name value : String} {value? : Option String} {p : Parameter}

/-! ## Shapes -/

/-- The text behind the name of an option. -/
def valueText (value? : Option String) : String := (value?.map ("=" ++ ·)).getD ""

/-- **The name ends before the first equals sign**, or else is all of the text. -/
theorem splitAtEquals_eq_iff {cs : List Char} : splitAtEquals cs = (name, value?) ↔
    '=' ∉ name.toList ∧ String.ofList cs = name ++ valueText value? := by
  have hkept (as : List Char) : (∀ a ∈ as, (a != '=') = true) ↔ '=' ∉ as := by
    simp only [bne_iff_ne]
    exact ⟨fun h hmem => h _ hmem rfl, fun h a ha heq => h (heq ▸ ha)⟩
  rw [splitAtEquals.eq_def]
  constructor
  · intro h
    split at h
    next as hspan =>
      obtain ⟨rfl, has, -⟩ := Text.span_eq_iff.mp hspan
      cases h
      simp [valueText, (hkept as).mp has]
    next as b bs hspan =>
      obtain ⟨rfl, has, hb⟩ := Text.span_eq_iff.mp hspan
      obtain rfl : b = '=' := by simpa using hb b rfl
      cases h
      refine ⟨by simpa using (hkept as).mp has, ?_⟩
      simp [valueText]
  · rintro ⟨hname, hcs⟩
    have hcs' := congrArg String.toList hcs
    cases value? with
    | none =>
      have hspan : cs.span (· != '=') = (name.toList, []) :=
        Text.span_eq_iff.mpr ⟨by simpa [valueText] using hcs', (hkept _).mpr hname, by simp⟩
      rw [hspan]
      simp
    | some value =>
      have hspan : cs.span (· != '=') = (name.toList, '=' :: value.toList) :=
        Text.span_eq_iff.mpr ⟨by simpa [valueText] using hcs', (hkept _).mpr hname, by simp⟩
      rw [hspan]
      simp

/-- **An argument in full** is two dashes, a name, and a value behind an equals sign if there is one. -/
theorem shape_eq_long_iff : shape arg = .long name value? ↔
    arg = "--" ++ name ++ valueText value? ∧ '=' ∉ name.toList ∧ name ++ valueText value? ≠ "" := by
  rw [shape.eq_def]
  constructor
  · intro h
    split at h
    · cases h
    next rest hrest hchars =>
      obtain ⟨hname, htext⟩ := splitAtEquals_eq_iff.mp (Prod.ext (Shape.long.inj h).1 (Shape.long.inj h).2)
      rw [String.append_assoc, ← htext]
      refine ⟨?_, hname, ?_⟩
      · rw [← String.toList_inj, hchars]
        simp
      · simpa using hrest
    · cases h
    · cases h
  · rintro ⟨rfl, hname, hne⟩
    have hchars : ("--" ++ name ++ valueText value?).toList
        = '-' :: '-' :: (name ++ valueText value?).toList := by simp
    have hrest : (name ++ valueText value?).toList ≠ [] := by simpa using hne
    rw [hchars]
    split
    next heq => exact absurd (List.cons.inj (List.cons.inj heq).2).2 hrest
    next heq =>
      obtain rfl := (List.cons.inj (List.cons.inj heq).2).2
      rw [splitAtEquals_eq_iff.mpr ⟨hname, String.ofList_toList⟩]
    next hnot heq =>
      cases heq
      exact (hnot rfl).elim
    next hnot => exact (hnot _ _ rfl).elim

/-! ## Names -/

/-- Long names have no equals sign, and are not empty. -/
theorem Opt.ofLong?_eq_some_iff {o : Opt} : Opt.ofLong? name = some o ↔ name = o.long := by
  constructor
  · intro h
    have hlong : o.long = name := by simpa using List.find?_some h
    exact hlong.symm
  · rintro rfl
    exact Opt.ofLong?_long o

theorem Parameter.equals_not_mem_long (p : Parameter) : '=' ∉ p.long.toList := by
  cases p <;> decide

theorem Parameter.long_append_ne_empty (p : Parameter) (text : String) : p.long ++ text ≠ "" := by
  cases p <;> simp [Parameter.long]

/-- **An argument names a parameter in full**: alone, or with a value behind an equals sign. -/
def Parameter.NamedBy (p : Parameter) (arg : String) : Prop :=
  arg = "--" ++ p.long ∨ ∃ value, arg = "--" ++ p.long ++ "=" ++ value

theorem Parameter.namedBy_iff : p.NamedBy arg ↔ ∃ value?, shape arg = .long p.long value? := by
  simp only [shape_eq_long_iff, p.equals_not_mem_long, p.long_append_ne_empty, not_false_eq_true,
    ne_eq, and_true]
  constructor
  · rintro (rfl | ⟨value, rfl⟩)
    · exact ⟨none, by simp [valueText]⟩
    · exact ⟨some value, by simp [valueText, String.append_assoc]⟩
  · rintro ⟨none | value, rfl⟩
    · exact .inl (by simp [valueText])
    · exact .inr ⟨value, by simp [valueText, String.append_assoc]⟩

instance (p : Parameter) (arg : String) : Decidable (p.NamedBy arg) :=
  decidable_of_iff ((match shape arg with
    | .long name _ => name == p.long
    | _ => false) = true) (by
      rw [Parameter.namedBy_iff]
      cases shape arg <;> simp)

/-! ## Uses -/

/-- The parameter that a use is of. -/
def Use.parameter? : Use → Option Parameter
  | .switch _ _ => none
  | .attached p _ => some p
  | .separate p _ => some p

/-- Whether a parameter is used. -/
def UsedIn (p : Parameter) (uses : List Use) : Prop := ∃ u ∈ uses, u.parameter? = some p

@[simp] theorem usedIn_nil : ¬UsedIn p [] := by simp [UsedIn]

@[simp] theorem usedIn_cons {u : Use} {uses : List Use} :
    UsedIn p (u :: uses) ↔ u.parameter? = some p ∨ UsedIn p uses := by
  simp [UsedIn]

@[simp] theorem usedIn_append {uses uses' : List Use} :
    UsedIn p (uses ++ uses') ↔ UsedIn p uses ∨ UsedIn p uses' := by
  simp [UsedIn, or_and_right, exists_or]

@[simp] theorem usedIn_unmet {awaiting : Option Parameter} :
    UsedIn p (unmet awaiting) ↔ awaiting = some p := by
  cases awaiting <;> simp [unmet, Use.parameter?]

/-! ## Readings -/

theorem readLong_parameter_none (p : Parameter) : readLong p.long none = ([], .value p) := by
  simp [readLong, Opt.ofLong?_eq_some_iff.mpr (show p.long = (Opt.parameter p).long from rfl)]

theorem readLong_parameter_some (p : Parameter) (value : String) :
    readLong p.long (some value) = ([.attached p value], .anything) := by
  simp [readLong, Opt.ofLong?_eq_some_iff.mpr (show p.long = (Opt.parameter p).long from rfl)]

/-- What follows an argument, read as it is expected. -/
def Outlook.reading (rest : List String) : Outlook → Reading
  | .anything => readFrom none rest
  | .value p => readFrom (some p) rest
  | .nothing m => ⟨[], some m⟩

/-- **One option is read after the other**, with the uses in their order. -/
theorem readFrom_long (awaiting : Option Parameter) (rest : List String)
    (h : shape arg = .long name value?) :
    readFrom awaiting (arg :: rest) = ((readLong name value?).2.reading rest).after
      (unmet awaiting ++ (readLong name value?).1) := by
  rw [readFrom.eq_3 _ _ _ _ _ h]
  rcases readLong name value? with ⟨uses, _ | _ | _⟩ <;> simp [Outlook.reading, Reading.after]

theorem readFrom_letters {cs : List Char} (awaiting : Option Parameter) (rest : List String)
    (h : shape arg = .letters cs) :
    readFrom awaiting (arg :: rest) = ((readLetters cs).2.reading rest).after
      (unmet awaiting ++ (readLetters cs).1) := by
  rw [readFrom.eq_4 _ _ _ _ h]
  rcases readLetters cs with ⟨uses, _ | _ | _⟩ <;> simp [Outlook.reading, Reading.after]

/-- An option in front of the others, its value in the same argument. -/
theorem read_joined (p : Parameter) (value : String) (rest : List String) :
    read (("--" ++ p.long ++ "=" ++ value) :: rest) = (read rest).after [.attached p value] := by
  have hshape : shape ("--" ++ p.long ++ "=" ++ value) = .long p.long (some value) :=
    shape_eq_long_iff.mpr ⟨by simp [valueText, String.append_assoc], p.equals_not_mem_long,
      p.long_append_ne_empty _⟩
  rw [read, readFrom_long _ _ hshape, readLong_parameter_some]
  rfl

/-- An option in front of the others, its value still due. -/
theorem read_named (p : Parameter) (rest : List String) :
    read (("--" ++ p.long) :: rest) = readFrom (some p) rest := by
  have hshape : shape ("--" ++ p.long) = .long p.long none :=
    shape_eq_long_iff.mpr ⟨by simp [valueText], p.equals_not_mem_long, p.long_append_ne_empty _⟩
  rw [read, readFrom_long _ _ hshape, readLong_parameter_none]
  rfl

/-- The same under its letter. -/
theorem read_letter {c : Char} (hc : p.letter? = some c) (rest : List String) :
    read (String.ofList ['-', c] :: rest) = readFrom (some p) rest := by
  have hshape : shape (String.ofList ['-', c]) = .letters [c] := by
    cases p <;> cases hc <;> rfl
  have hletters : readLetters [c] = ([], .value p) := by
    cases p <;> cases hc <;> rfl
  rw [read, readFrom_letters _ _ hshape, hletters]
  rfl

@[simp] theorem misfit?_after (uses : List Use) (r : Reading) :
    (r.after uses).misfit? = r.misfit? := rfl

@[simp] theorem uses_after (uses : List Use) (r : Reading) :
    (r.after uses).uses = uses ++ r.uses := rfl

/-- A parameter is used by what follows an argument, as its value or under its name. -/
theorem usedIn_reading {named : Prop} {rest : List String}
    (hrest : ∀ next, (readFrom next rest).misfit? = none →
      (UsedIn p (readFrom next rest).uses ↔ next = some p ∨ named)) :
    ∀ {o : Outlook}, (o.reading rest).misfit? = none →
      (UsedIn p (o.reading rest).uses ↔ o = .value p ∨ named)
  | .anything, h => by simpa [Outlook.reading] using hrest none h
  | .value q, h => by simpa [Outlook.reading] using hrest (some q) h

/-- An option that has its place is a use of the parameter it names, now or with the next argument. -/
theorem readLong_uses (hplace : ∀ m, (readLong name value?).2 ≠ .nothing m) :
    UsedIn p (readLong name value?).1 ∨ (readLong name value?).2 = .value p ↔ name = p.long := by
  have hname : Opt.ofLong? name = some (.parameter p) ↔ name = p.long := Opt.ofLong?_eq_some_iff
  rw [← hname]
  rw [readLong.eq_def] at hplace ⊢
  cases hopt : Opt.ofLong? name with
  | none => simp [hopt] at hplace
  | some o =>
    cases o with
    | switch s => cases value? with
      | none => simp [Use.parameter?]
      | some value => simp [hopt] at hplace
    | parameter q => cases value? <;> simp [Use.parameter?]

/-- A parameter without a letter is not among letters. -/
theorem readLetters_uses (hletter : p.letter? = none) : ∀ cs : List Char,
    ¬(UsedIn p (readLetters cs).1 ∨ (readLetters cs).2 = .value p)
  | [] => by simp [readLetters]
  | c :: rest => by
      have hother {q : Parameter} (hq : Opt.ofLetter? c = some (.parameter q)) : q ≠ p := by
        rintro rfl
        have hc : q.letter? = some c := by simpa [Opt.letter?] using List.find?_some hq
        rw [hletter] at hc
        cases hc
      have ih := readLetters_uses hletter rest
      rw [readLetters.eq_def]
      grind [usedIn_nil, usedIn_cons, Use.parameter?]

/-- **Arguments that all have their place use a parameter without a letter exactly when one of them
names it** — by induction on the arguments, where the parameter may be one whose value is due. -/
theorem usedIn_readFrom_iff (hletter : p.letter? = none) : ∀ {args : List String}
    {awaiting : Option Parameter}, (readFrom awaiting args).misfit? = none →
      (UsedIn p (readFrom awaiting args).uses ↔ awaiting = some p ∨ ∃ arg ∈ args, p.NamedBy arg)
  | [], awaiting, _ => by simp [readFrom.eq_1]
  | arg :: rest, awaiting, hmisfit => by
      have ih (next : Option Parameter) := @usedIn_readFrom_iff hletter rest next
      have hfirst : p.NamedBy arg ↔ ∃ value?, shape arg = .long p.long value? :=
        Parameter.namedBy_iff
      simp only [List.mem_cons, exists_eq_or_imp, hfirst]
      cases hshape : shape arg with
      | terminator =>
        rw [readFrom.eq_2 _ _ _ hshape] at hmisfit ⊢
        obtain rfl : rest = [] := by simpa using hmisfit
        simp
      | long name value? =>
        rw [readFrom_long _ _ hshape] at hmisfit ⊢
        have hplace (m : Misfit) : (readLong name value?).2 ≠ .nothing m := fun h => by
          rw [h] at hmisfit
          cases hmisfit
        have hnamed : (∃ v?, Shape.long name value? = .long p.long v?) ↔ name = p.long := by simp
        rw [hnamed, ← readLong_uses hplace]
        simp [usedIn_reading ih hmisfit, or_assoc]
      | letters cs =>
        rw [readFrom_letters _ _ hshape] at hmisfit ⊢
        have hunused := readLetters_uses hletter cs
        rw [not_or] at hunused
        simp [usedIn_reading ih hmisfit, hunused]
      | plain =>
        cases awaiting with
        | none => rw [readFrom.eq_6 _ _ hshape] at hmisfit; cases hmisfit
        | some q =>
          rw [readFrom.eq_5 _ _ _ hshape] at hmisfit ⊢
          simp [ih none hmisfit, Use.parameter?]

end PinnedManifest.CommandLine
