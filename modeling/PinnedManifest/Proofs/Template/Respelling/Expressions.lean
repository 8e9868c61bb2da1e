import PinnedManifest.Proofs.Template.Respelling.Literals

/-!
# Proofs/Template/Respelling/Expressions — paths and calls read over respelled tags

Every reader of what stands inside a tag is run on both texts of the same strokes, and its two runs are
alike (`alike_readShown`, `alike_readLine`, `alike_readInsertion`).  This holds for what is read and
given up again as well as for what is kept, so that a choice is taken on both sides or on neither.  A
name between brackets may end inside a respelled tag; whatever is read from there on stays inside it.
-/

namespace PinnedManifest.Template.Respelling

open Json (isBlank skipBlanks)

variable {α β : Type} {k l : Nat} {s t : List Stroke} {c : Char}

/-- Strokes that readers may meet: quotation marks are where they may be, and only characters stand in
front of the last strokes, so many. -/
structure Readable (k : Nat) (s : List Stroke) : Prop where
  keptTo : KeptTo k s
  lawful : ∃ inside, Lawful inside s

theorem Readable.suffix (hs : Readable k s) (hts : t <:+ s) : Readable k t := by
  obtain ⟨hkept, inside, hlawful⟩ := hs
  refine ⟨hkept.suffix hts, ?_⟩
  obtain ⟨u, rfl⟩ := hts
  exact hlawful.exists_suffix

/-- Two results of a reader that always succeeds: both leave the same strokes, with the same value
unless fewer are left than given. -/
def Meets (k : Nat) (s : List Stroke) (x x' : α × List Char) : Prop :=
  ∃ t, t <:+ s ∧ (k ≤ t.length → x.1 = x'.1) ∧ x.2 = before t ∧ x'.2 = after t

/-! ## Names -/

theorem alike_readIdentifier (k : Nat) (s : List Stroke) :
    Alike k s (readIdentifier (before s)) (readIdentifier (after s)) := by
  obtain ⟨cs, t, rfl, hbefore, hafter⟩ := span_eq isSymbol (by decide) (by decide) s
  rw [readIdentifier, readIdentifier, hbefore, hafter]
  cases cs with
  | nil => exact .none
  | cons c cs => exact .some (List.suffix_append _ t) (length_lt_kept c cs t) fun _ => rfl

/-- **A run up to a bracket** has one length in both spellings, and goes over respelled braces. -/
theorem span_bracket : ∀ s : List Stroke, ∃ u t, s = u ++ t ∧
    (before s).span (· != ']') = (before u, before t) ∧ (after s).span (· != ']') = (after u, after t)
  | [] => ⟨[], [], rfl, rfl, rfl⟩
  | x :: s => by
      obtain ⟨u, t, rfl, hbefore, hafter⟩ := span_bracket s
      rw [List.span_eq_takeWhile_dropWhile, Prod.mk.injEq] at hbefore hafter
      cases x with
      | char c =>
        by_cases hc : c = ']'
        · subst hc
          exact ⟨[], .char ']' :: (u ++ t), rfl, by simp, by simp⟩
        · exact ⟨.char c :: u, t, rfl, by simp_all, by simp_all⟩
      | ampersand lead h =>
        have hlead : ∀ d ∈ lead, (d != ']') = true := by
          intro d hd
          simp only [bne_iff_ne]
          rintro rfl
          exact absurd (h _ hd) (by decide)
        refine ⟨.ampersand lead h :: u, t, rfl, ?_, ?_⟩
        · simp_all [List.takeWhile_append_of_pos, List.dropWhile_append_of_pos]
        · simp_all [List.takeWhile_append_of_pos, List.dropWhile_append_of_pos]
      | opening => exact ⟨.opening :: u, t, rfl, by simp_all, by simp_all⟩
      | closing => exact ⟨.closing :: u, t, rfl, by simp_all, by simp_all⟩

theorem before_eq_after_of_keptTo {u : List Stroke} (hs : KeptTo k (u ++ t)) (hk : k ≤ t.length) :
    before u = after u := by
  obtain ⟨cs, rfl⟩ := hs u t rfl hk
  simp

theorem readName_of_ne {cs : List Char} (hc : c ≠ '[') :
    readName (c :: cs) = readIdentifier (c :: cs) := by
  rw [readName.eq_def]
  split
  next heq => exact absurd (List.cons.inj heq).1 hc
  next => rfl

/-- **A name is read alike in both spellings**, also one between brackets with respelled tags in it. -/
theorem alike_readName (hs : Readable k s) :
    Alike k s (readName (before s)) (readName (after s)) := by
  have hsymbols := alike_readIdentifier k s
  rcases s with _ | ⟨c | ⟨lead, h⟩ | _ | _, s⟩
  case cons.char =>
    by_cases hc : c = '['
    · subst hc
      obtain ⟨u, t, rfl, hbefore, hafter⟩ := span_bracket s
      rw [before_char, after_char, readName, readName, hbefore, hafter]
      obtain ⟨hnone, hnone'⟩ | ⟨v, rfl, hv, hv'⟩ := char?_cases_of_not_brace (c := ']') rfl t
      · simp only [hnone, hnone']
        exact .none
      · simp only [hv, hv']
        refine .some ⟨.char '[' :: (u ++ [.char ']']), by simp⟩ (by simp; omega) fun hk => ?_
        have hname := (hs.suffix (List.suffix_cons _ _)).keptTo
        rw [before_eq_after_of_keptTo hname (hk.trans (by simp))]
    · rw [before_char, after_char, readName_of_ne hc, readName_of_ne hc]
      exact hsymbols
  all_goals exact hsymbols

/-! ## Separators -/

/-- The rest after a separator. -/
def skipSeparator : List Char → Option (List Char)
  | c :: rest => if isSeparator c then some rest else none
  | [] => none

theorem leads_skipSeparator : ∀ s : List Stroke,
    Leads s (skipSeparator (before s)) (skipSeparator (after s))
  | .char c :: s => by
      rw [before_char, after_char, skipSeparator, skipSeparator]
      split
      · exact .inr ⟨s, List.suffix_cons _ s, by simp, rfl, rfl⟩
      · exact .inl ⟨rfl, rfl⟩
  | [] | .ampersand _ _ :: _ | .opening :: _ | .closing :: _ => .inl ⟨rfl, rfl⟩

theorem Leads.skip {o o' : Option (List Char)} {f f' : List Char → Option (List Char)}
    (h : Leads s o o') (hf : ∀ t, t <:+ s → Leads t (f (before t)) (f' (after t))) :
    Leads s (o.bind f) (o'.bind f') := by
  obtain ⟨rfl, rfl⟩ | ⟨t, hts, hlt, rfl, rfl⟩ := h
  · exact .inl ⟨rfl, rfl⟩
  · obtain h | ⟨v, hv, hvlt, hbefore, hafter⟩ := hf t hts
    · exact .inl h
    · exact .inr ⟨v, hv.trans hts, hvlt.trans hlt, hbefore, hafter⟩

theorem Leads.orElse {o o' : Option (List Char)} {p p' : Unit → Option (List Char)}
    (h : Leads s o o') (hp : Leads s (p ()) (p' ())) : Leads s (o.orElse p) (o'.orElse p') := by
  obtain ⟨rfl, rfl⟩ | ⟨t, hts, hlt, rfl, rfl⟩ := h
  · exact hp
  · exact .inr ⟨t, hts, hlt, rfl, rfl⟩

/-- **An optional step** is taken in both spellings or in none. -/
theorem Leads.exists_rest {o o' : Option (List Char)} (h : Leads s o o') :
    ∃ t, t <:+ s ∧ o.isSome = o'.isSome ∧ o.getD (before s) = before t ∧
      o'.getD (after s) = after t := by
  obtain ⟨rfl, rfl⟩ | ⟨t, hts, -, rfl, rfl⟩ := h
  · exact ⟨s, List.suffix_rfl, rfl, rfl, rfl⟩
  · exact ⟨t, hts, rfl, rfl, rfl⟩

/-! ## Paths -/

theorem skipCurrent_eq (cs : List Char) : skipCurrent cs =
    (((Json.after? "this".toList cs).bind skipSeparator).orElse fun _ =>
      Json.after? "./".toList cs).getD cs := by
  rw [skipCurrent.eq_def]
  split
  next c rest =>
    have hthis : Json.after? "this".toList ('t' :: 'h' :: 'i' :: 's' :: c :: rest) =
        some (c :: rest) := rfl
    have hdot : Json.after? "./".toList ('t' :: 'h' :: 'i' :: 's' :: c :: rest) = none := rfl
    rw [hthis, hdot, Option.bind_some, skipSeparator]
    split <;> rfl
  next rest => cases rest <;> rfl
  next hthis hdot =>
    cases hword : Json.after? "this".toList cs with
    | some rest =>
      obtain rfl := after?_eq_some_iff.mp hword
      cases rest with
      | nil => rfl
      | cons c rest => exact (hthis c rest rfl).elim
    | none =>
      cases hstep : Json.after? "./".toList cs with
      | some rest => exact (hdot rest (after?_eq_some_iff.mp hstep)).elim
      | none => rfl

theorem skipRoot?_eq (cs : List Char) :
    skipRoot? cs = (Json.after? "@root".toList cs).bind skipSeparator := by
  rw [skipRoot?]
  cases Json.after? "@root".toList cs with
  | none => rfl
  | some rest => cases rest <;> rfl

theorem countUps_eq (cs : List Char) : countUps cs =
    match (Json.after? "..".toList cs).bind skipSeparator with
    | some rest => ((countUps rest).1 + 1, (countUps rest).2)
    | none => (0, cs) := by
  rw [countUps.eq_def]
  split
  next c rest =>
    have hdots : Json.after? "..".toList ('.' :: '.' :: c :: rest) = some (c :: rest) := rfl
    rw [hdots, Option.bind_some, skipSeparator]
    split <;> rfl
  next hnot =>
    cases hdots : Json.after? "..".toList cs with
    | none => rfl
    | some rest =>
      obtain rfl := after?_eq_some_iff.mp hdots
      cases rest with
      | nil => rfl
      | cons c rest => exact (hnot c rest rfl).elim

theorem readNames_succ (n : Nat) (cs : List Char) : readNames (n + 1) cs =
    match (skipSeparator cs).bind readName with
    | some (name, left) => (name :: (readNames n left).1, (readNames n left).2)
    | none => ([], cs) := by
  cases cs with
  | nil => rfl
  | cons c rest =>
    cases hc : isSeparator c with
    | true => cases hname : readName rest <;> simp [readNames, skipSeparator, hc, hname]
    | false => simp [readNames, skipSeparator, hc]

theorem exists_skipCurrent (s : List Stroke) :
    ∃ t, t <:+ s ∧ skipCurrent (before s) = before t ∧ skipCurrent (after s) = after t := by
  have hthis : Leads s ((Json.after? "this".toList (before s)).bind skipSeparator)
      ((Json.after? "this".toList (after s)).bind skipSeparator) :=
    (leads_after? rfl (by decide) s).skip fun t _ => leads_skipSeparator t
  have hcurrent : Leads s
      (((Json.after? "this".toList (before s)).bind skipSeparator).orElse fun _ =>
        Json.after? "./".toList (before s))
      (((Json.after? "this".toList (after s)).bind skipSeparator).orElse fun _ =>
        Json.after? "./".toList (after s)) :=
    hthis.orElse (leads_after? rfl (by decide) s)
  obtain ⟨t, hts, -, hbefore, hafter⟩ := hcurrent.exists_rest
  exact ⟨t, hts, by rw [skipCurrent_eq, hbefore], by rw [skipCurrent_eq, hafter]⟩

theorem leads_skipRoot? (s : List Stroke) : Leads s (skipRoot? (before s)) (skipRoot? (after s)) := by
  rw [skipRoot?_eq, skipRoot?_eq]
  exact (leads_after? rfl (by decide) s).skip fun t _ => leads_skipSeparator t

/-- **Steps up are counted alike** — by induction on how many strokes there are. -/
theorem exists_countUps : ∀ {l : Nat} {s : List Stroke}, s.length ≤ l →
    ∃ n t, t <:+ s ∧ countUps (before s) = (n, before t) ∧ countUps (after s) = (n, after t) := by
  intro l
  induction l with
  | zero =>
    intro s hl
    obtain rfl := List.length_eq_zero_iff.mp (Nat.le_zero.mp hl)
    exact ⟨0, [], List.suffix_rfl, rfl, rfl⟩
  | succ l ih =>
    intro s hl
    have hstep : Leads s ((Json.after? "..".toList (before s)).bind skipSeparator)
        ((Json.after? "..".toList (after s)).bind skipSeparator) :=
      (leads_after? rfl (by decide) s).skip fun t _ => leads_skipSeparator t
    rw [countUps_eq, countUps_eq (after s)]
    obtain ⟨hbefore, hafter⟩ | ⟨t, hts, hlt, hbefore, hafter⟩ := hstep
    · rw [hbefore, hafter]
      exact ⟨0, s, List.suffix_rfl, rfl, rfl⟩
    · obtain ⟨n, v, hv, hups, hups'⟩ := ih (s := t) (by omega)
      rw [hbefore, hafter]
      exact ⟨n + 1, v, hv.trans hts, by simp [hups], by simp [hups']⟩

/-- **The names of a path are read alike** — by induction on how many may come, since a separator goes
with each. -/
theorem meets_readNames : ∀ {n m : Nat} {s : List Stroke}, s.length ≤ n → s.length ≤ m →
    Readable k s → Meets k s (readNames n (before s)) (readNames m (after s)) := by
  intro n
  induction n with
  | zero =>
    intro m s hn _ _
    obtain rfl := List.length_eq_zero_iff.mp (Nat.le_zero.mp hn)
    cases m <;> exact ⟨[], List.suffix_rfl, fun _ => rfl, rfl, rfl⟩
  | succ n ih =>
    intro m s hn hm hs
    have hstep : Alike k s ((skipSeparator (before s)).bind readName)
        ((skipSeparator (after s)).bind readName) :=
      (leads_skipSeparator s).bind fun t hts _ =>
        (alike_readName (hs.suffix hts)).of_suffix hts
    rw [readNames_succ]
    cases m with
    | zero =>
      obtain rfl := List.length_eq_zero_iff.mp (Nat.le_zero.mp hm)
      exact ⟨[], List.suffix_rfl, fun _ => rfl, rfl, rfl⟩
    | succ m =>
      rw [readNames_succ]
      obtain ⟨hbefore, hafter⟩ | ⟨a, a', t, hts, hlt, ha, hbefore, hafter⟩ := hstep
      · rw [hbefore, hafter]
        exact ⟨s, List.suffix_rfl, fun _ => rfl, rfl, rfl⟩
      · obtain ⟨v, hv, hnames, hleft, hleft'⟩ :=
          ih (m := m) (s := t) (by omega) (by omega) (hs.suffix hts)
        rw [hbefore, hafter]
        refine ⟨v, hv.trans hts, fun hk => ?_, hleft, hleft'⟩
        exact congrArg₂ List.cons (ha (hk.trans hv.length_le)) (hnames hk)

/-- A path step by step. -/
theorem readPath_eq (cs : List Char) : readPath cs =
    let start := skipCurrent cs
    let root := skipRoot? start
    let start := root.getD start
    let mark := char? '@' start
    let ups := countUps (mark.getD start)
    (readName ups.2).map fun x =>
      let more := readNames x.2.length x.2
      (⟨String.ofList (consumed cs more.2), root.isSome, mark.isSome, ups.1,
        (x.1 :: more.1).filter (· != "this")⟩, more.2) := by
  rw [readPath]
  cases hroot : skipRoot? (skipCurrent cs) with
  | none => cases hmark : char? '@' (skipCurrent cs) <;> simp [hroot, hmark]
  | some rest => cases hmark : char? '@' rest <;> simp [hroot, hmark]

/-- **A path is read alike in both spellings.** -/
theorem alike_readPath (hs : Readable k s) :
    Alike k s (readPath (before s)) (readPath (after s)) := by
  obtain ⟨t, hts, hcurrent, hcurrent'⟩ := exists_skipCurrent s
  obtain ⟨u, hut, hroot, hu, hu'⟩ := (leads_skipRoot? t).exists_rest
  obtain ⟨v, hvu, hmark, hv, hv'⟩ := (leads_char? (c := '@') rfl u).exists_rest
  obtain ⟨n, w, hwv, hups, hups'⟩ := exists_countUps (Nat.le_refl v.length)
  have hws := ((hwv.trans hvu).trans hut).trans hts
  simp only [readPath_eq, hcurrent, hcurrent', hu, hu', hv, hv', hups, hups', hroot, hmark]
  obtain ⟨hbefore, hafter⟩ | ⟨a, a', x, hxw, hlt, ha, hbefore, hafter⟩ := alike_readName (hs.suffix hws)
  · rw [hbefore, hafter]
    exact .none
  · obtain ⟨y, hyx, hnames, hrest, hrest'⟩ := meets_readNames (length_le_before x)
      (length_le_after x) (hs.suffix (hxw.trans hws))
    simp only [hbefore, hafter, Option.map_some, hrest, hrest']
    have hys := hyx.trans (hxw.trans hws)
    refine .some hys (hyx.length_le.trans_lt (hlt.trans_le hws.length_le)) fun hk => ?_
    rw [hs.keptTo.consumed_eq hys hk, ha (hk.trans hyx.length_le), hnames hk]

/-! ## Arguments and calls -/

section Calls

variable {expr expr' : Reader Expr}

/-- Both runs of an expression's reader are alike wherever no more strokes are left than given. -/
def AlikeBelow (k l : Nat) (expr expr' : Reader Expr) : Prop :=
  ∀ t : List Stroke, t.length ≤ l → Readable k t → Alike k t (expr (before t)) (expr' (after t))

theorem alike_afterBlanks (hexpr : AlikeBelow k l expr expr') (hl : s.length ≤ l)
    (hs : Readable k s) : Alike k s (expr (skipBlanks (before s))) (expr' (skipBlanks (after s))) :=
  have hts := afterBlanks_suffix s
  Alike.skipBlanks (hexpr _ (hts.length_le.trans hl) (hs.suffix hts))

theorem alike_readArgument (hexpr : AlikeBelow k l expr expr') (hl : s.length ≤ l)
    (hs : Readable k s) : Alike k s (readArgument expr (before s)) (readArgument expr' (after s)) := by
  refine Alike.orElse ?_ ((hexpr s hl hs).map Argument.positional)
  refine (alike_readIdentifier k s).bind fun key key' t hts hlt hkey => ?_
  refine (leads_mark? rfl t).bind fun u hut _ => ?_
  have hus := hut.trans hts
  refine (alike_afterBlanks hexpr (hus.length_le.trans hl) (hs.suffix hus)).bind
    fun e e' v hvu hvlt he => .some (hvu.trans hus) (hvlt.trans_le hus.length_le) fun hk => ?_
  rw [hkey (hk.trans (hvu.trans hut).length_le), he hk]

theorem readArguments_eq_nil {cs : List Char} (h : readArgument expr (skipBlanks cs) = none) :
    ∀ n, readArguments expr n cs = ([], cs)
  | 0 => rfl
  | n + 1 => by rw [readArguments, h]

/-- **Arguments are read alike** — by induction on how many may come, since each takes something.  Both
runs read some or both read none, also where the arguments differ. -/
theorem meets_readArguments (hexpr : AlikeBelow k l expr expr') : ∀ {n m : Nat} {s : List Stroke},
    s.length ≤ n → s.length ≤ m → s.length ≤ l → Readable k s →
      (readArguments expr n (before s)).1.isEmpty = (readArguments expr' m (after s)).1.isEmpty ∧
        Meets k s (readArguments expr n (before s)) (readArguments expr' m (after s)) := by
  intro n
  induction n with
  | zero =>
    intro m s hn _ hl hs
    obtain rfl := List.length_eq_zero_iff.mp (Nat.le_zero.mp hn)
    have hnone : readArgument expr' (skipBlanks []) = none := by
      obtain ⟨-, h⟩ | ⟨_, _, t, -, hlt, -⟩ := alike_readArgument hexpr hl hs
      · exact h
      · exact absurd hlt (Nat.not_lt_zero _)
    rw [after_nil, readArguments_eq_nil hnone]
    exact ⟨rfl, [], List.suffix_rfl, fun _ => rfl, rfl, rfl⟩
  | succ n ih =>
    intro m s hn hm hl hs
    have hblanks := afterBlanks_suffix s
    have hnext := alike_readArgument hexpr (hblanks.length_le.trans hl) (hs.suffix hblanks)
    rw [← skipBlanks_before, ← skipBlanks_after] at hnext
    obtain ⟨hbefore, hafter⟩ | ⟨a, a', t, htb, hlt, ha, hbefore, hafter⟩ := hnext
    · rw [readArguments_eq_nil hbefore, readArguments_eq_nil hafter]
      exact ⟨rfl, s, List.suffix_rfl, fun _ => rfl, rfl, rfl⟩
    · have hts := htb.trans hblanks
      have hlength := hblanks.length_le
      obtain ⟨m, rfl⟩ : ∃ m', m = m' + 1 := ⟨m - 1, by omega⟩
      obtain ⟨-, u, hut, hmore, hrest, hrest'⟩ :=
        ih (m := m) (s := t) (by omega) (by omega) (by omega) (hs.suffix hts)
      rw [readArguments, readArguments, hbefore, hafter]
      refine ⟨rfl, u, hut.trans hts, fun hk => ?_, hrest, hrest'⟩
      exact congrArg₂ List.cons (ha (hk.trans hut.length_le)) (hmore hk)

theorem alike_readCall (hexpr : AlikeBelow k l expr expr') (hl : s.length ≤ l) (hs : Readable k s) :
    Alike k s (readCall expr (before s)) (readCall expr' (after s)) := by
  refine (alike_readIdentifier k s).bind fun name name' t hts hlt hname => ?_
  obtain ⟨hempty, u, hut, hargs, hrest, hrest'⟩ := meets_readArguments hexpr (length_le_before t)
    (length_le_after t) (hts.length_le.trans hl) (hs.suffix hts)
  dsimp only
  rw [← hempty]
  split
  · exact .none
  · rw [hrest, hrest']
    refine .some (hut.trans hts) (hut.length_le.trans_lt hlt) fun hk => ?_
    rw [hname (hk.trans hut.length_le), hargs hk]

/-- A parenthesis is read alike when what is inside it is. -/
theorem alike_readParenthesis (hexpr : AlikeBelow k l expr expr') (hl : s.length ≤ l + 1)
    (hs : Readable k s) :
    Alike k s (readParenthesis expr (before s)) (readParenthesis expr' (after s)) := by
  refine (leads_char? rfl s).bind fun t hts hlt => ?_
  have hblanks := (afterBlanks_suffix t).trans hts
  have hlength := (afterBlanks_suffix t).length_le
  rw [skipBlanks_before, skipBlanks_after]
  have hcall := (alike_readCall hexpr (by omega) (hs.suffix hblanks)).map
    fun c => Expr.call c.helper c.args
  have hpath := (alike_readPath (hs.suffix hblanks)).map fun p => Expr.call p.source []
  refine (hcall.orElse hpath).bind fun e e' u hu hult he => ?_
  refine (leads_mark? rfl u).bind fun v hvu _ => ?_
  have hvs := hvu.trans (hu.trans hblanks)
  exact .some hvs (by have := hvu.length_le; omega) fun hk => he (hk.trans hvu.length_le)

/-- A literal that was read, as an expression. -/
def literalExpr (result : Except String Json.Value) : Expr :=
  match result with
  | .ok v => .literal v
  | .error source => .unreadable source

/-- An expression is read alike when what is inside its parentheses is. -/
theorem alike_readExprWith (hexpr : AlikeBelow k l expr expr') (hl : s.length ≤ l + 1)
    (hs : Readable k s) :
    Alike k s (readExprWith expr (before s)) (readExprWith expr' (after s)) := by
  rw [readExprWith, readExprWith, startsWithKeyword_after]
  split
  · exact .none
  · obtain ⟨inside, hlawful⟩ := hs.lawful
    have hliteral := (alike_readLiteral hs.keptTo hlawful).map literalExpr
    exact hliteral.orElse (((alike_readPath hs).map Expr.path).orElse
      (alike_readParenthesis hexpr hl hs))

end Calls

/-- **An expression is read alike**, however deep it may be nested on either side, as long as that is
deep enough — by induction on how many strokes there are. -/
theorem alike_readExprNested : ∀ {l n m : Nat}, l ≤ n → l ≤ m → ∀ {s : List Stroke}, s.length < l →
    Readable k s → Alike k s (readExprNested n (before s)) (readExprNested m (after s)) := by
  intro l
  induction l with
  | zero => exact fun _ _ _ h => absurd h (Nat.not_lt_zero _)
  | succ l ih =>
    intro n m hn hm s hl hs
    obtain ⟨n, rfl⟩ : ∃ n', n = n' + 1 := ⟨n - 1, by omega⟩
    obtain ⟨m, rfl⟩ : ∃ m', m = m' + 1 := ⟨m - 1, by omega⟩
    cases l with
    | zero =>
      obtain rfl : s = [] := List.length_eq_zero_iff.mp (by omega)
      exact .inl ⟨rfl, rfl⟩
    | succ l =>
      exact alike_readExprWith (fun t ht hread => ih (by omega) (by omega) (by omega) hread)
        (l := l) (by omega) hs

theorem alike_readExpr (k l : Nat) : AlikeBelow k l readExpr readExpr := fun t _ ht =>
  alike_readExprNested (l := t.length + 1) (Nat.succ_le_succ (length_le_before t))
    (Nat.succ_le_succ (length_le_after t)) (Nat.lt_succ_self _) ht

/-! ## What tags hold -/

theorem alike_readReference (hs : Readable k s) :
    Alike k s (readReference (before s)) (readReference (after s)) :=
  ((alike_readParenthesis (alike_readExpr k s.length) (Nat.le_succ _) hs).map Shown.computed).orElse
    ((alike_readPath hs).map Shown.path)

/-- **What a value tag shows is read alike in both spellings.** -/
theorem alike_readShown (hs : Readable k s) :
    Alike k s (readShown (before s)) (readShown (after s)) :=
  ((alike_readCall (alike_readExpr k s.length) (Nat.le_refl _) hs).map Shown.call).orElse
    (alike_readReference hs)

/-- **The aliases of a block are read alike in both spellings.** -/
theorem alike_readAliases (k : Nat) (s : List Stroke) :
    Alike k s (readAliases (before s)) (readAliases (after s)) := by
  have hidentifier (t : List Stroke) : Alike k t (readIdentifier (skipBlanks (before t)))
      (readIdentifier (skipBlanks (after t))) := Alike.skipBlanks (alike_readIdentifier k _)
  rw [readAliases, readAliases, skipBlanks_before, skipBlanks_after]
  refine Alike.of_suffix (afterBlanks_suffix s) ?_
  refine (leads_after? rfl (by decide) _).bind fun t hts hlt => ?_
  refine (leads_mark? rfl t).bind fun u hut _ => ?_
  refine (hidentifier u).bind fun first first' v hvu _ hfirst => ?_
  have hvs := (hvu.trans hut).trans hts
  have hvlt := (hvu.trans hut).length_le.trans_lt hlt
  obtain ⟨hbefore, hafter⟩ | ⟨second, second', w, hwv, _, hsecond, hbefore, hafter⟩ := hidentifier v
  · simp only [hbefore, hafter]
    refine (leads_mark? rfl v).bind fun x hxv _ => ?_
    refine .some (hxv.trans hvs) (hxv.length_le.trans_lt hvlt) fun hk => ?_
    rw [hfirst (hk.trans hxv.length_le)]
  · simp only [hbefore, hafter]
    refine (leads_mark? rfl w).bind fun x hxw _ => ?_
    have hxv := hxw.trans hwv
    refine .some (hxv.trans hvs) (hxv.length_le.trans_lt hvlt) fun hk => ?_
    rw [hfirst (hk.trans hxv.length_le), hsecond (hk.trans hxw.length_le)]

/-- **A helper with its arguments and aliases is read alike in both spellings.** -/
theorem alike_readLine (hs : Readable k s) :
    Alike k s (readLine (before s)) (readLine (after s)) := by
  refine (alike_readIdentifier k s).bind fun name name' t hts hlt hname => ?_
  obtain ⟨-, u, hut, hargs, hrest, hrest'⟩ := meets_readArguments (alike_readExpr k t.length)
    (length_le_before t) (length_le_after t) (Nat.le_refl _) (hs.suffix hts)
  have hus := hut.trans hts
  have hult := hut.length_le.trans_lt hlt
  dsimp only
  rw [hrest, hrest']
  obtain ⟨hbefore, hafter⟩ | ⟨as, as', v, hvu, _, has, hbefore, hafter⟩ := alike_readAliases k u
  · simp only [hbefore, hafter]
    refine .some hus hult fun hk => ?_
    rw [hname (hk.trans hut.length_le), hargs hk]
  · simp only [hbefore, hafter]
    refine .some (hvu.trans hus) (hvu.length_le.trans_lt hult) fun hk => ?_
    rw [hname (hk.trans (hvu.trans hut).length_le), hargs (hk.trans hvu.length_le), has hk]

/-! ## Partials -/

theorem spanQuoted_cons {cs : List Char} (hquote : c ≠ '\'')
    (hescape : c = '\\' → cs.head? ≠ some '\'') :
    spanQuoted (c :: cs) = (c :: (spanQuoted cs).1, (spanQuoted cs).2) := by
  rw [spanQuoted.eq_def]
  split
  next heq =>
    obtain ⟨rfl, rfl⟩ := List.cons.inj heq
    exact (hescape rfl rfl).elim
  next heq =>
    obtain ⟨rfl, rfl⟩ := List.cons.inj heq
    rw [if_neg hquote]
  next heq => cases heq

theorem spanQuoted_padding : ∀ {lead : List Char} (rest : List Char),
    (∀ c ∈ lead, isPadding c = true) →
      spanQuoted (lead ++ rest) = (lead ++ (spanQuoted rest).1, (spanQuoted rest).2)
  | [], _, _ => rfl
  | c :: lead, rest, hlead => by
      have hc := hlead c List.mem_cons_self
      have hquote : c ≠ '\'' := by rintro rfl; exact absurd hc (by decide)
      have hslash : c ≠ '\\' := by rintro rfl; exact absurd hc (by decide)
      rw [List.cons_append, spanQuoted_cons hquote fun h => absurd h hslash,
        spanQuoted_padding rest fun d hd => hlead d (List.mem_cons_of_mem c hd)]
      rfl

/-- **A run up to a single quote** has one length in both spellings, and goes over respelled braces — by
induction on how many strokes there are, since an escaped quote takes two. -/
theorem exists_spanQuoted : ∀ {l : Nat} {s : List Stroke}, s.length ≤ l → ∃ u t, s = u ++ t ∧
    spanQuoted (before s) = (before u, before t) ∧ spanQuoted (after s) = (after u, after t) := by
  intro l
  induction l with
  | zero =>
    intro s hl
    obtain rfl := List.length_eq_zero_iff.mp (Nat.le_zero.mp hl)
    exact ⟨[], [], rfl, rfl, rfl⟩
  | succ l ih =>
    intro s hl
    rcases s with _ | ⟨x, s⟩
    · exact ⟨[], [], rfl, rfl, rfl⟩
    obtain ⟨u, t, hs, hbefore, hafter⟩ := ih (s := s) (Nat.le_of_succ_le_succ hl)
    have hbrace {c : Char} (hc : isBrace c = true) (cs : List Char) :
        spanQuoted (c :: cs) = (c :: (spanQuoted cs).1, (spanQuoted cs).2) := by
      apply spanQuoted_cons <;> rintro rfl <;> exact absurd hc (by decide)
    cases x with
    | char c =>
      by_cases hquote : c = '\''
      · subst hquote
        exact ⟨[], .char '\'' :: s, rfl, by simp [spanQuoted], by simp [spanQuoted]⟩
      by_cases hescape : c = '\\' ∧ ∃ v, s = .char '\'' :: v
      · obtain ⟨rfl, v, rfl⟩ := hescape
        obtain ⟨u, t, hv, hbefore, hafter⟩ := ih (s := v) (by simp at hl; omega)
        refine ⟨.char '\\' :: .char '\'' :: u, t, by rw [hv]; rfl, ?_, ?_⟩
        · simp [spanQuoted, hbefore]
        · simp [spanQuoted, hafter]
      · have hhead : c = '\\' → (before s).head? ≠ some '\'' := by
          rintro rfl hhead
          rcases s with _ | ⟨d | _ | _ | _, v⟩ <;> cases hhead
          exact hescape ⟨rfl, v, rfl⟩
        refine ⟨.char c :: u, t, by rw [hs]; rfl, ?_, ?_⟩
        · rw [before_char, spanQuoted_cons hquote hhead, hbefore]
          rfl
        · rw [after_char, spanQuoted_cons hquote (by rwa [head?_after]), hafter]
          rfl
    | ampersand lead h =>
      refine ⟨.ampersand lead h :: u, t, by rw [hs]; rfl, ?_, ?_⟩
      · rw [before_ampersand, hbrace rfl, hbrace rfl, spanQuoted_padding _ h, hbefore]
        rfl
      · rw [after_ampersand, hbrace rfl, hbrace rfl, spanQuoted_padding _ h,
          spanQuoted_cons (by decide) fun h => absurd h (by decide), hafter]
        simp
    | opening =>
      refine ⟨.opening :: u, t, by rw [hs]; rfl, ?_, ?_⟩
      · simp [hbrace, isBrace, hbefore]
      · simp [hbrace, isBrace, hafter]
    | closing =>
      refine ⟨.closing :: u, t, by rw [hs]; rfl, ?_, ?_⟩
      · simp [hbrace, isBrace, hbefore]
      · simp [hbrace, isBrace, hafter]

theorem readPartialName_of_ne {cs : List Char} (hc : cs.head? ≠ some '\'') : readPartialName cs =
    if (cs.span isPartialSymbol).1.isEmpty then none
    else some (String.ofList (cs.span isPartialSymbol).1, (cs.span isPartialSymbol).2) := by
  rw [readPartialName.eq_def]
  split
  next => exact (hc rfl).elim
  next => rfl

theorem isEmpty_before_eq : ∀ u : List Stroke, (before u).isEmpty = (after u).isEmpty
  | [] | .char _ :: _ | .ampersand _ _ :: _ | .opening :: _ | .closing :: _ => rfl

/-- **A partial's name is read alike in both spellings**, also one between quotes with respelled tags
in it. -/
theorem alike_readPartialName (hs : Readable k s) :
    Alike k s (readPartialName (before s)) (readPartialName (after s)) := by
  by_cases hquote : (before s).head? = some '\''
  · rcases s with _ | ⟨c | _ | _ | _, s⟩ <;> cases hquote
    obtain ⟨u, t, rfl, hbefore, hafter⟩ := exists_spanQuoted (Nat.le_refl s.length)
    rw [before_char, after_char, readPartialName, readPartialName, hbefore, hafter]
    dsimp only
    rw [isEmpty_before_eq]
    split
    · exact .none
    · obtain ⟨hnone, hnone'⟩ | ⟨v, rfl, hv, hv'⟩ := char?_cases_of_not_brace (c := '\'') rfl t
      · rw [hnone, hnone']
        exact .none
      · rw [hv, hv']
        refine .some ⟨.char '\'' :: (u ++ [.char '\'']), by simp⟩ (by simp; omega) fun hk => ?_
        have hname := (hs.suffix (List.suffix_cons _ _)).keptTo
        rw [before_eq_after_of_keptTo hname (hk.trans (by simp))]
  · rw [readPartialName_of_ne hquote, readPartialName_of_ne (by rwa [head?_after])]
    obtain ⟨cs, t, rfl, hbefore, hafter⟩ := span_eq isPartialSymbol (by decide) (by decide) s
    rw [hbefore, hafter]
    cases cs with
    | nil => exact .none
    | cons c cs => exact .some (List.suffix_append _ t) (length_lt_kept c cs t) fun _ => rfl

/-- **A partial with its arguments is read alike in both spellings.** -/
theorem alike_readInsertion (hs : Readable k s) :
    Alike k s (readInsertion (before s)) (readInsertion (after s)) := by
  have htarget : Alike k s (readTarget (before s)) (readTarget (after s)) :=
    ((alike_readPartialName hs).map Target.named).orElse
      (((alike_readParenthesis (alike_readExpr k s.length) (Nat.le_succ _) hs).map
        Target.computed).orElse ((alike_readPath hs).map fun p => Target.named p.source))
  rw [readInsertion, readInsertion]
  obtain ⟨hbefore, hafter⟩ | ⟨a, a', t, hts, hlt, ha, hbefore, hafter⟩ := htarget
  · rw [hbefore, hafter]
    exact .none
  · obtain ⟨-, u, hut, hargs, hrest, hrest'⟩ := meets_readArguments (alike_readExpr k t.length)
      (length_le_before t) (length_le_after t) (Nat.le_refl _) (hs.suffix hts)
    rw [hbefore, hafter]
    simp only [Option.map_some, hrest, hrest']
    refine .some (hut.trans hts) (hut.length_le.trans_lt hlt) fun hk => ?_
    rw [ha (hk.trans hut.length_le), hargs hk]

end PinnedManifest.Template.Respelling
