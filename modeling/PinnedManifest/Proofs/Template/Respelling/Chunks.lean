import PinnedManifest.Proofs.Template.Places
import PinnedManifest.Proofs.Template.Respelling.Tags

/-!
# Proofs/Template/Respelling/Chunks — the text between tags

Text ends at braces whatever stands behind them (`readText_append`).  The tag or the raw block there, if
it is kept, is read as the same tags whatever braces are respelled behind it (`readTags_kept`): they
differ in their places alone, and from there on nothing of what stands in front matters.
-/

namespace PinnedManifest.Template.Respelling

open Json (isBlank skipBlanks)

variable {α : Type} {k : Nat} {s t u : List Stroke} {c : Char} {cs rest rest' : List Char}

/-! ## Text in front of braces -/

/-- Whether a word starts a text is decided by as many characters as it has. -/
theorem isSome_after?_append {word front : List Char} (h : word.length ≤ front.length)
    (rest rest' : List Char) : (Json.after? word (front ++ rest)).isSome =
      (Json.after? word (front ++ rest')).isSome := by
  have hprefix (rest : List Char) :
      (Json.after? word (front ++ rest)).isSome = true ↔ word <+: front := by
    rw [Option.isSome_iff_exists]
    simp only [after?_eq_some_iff]
    constructor
    · rintro ⟨left, hleft⟩
      exact List.prefix_of_prefix_length_le ⟨left, hleft.symm⟩ (List.prefix_append front rest) h
    · rintro ⟨left, rfl⟩
      exact ⟨left ++ rest, by simp⟩
  rw [Bool.eq_iff_iff, hprefix, hprefix]

/-- How many braces a backslash makes text: four where there are as many. -/
def escapeWidth (cs : List Char) : Nat := if (Json.after? fourOpen cs).isSome then 4 else 2

theorem two_le_escapeWidth (cs : List Char) : 2 ≤ escapeWidth cs := by
  rw [escapeWidth]
  split <;> omega

/-- Text one character at a time. -/
theorem readText_cons (stop : List Char) (keep : Bool) (c : Char) (cs : List Char) :
    readText stop keep (c :: cs) =
      if c = '\\' then
        if !keep && (Json.after? ['{', '{'] cs).isSome then
          (cs.take (escapeWidth cs) ++ (readText stop false (cs.drop (escapeWidth cs))).1,
            (readText stop false (cs.drop (escapeWidth cs))).2)
        else if !keep && cs.head? == some '\\' && escapesBraces cs then readText stop true cs
        else (c :: (readText stop keep cs).1, (readText stop keep cs).2)
      else if (Json.after? stop (c :: cs)).isSome then ([], c :: cs)
      else (c :: (readText stop false cs).1, (readText stop false cs).2) := by
  by_cases hbraces : c = '\\' ∧ keep = false ∧ (Json.after? ['{', '{'] cs).isSome = true
  · obtain ⟨rfl, rfl, hsome⟩ := hbraces
    obtain ⟨left, hleft⟩ := Option.isSome_iff_exists.mp hsome
    obtain rfl := after?_eq_some_iff.mp hleft
    cases hfour : Json.after? fourOpen (['{', '{'] ++ left) with
    | some left' =>
      have heq := after?_eq_some_iff.mp hfour
      obtain rfl : left = '{' :: '{' :: left' := by simpa [fourOpen] using heq
      simp [readText, escapeWidth, after?_cons, char?, after?_nil, fourOpen]
    | none =>
      have hnot : ∀ left', left = '{' :: '{' :: left' → False := by
        rintro left' rfl
        simp [fourOpen, after?_cons, char?, after?_nil] at hfour
      rw [escapeWidth, hfour, List.cons_append, List.cons_append, List.nil_append,
        readText.eq_3 _ _ hnot]
      simp [after?_cons, char?, after?_nil]
  · have hfour : ∀ left, keep = false → c = '\\' → cs = '{' :: '{' :: '{' :: '{' :: left → False := by
      rintro left rfl rfl rfl
      exact hbraces ⟨rfl, rfl, by simp [after?_cons, char?, after?_nil]⟩
    have htwo : ∀ left, keep = false → c = '\\' → cs = '{' :: '{' :: left → False := by
      rintro left rfl rfl rfl
      exact hbraces ⟨rfl, rfl, by simp [after?_cons, char?, after?_nil]⟩
    rw [readText.eq_4 _ _ _ _ hfour htwo]
    by_cases hc : c = '\\'
    · have hnot : ¬((!keep && (Json.after? ['{', '{'] cs).isSome) = true) := by
        simpa [hc] using hbraces
      rw [if_pos hc, if_pos hc, if_neg hnot]
    · rw [if_neg hc, if_neg hc]

theorem readText_suffix (stop : List Char) : ∀ {n : Nat} {cs : List Char} (keep : Bool),
    cs.length ≤ n → (readText stop keep cs).2 <:+ cs := by
  intro n
  induction n with
  | zero =>
    intro cs keep hn
    obtain rfl := List.length_eq_zero_iff.mp (Nat.le_zero.mp hn)
    exact List.suffix_rfl
  | succ n ih =>
    intro cs keep hn
    cases cs with
    | nil => exact List.suffix_rfl
    | cons c cs =>
      have htail := List.suffix_cons c cs
      have hdrop : (cs.drop (escapeWidth cs)).length ≤ n := by
        simp only [List.length_cons, List.length_drop] at hn ⊢
        omega
      have hcs : cs.length ≤ n := Nat.le_of_succ_le_succ hn
      rw [readText_cons]
      split_ifs
      · exact (ih false hdrop).trans ((List.drop_suffix _ cs).trans htail)
      · exact (ih true hcs).trans htail
      · exact (ih keep hcs).trans htail
      · exact List.suffix_rfl
      · exact (ih false hcs).trans htail

/-- Braces at which text stops. -/
structure Stop (stop : List Char) : Prop where
  opens : ∃ more, stop = '{' :: '{' :: more

section Stops

variable {stop front text : List Char} {keep : Bool}

theorem Stop.two_le_length (hstop : Stop stop) : 2 ≤ stop.length := by
  obtain ⟨more, rfl⟩ := hstop.opens
  simp

theorem readText_stop (hstop : Stop stop) (keep : Bool) (rest : List Char) :
    readText stop keep (stop ++ rest) = ([], stop ++ rest) := by
  obtain ⟨more, hmore⟩ := hstop.opens
  have hsome : (Json.after? stop (stop ++ rest)).isSome = true :=
    Option.isSome_iff_exists.mpr ⟨rest, after?_eq_some_iff.mpr rfl⟩
  have hcons : stop ++ rest = '{' :: ('{' :: more ++ rest) := by rw [hmore]; rfl
  rw [hcons] at hsome ⊢
  rw [readText_cons, if_neg (by decide), if_pos hsome]

theorem isSome_after?_stop (hstop : Stop stop) (front rest rest' : List Char) :
    (Json.after? ['{', '{'] (front ++ (stop ++ rest))).isSome =
      (Json.after? ['{', '{'] (front ++ (stop ++ rest'))).isSome := by
  have hlength := hstop.two_le_length
  rw [← List.append_assoc, ← List.append_assoc front]
  refine isSome_after?_append ?_ rest rest'
  simp only [List.length_append, List.length_cons, List.length_nil]
  omega

theorem escapesBraces_stop (hstop : Stop stop) (rest rest' : List Char) : ∀ front : List Char,
    escapesBraces (front ++ (stop ++ rest)) = escapesBraces (front ++ (stop ++ rest'))
  | [] => by
      obtain ⟨more, rfl⟩ := hstop.opens
      simp [escapesBraces, after?_cons, char?, after?_nil]
  | c :: front => by
      by_cases hc : c = '\\'
      · have ih := escapesBraces_stop hstop rest rest' front
        simpa [escapesBraces, hc] using ih
      · have hdrop (cs : List Char) : (c :: cs).dropWhile (· == '\\') = c :: cs := by simp [hc]
        have hsome := isSome_after?_stop hstop (c :: front) rest rest'
        simpa only [escapesBraces, List.cons_append, hdrop] using hsome

/-- Braces that are text and leave the given ones for what stops it stand in front of these. -/
theorem escapeWidth_le (hstop : Stop stop) {cs : List Char}
    (h : (readText stop false (cs.drop (escapeWidth cs))).2 = stop ++ rest)
    (hcs : cs = front ++ (stop ++ rest)) : escapeWidth cs ≤ front.length := by
  have hlength := (readText_suffix stop false (Nat.le_refl (cs.drop (escapeWidth cs)).length)).length_le
  have hstops := hstop.two_le_length
  rw [h, hcs] at hlength
  simp only [List.length_append, List.length_drop] at hlength
  rw [hcs]
  omega

theorem escapeWidth_stop (hstop : Stop stop) (hfront : 2 ≤ front.length) (rest rest' : List Char) :
    escapeWidth (front ++ (stop ++ rest)) = escapeWidth (front ++ (stop ++ rest')) := by
  have hstops := hstop.two_le_length
  have hsome : (Json.after? fourOpen (front ++ stop ++ rest)).isSome =
      (Json.after? fourOpen (front ++ stop ++ rest')).isSome := by
    refine isSome_after?_append ?_ rest rest'
    simp only [fourOpen, List.length_append, List.length_cons, List.length_nil]
    omega
  rw [escapeWidth, escapeWidth, ← List.append_assoc, hsome, List.append_assoc]

/-- **Text stops at braces whatever stands behind them** — by induction on the text, where every choice
is made by characters in front of the end of the braces. -/
theorem readText_append (hstop : Stop stop) (rest rest' : List Char) :
    ∀ {n : Nat} {front text : List Char} {keep : Bool}, front.length ≤ n →
      readText stop keep (front ++ (stop ++ rest)) = (text, stop ++ rest) →
      readText stop keep (front ++ (stop ++ rest')) = (text, stop ++ rest') := by
  intro n
  induction n with
  | zero =>
    intro front text keep hn h
    obtain rfl := List.length_eq_zero_iff.mp (Nat.le_zero.mp hn)
    rw [List.nil_append, readText_stop hstop] at h ⊢
    obtain ⟨rfl, -⟩ := Prod.mk.inj h
    rfl
  | succ n ih =>
    intro front text keep hn h
    cases front with
    | nil =>
      rw [List.nil_append, readText_stop hstop] at h ⊢
      obtain ⟨rfl, -⟩ := Prod.mk.inj h
      rfl
    | cons c front =>
      have hfront : front.length ≤ n := Nat.le_of_succ_le_succ hn
      have hhead : (front ++ (stop ++ rest)).head? = (front ++ (stop ++ rest')).head? := by
        obtain ⟨more, rfl⟩ := hstop.opens
        cases front <;> rfl
      have hsome : (Json.after? stop (c :: (front ++ (stop ++ rest)))).isSome =
          (Json.after? stop (c :: (front ++ (stop ++ rest')))).isSome := by
        have hlength : stop.length ≤ (c :: front ++ stop).length := by
          simp only [List.length_append]
          omega
        simpa using isSome_after?_append hlength rest rest'
      rw [List.cons_append, readText_cons] at h ⊢
      rw [← isSome_after?_stop hstop front rest rest', ← escapesBraces_stop hstop rest rest' front,
        ← hhead, ← hsome]
      split_ifs at h ⊢
      -- escaped braces, which stand in front of the ones that stop the text
      · obtain ⟨rfl, hleft⟩ := Prod.mk.inj h
        have hle := escapeWidth_le hstop hleft rfl
        rw [← escapeWidth_stop hstop ((two_le_escapeWidth _).trans hle) rest rest',
          List.drop_append_of_le_length hle, List.take_append_of_le_length hle]
        rw [List.drop_append_of_le_length hle] at hleft ⊢
        rw [ih (by simp; omega) (Prod.ext rfl hleft), List.take_append_of_le_length hle]
      -- a backslash in front of further ones
      · exact ih hfront h
      · obtain ⟨rfl, hleft⟩ := Prod.mk.inj h
        rw [ih hfront (Prod.ext rfl hleft)]
      · have hlength := congrArg List.length (Prod.mk.inj h).2
        simp at hlength
        omega
      · obtain ⟨rfl, hleft⟩ := Prod.mk.inj h
        rw [ih hfront (Prod.ext rfl hleft)]

end Stops

/-! ## Raw blocks -/

/-- What stands between four braces on either side, given what reads it. -/
def readFour (inner : Reader Form) : Reader Tag := fun cs =>
  (Json.after? fourOpen cs).bind fun rest => (inner (takeTrim rest).2).bind fun x =>
    (readClosing fourClose x.2).map fun y => (⟨x.1, (takeTrim rest).1, y.1⟩, y.2)

/-- What opens a raw block. -/
def readRawStart : Reader Form := fun cs => (readLine cs).map fun x => (.openRaw x.1.1 x.1.2, x.2)

/-- What closes a raw block. -/
def readRawEnd : Reader Form := fun cs => (mark? '/' cs).bind fun rest =>
  some (.closeRaw ((readIdentifier (skipBlanks rest)).getD ("", rest)).1,
    ((readIdentifier (skipBlanks rest)).getD ("", rest)).2)

theorem readRawOpening_eq (cs : List Char) : readRawOpening cs = readFour readRawStart cs := by
  simp only [readFour, readRawStart, Option.map_eq_bind, Option.bind_assoc]
  rfl

theorem readRawClosing_eq (cs : List Char) : readRawClosing cs = readFour readRawEnd cs := by
  simp only [readFour, readRawEnd, Option.map_eq_bind, Option.bind_assoc]
  rfl

/-- A reader that reads alike in both spellings. -/
def ReadsAlike (f : Reader α) : Prop := ∀ k s, Readable k s → Alike k s (f (before s)) (f (after s))

theorem readsAlike_rawStart : ReadsAlike readRawStart := fun _ _ hs =>
  (alike_readLine hs).map fun x : Call × List String => Form.openRaw x.1 x.2

theorem readsAlike_rawEnd : ReadsAlike readRawEnd := by
  intro k s _
  refine (leads_mark? rfl s).bind fun u hu hlt => ?_
  obtain ⟨hbefore, hafter⟩ | ⟨name, name', v, hv, -, hname, hbefore, hafter⟩ :=
    Alike.skipBlanks (alike_readIdentifier k (afterBlanks u))
  · simp only [hbefore, hafter]
    exact .some hu hlt fun _ => rfl
  · simp only [hbefore, hafter]
    exact .some (hv.trans hu) (hv.length_le.trans_lt hlt) fun hk => congrArg Form.closeRaw (hname hk)

theorem exists_of_readFour {inner : Reader Form} (hinner : ReadsAlike inner) {tag : Tag}
    (h : readFour inner cs = some (tag, rest)) :
    ∃ mid, cs = fourOpen ++ (mid ++ (fourClose ++ rest)) := by
  obtain ⟨body, hbody, hread⟩ := Option.bind_eq_some_iff.mp h
  obtain ⟨⟨form, left⟩, hform, hread⟩ := Option.bind_eq_some_iff.mp hread
  obtain ⟨⟨trimAfter, rest'⟩, hclosing, heq⟩ := Option.map_eq_some_iff.mp hread
  obtain ⟨-, rfl⟩ := Prod.mk.inj heq
  obtain ⟨pad, -, hleft⟩ := readClosing_eq_some_iff.mp hclosing
  dsimp only at hleft ⊢
  have halike := hinner 0 _ (readable_text (takeTrim body).2)
  rw [before_kept] at halike
  obtain ⟨front, hfront⟩ := (suffix_of_alike halike hform).trans (takeTrim_suffix body)
  refine ⟨front ++ pad, ?_⟩
  rw [after?_eq_some_iff.mp hbody, ← hfront, hleft]
  simp [fourClose]

/-- **Four braces that are kept read the same**, whatever braces are respelled behind them. -/
theorem readFour_kept {inner : Reader Form} (hinner : ReadsAlike inner) {tag : Tag}
    (ht : Lawful false t) (h : readFour inner (cs ++ before t) = some (tag, before t)) :
    readFour inner (cs ++ after t) = some (tag, after t) := by
  obtain ⟨mid, hmid⟩ := exists_of_readFour hinner h
  obtain rfl : cs = fourOpen ++ (mid ++ fourClose) := by
    have hcancel : cs ++ before t = fourOpen ++ (mid ++ fourClose) ++ before t := by simpa using hmid
    exact List.append_cancel_right hcancel
  have hopen (rest : List Char) : Json.after? fourOpen (fourOpen ++ (mid ++ fourClose) ++ rest) =
      some (mid ++ fourClose ++ rest) := after?_eq_some_iff.mpr (by simp)
  have hs := readable_kept ht (mid ++ fourClose)
  obtain ⟨trim, u, hu, hbefore, hafter⟩ := exists_takeTrim (kept (mid ++ fourClose) ++ t)
  rw [before_append, before_kept] at hbefore
  rw [after_append, after_kept] at hafter
  rw [readFour, hopen, Option.bind_some, hbefore] at h
  rw [readFour, hopen, Option.bind_some, hafter]
  exact close_kept (hinner _ _ (hs.suffix hu)) hu (List.suffix_append _ t) hs.keptTo
    (fun form => (closes_readClosing ['}', '}', '}']).map fun trimAfter =>
      (⟨form, trim, trimAfter⟩ : Tag)) h

/-- Four braces are no tag. -/
theorem readTag_four (cs : List Char) : readTag (fourOpen ++ cs) = none := by
  have htriple : readTriple ('{' :: '{' :: '{' :: ('{' :: cs)) = none := by
    rw [readTriple_brace]
    exact congrArg (Option.bind · _) (readShown_brace cs)
  refine (readTag_brace ('{' :: cs)).trans ?_
  rw [htriple, Option.orElse_none, finish_readForm_brace]
  exact congrArg (Option.bind · _) (readShown_brace cs)

/-! ## Places on a line -/

/-- Two cursors with the same blanks just before them. -/
structure SameLine (a b : Cursor) : Prop where
  blanks : b.blanks = a.blanks
  atLineStart : b.atLineStart = a.atLineStart

variable {a b : Cursor}

theorem SameLine.next (h : SameLine a b) (c : Char) : SameLine (a.next c) (b.next c) := by
  rw [Cursor.next, Cursor.next]
  split
  · exact ⟨congrArg (c :: ·) h.blanks, h.atLineStart⟩
  · exact ⟨rfl, rfl⟩

theorem SameLine.advance : ∀ {a b : Cursor} (cs : List Char), SameLine a b →
    SameLine (a.advance cs) (b.advance cs)
  | _, _, [], h => h
  | _, _, c :: cs, h => (h.next c).advance cs

/-- Behind a tag nothing of what stands before it matters. -/
theorem sameLine_of_ends (a b : Cursor) (cs cs' : List Char) :
    SameLine (a.advance (cs ++ ['}'])) (b.advance (cs' ++ ['}'])) := by
  rw [Cursor.advance, Cursor.advance, List.foldl_append, List.foldl_append]
  exact ⟨rfl, rfl⟩

/-- A tag between the same blanks and the same text, but for what is respelled. -/
theorem SameLine.bare_between (h : SameLine a b) (tag : Tag) (t : List Stroke) :
    (PlacedTag.between tag b (after t)).bare = (PlacedTag.between tag a (before t)).bare := by
  obtain ⟨cs, u, -, hbefore, hafter⟩ := span_eq isLineBlank rfl rfl t
  rw [List.span_eq_takeWhile_dropWhile, Prod.mk.injEq] at hbefore hafter
  simp only [PlacedTag.bare, PlacedTag.between, h.blanks, h.atLineStart, hbefore.2, hafter.2,
    head?_after, isEmpty_before_eq]

/-! ## Tags and raw blocks -/

/-- What a raw block is made of: its opening tag, blanks, its text, and its closing tag from the braces
on, in front of a rest. -/
structure RawBlock (opens blanks inside closes rest : List Char) (opening : Tag) (text : List Char)
    (closing : Tag) : Prop where
  opening : readRawOpening (opens ++ (blanks ++ (inside ++ (fourOpen ++ (closes ++ rest))))) =
    some (opening, blanks ++ (inside ++ (fourOpen ++ (closes ++ rest))))
  blanks : ∀ c ∈ blanks, isBlank c = true
  start : ∀ c ∈ (inside ++ fourOpen).head?, isBlank c = false
  text : readText fourOpen false (inside ++ (fourOpen ++ (closes ++ rest))) =
    (text, fourOpen ++ (closes ++ rest))
  closing : readRawClosing (fourOpen ++ (closes ++ rest)) = some (closing, rest)

section RawBlocks

variable {opens blanks inside closes text : List Char} {opening closing : Tag}

theorem head?_inside (rest : List Char) :
    (inside ++ (fourOpen ++ rest)).head? = (inside ++ fourOpen).head? := by
  cases inside <;> rfl

theorem skipBlanks_inside (hblanks : ∀ c ∈ blanks, isBlank c = true)
    (hstart : ∀ c ∈ (inside ++ fourOpen).head?, isBlank c = false) :
    skipBlanks (blanks ++ (inside ++ (fourOpen ++ rest))) = inside ++ (fourOpen ++ rest) := by
  have hspan := Text.span_eq_iff.mpr ⟨rfl, hblanks, fun c hc => hstart c (head?_inside rest ▸ hc)⟩
  rw [List.span_eq_takeWhile_dropWhile] at hspan
  exact (Prod.mk.inj hspan).2

theorem RawBlock.read (h : RawBlock opens blanks inside closes rest opening text closing) (a : Cursor) :
    readRawBlock a (opens ++ (blanks ++ (inside ++ (fourOpen ++ (closes ++ rest))))) =
      some ([⟨[], .between opening a (blanks ++ (inside ++ (fourOpen ++ (closes ++ rest))))⟩,
        ⟨text, .between closing ((a.advance (opens ++ blanks)).advance inside) rest⟩],
        ((a.advance (opens ++ blanks)).advance inside).advance (fourOpen ++ closes), rest) := by
  refine Option.bind_eq_some_iff.mpr ⟨_, h.opening, ?_⟩
  dsimp only
  rw [skipBlanks_inside h.blanks h.start, h.text]
  refine Option.bind_eq_some_iff.mpr ⟨_, h.closing, ?_⟩
  dsimp only
  rw [← List.append_assoc opens, consumed_append, consumed_append, ← List.append_assoc fourOpen,
    consumed_append]
  rfl

theorem exists_of_readRawBlock {x : List Segment × Cursor}
    (h : readRawBlock a cs = some (x.1, x.2, rest)) :
    ∃ opens blanks inside closes opening text closing,
      RawBlock opens blanks inside closes rest opening text closing ∧
        cs = opens ++ (blanks ++ (inside ++ (fourOpen ++ (closes ++ rest)))) := by
  obtain ⟨⟨opening, body⟩, hopening, h⟩ := Option.bind_eq_some_iff.mp h
  obtain ⟨⟨closing, rest'⟩, hclosing, h⟩ := Option.bind_eq_some_iff.mp h
  obtain rfl : rest' = rest := (Prod.mk.inj (Prod.mk.inj (Option.some.inj h)).2).2
  obtain ⟨mid, hmid⟩ :=
    exists_of_readFour readsAlike_rawStart ((readRawOpening_eq cs).symm.trans hopening)
  obtain ⟨mid', hmid'⟩ :=
    exists_of_readFour readsAlike_rawEnd ((readRawClosing_eq _).symm.trans hclosing)
  obtain ⟨hbody, hblanks, hstart⟩ :=
    Text.span_eq_iff.mp (List.span_eq_takeWhile_dropWhile (p := isBlank) (l := body))
  obtain ⟨inside, hinside⟩ := readText_suffix fourOpen false (Nat.le_refl (skipBlanks body).length)
  have hleft : (readText fourOpen false (skipBlanks body)).2 =
      fourOpen ++ (mid' ++ fourClose ++ rest') := by
    rw [hmid', List.append_assoc]
  rw [hleft] at hinside hclosing
  rw [← skipBlanks, ← hinside] at hbody hstart
  rw [← hinside] at hleft
  have hcs : cs = fourOpen ++ (mid ++ fourClose) ++ body := by simpa using hmid
  refine ⟨fourOpen ++ (mid ++ fourClose), body.takeWhile isBlank, inside, mid' ++ fourClose, opening,
    _, closing, ⟨?_, hblanks, fun c hc => hstart c (head?_inside _ ▸ hc), Prod.ext rfl hleft, hclosing⟩, ?_⟩
  · rw [← hbody, ← hcs, hopening]
  · rw [← hbody, hcs]

/-- A raw block starts with four braces, so it is no tag. -/
theorem RawBlock.readTag_eq_none (h : RawBlock opens blanks inside closes rest opening text closing)
    (rest' : List Char) : readTag (opens ++ rest') = none := by
  obtain ⟨mid, hmid⟩ :=
    exists_of_readFour readsAlike_rawStart ((readRawOpening_eq _).symm.trans h.opening)
  obtain rfl : opens = fourOpen ++ (mid ++ fourClose) :=
    List.append_cancel_right (hmid.trans (by rw [List.append_assoc, List.append_assoc]))
  rw [List.append_assoc]
  exact readTag_four _

/-- **A raw block that is kept** stays one with the same tags and text, whatever braces are respelled
behind it. -/
theorem RawBlock.kept (ht : Lawful false t)
    (h : RawBlock opens blanks inside closes (before t) opening text closing) :
    RawBlock opens blanks inside closes (after t) opening text closing := by
  refine ⟨?_, h.blanks, h.start, readText_append ⟨_, rfl⟩ _ _ (Nat.le_refl _) h.text, ?_⟩
  · have hopening := h.opening
    rw [readRawOpening_eq] at hopening ⊢
    have hbehind := lawful_kept ht (blanks ++ (inside ++ (fourOpen ++ closes)))
    have hkept := readFour_kept readsAlike_rawStart hbehind (by simpa using hopening)
    simpa using hkept
  · have hclosing := h.closing
    rw [readRawClosing_eq, ← List.append_assoc] at hclosing ⊢
    exact readFour_kept readsAlike_rawEnd ht hclosing

end RawBlocks

/-- **Tags that are kept are read as the same tags**, whatever braces are respelled behind them. -/
theorem readTags_kept {segments : List Segment} {a' : Cursor} (ht : Lawful false t)
    (h : readTags a (cs ++ before t) = some (segments, a', before t)) (hab : SameLine a b) :
    ∃ segments' b', readTags b (cs ++ after t) = some (segments', b', after t) ∧
      segments'.map Segment.bare = segments.map Segment.bare ∧ SameLine a' b' := by
  rw [readTags] at h
  cases htag : readTag (cs ++ before t) with
  | some x =>
    rw [htag] at h
    obtain ⟨rfl, rfl, hrest⟩ : _ ∧ _ ∧ x.2 = before t := by
      simpa only [Option.some.injEq, Prod.mk.injEq] using h
    have hkept := readTag_kept ht (htag.trans (by rw [← hrest]))
    refine ⟨_, _, by rw [readTags, hkept], ?_, ?_⟩
    · rw [hrest, List.map_singleton, List.map_singleton, Segment.bare, Segment.bare,
        hab.bare_between x.1 t]
    · rw [hrest, consumed_append, consumed_append]
      exact hab.advance cs
  | none =>
    rw [htag] at h
    change readRawBlock a (cs ++ before t) = _ at h
    obtain ⟨opens, blanks, inside, closes, opening, text, closing, hraw, hcs⟩ :=
      exists_of_readRawBlock (x := (segments, a')) h
    obtain rfl : cs = opens ++ (blanks ++ (inside ++ (fourOpen ++ closes))) := by
      have hcancel : cs ++ before t =
          opens ++ (blanks ++ (inside ++ (fourOpen ++ closes))) ++ before t := by simpa using hcs
      exact List.append_cancel_right hcancel
    have hread := hraw.read a
    rw [← hcs, h] at hread
    obtain ⟨rfl, rfl, -⟩ : segments = _ ∧ a' = _ ∧ _ := by
      simpa only [Option.some.injEq, Prod.mk.injEq] using hread
    have hkept := (hraw.kept ht).read b
    have hinside : SameLine ((a.advance (opens ++ blanks)).advance inside)
      ((b.advance (opens ++ blanks)).advance inside) := (hab.advance _).advance _
    have hopening := hab.bare_between opening (kept (blanks ++ (inside ++ (fourOpen ++ closes))) ++ t)
    have htags : readTags b (opens ++ (blanks ++ (inside ++ (fourOpen ++ closes))) ++ after t) =
        readRawBlock b (opens ++ (blanks ++ (inside ++ (fourOpen ++ (closes ++ after t))))) := by
      rw [readTags, List.append_assoc, hraw.readTag_eq_none]
      simp
    refine ⟨_, _, htags.trans hkept, ?_, hinside.advance (fourOpen ++ closes)⟩
    simp only [List.map_cons, List.map_nil, Segment.bare, hinside.bare_between closing t]
    simpa using hopening

end PinnedManifest.Template.Respelling
