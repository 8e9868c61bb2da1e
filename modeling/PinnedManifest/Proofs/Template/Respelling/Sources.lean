import PinnedManifest.Proofs.Template.Respelling.Chunks
import PinnedManifest.Proofs.Template.Respelling.Values

/-!
# Proofs/Template/Respelling/Sources — whole sources with some value tags respelled

`Respelled` relates a source to one in which some value tags are written with three braces or with an
ampersand.  Whatever spelling is chosen for each value tag of a source that scans, there is such a source
(`exists_respelled`).  The two are the two spellings of a row of strokes (`Respelled.exists_strokes`), so
each round of a scan finds the same text and tags in both (`Respelled.scansAlike`), and the templates
differ in the places of their tags alone (`Respelled.exists_ofSource`).
-/

namespace PinnedManifest.Template.Respelling

/-! ## Respelled sources -/

/-- The other ways to write a value tag: with a third brace on either side, which not every path may
have, or with an ampersand. -/
inductive Spelling (mayTriple : Path → Prop) (lead : List Char) (p : Path) (trail : List Char) :
    List Char → Prop
  | triple : mayTriple p → Spelling mayTriple lead p trail (tripleTag lead p.source.toList trail)
  | ampersand : Spelling mayTriple lead p trail (ampersandTag lead p.source.toList trail)

/-- **A source with some of its value tags respelled.**  A source is text and tags in turn; a tag that
shows the value of a path may be written otherwise.  Any of these tags may be chosen, since each is a
path with padding around it (`exists_respelled`). -/
inductive Respelled (mayTriple : Path → Prop) : List Char → List Char → Prop
  /-- Text without a tag. -/
  | text {cs : List Char} : (readChunk cs).2 = [] → Respelled mayTriple cs cs
  /-- Text and a tag, or a raw block, as they are. -/
  | keep (front tags : List Char) {rest rest' : List Char} :
    (readChunk (front ++ (tags ++ rest))).2 = tags ++ rest →
    (readTags .start (tags ++ rest)).map (·.2.2) = some rest → Respelled mayTriple rest rest' →
    Respelled mayTriple (front ++ (tags ++ rest)) (front ++ (tags ++ rest'))
  /-- Text as it is and a value tag written otherwise. -/
  | respell (front lead : List Char) (p : Path) (trail : List Char) {tag' rest rest' : List Char}
    {trimBefore trimAfter : Bool} :
    (readChunk (front ++ (plainTag lead p.source.toList trail ++ rest))).2 =
      plainTag lead p.source.toList trail ++ rest →
    readTag (plainTag lead p.source.toList trail ++ rest) =
      some (⟨.value (.path p), trimBefore, trimAfter⟩, rest) →
    (∀ c ∈ lead, isPadding c = true) → (∀ c ∈ trail, isPadding c = true) →
    Spelling mayTriple lead p trail tag' → Respelled mayTriple rest rest' →
    Respelled mayTriple (front ++ (plainTag lead p.source.toList trail ++ rest))
      (front ++ (tag' ++ rest'))

variable {cs cs' rest rest' : List Char} {s t : List Stroke} {p : Path}

section Spelling

variable {mayTriple : Path → Prop} {lead trail tag' : List Char}

theorem Spelling.exists_mid (h : Spelling mayTriple lead p trail tag') :
    ∃ mid, tag' = '{' :: '{' :: (mid ++ ['}']) := by
  cases h with
  | triple => exact ⟨'{' :: (lead ++ p.source.toList ++ trail ++ ['}', '}']), by simp [tripleTag]⟩
  | ampersand => exact ⟨lead ++ '&' :: (p.source.toList ++ trail ++ ['}']), by simp [ampersandTag]⟩

end Spelling

/-- A path without a quotation mark. -/
def Unquoted (p : Path) : Prop := ∀ c ∈ p.source.toList, isQuote c = false

/-- **A value tag written otherwise is read as the same tag.** -/
theorem Spelling.readTag {lead trail tag' : List Char} {trimBefore trimAfter : Bool}
    (h : Spelling Unquoted lead p trail tag') (ht : Lawful false t)
    (hlead : ∀ c ∈ lead, isPadding c = true) (htrail : ∀ c ∈ trail, isPadding c = true)
    (htag : readTag (plainTag lead p.source.toList trail ++ before t) =
      some (⟨.value (.path p), trimBefore, trimAfter⟩, before t)) :
    Template.readTag (tag' ++ after t) = some (⟨.value (.path p), trimBefore, trimAfter⟩, after t) := by
  cases h with
  | triple hquotes => exact readTag_triple hlead htrail hquotes ht htag
  | ampersand => exact readTag_ampersand hlead ht htag

/-- **A respelled source is a row of strokes**, without quotation marks between braces that become
three. -/
theorem Respelled.exists_strokes (h : Respelled Unquoted cs cs') :
    ∃ s, Lawful false s ∧ before s = cs ∧ after s = cs' := by
  induction h with
  | @text cs _ => exact ⟨kept cs, by simpa using lawful_kept .nil cs, before_kept, after_kept⟩
  | @keep front tags rest rest' _ _ _ ih =>
    obtain ⟨s, hs, rfl, rfl⟩ := ih
    exact ⟨kept (front ++ tags) ++ s, lawful_kept hs _, by simp, by simp⟩
  | @respell front lead p trail tag' rest rest' _ _ _ htag hlead htrail hspelling _ ih =>
    obtain ⟨s, hs, rfl, rfl⟩ := ih
    cases hspelling with
    | triple hquotes =>
      obtain ⟨-, ⟨path, d, hd, hpath⟩, -⟩ := parts_of_readTag hlead htag
      have hinside : Lawful true (kept (lead ++ path ++ d :: trail) ++ .closing :: s) := by
        refine lawful_path hs htrail hd fun c hc => ?_
        rcases List.mem_append.mp hc with hc | hc
        · exact isQuote_of_isPadding (hlead c hc)
        · exact hquotes c (by rw [hpath]; exact List.mem_append_left _ hc)
      refine ⟨kept front ++ .opening :: (kept (lead ++ path ++ d :: trail) ++ .closing :: s),
        lawful_kept (.opening hinside) front, ?_, ?_⟩
      · simp [plainTag, hpath]
      · simp [tripleTag, hpath]
    | ampersand =>
      refine ⟨kept front ++ .ampersand lead hlead ::
        (kept (p.source.toList ++ trail ++ ['}', '}']) ++ s), lawful_kept (.ampersand (lawful_kept hs _)) front, ?_, ?_⟩
      · simp [plainTag]
      · simp [ampersandTag]

/-! ## Scanning -/

/-- Two texts that scan to the same segments but for places, wherever the first scans at all. -/
def ScansAlike (cs cs' : List Char) : Prop :=
  ∀ fuel fuel' a b segments last, SameLine a b → scanFrom fuel a cs = some (segments, last) →
    cs'.length < fuel' → ∃ segments', scanFrom fuel' b cs' = some (segments', last) ∧
      segments'.map Segment.bare = segments.map Segment.bare

theorem map_bare_withText (text : List Char) : ∀ segments : List Segment,
    (withText text segments).map Segment.bare = withText text (segments.map Segment.bare)
  | [] => rfl
  | _ :: _ => rfl

theorem scanFrom_text {fuel : Nat} {a : Cursor} (h : (readChunk cs).2 = []) :
    scanFrom (fuel + 1) a cs = some ([], (readChunk cs).1) := by
  have hchunk : readChunk cs = ((readChunk cs).1, []) := Prod.ext rfl h
  rw [scanFrom, hchunk]
  rfl

/-- One round of a scan. -/
theorem scanFrom_succ {fuel : Nat} {a b : Cursor} {front text tags : List Char}
    {segments : List Segment}
    (hchunk : readChunk (front ++ tags) = (text, tags)) (hne : tags ≠ [])
    (htags : readTags (a.advance front) tags = some (segments, b, rest)) :
    scanFrom (fuel + 1) a (front ++ tags) =
      (scanFrom fuel b rest).map fun x => (withText text segments ++ x.1, x.2) := by
  rw [scanFrom, hchunk]
  dsimp only
  rw [if_neg (by simpa using hne), consumed_append, htags]
  rfl

theorem twoOpen : Stop ['{', '{'] := ⟨[], rfl⟩

theorem readChunk_append {front text more : List Char} (rest' : List Char)
    (h : readChunk (front ++ ('{' :: '{' :: more)) = (text, '{' :: '{' :: more)) :
    readChunk (front ++ ('{' :: '{' :: rest')) = (text, '{' :: '{' :: rest') :=
  readText_append twoOpen more rest' (Nat.le_refl _) h

/-- **One round of a scan** keeps the two texts alike. -/
theorem ScansAlike.step {front more more' : List Char} (h : ScansAlike rest rest')
    (hchunk : (readChunk (front ++ ('{' :: '{' :: more))).2 = '{' :: '{' :: more)
    (hlt : rest'.length < more'.length + 2)
    (htags : ∀ a b, SameLine a b → ∃ segments a' segments' b',
      readTags a ('{' :: '{' :: more) = some (segments, a', rest) ∧
      readTags b ('{' :: '{' :: more') = some (segments', b', rest') ∧
      segments'.map Segment.bare = segments.map Segment.bare ∧ SameLine a' b') :
    ScansAlike (front ++ '{' :: '{' :: more) (front ++ '{' :: '{' :: more') := by
  intro fuel fuel' a b segments last hab hscan hfuel
  obtain ⟨x, a', y, b', hread, hread', hbare, hab'⟩ := htags _ _ (hab.advance front)
  have hchunk : readChunk (front ++ '{' :: '{' :: more) = (_, '{' :: '{' :: more) := Prod.ext rfl hchunk
  cases fuel with
  | zero => cases hscan
  | succ fuel =>
    cases fuel' with
    | zero => exact absurd hfuel (Nat.not_lt_zero _)
    | succ fuel' =>
      rw [scanFrom_succ hchunk (List.cons_ne_nil _ _) hread] at hscan
      obtain ⟨⟨tail, last'⟩, hrest, heq⟩ := Option.map_eq_some_iff.mp hscan
      obtain ⟨rfl, rfl⟩ := Prod.mk.inj heq
      obtain ⟨tail', hrest', htail⟩ := h fuel fuel' a' b' tail last' hab' hrest (by
        simp only [List.length_append, List.length_cons] at hfuel
        omega)
      refine ⟨withText (readChunk (front ++ '{' :: '{' :: more)).1 y ++ tail', ?_, ?_⟩
      · rw [scanFrom_succ (readChunk_append more' hchunk) (List.cons_ne_nil _ _) hread', hrest']
        rfl
      · rw [List.map_append, List.map_append, map_bare_withText, map_bare_withText, hbare, htail]

/-- Tags are found wherever the cursor is. -/
theorem exists_readTags {a a' : Cursor} {segments : List Segment}
    (h : readTags a cs = some (segments, a', rest)) (b : Cursor) :
    ∃ segments' b', readTags b cs = some (segments', b', rest) := by
  rw [readTags] at h
  cases htag : readTag cs with
  | some x =>
    rw [htag] at h
    obtain ⟨-, -, rfl⟩ : _ ∧ _ ∧ x.2 = rest := by simpa only [Option.some.injEq, Prod.mk.injEq] using h
    exact ⟨_, _, by rw [readTags, htag]⟩
  | none =>
    rw [htag] at h
    obtain ⟨opens, blanks, inside, closes, opening, text, closing, hraw, rfl⟩ :=
      exists_of_readRawBlock (x := (segments, a')) h
    exact ⟨_, _, by rw [readTags, htag]; exact hraw.read b⟩

/-- **Tags start with two braces and end with two.** -/
theorem endsBefore_of_readTags {a b : Cursor} {segments : List Segment}
    (h : readTags a cs = some (segments, b, rest)) :
    ∃ body, cs = '{' :: '{' :: body ∧ EndsBefore rest body := by
  rw [readTags] at h
  cases htag : readTag cs with
  | some x =>
    rw [htag] at h
    obtain ⟨-, -, rfl⟩ : _ ∧ _ ∧ x.2 = rest := by simpa only [Option.some.injEq, Prod.mk.injEq] using h
    exact endsBefore_of_readTag htag
  | none =>
    rw [htag] at h
    obtain ⟨opens, blanks, inside, closes, opening, text, closing, hraw, rfl⟩ :=
      exists_of_readRawBlock (x := (segments, b)) h
    obtain ⟨mid, hmid⟩ :=
      exists_of_readFour readsAlike_rawStart ((readRawOpening_eq _).symm.trans hraw.opening)
    obtain ⟨mid', hmid'⟩ :=
      exists_of_readFour readsAlike_rawEnd ((readRawClosing_eq _).symm.trans hraw.closing)
    refine ⟨'{' :: '{' :: _, hmid, ?_⟩
    rw [hmid']
    refine ⟨'{' :: '{' :: (mid ++ (fourClose ++ (blanks ++ (inside ++ (fourOpen ++
      (mid' ++ ['}', '}'])))))), ?_⟩
    simp [fourClose]

theorem readTags_of_readTag {tags : List Char} {tag : Tag} {a : Cursor}
    (h : readTag (tags ++ rest) = some (tag, rest)) :
    readTags a (tags ++ rest) = some ([⟨[], .between tag a rest⟩], a.advance tags, rest) := by
  rw [readTags, h]
  dsimp only
  rw [consumed_append]

/-! ## Choices -/

/-- The spellings that may be chosen for a value tag. -/
inductive Style
  | triple
  | ampersand

/-- A value tag in a spelling. -/
def Style.tag : Style → List Char → List Char → List Char → List Char
  | .triple => tripleTag
  | .ampersand => ampersandTag

/-- A tag in front of a rest shows the value of a path, with two braces and no mark behind them, and may
be written in a spelling. -/
structure Showing (mayTriple : Path → Prop) (style : Style) (tags rest : List Char) (p : Path) :
    Prop where
  read : ∃ trimBefore trimAfter,
    readTag (tags ++ rest) = some (⟨.value (.path p), trimBefore, trimAfter⟩, rest)
  plain : ∃ lead c cs, (∀ d ∈ lead, isPadding d = true) ∧ c ∉ noPathStart ∧
    tags = '{' :: '{' :: (lead ++ c :: cs)
  allowed : style = .triple → mayTriple p

/-- What a choice makes of a tag in front of a rest: one that can be written in the spelling chosen is,
its path and the padding around it the same; any other stays. -/
inductive Rewritten (mayTriple : Path → Prop) (rest : List Char) :
    Option Style → List Char → List Char → Prop
  | kept {tags : List Char} : Rewritten mayTriple rest none tags tags
  | other {style : Style} {tags : List Char} : (∀ p, ¬Showing mayTriple style tags rest p) →
    Rewritten mayTriple rest (some style) tags tags
  | written {style : Style} {p : Path} {lead trail : List Char} :
    Showing mayTriple style (plainTag lead p.source.toList trail) rest p →
    (∀ c ∈ lead, isPadding c = true) → (∀ c ∈ trail, isPadding c = true) →
    Rewritten mayTriple rest (some style) (plainTag lead p.source.toList trail)
      (style.tag lead p.source.toList trail)

/-- What choices make of a source, one for each round of its scan. -/
inductive Chosen (mayTriple : Path → Prop) : List (Option Style) → List Char → List Char → Prop
  | text {cs : List Char} : (readChunk cs).2 = [] → Chosen mayTriple [] cs cs
  | tags (front : List Char) {tags tags' rest rest' : List Char} {choice : Option Style}
    {choices : List (Option Style)} :
    (readChunk (front ++ (tags ++ rest))).2 = tags ++ rest →
    (readTags .start (tags ++ rest)).map (·.2.2) = some rest →
    Rewritten mayTriple rest choice tags tags' → Chosen mayTriple choices rest rest' →
    Chosen mayTriple (choice :: choices) (front ++ (tags ++ rest)) (front ++ (tags' ++ rest'))

section Choices

variable {mayTriple : Path → Prop}

/-- Every choice can be made of a tag: one that shows the value of a path is that path with padding
around it. -/
theorem exists_rewritten (mayTriple : Path → Prop) (tags rest : List Char) (choice : Option Style) :
    ∃ tags', Rewritten mayTriple rest choice tags tags' := by
  cases choice with
  | none => exact ⟨tags, .kept⟩
  | some style =>
    by_cases hshows : ∃ p, Showing mayTriple style tags rest p
    · obtain ⟨p, h⟩ := hshows
      obtain ⟨trimBefore, trimAfter, hread⟩ := h.read
      obtain ⟨lead, c, cs, hlead, hc, htags⟩ := h.plain
      have hfront : tags ++ rest = '{' :: '{' :: (lead ++ c :: (cs ++ rest)) := by simp [htags]
      rw [hfront] at hread
      obtain ⟨trail, htrail, hplain⟩ := exists_plainTag hlead hc hread
      obtain rfl : tags = plainTag lead p.source.toList trail :=
        List.append_cancel_right (hfront.trans hplain)
      exact ⟨_, .written h hlead htrail⟩
    · exact ⟨tags, .other fun p h => hshows ⟨p, h⟩⟩

/-- Every choice can be made of the tags of a source that scans — by induction on the rounds of the
scan. -/
theorem exists_chosen (mayTriple : Path → Prop) : ∀ {fuel : Nat} {a : Cursor} {cs : List Char},
    (scanFrom fuel a cs).isSome = true → ∃ n, ∀ choices : List (Option Style),
      choices.length = n → ∃ cs', Chosen mayTriple choices cs cs' := by
  intro fuel
  induction fuel with
  | zero => exact fun h => absurd h (by simp [scanFrom])
  | succ fuel ih =>
    intro a cs h
    obtain ⟨front, hfront⟩ := readText_suffix ['{', '{'] false (Nat.le_refl cs.length)
    cases hchunk : (readChunk cs).2 with
    | nil => exact ⟨0, fun choices hlen => ⟨cs, List.eq_nil_of_length_eq_zero hlen ▸ .text hchunk⟩⟩
    | cons c more =>
      rw [← readChunk, hchunk] at hfront
      subst hfront
      have hread : readChunk (front ++ c :: more) = (_, c :: more) := Prod.ext rfl hchunk
      cases htags : readTags (a.advance front) (c :: more) with
      | none =>
        rw [scanFrom, hread] at h
        dsimp only at h
        rw [if_neg (by simp), consumed_append, htags] at h
        cases h
      | some x =>
        obtain ⟨segments, b, rest⟩ := x
        rw [scanFrom_succ hread (List.cons_ne_nil _ _) htags, Option.isSome_map] at h
        obtain ⟨n, hrest⟩ := ih h
        obtain ⟨_, _, hstart⟩ := exists_readTags htags .start
        obtain ⟨body, hbody, mid, rfl⟩ := endsBefore_of_readTags htags
        have htag : c :: more = '{' :: '{' :: (mid ++ ['}', '}']) ++ rest := by simpa using hbody
        rw [htag] at hchunk hstart ⊢
        refine ⟨n + 1, fun choices hlen => ?_⟩
        obtain ⟨choice, choices, rfl⟩ := List.exists_cons_of_length_eq_add_one hlen
        obtain ⟨rest', hchosen⟩ := hrest choices (Nat.succ.inj hlen)
        obtain ⟨tags', hrewritten⟩ := exists_rewritten mayTriple _ rest choice
        exact ⟨_, .tags front hchunk (by rw [hstart]; rfl) hrewritten hchosen⟩

/-- What choices make of a source is respelled. -/
theorem Chosen.respelled {choices : List (Option Style)} (h : Chosen mayTriple choices cs cs') :
    Respelled mayTriple cs cs' := by
  induction h with
  | text hchunk => exact .text hchunk
  | tags front hchunk htags hrewritten _ ih =>
    cases hrewritten with
    | kept => exact .keep front _ hchunk htags ih
    | other => exact .keep front _ hchunk htags ih
    | @written style p lead trail hshows hlead htrail =>
      obtain ⟨trimBefore, trimAfter, hread⟩ := hshows.read
      have hspelling : Spelling mayTriple lead p trail (style.tag lead p.source.toList trail) := by
        cases style with
        | triple => exact .triple (hshows.allowed rfl)
        | ampersand => exact .ampersand
      exact .respell front lead p trail hchunk hread hlead htrail hspelling ih

/-- **Every choice of value tags of a source that scans** is made by a respelled source.  There is one
choice for each round of the scan, and each value tag in two braces is written as chosen. -/
theorem exists_respelled (mayTriple : Path → Prop) {fuel : Nat} {a : Cursor}
    (h : (scanFrom fuel a cs).isSome = true) :
    ∃ n, ∀ choices : List (Option Style), choices.length = n →
      ∃ cs', Chosen mayTriple choices cs cs' ∧ Respelled mayTriple cs cs' := by
  obtain ⟨n, hchosen⟩ := exists_chosen mayTriple h
  refine ⟨n, fun choices hlen => ?_⟩
  obtain ⟨cs', hcs'⟩ := hchosen choices hlen
  exact ⟨cs', hcs', hcs'.respelled⟩

end Choices

/-- **A respelled source scans like the one it is made from.** -/
theorem Respelled.scansAlike (h : Respelled Unquoted cs cs') : ScansAlike cs cs' := by
  induction h with
  | @text cs hchunk =>
    intro fuel fuel' a b segments last _ hscan hfuel
    cases fuel with
    | zero => cases hscan
    | succ fuel =>
      cases fuel' with
      | zero => exact absurd hfuel (Nat.not_lt_zero _)
      | succ fuel' =>
        rw [scanFrom_text hchunk] at hscan ⊢
        obtain ⟨rfl, rfl⟩ := Prod.mk.inj (Option.some.inj hscan)
        exact ⟨[], rfl, rfl⟩
  | @keep front tags rest rest' hchunk htags hrest ih =>
    obtain ⟨⟨segments, a₀, left⟩, htags, hleft⟩ := Option.map_eq_some_iff.mp htags
    obtain rfl : left = rest := hleft
    obtain ⟨body, hbody, mid, rfl⟩ := endsBefore_of_readTags htags
    obtain rfl : tags = '{' :: '{' :: (mid ++ ['}', '}']) := by
      have hcancel : tags ++ left = '{' :: '{' :: (mid ++ ['}', '}']) ++ left := by simpa using hbody
      exact List.append_cancel_right hcancel
    obtain ⟨s, hs, rfl, rfl⟩ := hrest.exists_strokes
    refine ih.step hchunk (by simp; omega) fun a b hab => ?_
    obtain ⟨x, a', hread⟩ := exists_readTags htags a
    obtain ⟨y, b', hread', hbare, hab'⟩ := readTags_kept hs hread hab
    exact ⟨x, a', y, b', hread, hread', hbare, hab'⟩
  | @respell front lead p trail tag' rest rest' _ _ hchunk htag hlead htrail hspelling hrest ih =>
    obtain ⟨s, hs, rfl, rfl⟩ := hrest.exists_strokes
    obtain ⟨mid, hplain⟩ : ∃ mid, plainTag lead p.source.toList trail = '{' :: '{' :: (mid ++ ['}']) :=
      ⟨lead ++ p.source.toList ++ trail ++ ['}'], by simp [plainTag]⟩
    obtain ⟨mid', rfl⟩ := hspelling.exists_mid
    have htag' := hspelling.readTag hs hlead htrail htag
    rw [hplain] at hchunk htag ⊢
    refine ih.step hchunk (by simp; omega) fun a b hab => ?_
    refine ⟨_, _, _, _, readTags_of_readTag htag, readTags_of_readTag htag', ?_, ?_⟩
    · rw [List.map_singleton, List.map_singleton, Segment.bare, Segment.bare, hab.bare_between _ s]
    · exact sameLine_of_ends a b ('{' :: '{' :: mid) ('{' :: '{' :: mid')

/-- **A respelled source is a template like the one it is made from**, but for places. -/
theorem Respelled.exists_ofSource {source source' : String} {body : Body}
    (h : Respelled Unquoted source.toList source'.toList) (hbody : ofSource source = .ok body) :
    ∃ body', ofSource source' = .ok body' ∧ bareBody body' = bareBody body := by
  cases hscan : scan source.toList with
  | none =>
    rw [ofSource, hscan] at hbody
    cases hbody
  | some x =>
    obtain ⟨segments, last⟩ := x
    obtain ⟨segments', hscan', hbare⟩ := h.scansAlike _ _ _ _ _ _ ⟨rfl, rfl⟩ hscan (Nat.lt_succ_self _)
    have hsame := bareBody_of_scan hscan hscan' hbare
    rw [hbody, toOption_ok, Option.map_some] at hsame
    obtain ⟨body', hbody', heq⟩ := Option.map_eq_some_iff.mp hsame
    exact ⟨body', toOption_eq_some_iff.mp hbody', heq⟩

end PinnedManifest.Template.Respelling
