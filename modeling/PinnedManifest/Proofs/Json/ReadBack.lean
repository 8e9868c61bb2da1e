import PinnedManifest.Json.Printer
import PinnedManifest.Json.Reader

/-!
# Proofs/Json/ReadBack — what is printed reads back

A reader that keeps members in their order, repetitions and all, gets back from the compact text of a
value the value itself (`read?_text`).  Every character of a string comes back from how it is escaped
(`exists_piece`), so the closing quote is the first one that is not escaped (`readString_escaped`), and
from there every member, item and container ends where it was printed to end.  Numbers are left aside.
-/

namespace PinnedManifest.Json

/-! ## Strings -/

theorem value?_hexDigit : ∀ n < 16, Text.Hex.value? (hexDigit n) = some n := by decide

/-- The two digits of a control character give its code. -/
theorem hexUnit_hexDigit {n : Nat} (h : n < 32) :
    hexUnit '0' '0' (hexDigit (n / 16)) (hexDigit (n % 16)) = some n := by
  have hzero : Text.Hex.value? '0' = some 0 := rfl
  have hcode : 4096 * 0 + 256 * 0 + 16 * (n / 16) + n % 16 = n := by omega
  simp only [hexUnit, hzero, value?_hexDigit _ (show n / 16 < 16 by omega),
    value?_hexDigit _ (show n % 16 < 16 by omega), Option.bind_eq_bind, Option.bind_some, hcode,
    Option.pure_def]

/-- A piece stands for a character, whatever comes behind it. -/
def Piece.Stands (piece : Piece) (c : Char) : Prop :=
  ∀ pieces, joinPieces (piece :: pieces) = (joinPieces pieces).map (c :: ·)

theorem Piece.stands_char (c : Char) : (Piece.char c).Stands c := fun _ => by rw [joinPieces]

/-- The code of a control character is no half of a pair. -/
theorem Piece.stands_unit {c : Char} (h : c.toNat < 32) : (Piece.unit c.toNat).Stands c := by
  have hsurrogate : ¬(0xD800 ≤ c.toNat) := by omega
  intro pieces
  cases pieces with
  | nil => simp [joinPieces, hsurrogate, Char.ofNat_toNat]
  | cons piece pieces => cases piece <;> simp [joinPieces, hsurrogate, Char.ofNat_toNat]

/-- **Three ways to write a character**: a letter behind a backslash, its code, or itself. -/
theorem escape_cases (c : Char) :
    (∃ letter, unescape letter = some c ∧ escape c = ['\\', letter]) ∨
    (c.toNat < 32 ∧
      escape c = ['\\', 'u', '0', '0', hexDigit (c.toNat / 16), hexDigit (c.toNat % 16)]) ∨
    (¬c.toNat < 32 ∧ c ≠ '"' ∧ c ≠ '\\' ∧ escape c = [c]) := by
  by_cases hletter : c ∈ ['"', '\\', '\x08', '\x0c', '\n', '\r', '\t']
  · simp only [List.mem_cons, List.not_mem_nil, or_false] at hletter
    rcases hletter with rfl | rfl | rfl | rfl | rfl | rfl | rfl
    all_goals exact .inl ⟨_, by decide, rfl⟩
  simp only [List.mem_cons, List.not_mem_nil, or_false, not_or] at hletter
  obtain ⟨hquote, hbackslash, hb, hf, hn, hr, ht⟩ := hletter
  have hescape : escape c = if c.toNat < 32 then
      ['\\', 'u', '0', '0', hexDigit (c.toNat / 16), hexDigit (c.toNat % 16)] else [c] := by
    simp only [escape, hquote, hbackslash, hb, hf, hn, hr, ht, if_false]
  by_cases hcontrol : c.toNat < 32
  · exact .inr (.inl ⟨hcontrol, by rw [hescape, if_pos hcontrol]⟩)
  · exact .inr (.inr ⟨hcontrol, hquote, hbackslash, by rw [hescape, if_neg hcontrol]⟩)

theorem readPieces_letter {letter c : Char} (h : unescape letter = some c) (rest : List Char) :
    readPieces ('\\' :: letter :: rest) = (readPieces rest).map fun r => (.char c :: r.1, r.2) := by
  have hu : letter ≠ 'u' := by
    rintro rfl
    cases h
  rw [readPieces, h, Option.bind_some]
  simp_all

theorem readPieces_itself {c : Char} (hcontrol : ¬c.toNat < 32) (hquote : c ≠ '"')
    (hbackslash : c ≠ '\\') (rest : List Char) :
    readPieces (c :: rest) = (readPieces rest).map fun r => (.char c :: r.1, r.2) := by
  rw [readPieces, if_neg (not_or.mpr ⟨hcontrol, hbackslash⟩)]
  all_goals simp_all

/-- **An escaped character is read as one piece** that stands for it. -/
theorem exists_piece (c : Char) : ∃ piece : Piece, piece.Stands c ∧ ∀ rest,
    readPieces (escape c ++ rest) = (readPieces rest).map fun r => (piece :: r.1, r.2) := by
  obtain ⟨letter, hletter, hescape⟩ | ⟨hcontrol, hescape⟩ | ⟨hcontrol, hquote, hbackslash, hescape⟩ :=
    escape_cases c
  · refine ⟨.char c, Piece.stands_char c, fun rest => ?_⟩
    rw [hescape]
    exact readPieces_letter hletter rest
  · refine ⟨.unit c.toNat, Piece.stands_unit hcontrol, fun rest => ?_⟩
    rw [hescape]
    simp only [List.cons_append, List.nil_append]
    rw [readPieces, hexUnit_hexDigit hcontrol, Option.bind_some]
  · refine ⟨.char c, Piece.stands_char c, fun rest => ?_⟩
    rw [hescape]
    exact readPieces_itself hcontrol hquote hbackslash rest

/-- The pieces of escaped characters, up to the quote that closes them. -/
theorem readPieces_escaped (rest : List Char) : ∀ cs : List Char, ∃ pieces,
    readPieces (cs.flatMap escape ++ '"' :: rest) = some (pieces, rest) ∧
      joinPieces pieces = some cs
  | [] => ⟨[], by rw [List.flatMap_nil, List.nil_append, readPieces], by rw [joinPieces]⟩
  | c :: cs => by
      obtain ⟨pieces, hread, hjoin⟩ := readPieces_escaped rest cs
      obtain ⟨piece, hstands, hpiece⟩ := exists_piece c
      refine ⟨piece :: pieces, ?_, ?_⟩
      · rw [List.flatMap_cons, List.append_assoc, hpiece, hread, Option.map_some]
      · rw [hstands, hjoin, Option.map_some]

/-- **A printed string reads back**, from after its opening quote. -/
theorem readString_escaped (s : String) (rest : List Char) :
    readString (s.toList.flatMap escape ++ '"' :: rest) = some (s, rest) := by
  obtain ⟨pieces, hread, hjoin⟩ := readPieces_escaped rest s.toList
  rw [readString, hread, Option.bind_some, hjoin, Option.map_some, String.ofList_toList]

/-! ## Values -/

/-- A value without numbers in which containers are nested at most so deep. -/
inductive Value.Numberless : Nat → Value → Prop
  | null {depth : Nat} : Numberless depth .null
  | bool {depth : Nat} (b : Bool) : Numberless depth (.bool b)
  | string {depth : Nat} (s : String) : Numberless depth (.string s)
  | array {depth : Nat} {items : List Value} :
      (∀ item ∈ items, Numberless depth item) → Numberless (depth + 1) (.array items)
  | object {depth : Nat} {members : Members} :
      (∀ m ∈ members, Numberless depth m.2) → Numberless (depth + 1) (.object members)

/-- A reader gets a value back from its characters, whatever comes behind them. -/
def ValueReader.Reads (inner : ValueReader) (v : Value) : Prop :=
  ∀ rest, inner (v.chars ++ rest) = some (v, rest)

theorem skipBlanks_cons {c : Char} (h : isBlank c = false) (cs : List Char) :
    skipBlanks (c :: cs) = c :: cs := by
  rw [skipBlanks, List.dropWhile_cons, h]
  rfl

/-- A printed value begins with a character that is neither blank nor the end of an array. -/
theorem Value.Numberless.exists_head {depth : Nat} {v : Value} (h : v.Numberless depth) :
    ∃ c cs, v.chars = c :: cs ∧ isBlank c = false ∧ c ≠ ']' := by
  cases h with
  | null => exact ⟨'n', _, rfl, rfl, by decide⟩
  | bool b => cases b <;> exact ⟨_, _, rfl, rfl, by decide⟩
  | string s => exact ⟨'"', _, rfl, rfl, by decide⟩
  | @array _ items => cases items <;> exact ⟨'[', _, rfl, rfl, by decide⟩
  | @object _ members => rcases members with _ | ⟨⟨key, v⟩, members⟩ <;>
      exact ⟨'\x7b', _, rfl, rfl, by decide⟩

/-- **Printed items read back**, up to the bracket that closes them. -/
theorem readItems_chars {inner : ValueReader} (rest : List Char) :
    ∀ {fuel : Nat} {item : Value} {items : List Value}, items.length < fuel →
      (∀ v ∈ item :: items, inner.Reads v) →
      readItems inner fuel (item.chars ++ (Value.itemChars items ++ rest)) = some (item :: items, rest)
  | fuel + 1, item, [], _, hinner => by
      rw [readItems, hinner item List.mem_cons_self]
      simp (disch := decide) only [Option.bind_some, Value.itemChars, List.cons_append,
        List.nil_append, skipBlanks_cons]
  | fuel + 1, item, next :: items, hfuel, hinner => by
      have hrest := readItems_chars rest (Nat.lt_of_succ_lt_succ hfuel)
        fun v hv => hinner v (List.mem_cons_of_mem _ hv)
      rw [readItems, hinner item List.mem_cons_self]
      simp (disch := decide) only [Option.bind_some, Value.itemChars, List.cons_append,
        List.append_assoc, skipBlanks_cons, hrest, Option.map_some]

/-- A printed name begins with a quote, and reads back from there. -/
theorem quote_append (s : String) (rest : List Char) :
    quote s ++ rest = '"' :: (s.toList.flatMap escape ++ '"' :: rest) := by
  rw [quote, List.append_assoc, List.cons_append, List.singleton_append]

/-- **Printed members read back**, up to the brace that closes them. -/
theorem readMembers_chars {inner : ValueReader} (rest : List Char) :
    ∀ (key : String) {fuel : Nat} {v : Value} {members : Members}, members.length < fuel →
      (∀ m ∈ (key, v) :: members, inner.Reads m.2) →
      readMembers inner fuel (quote key ++ ':' :: (v.chars ++ (Value.memberChars members ++ rest)))
        = some ((key, v) :: members, rest)
  | key, fuel + 1, v, [], _, hinner => by
      have hv : inner.Reads v := hinner (key, v) List.mem_cons_self
      rw [readMembers, quote_append]
      simp (disch := decide) only [skipBlanks_cons, readString_escaped, Option.bind_some, hv _,
        Value.memberChars, List.cons_append, List.nil_append]
  | key, fuel + 1, v, (key', v') :: members, hfuel, hinner => by
      have hv : inner.Reads v := hinner (key, v) List.mem_cons_self
      have hrest := readMembers_chars rest key' (Nat.lt_of_succ_lt_succ hfuel)
        fun m hm => hinner m (List.mem_cons_of_mem _ hm)
      rw [readMembers, quote_append]
      simp (disch := decide) only [skipBlanks_cons, readString_escaped, Option.bind_some, hv _,
        Value.memberChars, List.cons_append, List.append_assoc, hrest, Option.map_some]

/-- Each item takes a character, and so does the end of the array. -/
theorem length_lt_itemChars : ∀ items : List Value, items.length < (Value.itemChars items).length
  | [] => Nat.zero_lt_one
  | item :: items => by
      have ih := length_lt_itemChars items
      simp only [Value.itemChars, List.length_cons, List.length_append]
      omega

/-- Each member takes a character, and so does the end of the object. -/
theorem length_lt_memberChars :
    ∀ members : Members, members.length < (Value.memberChars members).length
  | [] => Nat.zero_lt_one
  | (key, v) :: members => by
      have ih := length_lt_memberChars members
      simp only [Value.memberChars, List.length_cons, List.length_append]
      omega

theorem readWith_array (inner : ValueReader) {c : Char} (hblank : isBlank c = false) (hend : c ≠ ']')
    (cs : List Char) : readWith (some inner) ('[' :: c :: cs)
      = (readItems inner (c :: cs).length (c :: cs)).map fun r => (.array r.1, r.2) := by
  have hopen : isBlank '[' = false := rfl
  rw [readWith, skipBlanks_cons hopen]
  simp only [Option.bind_some, skipBlanks_cons hblank]
  split
  next hcs => exact absurd (List.cons.inj hcs).1 hend
  next => rfl

theorem readWith_object (inner : ValueReader) {c : Char} (hblank : isBlank c = false)
    (hend : c ≠ '\x7d') (cs : List Char) : readWith (some inner) ('\x7b' :: c :: cs)
      = (readMembers inner (c :: cs).length (c :: cs)).map fun r => (.object r.1, r.2) := by
  have hopen : isBlank '\x7b' = false := rfl
  rw [readWith, skipBlanks_cons hopen]
  simp only [Option.bind_some, skipBlanks_cons hblank]
  split
  next hcs => exact absurd (List.cons.inj hcs).1 hend
  next => rfl

/-- A printed array reads back, when its items do. -/
theorem readWith_arrayChars {inner : ValueReader} {items : List Value}
    (hhead : ∀ item ∈ items, ∃ c cs, item.chars = c :: cs ∧ isBlank c = false ∧ c ≠ ']')
    (hitems : ∀ item ∈ items, inner.Reads item) :
    (readWith (some inner)).Reads (.array items) := by
  intro rest
  cases items with
  | nil => rfl
  | cons item items =>
    obtain ⟨c, cs, hchars, hblank, hend⟩ := hhead item List.mem_cons_self
    have hlen : items.length < (item.chars ++ (Value.itemChars items ++ rest)).length := by
      have hle := length_lt_itemChars items
      simp only [List.length_append]
      omega
    have hread := readItems_chars rest hlen hitems
    simp only [hchars, List.cons_append] at hread
    simp only [Value.chars, hchars, List.cons_append, List.append_assoc]
    rw [readWith_array inner hblank hend, hread, Option.map_some]

/-- A printed object reads back, when its members do. -/
theorem readWith_objectChars {inner : ValueReader} {members : Members}
    (hmembers : ∀ m ∈ members, inner.Reads m.2) : (readWith (some inner)).Reads (.object members) := by
  intro rest
  rcases members with _ | ⟨⟨key, v⟩, members⟩
  · rfl
  have hlen : members.length
      < (quote key ++ ':' :: (v.chars ++ (Value.memberChars members ++ rest))).length := by
    have hle := length_lt_memberChars members
    simp only [List.length_append, List.length_cons]
    omega
  have hquote : isBlank '"' = false := rfl
  have hread := readMembers_chars rest key hlen hmembers
  simp only [quote_append] at hread
  simp only [Value.chars, List.cons_append, List.append_assoc, quote_append]
  rw [readWith_object inner hquote (by decide), hread, Option.map_some]

/-- **A printed value reads back**, by induction on how its containers are nested. -/
theorem readNested_chars {depth : Nat} {v : Value} (h : v.Numberless depth) :
    (readNested depth).Reads v := by
  induction h with
  | @null depth =>
    intro rest
    cases depth <;> rfl
  | @bool depth b =>
    intro rest
    cases depth <;> cases b <;> rfl
  | @string depth s =>
    have hread (inner? : Option ValueReader) : (readWith inner?).Reads (.string s) := by
      intro rest
      have hquote : isBlank '"' = false := rfl
      rw [Value.chars, readWith, quote_append, skipBlanks_cons hquote]
      simp only [readString_escaped, Option.map_some]
    cases depth <;> exact hread _
  | array hitems ih => exact readWith_arrayChars (fun item hitem => (hitems item hitem).exists_head) ih
  | object _ ih => exact readWith_objectChars ih

/-- **The compact text of a value** that is nested no deeper than a reader goes is read as that value. -/
theorem read?_text {v : Value} (h : v.Numberless greatestDepth) : read? v.text = some v := by
  have hread := readNested_chars h []
  rw [List.append_nil] at hread
  rw [read?, Value.text, String.toList_ofList, hread]
  rfl

end PinnedManifest.Json
