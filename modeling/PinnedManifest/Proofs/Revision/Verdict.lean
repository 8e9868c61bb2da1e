import Mathlib.Data.Nat.Digits.Defs
import PinnedManifest.Proofs.Json.ReadBack
import PinnedManifest.Proofs.Revision.Rules

/-!
# Proofs/Revision/Verdict — which texts are revisions, and what is said of the others

Every text either keeps all rules or breaks a first one, and `Revision.Blamed` tells which that is
without looking at how the rules are checked (`faultOf?_eq_some_iff`).  So a text is accepted exactly
when it keeps the rules, unchanged in every form it is given back in, and otherwise comes back with
the first rule it breaks (`revision_accepted_or_blamed`).

The words of a rejection are told apart from the code that writes them: `Revision.Shown` says how a
forbidden character stands between quotation marks, with the number of a code point read off its
digits, and `Revision.Worded` which reason goes with which rule (`Fault.worded_reason`).
-/

namespace PinnedManifest

namespace Revision

variable {cs : List Char} {f : Fault} {text : String}

/-- **The first rule that characters break** — each rule is blamed only where those before it are kept,
and of the forbidden characters the leftmost one is, whatever else is wrong. -/
def Blamed (cs : List Char) : Fault → Prop
  | .empty => cs = []
  | .forbidden c => ∃ before after,
      cs = before ++ c :: after ∧ forbids c = true ∧ ∀ d ∈ before, forbids d = false
  | .slashAtEdge => cs ≠ [] ∧ (∀ c ∈ cs, forbids c = false) ∧
      (cs.head? = some '/' ∨ cs.getLast? = some '/')
  | .doubleDot => cs ≠ [] ∧ (∀ c ∈ cs, forbids c = false) ∧
      ¬(cs.head? = some '/' ∨ cs.getLast? = some '/') ∧ ['.', '.'] <:+: cs

/-- What is not forbidden is neither white space nor a control character. -/
theorem forbids_eq_false_iff {c : Char} :
    forbids c = false ↔ Text.isWhite c = false ∧ Text.isControl c = false := Bool.or_eq_false_iff

/-- The leftmost forbidden character splits a text. -/
theorem find?_forbids_eq_some_iff {c : Char} :
    cs.find? forbids = some c ↔ Blamed cs (.forbidden c) := by
  simp only [List.find?_eq_some_iff_append, Blamed, Bool.not_eq_true']
  constructor
  · rintro ⟨hc, before, after, rfl, hbefore⟩
    exact ⟨before, after, rfl, hc, hbefore⟩
  · rintro ⟨before, after, rfl, hc, hbefore⟩
    exact ⟨hc, before, after, rfl, hbefore⟩

/-- **The check blames the first broken rule.** -/
theorem faultOf?_eq_some_iff : faultOf? cs = some f ↔ Blamed cs f := by
  rw [faultOf?]
  by_cases hempty : cs = []
  · subst hempty
    cases f <;> simp [Blamed]
  rw [if_neg (by simpa using hempty)]
  cases hfind : cs.find? forbids with
  | some c =>
    obtain ⟨before, after, rfl, hc, hbefore⟩ := find?_forbids_eq_some_iff.mp hfind
    have hbad : ¬∀ d ∈ before ++ c :: after, forbids d = false := fun hplain => by
      have hc' := hplain c (by simp)
      rw [hc] at hc'
      cases hc'
    cases f with
    | empty => simp [Blamed]
    | forbidden d => rw [← find?_forbids_eq_some_iff, hfind]; simp
    | slashAtEdge => exact iff_of_false (by simp) fun h => hbad h.2.1
    | doubleDot => exact iff_of_false (by simp) fun h => hbad h.2.1
  | none =>
    have hplain : ∀ c ∈ cs, forbids c = false := by simpa using hfind
    cases f with
    | empty => grind [Blamed]
    | forbidden d =>
      rw [← find?_forbids_eq_some_iff, hfind]
      grind
    | slashAtEdge => grind [Blamed]
    | doubleDot => grind [Blamed, hasDoubleDot_iff]

theorem ofText_eq_error_iff {r : Rejection} :
    ofText text = .error r ↔ r.value = text ∧ fault? text = some r.fault := by
  unfold ofText
  split
  next h => simp [h]
  next fault h =>
    rw [h, Except.error.injEq, Option.some.injEq]
    constructor
    · rintro rfl
      exact ⟨rfl, rfl⟩
    · rintro ⟨rfl, rfl⟩
      rfl

/-! ## The words of a rejection -/

/-- The digits of hexadecimal numbers, each at the place of its value. -/
def hexAlphabet : List Char := "0123456789abcdef".toList

/-- **The number that hexadecimal digits spell** — the highest digit stands first and is no zero. -/
structure SpellsHex (digits : List Char) (n : Nat) : Prop where
  alphabet : ∀ d ∈ digits, d ∈ hexAlphabet
  lead : digits.head? ≠ some '0'
  value : Nat.ofDigits 16 (digits.map hexAlphabet.idxOf).reverse = n

/-- **How a character stands between quotation marks** — a blank as itself, four controls by their short
escapes, and any other by its code point. -/
inductive Shown : Char → String → Prop
  | blank : Shown ' ' "' '"
  | tab : Shown '\t' "'\\t'"
  | lineFeed : Shown '\n' "'\\n'"
  | carriageReturn : Shown '\r' "'\\r'"
  | nul : Shown '\x00' "'\\0'"
  | codePoint {c : Char} {digits : List Char} (other : c ∉ [' ', '\t', '\n', '\r', '\x00'])
      (spelled : SpellsHex digits c.toNat) :
      Shown c ("'\\u\x7b" ++ String.ofList digits ++ "\x7d'")

/-- **Which reason is given for which broken rule.** -/
def Worded : Fault → String → Prop
  | .empty, reason => reason = "revision must not be empty"
  | .forbidden c, reason => ∃ shown, Shown c shown ∧
      reason = "whitespace or control character " ++ shown
  | .slashAtEdge, reason => reason = "revision must not start or end with '/'"
  | .doubleDot, reason => reason = "revision must not contain '..'"

theorem digitChar_mem_hexAlphabet : ∀ k < 16, Nat.digitChar k ∈ hexAlphabet := by decide

theorem idxOf_digitChar : ∀ k < 16, hexAlphabet.idxOf (Nat.digitChar k) = k := by decide

theorem digitChar_ne_zero : ∀ k < 16, 0 < k → Nat.digitChar k ≠ '0' := by decide

/-- A positive number is spelled by its hexadecimal digits. -/
theorem spellsHex_toDigits (n : Nat) (h : 0 < n) : SpellsHex (Nat.toDigits 16 n) n := by
  induction n using Nat.strongRecOn with
  | ind n ih =>
  by_cases hlow : n < 16
  · -- one digit
    rw [Nat.toDigits_of_lt_base hlow]
    exact ⟨by simpa using digitChar_mem_hexAlphabet n hlow,
      by simpa using digitChar_ne_zero n hlow h, by simp [idxOf_digitChar n hlow]⟩
  -- the last digit behind those of the quotient
  have hquotient := ih (n / 16) (by omega) (by omega)
  have hlast : n % 16 < 16 := Nat.mod_lt n (by decide)
  rw [Nat.toDigits_of_base_le (by decide) (by omega)]
  refine ⟨?alphabet, ?lead, ?value⟩
  case alphabet =>
    intro d hd
    rcases List.mem_append.mp hd with hd | hd
    · exact hquotient.alphabet d hd
    · rw [List.mem_singleton.mp hd]
      exact digitChar_mem_hexAlphabet _ hlast
  case lead =>
    obtain ⟨first, rest, hdigits⟩ :=
      List.exists_cons_of_ne_nil (Nat.toDigits_ne_nil : Nat.toDigits 16 (n / 16) ≠ [])
    simpa [hdigits] using hquotient.lead
  case value =>
    rw [List.map_append, List.reverse_append, List.map_singleton, List.reverse_singleton,
      List.singleton_append, Nat.ofDigits_cons, hquotient.value, idxOf_digitChar _ hlast]
    exact Nat.mod_add_div n 16

/-- The quoted form of a character is the one that shows it. -/
theorem shown_quoted (c : Char) : Shown c (quoted c) := by
  unfold quoted
  split
  next h => exact h ▸ .blank
  split
  next h => exact h ▸ .tab
  split
  next h => exact h ▸ .lineFeed
  split
  next h => exact h ▸ .carriageReturn
  split
  next h => exact h ▸ .nul
  next hblank htab hlf hcr hnul =>
    have hpos : 0 < c.toNat := Nat.pos_of_ne_zero fun h0 => hnul (Char.toNat_inj.mp h0)
    have hopening : "'\\u\x7b" = "'" ++ "\\u\x7b" := rfl
    have hclosing : "\x7d'" = "\x7d" ++ "'" := rfl
    have hform := Shown.codePoint (by simp [hblank, htab, hlf, hcr, hnul])
      (spellsHex_toDigits c.toNat hpos)
    rw [hopening, hclosing] at hform
    simpa only [Text.Quoted.codePoint, Text.Quoted.hexDigits, String.append_assoc] using hform

/-- **Each rule is given its own reason.** -/
theorem Fault.worded_reason : ∀ fault : Fault, Worded fault fault.reason
  | .empty => rfl
  | .forbidden c => ⟨quoted c, shown_quoted c, rfl⟩
  | .slashAtEdge => rfl
  | .doubleDot => rfl

end Revision

/-- **A text is a revision or is told the first rule it breaks.**

* It is accepted exactly when it is not empty, has no white space and no control character, no slash at
  either end, and no two full stops side by side.
* What is accepted is the text itself, however it is given back, as the string of its JSON form too.
* What is refused comes back with the text and the first broken rule, and with nothing else: emptiness,
  the leftmost forbidden character, a slash at an end, two full stops.
* The reason it comes back with is the one for that rule, which shows the forbidden character between
  quotation marks, and the message is the text and that reason. -/
theorem revision_accepted_or_blamed (text : String) :
    ((∃ r, Revision.ofText text = .ok r) ↔
      text.toList ≠ [] ∧ (∀ c ∈ text.toList, Text.isWhite c = false ∧ Text.isControl c = false) ∧
        text.toList.head? ≠ some '/' ∧ text.toList.getLast? ≠ some '/' ∧
        ¬['.', '.'] <:+: text.toList) ∧
    (∀ r, Revision.ofText text = .ok r ↔ r.text = text ∧ toString r = text ∧
      Json.read? (Json.Value.string r.text).text = some (.string text)) ∧
    (∀ rejection, Revision.ofText text = .error rejection ↔
      rejection.value = text ∧ Revision.Blamed text.toList rejection.fault) ∧
    ∀ rejection, Revision.ofText text = .error rejection →
      Revision.Worded rejection.fault rejection.fault.reason ∧
      rejection.message = "invalid revision \"" ++ text ++ "\": " ++ rejection.fault.reason := by
  refine ⟨?accepted, fun r => ?given, fun rejection => ?blamed, fun rejection h => ?worded⟩
  case accepted =>
    have hrules : (∃ r, Revision.ofText text = .ok r) ↔ Revision.Rules text.toList := by
      rw [← Revision.faultOf?_eq_none_iff]
      constructor
      · rintro ⟨r, hr⟩
        exact (Revision.ofText_eq_ok_iff.mp hr).1
      · exact fun h => ⟨⟨text, h⟩, Revision.ofText_eq_ok_iff.mpr ⟨h, rfl⟩⟩
    rw [hrules]
    constructor
    · rintro ⟨hempty, hplain, hstart, hfinish, hdots⟩
      exact ⟨hempty, fun c hc => Revision.forbids_eq_false_iff.mp (hplain c hc), hstart, hfinish, hdots⟩
    · rintro ⟨hempty, hplain, hstart, hfinish, hdots⟩
      exact ⟨hempty, fun c hc => Revision.forbids_eq_false_iff.mpr (hplain c hc), hstart, hfinish,
        hdots⟩
  case given =>
    have hread : Json.read? (Json.Value.string r.text).text = some (.string r.text) :=
      Json.read?_text (.string _)
    rw [Revision.ofText_eq_ok_iff]
    constructor
    · rintro ⟨-, rfl⟩
      exact ⟨rfl, rfl, hread⟩
    · rintro ⟨rfl, -⟩
      exact ⟨r.sound, rfl⟩
  case blamed =>
    rw [Revision.ofText_eq_error_iff, Revision.fault?, Revision.faultOf?_eq_some_iff]
  case worded =>
    obtain ⟨rfl, -⟩ := Revision.ofText_eq_error_iff.mp h
    exact ⟨rejection.fault.worded_reason, rfl⟩

/-- A text that breaks three rules is told the second, at the no-break space. -/
example : (Revision.fault? "/a\u00a0b/..").map Revision.Fault.reason =
    some "whitespace or control character '\\u\x7ba0\x7d'" := by decide +kernel

end PinnedManifest
