import Mathlib.Data.List.Forall2
import PinnedManifest.Proofs.CommandLine.Naming
import PinnedManifest.Proofs.CommandLine.Timeout

/-!
# Proofs/CommandLine/RoundTrip — settings written as arguments

Settings are written with one option for each value, and a switch where they ask for one.  However an
option is spelled, it is read as one use of it (`Settings.Spells.read`), and what one use gives does not
hang on what others gave before.  So in any order the arguments lead back to the settings
(`settings_round_trip`).
-/

namespace PinnedManifest.CommandLine

variable {s : Settings} {o o' : Opt} {p : Parameter} {opts : List Opt} {part : List String}
variable {parts : List (List String)} {g : Given} {arg : String}

namespace Settings

/-! ## Writing settings -/

/-- The value of a parameter as an argument has it. -/
def value (s : Settings) : Parameter → String
  | .template => s.template
  | .output => s.output
  | .commit => s.commit
  | .baseUrl => s.baseUrl
  | .timeout => toString s.timeout

/-- The options that settings are written with. -/
def options (s : Settings) : List Opt :=
  [.parameter .template, .parameter .output, .parameter .commit, .parameter .baseUrl,
    .parameter .timeout] ++ if s.debug then [.switch .debug] else []

/-- **The ways to write an option of settings**: with its value in the same argument, or in the next one
where that does not look like an option; the switch under its name or its letter. -/
inductive Spells (s : Settings) : Opt → List String → Prop
  | joined (p : Parameter) : Spells s (.parameter p) ["--" ++ p.long ++ "=" ++ s.value p]
  | apart (p : Parameter) (h : (s.value p).toList.head? ≠ some '-') :
      Spells s (.parameter p) ["--" ++ p.long, s.value p]
  | letter (p : Parameter) (c : Char) (hc : p.letter? = some c)
      (h : (s.value p).toList.head? ≠ some '-') :
      Spells s (.parameter p) [String.ofList ['-', c], s.value p]
  | debug : Spells s (.switch .debug) ["--debug"]
  | debugLetter : Spells s (.switch .debug) ["-d"]

/-! ## One option -/

/-- A use of an option with the value that settings have for it. -/
def Uses (s : Settings) : Opt → Use → Prop
  | .parameter p, u => u = .attached p (s.value p) ∨ u = .separate p (some (s.value p))
  | .switch t, u => t = .debug ∧ ∃ spelling, u = .switch .debug spelling

/-- A text that does not begin with a dash is plain. -/
theorem shape_eq_plain (h : arg.toList.head? ≠ some '-') : shape arg = .plain := by
  rw [shape.eq_def]
  split
  next heq => simp [heq] at h
  next heq => simp [heq] at h
  next heq => simp [heq] at h
  next => rfl

/-- **A value in an argument of its own** is taken by the parameter whose value is due. -/
theorem readFrom_value (p : Parameter) (rest : List String) (h : (s.value p).toList.head? ≠ some '-') :
    readFrom (some p) (s.value p :: rest)
      = (CommandLine.read rest).after [.separate p (some (s.value p))] :=
  readFrom.eq_5 _ _ _ (shape_eq_plain h)

/-- **However an option is spelled**, it is read as one use of it. -/
theorem Spells.read (h : s.Spells o part) : ∃ u, s.Uses o u ∧
    ∀ rest, CommandLine.read (part ++ rest) = (CommandLine.read rest).after [u] := by
  cases h with
  | joined p => exact ⟨_, .inl rfl, read_joined p (s.value p)⟩
  | apart p h => exact ⟨_, .inr rfl, fun rest => (read_named p _).trans (readFrom_value p rest h)⟩
  | letter p c hc h =>
    exact ⟨_, .inr rfl, fun rest => (read_letter hc _).trans (readFrom_value p rest h)⟩
  | debug => exact ⟨_, ⟨rfl, .full, rfl⟩, fun rest => rfl⟩
  | debugLetter => exact ⟨_, ⟨rfl, .letter, rfl⟩, fun rest => rfl⟩

/-- What is given once an option of settings is taken up. -/
def give (s : Settings) : Opt → Given → Given
  | .parameter .template, g => { g with template := some s.template }
  | .parameter .output, g => { g with output := some s.output }
  | .parameter .commit, g => { g with commit := some s.commit }
  | .parameter .baseUrl, g => { g with baseUrl := some s.baseUrl }
  | .parameter .timeout, g => { g with timeout := some s.timeout }
  | .switch .debug, g => { g with debug := true }
  | .switch _, g => g

/-- Options are given in either order. -/
theorem give_give (s : Settings) (o o' : Opt) (g : Given) :
    s.give o (s.give o' g) = s.give o' (s.give o g) := by
  rcases o with p | t <;> rcases o' with q | t'
  · cases p <;> cases q <;> rfl
  · cases p <;> cases t' <;> rfl
  · cases q <;> cases t <;> rfl
  · cases t <;> cases t' <;> rfl

/-- An option has not been taken up. -/
def Open (g : Given) : Opt → Prop
  | .parameter p => g.has p = false
  | .switch _ => g.debug = false

/-- What is open stays open until it is given itself. -/
theorem open_give (hne : o ≠ o') (h : Open g o) (hs : o ∈ s.options) : Open (s.give o' g) o := by
  have hdebug (t : Switch) (ht : .switch t ∈ s.options) : t = .debug := by
    rw [options] at ht
    split at ht <;> simp_all
  rcases o with p | t <;> rcases o' with q | t'
  · cases p <;> cases q <;> first | exact absurd rfl hne | exact h
  · cases p <;> cases t' <;> exact h
  · cases q <;> exact h
  · obtain rfl := hdebug t hs
    cases t' <;> first | exact absurd rfl hne | exact h

/-- Settings that can be written: paths that are not empty, and a timeout. -/
structure Writable (s : Settings) : Prop where
  template : s.template ≠ ""
  output : s.output ≠ ""
  timeout : 1 ≤ s.timeout ∧ s.timeout ≤ 18446744073709551615

/-- **A value as it is written** is good for its parameter. -/
theorem Writable.take (hs : s.Writable) (h : g.has p = false) :
    g.take p (some (s.value p)) = .ok (s.give (.parameter p) g) := by
  have hpath (q : Parameter) {path : String} (hpath : path ≠ "") : pathValue q path = .ok path := by
    rw [pathValue, if_neg (by simpa using hpath)]
  have htimeout : timeoutValue (toString s.timeout) = .ok s.timeout := by
    rw [timeoutValue, Timeout.ofText_eq_ok_iff.mpr (Timeout.spelled_toString hs.timeout.1 hs.timeout.2)]
  rw [Given.take, h, if_neg (by simp)]
  cases p with
  | template => simp only [Given.set, value, hpath _ hs.template]; rfl
  | output => simp only [Given.set, value, hpath _ hs.output]; rfl
  | commit => rfl
  | baseUrl => rfl
  | timeout => simp only [Given.set, value, htimeout]; rfl

/-- **An open option is given by its use.** -/
theorem Uses.use {u : Use} (hs : s.Writable) (hu : s.Uses o u) (h : Open g o) :
    g.use u = .ok (s.give o g) := by
  cases o with
  | parameter p =>
    rcases hu with rfl | rfl <;> rw [Given.use, hs.take h] <;> rfl
  | switch t =>
    obtain ⟨rfl, spelling, rfl⟩ := hu
    have hdebug : g.debug = false := h
    simp [Given.use, hdebug, give]

/-- **Options in any order**, each once, are all given: by induction on the options, where those to come
are open. -/
theorem given_of_spells (hs : s.Writable) : ∀ {opts : List Opt} {parts : List (List String)},
    List.Forall₂ s.Spells opts parts → opts.Nodup → (∀ o ∈ opts, o ∈ s.options) →
    ∃ uses, CommandLine.read parts.flatten = ⟨uses, none⟩ ∧ ∀ g : Given, (∀ o ∈ opts, Open g o) →
      g.useAll uses = .ok (opts.foldl (fun g o => s.give o g) g)
  | [], _, .nil, _, _ => ⟨[], rfl, fun g _ => rfl⟩
  | o :: opts, part :: parts, .cons hpart hparts, hnodup, hopts => by
      obtain ⟨hnew, hnodup⟩ := List.nodup_cons.mp hnodup
      obtain ⟨ho, hopts⟩ := List.forall_mem_cons.mp hopts
      obtain ⟨u, hu, hread⟩ := hpart.read
      obtain ⟨uses, huses, hgiven⟩ := given_of_spells hs hparts hnodup hopts
      refine ⟨u :: uses, by rw [List.flatten_cons, hread, huses]; rfl, fun g hg => ?_⟩
      obtain ⟨hopen, hg⟩ := List.forall_mem_cons.mp hg
      rw [Given.useAll, hu.use hs hopen, List.foldl_cons]
      refine hgiven _ fun o' ho' => open_give (fun h => hnew (h ▸ ho')) (hg o' ho') (hopts o' ho')

/-- All options of settings give what completes to them, under every environment. -/
theorem complete_give (env : Environment) :
    complete env (s.options.foldl (fun g o => s.give o g) {}) = .ok s := by
  obtain ⟨template, output, commit, debug, baseUrl, timeout⟩ := s
  cases debug <;> rfl

/-- **The run that settings ask for** has the revision that their commit is. -/
theorem config_eq_ok_iff {c : Config} : s.config = .ok c ↔ c.template = s.template ∧
    c.output = s.output ∧ c.revision.text = s.commit ∧ c.baseUrl = s.baseUrl ∧ c.timeout = s.timeout := by
  rw [config]
  constructor
  · intro h
    cases hr : Revision.ofText s.commit with
    | error r => rw [hr] at h; cases h
    | ok r =>
      rw [hr] at h
      cases h
      exact ⟨rfl, rfl, (Revision.ofText_eq_ok_iff.mp hr).2, rfl, rfl⟩
  · obtain ⟨template, output, revision, baseUrl, timeout⟩ := c
    rintro ⟨rfl, rfl, hcommit, rfl, rfl⟩
    rw [← hcommit, Revision.ofText_text]
    rfl

end Settings

/-- **Settings are read back from the arguments that write them** — in any order, with each option
spelled in any way, and under every environment; and they ask for a run exactly when their commit is an
accepted revision, with all else taken over. -/
theorem settings_round_trip (hs : s.Writable) (hopts : opts.Perm s.options)
    (hparts : List.Forall₂ s.Spells opts parts) (env : Environment) :
    Settings.ofArgs env parts.flatten = .ok s ∧
    ((∃ c, s.config = .ok c) ↔ ∃ r, Revision.ofText s.commit = .ok r) ∧
    ∀ c, s.config = .ok c ↔ c.template = s.template ∧ c.output = s.output ∧
      c.revision.text = s.commit ∧ c.baseUrl = s.baseUrl ∧ c.timeout = s.timeout := by
  refine ⟨?read, ?accepted, fun c => Settings.config_eq_ok_iff⟩
  case read =>
    have hnodup : s.options.Nodup := by
      rw [Settings.options]
      cases s.debug <;> decide
    have hopen : ∀ o ∈ opts, Settings.Open {} o := fun o _ => by
      rcases o with p | t
      · cases p <;> rfl
      · rfl
    obtain ⟨uses, hread, hgiven⟩ := Settings.given_of_spells hs hparts (hopts.nodup_iff.mpr hnodup)
      fun o ho => hopts.mem_iff.mp ho
    have hfold : opts.foldl (fun g o => s.give o g) {} = s.options.foldl (fun g o => s.give o g) {} :=
      hopts.foldl_eq' (fun o _ o' _ g => s.give_give o' o g) _
    have hwhole : (read parts.flatten).given = .ok (s.options.foldl (fun g o => s.give o g) {}) := by
      rw [Reading.given, Reading.counted, hread]
      simp only [hgiven {} hopen, hfold]
      rfl
    rw [Settings.ofArgs, hwhole]
    exact congrArg (Except.mapError Stop.fault) (Settings.complete_give env)
  case accepted =>
    rw [Settings.config]
    cases Revision.ofText s.commit <;> simp [Except.map]

namespace Sample

/-- Settings with values that look like something else. -/
def unusual : Settings := ⟨"a=b", "-o", "", true, "--url", 18446744073709551615⟩

/-- An order of its own for their options. -/
def unusualOptions : List Opt :=
  [.switch .debug, .parameter .baseUrl, .parameter .template, .parameter .output,
    .parameter .timeout, .parameter .commit]

/-- A value with an equals sign behind a letter, and values with dashes attached. -/
def unusualParts : List (List String) :=
  [["-d"], ["--base-url=--url"], ["-t", "a=b"], ["--output=-o"],
    ["--timeout", "18446744073709551615"], ["--commit", ""]]

theorem unusual_spelled : List.Forall₂ unusual.Spells unusualOptions unusualParts :=
  .cons .debugLetter (.cons (.joined .baseUrl) (.cons (.letter .template 't' rfl (by decide))
    (.cons (.joined .output) (.cons (.apart .timeout (by decide))
      (.cons (.apart .commit (by decide)) .nil)))))

end Sample

/-- Under an environment whose timeout is none. -/
theorem settings_round_trip_sample :
    Sample.unusual.Writable ∧ Sample.unusualOptions.Perm Sample.unusual.options ∧
    List.Forall₂ Sample.unusual.Spells Sample.unusualOptions Sample.unusualParts ∧
    Settings.ofArgs { timeout := some "soon" } ["-d", "--base-url=--url", "-t", "a=b", "--output=-o",
      "--timeout", "18446744073709551615", "--commit", ""] = .ok Sample.unusual ∧
    ¬∃ c, Sample.unusual.config = .ok c := by
  have hwritable : Sample.unusual.Writable := ⟨by decide, by decide, by decide⟩
  have hperm : Sample.unusualOptions.Perm Sample.unusual.options := by decide
  obtain ⟨hread, hconfig, -⟩ :=
    settings_round_trip hwritable hperm Sample.unusual_spelled { timeout := some "soon" }
  refine ⟨hwritable, hperm, Sample.unusual_spelled, hread, ?_⟩
  rw [hconfig]
  rintro ⟨r, hr⟩
  have hempty := (Revision.ofText_eq_ok_iff.mp hr).1
  revert hempty
  decide

end PinnedManifest.CommandLine
