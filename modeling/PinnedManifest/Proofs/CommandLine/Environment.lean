import PinnedManifest.Proofs.CommandLine.Naming
import PinnedManifest.Proofs.CommandLine.Timeout
import PinnedManifest.Proofs.Steps

/-!
# Proofs/CommandLine/Environment — variables stand for options that are absent

Setting one parameter and using others go in either order (`toOption_useAll_setter`), so a parameter
that no argument names may as well be set in front of the others.  That is what its variable does: it
stands for the option in front, and where the option is given the variable is not looked at
(`variables_stand_for_absent_options`).
-/

namespace PinnedManifest.CommandLine

variable {p q : Parameter} {value v w : String} {g g' : Given} {f f' : Given → Given} {u : Use}
variable {uses : List Use} {env : Environment} {args : List String}

/-! ## Setting a parameter -/

namespace Given

/-- **What setting a parameter does**, whatever is given before; none for a value that is not good. -/
def setter (p : Parameter) (value : String) : Option (Given → Given) :=
  match p with
  | .template => (pathValue p value).toOption.map fun v g => { g with template := some v }
  | .output => (pathValue p value).toOption.map fun v g => { g with output := some v }
  | .commit => (some value).map fun v g => { g with commit := some v }
  | .baseUrl => (some value).map fun v g => { g with baseUrl := some v }
  | .timeout => (timeoutValue value).toOption.map fun v g => { g with timeout := some v }

theorem toOption_set (g : Given) (p : Parameter) (value : String) :
    (g.set p value).toOption = (setter p value).map (· g) := by
  cases p <;> simp [set, setter, Function.comp_def]

/-- A parameter is given after it was set, and after no other. -/
theorem has_setter (h : setter q value = some f) (g : Given) (p : Parameter) :
    (f g).has p = (g.has p || q == p) := by
  cases q <;> simp only [setter, Option.map_eq_some_iff] at h <;>
    (obtain ⟨v, -, rfl⟩ := h; cases p <;> simp [has])

/-- **Different parameters are set in either order.** -/
theorem setter_comm (hne : p ≠ q) (hf : setter p v = some f) (hf' : setter q w = some f') (g : Given) :
    f (f' g) = f' (f g) := by
  cases p <;> cases q <;> first
    | exact absurd rfl hne
    | simp only [setter, Option.map_eq_some_iff] at hf hf'
      obtain ⟨v, -, rfl⟩ := hf
      obtain ⟨w, -, rfl⟩ := hf'
      rfl

/-- Setting a parameter leaves the switch as it is. -/
theorem setter_debug (hf : setter p v = some f) (g : Given) :
    (f g).debug = g.debug ∧ f { g with debug := true } = { f g with debug := true } := by
  cases p <;> simp only [setter, Option.map_eq_some_iff] at hf <;>
    (obtain ⟨v, -, rfl⟩ := hf; exact ⟨rfl, rfl⟩)

/-- A parameter that is not given yet is taken up by setting it. -/
theorem toOption_take (h : g.has p = false) (value : String) :
    (g.take p (some value)).toOption = (setter p value).map (· g) := by
  rw [take, h, if_neg (by simp), toOption_set]

/-- A parameter that is taken up is given from then on, as what was given before. -/
theorem has_of_take {w? : Option String} (h : (g.take q w?).toOption = some g') (p : Parameter) :
    g'.has p = (g.has p || q == p) := by
  cases w? with
  | none => cases h
  | some w =>
    cases hq : g.has q with
    | true => simp [take, hq] at h
    | false =>
      rw [toOption_take hq, Option.map_eq_some_iff] at h
      obtain ⟨f, hf, rfl⟩ := h
      exact has_setter hf g p

/-- What was given stays given, and a use gives its parameter. -/
theorem has_of_use (h : (g.use u).toOption = some g') :
    g'.has p = true ↔ g.has p = true ∨ u.parameter? = some p := by
  cases u with
  | switch s spelling =>
    cases s with
    | debug =>
      cases hg : g.debug with
      | true => simp [use, hg] at h
      | false =>
        obtain rfl : { g with debug := true } = g' := by simpa [use, hg] using h
        cases p <;> simp [has, Use.parameter?]
    | help => cases h
    | version => cases h
  | attached q w =>
    rw [has_of_take (by simpa [use] using h) p]
    simp [Use.parameter?]
  | separate q w? =>
    rw [has_of_take (by simpa [use] using h) p]
    simp [Use.parameter?]

theorem has_of_useAll : ∀ {uses : List Use} {g g' : Given}, (g.useAll uses).toOption = some g' →
    (g'.has p = true ↔ g.has p = true ∨ UsedIn p uses)
  | [], g, g', h => by cases h; simp
  | u :: uses, g, g', h => by
      rw [useAll, toOption_bind, Option.bind_eq_some_iff] at h
      obtain ⟨g₁, hu, h⟩ := h
      rw [has_of_useAll h, has_of_use hu, usedIn_cons, or_assoc]

/-- **Setting a parameter and taking up another go in either order.** -/
theorem toOption_take_setter (hf : setter p v = some f) (hne : p ≠ q) (g : Given) (w? : Option String) :
    ((f g).take q w?).toOption = (g.take q w?).toOption.map f := by
  cases w? with
  | none => rfl
  | some w =>
    have hhas : (f g).has q = g.has q := by rw [has_setter hf]; simp [hne]
    cases hq : g.has q with
    | true => simp [take, hhas, hq]
    | false =>
      rw [toOption_take (hhas.trans hq), toOption_take hq]
      cases hf' : setter q w with
      | none => rfl
      | some f' => simp [setter_comm hne hf hf' g]

/-- **Setting a parameter and using others go in either order.** -/
theorem toOption_use_setter (hf : setter p v = some f) (hu : u.parameter? ≠ some p) (g : Given) :
    ((f g).use u).toOption = (g.use u).toOption.map f := by
  cases u with
  | switch s spelling =>
    cases s with
    | debug =>
      obtain ⟨hdebug, hswitch⟩ := setter_debug hf g
      cases hg : g.debug <;> simp [use, hdebug, hg, hswitch]
    | help => rfl
    | version => rfl
  | attached q w =>
    have hne : p ≠ q := fun h => hu (by rw [h]; rfl)
    simpa [use] using toOption_take_setter hf hne g (some w)
  | separate q w? =>
    have hne : p ≠ q := fun h => hu (by rw [h]; rfl)
    simpa [use] using toOption_take_setter hf hne g w?

theorem toOption_useAll_setter (hf : setter p v = some f) : ∀ {uses : List Use}, ¬UsedIn p uses →
    ∀ g : Given, ((f g).useAll uses).toOption = (g.useAll uses).toOption.map f
  | [], _, g => rfl
  | u :: uses, h, g => by
      rw [usedIn_cons, not_or] at h
      rw [useAll, useAll, toOption_bind, toOption_bind, toOption_use_setter hf h.1]
      cases (g.use u).toOption with
      | none => rfl
      | some g₁ => exact toOption_useAll_setter hf h.2 g₁

end Given

/-! ## What a reading sets -/

/-- What arguments set, unless one of them has no place. -/
theorem toOption_given (r : Reading) :
    r.given.toOption = if r.misfit? = none then (Given.useAll {} r.uses).toOption else none := by
  rw [Reading.given, Reading.counted, toOption_bind]
  cases r.misfit? with
  | none => simp
  | some m => simp

/-- **A parameter without a letter is given exactly when an argument names it.** -/
theorem has_iff_named (hletter : p.letter? = none) (h : (read args).given.toOption = some g) :
    g.has p = true ↔ ∃ arg ∈ args, p.NamedBy arg := by
  rw [toOption_given] at h
  split at h
  next hmisfit =>
    have hnothing : ({} : Given).has p = false := by cases p <;> rfl
    rw [Given.has_of_useAll h, hnothing, read, usedIn_readFrom_iff hletter hmisfit]
    simp
  next => cases h

theorem not_has_of_absent (hletter : p.letter? = none) (habsent : ∀ arg ∈ args, ¬p.NamedBy arg)
    (h : (read args).given.toOption = some g) : g.has p = false := by
  rw [← Bool.not_eq_true, has_iff_named hletter h]
  simpa using habsent

/-- **An option in front of the others** is set after them, where none of them names it. -/
theorem toOption_given_joined (hletter : p.letter? = none) (habsent : ∀ arg ∈ args, ¬p.NamedBy arg)
    (value : String) : (read (("--" ++ p.long ++ "=" ++ value) :: args)).given.toOption
      = (read args).given.toOption.bind fun g => (Given.setter p value).map (· g) := by
  have hnothing : ({} : Given).has p = false := by cases p <;> rfl
  rw [toOption_given, toOption_given, read_joined, misfit?_after, uses_after, List.singleton_append,
    Given.useAll, toOption_bind, Given.use, toOption_mapError, Given.toOption_take hnothing]
  split
  next hmisfit =>
    have hunused : ¬UsedIn p (read args).uses := by
      rw [read, usedIn_readFrom_iff hletter hmisfit]
      simpa using habsent
    cases hf : Given.setter p value with
    | none => simp
    | some f => simpa [Option.map_eq_bind, Function.comp_def] using
        Given.toOption_useAll_setter hf hunused {}
  next => rfl

/-! ## What the environment adds -/

/-- An environment in which the variable of a parameter, if it has one, has a given value. -/
def Environment.having (env : Environment) (p : Parameter) (value? : Option String) : Environment :=
  match p with
  | .baseUrl => { env with baseUrl := value? }
  | .timeout => { env with timeout := value? }
  | _ => env

namespace Settings

/-- **Settings are complete** when the timeout is good and a commit is given. -/
theorem complete_eq_ok_iff {s : Settings} : complete env g = .ok s ↔ ∃ timeout commit,
    timeoutOf env g.timeout = .ok timeout ∧ g.commit = some commit ∧
      s = ⟨g.template.getD defaultTemplate, g.output.getD defaultOutput, commit, g.debug,
        (g.baseUrl.orElse fun _ => env.baseUrl).getD defaultBaseUrl, timeout⟩ := by
  rw [complete]
  cases timeoutOf env g.timeout with
  | error fault => simp [bind, Except.bind]
  | ok timeout => cases g.commit <;> simp [bind, Except.bind, eq_comm]

/-- **A variable stands for its option**: settings are completed as if it had been set. -/
theorem toOption_complete_having (hp : p = .baseUrl ∨ p = .timeout) (hg : g.has p = false)
    (env : Environment) (value : String) : (complete (env.having p (some value)) g).toOption
      = (Given.setter p value).bind fun f => (complete (env.having p none) (f g)).toOption := by
  rcases hp with rfl | rfl
  · have hurl : g.baseUrl = none := by simpa [Given.has] using hg
    simp [Given.setter, complete, Environment.having, hurl, timeoutOf]
  · have htimeout : g.timeout = none := by simpa [Given.has] using hg
    simp only [Given.setter, complete, Environment.having, htimeout, timeoutOf]
    cases timeoutValue value <;> rfl

/-- A variable is not looked at where its option is given. -/
theorem complete_having_congr (hp : p = .baseUrl ∨ p = .timeout) (hg : g.has p = true)
    (env : Environment) (value? value?' : Option String) :
    complete (env.having p value?) g = complete (env.having p value?') g := by
  rcases hp with rfl | rfl
  · obtain ⟨url, hurl⟩ := Option.isSome_iff_exists.mp hg
    simp [complete, Environment.having, hurl, timeoutOf]
  · obtain ⟨timeout, htimeout⟩ := Option.isSome_iff_exists.mp hg
    simp [complete, Environment.having, htimeout, timeoutOf]

theorem toOption_ofArgs (env : Environment) (args : List String) : (ofArgs env args).toOption
    = (read args).given.toOption.bind fun g => (complete env g).toOption := by
  rw [ofArgs, toOption_bind]
  simp

theorem ofArgs_eq_ok_iff {s : Settings} : ofArgs env args = .ok s ↔
    ∃ g, (read args).given.toOption = some g ∧ complete env g = .ok s := by
  rw [← toOption_eq_some_iff, toOption_ofArgs, Option.bind_eq_some_iff]
  simp [toOption_eq_some_iff]

/-- What the variable of the base address makes of settings without it. -/
theorem complete_baseUrl (hg : g.baseUrl = none) (env : Environment) (s : Settings) :
    (complete (env.having .baseUrl none) g = .ok s → s.baseUrl = defaultBaseUrl) ∧
    ∀ url, complete (env.having .baseUrl (some url)) g = .ok s ↔ ∃ unset,
      complete (env.having .baseUrl none) g = .ok unset ∧ s = { unset with baseUrl := url } := by
  simp only [complete_eq_ok_iff, Environment.having, hg]
  constructor
  · rintro ⟨timeout, commit, -, -, rfl⟩
    rfl
  · intro url
    constructor
    · rintro ⟨timeout, commit, htimeout, hcommit, rfl⟩
      exact ⟨_, ⟨timeout, commit, htimeout, hcommit, rfl⟩, rfl⟩
    · rintro ⟨unset, ⟨timeout, commit, htimeout, hcommit, rfl⟩, rfl⟩
      exact ⟨timeout, commit, htimeout, hcommit, rfl⟩

theorem timeoutValue_eq_ok_iff {n : Nat} : timeoutValue value = .ok n ↔ Timeout.Spelled value n := by
  rw [← Timeout.ofText_eq_ok_iff, timeoutValue]
  cases Timeout.ofText value <;> simp

/-- What the variable of the timeout makes of settings without it. -/
theorem complete_timeout (hg : g.timeout = none) (env : Environment) (s : Settings) :
    (complete (env.having .timeout none) g = .ok s → s.timeout = 30) ∧
    ∀ text, complete (env.having .timeout (some text)) g = .ok s ↔ ∃ unset seconds,
      complete (env.having .timeout none) g = .ok unset ∧ Timeout.Spelled text seconds ∧
      s = { unset with timeout := seconds } := by
  simp only [complete_eq_ok_iff, Environment.having, hg, timeoutOf, timeoutValue_eq_ok_iff]
  constructor
  · rintro ⟨timeout, commit, htimeout, -, rfl⟩
    cases htimeout
    rfl
  · intro text
    constructor
    · rintro ⟨timeout, commit, htimeout, hcommit, rfl⟩
      exact ⟨_, timeout, ⟨_, commit, rfl, hcommit, rfl⟩, htimeout, rfl⟩
    · rintro ⟨unset, seconds, ⟨timeout, commit, -, hcommit, rfl⟩, htext, rfl⟩
      exact ⟨seconds, commit, htext, hcommit, rfl⟩

/-- What arguments leave open is the only part of the settings that the environment has a say in. -/
theorem eq_of_complete {env env' : Environment} {s s' : Settings} (h : complete env g = .ok s)
    (h' : complete env' g = .ok s') : s' = { s with baseUrl := s'.baseUrl, timeout := s'.timeout } := by
  obtain ⟨timeout, commit, -, hcommit, rfl⟩ := complete_eq_ok_iff.mp h
  obtain ⟨timeout', commit', -, hcommit', rfl⟩ := complete_eq_ok_iff.mp h'
  obtain rfl : commit = commit' := Option.some.inj (hcommit.symm.trans hcommit')
  rfl

end Settings

/-- **A variable stands for the option it backs, and only where the option is absent.**

* Where no argument names the option, its variable does what the option with that value does in front
  of the other arguments; both stop, or both lead to the same settings.
* Where an argument names it, what is in the variable makes no difference, not even to the fault.
* Where neither is there, the default counts.
* A text is accepted as a timeout exactly when it spells one; every text is accepted as a base address.
* No other setting depends on the environment. -/
theorem variables_stand_for_absent_options (env : Environment) (args : List String) :
    (∀ p, p = .baseUrl ∨ p = .timeout →
      ((∀ arg ∈ args, ¬p.NamedBy arg) → ∀ value,
        (Settings.ofArgs (env.having p (some value)) args).toOption
          = (Settings.ofArgs (env.having p none)
              (("--" ++ p.long ++ "=" ++ value) :: args)).toOption) ∧
      ((∃ arg ∈ args, p.NamedBy arg) → ∀ value? value?',
        Settings.ofArgs (env.having p value?) args = Settings.ofArgs (env.having p value?') args)) ∧
    ((∀ arg ∈ args, ¬Parameter.baseUrl.NamedBy arg) → ∀ s,
      (Settings.ofArgs (env.having .baseUrl none) args = .ok s → s.baseUrl = defaultBaseUrl) ∧
      ∀ url, Settings.ofArgs (env.having .baseUrl (some url)) args = .ok s ↔ ∃ unset,
        Settings.ofArgs (env.having .baseUrl none) args = .ok unset ∧ s = { unset with baseUrl := url }) ∧
    ((∀ arg ∈ args, ¬Parameter.timeout.NamedBy arg) → ∀ s,
      (Settings.ofArgs (env.having .timeout none) args = .ok s → s.timeout = 30) ∧
      ∀ text, Settings.ofArgs (env.having .timeout (some text)) args = .ok s ↔ ∃ unset seconds,
        Settings.ofArgs (env.having .timeout none) args = .ok unset ∧
        Timeout.Spelled text seconds ∧ s = { unset with timeout := seconds }) ∧
    ∀ env' s s', Settings.ofArgs env args = .ok s → Settings.ofArgs env' args = .ok s' →
      s' = { s with baseUrl := s'.baseUrl, timeout := s'.timeout } := by
  refine ⟨fun p hp => ⟨fun habsent value => ?stands, fun hnamed value? value?' => ?ignored⟩,
    fun habsent s => ?baseUrl, fun habsent s => ?timeout, fun env' s s' h h' => ?others⟩
  case stands =>
    have hletter : p.letter? = none := by rcases hp with rfl | rfl <;> rfl
    rw [Settings.toOption_ofArgs, Settings.toOption_ofArgs, toOption_given_joined hletter habsent]
    cases hgiven : (read args).given.toOption with
    | none => rfl
    | some g =>
      have hg := not_has_of_absent hletter habsent hgiven
      rw [Option.bind_some, Option.bind_some, Settings.toOption_complete_having hp hg, Option.bind_map]
      rfl
  case ignored =>
    have hletter : p.letter? = none := by rcases hp with rfl | rfl <;> rfl
    rw [Settings.ofArgs, Settings.ofArgs]
    cases hgiven : (read args).given with
    | error stop => rfl
    | ok g =>
      have hg : g.has p = true := (has_iff_named hletter (by rw [hgiven, toOption_ok])).mpr hnamed
      exact congrArg (Except.mapError Stop.fault) (Settings.complete_having_congr hp hg env _ _)
  case baseUrl =>
    simp only [Settings.ofArgs_eq_ok_iff]
    cases hgiven : (read args).given.toOption with
    | none => simp
    | some g =>
      have hg := not_has_of_absent rfl habsent hgiven
      simpa using Settings.complete_baseUrl (by simpa [Given.has] using hg) env s
  case timeout =>
    simp only [Settings.ofArgs_eq_ok_iff]
    cases hgiven : (read args).given.toOption with
    | none => simp
    | some g =>
      have hg := not_has_of_absent rfl habsent hgiven
      simpa using Settings.complete_timeout (by simpa [Given.has] using hg) env s
  case others =>
    obtain ⟨g, hgiven, hs⟩ := Settings.ofArgs_eq_ok_iff.mp h
    obtain ⟨g', hgiven', hs'⟩ := Settings.ofArgs_eq_ok_iff.mp h'
    obtain rfl : g = g' := Option.some.inj (hgiven.symm.trans hgiven')
    exact Settings.eq_of_complete hs hs'

/-- The variable of the timeout, where only a commit is given and where another timeout is. -/
theorem variables_stand_for_absent_options_sample :
    (∀ arg ∈ ["-c", "v1"], ¬Parameter.timeout.NamedBy arg) ∧
    (Settings.ofArgs { timeout := some "+05" } ["-c", "v1"]).toOption
      = (Settings.ofArgs {} ["--timeout=+05", "-c", "v1"]).toOption ∧
    (∃ arg ∈ ["-c", "v1", "--timeout", "7"], Parameter.timeout.NamedBy arg) ∧
    Settings.ofArgs { timeout := some "soon" } ["-c", "v1", "--timeout", "7"]
      = .ok ⟨defaultTemplate, defaultOutput, "v1", false, defaultBaseUrl, 7⟩ := by
  have habsent : ∀ arg ∈ ["-c", "v1"], ¬Parameter.timeout.NamedBy arg := by decide
  have hnamed : ∃ arg ∈ ["-c", "v1", "--timeout", "7"], Parameter.timeout.NamedBy arg := by decide
  obtain ⟨hstands, -⟩ :=
    (variables_stand_for_absent_options {} ["-c", "v1"]).1 .timeout (.inr rfl)
  obtain ⟨-, hignored⟩ :=
    (variables_stand_for_absent_options {} ["-c", "v1", "--timeout", "7"]).1 .timeout (.inr rfl)
  exact ⟨habsent, hstands habsent "+05", hnamed, (hignored hnamed (some "soon") none).trans rfl⟩

end PinnedManifest.CommandLine
