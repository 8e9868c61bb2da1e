import PinnedManifest.Http.Fetch

/-!
# Proofs/Http/Responses — the last response decides what comes of a fetch

Of all the responses to a fetch only the last one counts (`Verdict`): it is taken for what was asked
for, or its status is the fault that is told, or it led to a place from which nothing came
(`decided_follow`).  What is taken is every status that neither leads elsewhere nor blames anyone, which
is more than the statuses of success (`isTaken_iff`).
-/

namespace PinnedManifest.Http

variable {σ α β : Type}

/-! ## Statuses -/

/-- Whether a status tells of success. -/
def isSuccess (status : Nat) : Bool := 200 ≤ status && status ≤ 299

/-- Whether a response with a status is taken for what was asked for. -/
def isTaken (status : Nat) : Bool := !isRedirect status && !isFailure status

/-- Whether a status is passed over: it tells of no success, blames no one, and is not one of those that
lead elsewhere. -/
def isIgnored (status : Nat) : Bool :=
  status < 200 || (300 ≤ status && status ≤ 399 && !isRedirect status) || 600 ≤ status

/-- A status that leads elsewhere is one of the three hundreds. -/
theorem bounds_of_isRedirect {status : Nat} (h : isRedirect status = true) :
    300 ≤ status ∧ status ≤ 399 := by
  simp only [isRedirect, List.contains_eq_mem, List.mem_cons, List.not_mem_nil, or_false,
    decide_eq_true_eq] at h
  omega

/-- **What is taken** is a success, or passed over. -/
theorem isTaken_iff {status : Nat} :
    isTaken status = true ↔ isSuccess status = true ∨ isIgnored status = true := by
  have hredirect := @bounds_of_isRedirect status
  cases h : isRedirect status <;> simp [isTaken, isSuccess, isIgnored, isFailure, h] at hredirect ⊢ <;>
    omega

/-- No status is both. -/
theorem isIgnored_of_isSuccess {status : Nat} (h : isSuccess status = true) :
    isIgnored status = false := by
  simp [isSuccess, isIgnored] at h ⊢
  omega

/-! ## Responses to a dialog -/

/-- A request, and what follows upon its reply. -/
theorem Dialog.hold_ask (server : Server σ) (r : Request) (next : Reply → Dialog α) (n : Network σ) :
    (Dialog.ask r next).hold server.answer n
      = (next (server.answer r n).1).hold server.answer (server.answer r n).2 := rfl

/-- A dialog with another outcome is held in the same way. -/
theorem Dialog.hold_map (f : α → β) (server : Server σ) : ∀ (d : Dialog α) (n : Network σ),
    (d.map f).hold server.answer n
      = (f (d.hold server.answer n).1, (d.hold server.answer n).2)
  | .done _, _ => rfl
  | .ask r next, n => hold_map f server (next (server.answer r n).1) (server.answer r n).2

/-- **The responses to a dialog**, in the order in which they arrive; there is none without a
connection. -/
def Dialog.responses (server : Server σ) : Dialog α → Network σ → List Response
  | .done _, _ => []
  | .ask r next, n =>
    (server.answer r n).1.toOption.toList
      ++ (next (server.answer r n).1).responses server (server.answer r n).2

theorem Dialog.responses_map (f : α → β) (server : Server σ) : ∀ (d : Dialog α) (n : Network σ),
    (d.map f).responses server n = d.responses server n
  | .done _, _ => rfl
  | .ask r next, n => by
      rw [map, responses, responses, responses_map f server]

/-! ## The verdict of the last response -/

/-- **What comes of a fetch**, told by the last response to it, if there was one. -/
inductive Verdict : Option Response → Except Fault Response → Prop
  /-- Nothing answered. -/
  | unanswered {f : Fault} : Verdict none (.error f)
  /-- The last response led elsewhere, and nothing answered from there. -/
  | astray {r : Response} {f : Fault} :
      isRedirect r.status = true → Verdict (some r) (.error f)
  /-- The last response blamed the client or the server. -/
  | blamed {r : Response} : isRedirect r.status = false → isFailure r.status = true →
      Verdict (some r) (.error (.status r.status))
  /-- The last response was taken for what was asked for. -/
  | taken {r : Response} : isTaken r.status = true → Verdict (some r) (.ok r)

/-- A response that led elsewhere leaves the verdict to those behind it. -/
theorem Verdict.after {last? : Option Response} {outcome : Except Fault Response}
    (h : Verdict last? outcome) {r : Response} (hr : isRedirect r.status = true) :
    Verdict (some (last?.getD r)) outcome := by
  cases h with
  | unanswered => exact .astray hr
  | astray hlast => exact .astray hlast
  | blamed hplain hfailure => exact .blamed hplain hfailure
  | taken htaken => exact .taken htaken

/-- Whatever a dialog is held with, its last response decides. -/
def Dialog.Decided (server : Server σ) (d : Dialog (Except Fault Response)) : Prop :=
  ∀ n, Verdict (d.responses server n).getLast? (d.hold server.answer n).1

/-- A dialog that ends in a fault at once. -/
theorem Dialog.Decided.done (server : Server σ) (f : Fault) : (Dialog.done (.error f)).Decided server :=
  fun _ => .unanswered

/-- **One request** — its response decides, unless it leads elsewhere. -/
theorem decided_followWith {server : Server σ}
    {next? : Option (Uri → Dialog (Except Fault Response))}
    (hnext : ∀ next ∈ next?, ∀ target, (next target).Decided server) (u : Uri) :
    (followWith next? u).Decided server := by
  rw [followWith]
  cases hr : Request.ofUri u with
  | error f => exact .done server f
  | ok r =>
    intro n
    rw [Dialog.responses, Dialog.hold_ask]
    rcases hanswer : server.answer r n with ⟨reason | response, n'⟩
    · exact .unanswered
    -- the response stands in front of those to what follows upon it
    simp only [Except.toOption, Option.toList_some, List.singleton_append, List.getLast?_cons]
    by_cases hredirect : isRedirect response.status = true
    · rw [if_pos hredirect]
      refine Verdict.after ?_ hredirect
      rcases next? with _ | next
      · exact .unanswered
      rcases response.location? with _ | location
      · exact .unanswered
      cases htarget : u.redirected location with
      | error f =>
        simp only [htarget]
        exact .unanswered
      | ok target =>
        simp only [htarget]
        exact hnext next rfl target n'
    · rw [if_neg hredirect]
      rw [Bool.not_eq_true] at hredirect
      by_cases hfailure : isFailure response.status = true
      · rw [if_pos hfailure]
        exact .blamed hredirect hfailure
      · rw [if_neg hfailure]
        rw [Bool.not_eq_true] at hfailure
        have htaken : isTaken response.status = true := by rw [isTaken, hredirect, hfailure]; rfl
        exact .taken htaken

/-- **Any number of redirections** — the response at their end decides. -/
theorem decided_follow (server : Server σ) : ∀ (redirects : Nat) (u : Uri),
    (follow redirects u).Decided server
  | 0, u => decided_followWith (fun _ h => by cases h) u
  | left + 1, u => by
      refine decided_followWith (fun next h target => ?_) u
      cases h
      exact decided_follow server left target

/-! ## What is fetched -/

/-- **A fetch is decided by the last response to it**, whose body must keep to the limit. -/
theorem fetcher_decided (server : Server σ) (limit : Nat) (url : String) (n : Network σ) :
    ∃ outcome, Verdict ((fetch limit url).responses server n).getLast? outcome ∧
      (fetcher server limit url n).1
        = (outcome.bind (·.content limit)).mapError (Fault.downloadError url) := by
  rw [fetcher, fetch]
  cases Uri.ofText url with
  | error f => exact ⟨.error (.badUri f), .unanswered, rfl⟩
  | ok u =>
    simp only [Dialog.responses_map]
    exact ⟨_, decided_follow server redirectLimit u n, congrArg Prod.fst (Dialog.hold_map ..)⟩

/-- The content of a response is what arrives of its body. -/
theorem Response.eq_arriving_of_content {r : Response} {limit : Nat} {bytes : List UInt8}
    (h : r.content limit = .ok bytes) : bytes = r.arriving := by
  simp only [Response.content] at h
  split at h
  · cases h
  split at h
  · cases h
  · cases h
    rfl

/-- **What is fetched** is what arrives of the body of the last response, whose status was taken. -/
theorem last_of_fetcher_ok {server : Server σ} {limit : Nat} {url : String} {n n' : Network σ}
    {bytes : List UInt8} (h : fetcher server limit url n = (.ok bytes, n')) :
    ∃ r, ((fetch limit url).responses server n).getLast? = some r ∧ isTaken r.status = true ∧
      bytes = r.arriving := by
  obtain ⟨outcome, hverdict, hresult⟩ := fetcher_decided server limit url n
  rw [h] at hresult
  generalize ((fetch limit url).responses server n).getLast? = last? at hverdict ⊢
  cases hverdict with
  | unanswered => cases hresult
  | astray => cases hresult
  | blamed => cases hresult
  | @taken r htaken =>
    refine ⟨r, rfl, htaken, ?_⟩
    simp only [Except.bind] at hresult
    cases hcontent : r.content limit with
    | error f => rw [hcontent] at hresult; cases hresult
    | ok content =>
      rw [hcontent] at hresult
      cases hresult
      exact Response.eq_arriving_of_content hcontent

/-- **A last response that is not taken** makes the fetch fail; the status that blames is told. -/
theorem fetcher_error_of_last {server : Server σ} {limit : Nat} {url : String} {n : Network σ}
    {r : Response} (hlast : ((fetch limit url).responses server n).getLast? = some r)
    (htaken : isTaken r.status = false) :
    ∃ f, (fetcher server limit url n).1 = .error (Fault.downloadError url f) ∧
      (isFailure r.status = true → f = .status r.status) := by
  obtain ⟨outcome, hverdict, hresult⟩ := fetcher_decided server limit url n
  rw [hlast] at hverdict
  cases hverdict with
  | @astray _ f hredirect =>
    refine ⟨f, hresult, fun hfailure => ?_⟩
    have hbounds := bounds_of_isRedirect hredirect
    simp only [isFailure, Bool.and_eq_true, decide_eq_true_eq] at hfailure
    omega
  | blamed => exact ⟨_, hresult, fun _ => rfl⟩
  | taken h => rw [h] at htaken; cases htaken

end PinnedManifest.Http
