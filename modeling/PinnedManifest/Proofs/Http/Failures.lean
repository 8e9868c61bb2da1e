import Mathlib.Control.Monad.Basic
import PinnedManifest.Proofs.Http.Redirections

/-!
# Proofs/Http/Failures — how a fetch fails, and whom it blames

A fetch fails for one of a few faults (`Fails`): its address is none, it stops behind some redirections,
or the body at their end is too large or cut.  A status of 404 that is reached is told as "not found" and
every other fault by its wording, and both name the address that was asked for first
(`failures_classified`).
-/

namespace PinnedManifest.Http

variable {σ : Type} {server : Server σ} {limit : Nat} {url : String} {n n' : Network σ}

/-! ## Faults and errors -/

/-- The first request for an address. -/
def Request.ofText (url : String) : Except Fault Request :=
  match Uri.ofText url with
  | .ok u => Request.ofUri u
  | .error f => .error (.badUri f)

/-- **Only a status of 404** is told as "not found". -/
theorem Fault.downloadError_of_ne {f : Fault} (h : f ≠ .status 404) (url : String) :
    f.downloadError url = .failed url f.message := by
  rw [downloadError.eq_def]
  split
  · exact absurd rfl h
  · rfl

theorem Fault.downloadError_eq_notFound_iff {f : Fault} {url url' : String} :
    f.downloadError url = .notFound url' ↔ f = .status 404 ∧ url = url' := by
  by_cases h : f = .status 404
  · subst h
    simp [downloadError]
  · simp [downloadError_of_ne h, h]

/-- Whatever the fault, the address is the one asked for first. -/
theorem Fault.url_downloadError (f : Fault) (url : String) : (f.downloadError url).url = url := by
  by_cases h : f = .status 404
  · rw [h]
    rfl
  · rw [downloadError_of_ne h]
    rfl

/-! ## The content of a response -/

/-- **What is wrong with a body**: it reaches the limit, or less arrives than was announced. -/
theorem Response.content_eq_error_iff {r : Response} {f : Fault} :
    r.content limit = .error f ↔
      limit ≤ r.arriving.length ∧ f = .tooLarge limit ∨
        r.arriving.length < limit ∧ isBodiless r.status = false ∧
          r.arriving.length < r.announced?.getD 0 ∧ f = .disconnected := by
  simp only [content]
  by_cases hlarge : limit ≤ r.arriving.length
  · rw [if_pos hlarge, Except.error.injEq]
    constructor
    · rintro rfl
      exact .inl ⟨hlarge, rfl⟩
    · rintro (⟨-, rfl⟩ | ⟨hless, -⟩)
      · rfl
      · exact absurd hlarge (Nat.not_le.mpr hless)
  · rw [if_neg hlarge]
    by_cases hcut : isBodiless r.status = false ∧ r.arriving.length < r.announced?.getD 0
    · rw [if_pos hcut, Except.error.injEq]
      constructor
      · rintro rfl
        exact .inr ⟨Nat.lt_of_not_le hlarge, hcut.1, hcut.2, rfl⟩
      · rintro (⟨h, -⟩ | ⟨-, -, -, rfl⟩)
        · exact absurd h hlarge
        · rfl
    · rw [if_neg hcut]
      refine iff_of_false (by simp) ?_
      rintro (⟨h, -⟩ | ⟨-, hstatus, hless, -⟩)
      · exact hlarge h
      · exact hcut ⟨hstatus, hless⟩

/-! ## How a fetch fails -/

/-- **The faults of a fetch.** -/
inductive Fails (server : Server σ) (limit : Nat) (url : String) (n : Network σ) : Fault → Prop
  /-- The text is no address. -/
  | malformed {f : Uri.Fault} : Uri.ofText url = .error f → Fails server limit url n (.badUri f)
  /-- Behind some redirections there is nothing to be had. -/
  | stopped {u v : Uri} {k left : Nat} {m n' : Network σ} {f : Fault} :
      Uri.ofText url = .ok u → k + left = redirectLimit → Reaches server k u n v m →
      Stops server v m left (.error f) n' → Fails server limit url n f
  /-- The body at the end reaches the limit. -/
  | tooLarge {u v : Uri} {k left : Nat} {m n' : Network σ} {r : Response} :
      Uri.ofText url = .ok u → k + left = redirectLimit → Reaches server k u n v m →
      Stops server v m left (.ok r) n' → limit ≤ r.arriving.length →
      Fails server limit url n (.tooLarge limit)
  /-- Less of the body arrives than was announced. -/
  | cut {u v : Uri} {k left : Nat} {m n' : Network σ} {r : Response} :
      Uri.ofText url = .ok u → k + left = redirectLimit → Reaches server k u n v m →
      Stops server v m left (.ok r) n' → r.arriving.length < limit → isBodiless r.status = false →
      r.arriving.length < r.announced?.getD 0 → Fails server limit url n .disconnected

/-- What is fetched from an address, where one can be read. -/
theorem fetcher_of_ofText {u : Uri} (hu : Uri.ofText url = .ok u) {outcome : Except Fault Response}
    (h : (follow redirectLimit u).hold server.answer n = (outcome, n')) :
    fetcher server limit url n
      = ((outcome.bind (·.content limit)).mapError (Fault.downloadError url), n') := by
  rw [fetcher, fetch, hu]
  have hmap := Dialog.hold_map
    (fun result : Except Fault Response =>
      (result.bind (·.content limit)).mapError (Fault.downloadError url)) server
    (follow redirectLimit u) n
  rw [h] at hmap
  exact hmap

/-- Every fault makes the fetch fail. -/
theorem Fails.fetcher_eq {f : Fault} (h : Fails server limit url n f) :
    (fetcher server limit url n).1 = .error (f.downloadError url) := by
  cases h with
  | malformed hu =>
    rw [fetcher, fetch, hu]
    rfl
  | @stopped u v k left m n' _ hu hsum hreaches hstops =>
    rw [fetcher_of_ofText hu (hold_follow_iff.mpr ⟨k, left, v, m, hsum, hreaches, hstops⟩)]
    rfl
  | @tooLarge u v k left m n' r hu hsum hreaches hstops hlarge =>
    have hcontent : r.content limit = .error (.tooLarge limit) :=
      Response.content_eq_error_iff.mpr (.inl ⟨hlarge, rfl⟩)
    rw [fetcher_of_ofText hu (hold_follow_iff.mpr ⟨k, left, v, m, hsum, hreaches, hstops⟩),
      Except.bind, hcontent]
    rfl
  | @cut u v k left m n' r hu hsum hreaches hstops hsmall hstatus hcut =>
    have hcontent : r.content limit = .error .disconnected :=
      Response.content_eq_error_iff.mpr (.inr ⟨hsmall, hstatus, hcut, rfl⟩)
    rw [fetcher_of_ofText hu (hold_follow_iff.mpr ⟨k, left, v, m, hsum, hreaches, hstops⟩),
      Except.bind, hcontent]
    rfl

/-- A fetch succeeds, or there is a fault. -/
theorem fetcher_ok_or_fails (server : Server σ) (limit : Nat) (url : String) (n : Network σ) :
    (∃ bytes, (fetcher server limit url n).1 = .ok bytes) ∨ ∃ f, Fails server limit url n f := by
  rcases hu : Uri.ofText url with f | u
  · exact .inr ⟨_, .malformed hu⟩
  obtain ⟨k, left, v, m, outcome, n', hsum, hreaches, hstops⟩ :=
    exists_reaches_stops server redirectLimit u n
  rcases outcome with f | r
  · exact .inr ⟨f, .stopped hu hsum hreaches hstops⟩
  rcases hcontent : r.content limit with f | bytes
  · rcases Response.content_eq_error_iff.mp hcontent with ⟨hlarge, -⟩ | ⟨hsmall, hstatus, hcut, -⟩
    · exact .inr ⟨_, .tooLarge hu hsum hreaches hstops hlarge⟩
    · exact .inr ⟨_, .cut hu hsum hreaches hstops hsmall hstatus hcut⟩
  · refine .inl ⟨bytes, ?_⟩
    rw [fetcher_of_ofText hu (hold_follow_iff.mpr ⟨k, left, v, m, hsum, hreaches, hstops⟩),
      Except.bind, hcontent]
    rfl

/-- **A fetch fails for its fault**, and without one it does not fail. -/
theorem fetcher_eq_error_iff {e : DownloadError} :
    (fetcher server limit url n).1 = .error e ↔
      ∃ f, Fails server limit url n f ∧ e = f.downloadError url := by
  constructor
  · intro h
    rcases fetcher_ok_or_fails server limit url n with ⟨bytes, hok⟩ | ⟨f, hfails⟩
    · cases h.symm.trans hok
    · cases h.symm.trans hfails.fetcher_eq
      exact ⟨f, hfails, rfl⟩
  · rintro ⟨f, hfails, rfl⟩
    exact hfails.fetcher_eq

/-! ## Statuses that blame -/

/-- An address that cannot be asked for has no status. -/
theorem Request.ofUri_ne_status {u : Uri} {code : Nat} : Request.ofUri u ≠ .error (.status code) := by
  intro h
  rw [ofUri] at h
  split at h
  · cases h
  split at h
  · cases h
  split at h <;> cases h

/-- A response that meets a fetch behind so many redirections. -/
def Meets (server : Server σ) (url : String) (n : Network σ) (k : Nat) (r : Response) : Prop :=
  ∃ u v m n', Uri.ofText url = .ok u ∧ Reaches server k u n v m ∧ Answered server v m r n'

/-- **A status that blames is the fault** exactly when it is met within the redirections that are
followed. -/
theorem fails_status_iff {code : Nat} (hcode : isFailure code = true) :
    Fails server limit url n (.status code) ↔
      ∃ k ≤ redirectLimit, ∃ r, Meets server url n k r ∧ r.status = code := by
  constructor
  · intro h
    generalize hf : Fault.status code = f at h
    cases h with
    | malformed => cases hf
    | @stopped u v k left m n' _ hu hsum hreaches hstops =>
      have hk : k ≤ redirectLimit := by omega
      cases hstops with
      | unasked hr => exact absurd (hf ▸ hr) Request.ofUri_ne_status
      | blamed hanswer _ =>
        cases hf
        exact ⟨k, hk, _, ⟨u, v, m, n', hu, hreaches, hanswer⟩, rfl⟩
      | _ => cases hf
    | tooLarge => cases hf
    | cut => cases hf
  · rintro ⟨k, hk, r, ⟨u, v, m, n', hu, hreaches, hanswer⟩, rfl⟩
    exact .stopped hu (Nat.add_sub_cancel' hk) hreaches (.blamed hanswer hcode)

/-! ## Addresses that cannot be asked for -/

/-- **Without a first request there is none**, and the network is left alone. -/
theorem fetcher_of_request_error {f : Fault} (h : Request.ofText url = .error f) :
    fetcher server limit url n = (.error (.failed url f.message), n) ∧
      (fetch limit url).requests server n = [] := by
  have hne : f ≠ .status 404 := by
    rintro rfl
    rw [Request.ofText] at h
    split at h
    · exact Request.ofUri_ne_status h
    · cases h
  rw [← Fault.downloadError_of_ne hne, fetcher, fetch]
  rw [Request.ofText] at h
  rcases hu : Uri.ofText url with g | u
  · rw [hu] at h
    cases h
    exact ⟨rfl, rfl⟩
  · rw [hu] at h
    simp only at h ⊢
    rw [follow_eq, followWith, h]
    exact ⟨rfl, rfl⟩

/-- A fetch follows ten redirections at most, and so asks eleven times at most. -/
theorem asksAtMost_fetch (limit : Nat) (url : String) (server : Server σ) (n : Network σ) :
    ((fetch limit url).requests server n).length ≤ redirectLimit + 1 := by
  rw [fetch]
  cases Uri.ofText url with
  | error f => exact Nat.zero_le _
  | ok u =>
    simp only [Dialog.requests_map]
    exact Dialog.length_requests_le (asksAtMost_follow redirectLimit u) n

namespace Sample

/-- Paths that lead to themselves, and one that leads to where nothing is found. -/
def circling : Server Unit := fun r s =>
  (.ok (if r.target = "/gone" then ⟨404, none, [], none⟩
    else ⟨302, some (if r.target = "/moved" then "/gone" else r.target), [], none⟩), s)

end Sample

/-- **Failures are classified** — a fetch asks eleven times at most and then has an outcome.

* It is not found exactly when, within ten redirections, it meets a response with status 404.
* It fails exactly when there is a fault, and any fault but that status is told by its wording.
* Every error names the address that was asked for first.
* An address that cannot be asked for fails without a request. -/
theorem failures_classified (server : Server σ) (limit : Nat) (url : String) (n : Network σ) :
    ((fetch limit url).requests server n).length ≤ 11 ∧
    (∃ more, (fetcher server limit url n).2.received = n.received ++ more ∧ more.length ≤ 11) ∧
    ((fetcher server limit url n).1 = .error (.notFound url) ↔
      ∃ k ≤ 10, ∃ r, Meets server url n k r ∧ r.status = 404) ∧
    (∀ e, (fetcher server limit url n).1 = .error e ↔ ∃ f, Fails server limit url n f ∧
      (f = .status 404 ∧ e = .notFound url ∨ f ≠ .status 404 ∧ e = .failed url f.message)) ∧
    (∀ e, (fetcher server limit url n).1 = .error e → e.url = url) ∧
    ∀ f, Request.ofText url = .error f →
      fetcher server limit url n = (.error (.failed url f.message), n) ∧
        (fetch limit url).requests server n = [] := by
  have hasks := asksAtMost_fetch limit url server n
  refine ⟨hasks, ?received, ?notFound, fun e => ?error, fun e he => ?url,
    fun f hf => fetcher_of_request_error hf⟩
  case received =>
    obtain ⟨more, hmore, hsub⟩ := Dialog.received_hold server (fetch limit url) n
    exact ⟨more, hmore, Nat.le_trans hsub.length_le hasks⟩
  case notFound =>
    have hmeets : Fails server limit url n (.status 404) ↔
        ∃ k ≤ 10, ∃ r, Meets server url n k r ∧ r.status = 404 := fails_status_iff (by decide)
    rw [← hmeets, fetcher_eq_error_iff]
    constructor
    · rintro ⟨f, hfails, hf⟩
      rwa [(Fault.downloadError_eq_notFound_iff.mp hf.symm).1] at hfails
    · intro hfails
      exact ⟨_, hfails, rfl⟩
  case error =>
    rw [fetcher_eq_error_iff]
    refine exists_congr fun f => and_congr_right fun _ => ?_
    by_cases hf : f = .status 404
    · simp [hf, Fault.downloadError]
    · simp [hf, Fault.downloadError_of_ne hf]
  case url =>
    obtain ⟨f, -, rfl⟩ := fetcher_eq_error_iff.mp he
    exact Fault.url_downloadError f url

/-- A path that leads to itself, one that leads to nothing, and what is no address. -/
theorem failures_classified_sample :
    ((fetch 100 "http://h/a").requests Sample.circling ⟨(), []⟩).length = 11 ∧
    (fetcher Sample.circling 100 "http://h/a" ⟨(), []⟩).1
      = .error (.failed "http://h/a" "too many redirects") ∧
    (¬∃ k ≤ 10, ∃ r, Meets Sample.circling "http://h/a" ⟨(), []⟩ k r ∧ r.status = 404) ∧
    (∃ k ≤ 10, ∃ r, Meets Sample.circling "http://h/moved" ⟨(), []⟩ k r ∧ r.status = 404) ∧
    fetcher Sample.circling 100 "h/a" ⟨(), []⟩
      = (.error (.failed "h/a" "http: invalid format"), ⟨(), []⟩) := by
  have hcircle : (fetcher Sample.circling 100 "http://h/a" ⟨(), []⟩).1
      = .error (.failed "http://h/a" "too many redirects") := by decide +kernel
  have hgone : (fetcher Sample.circling 100 "http://h/moved" ⟨(), []⟩).1
      = .error (.notFound "http://h/moved") := by decide +kernel
  obtain ⟨-, -, hnever, -⟩ := failures_classified Sample.circling 100 "http://h/a" ⟨(), []⟩
  obtain ⟨-, -, hfound, -⟩ := failures_classified Sample.circling 100 "http://h/moved" ⟨(), []⟩
  obtain ⟨-, -, -, -, -, hinvalid⟩ := failures_classified Sample.circling 100 "h/a" ⟨(), []⟩
  refine ⟨by decide +kernel, hcircle, fun h => ?_, hfound.mp hgone, ?_⟩
  · cases hcircle.symm.trans (hnever.mpr h)
  · exact (hinvalid (.badUri .form) (by decide +kernel)).1

end PinnedManifest.Http
