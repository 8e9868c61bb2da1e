import Mathlib.Control.Monad.Basic
import PinnedManifest.Proofs.Http.Responses

/-!
# Proofs/Http/BodyLimit — which complete bodies are fetched

Of a last response that tells of success the whole body is fetched, byte for byte, when it stays below
the limit; a body that reaches the limit is refused, and with it one of just that length
(`full_body_refused`).  So the limit keeps out what exceeds it, and one length more
(`body_kept_below_limit`).
-/

namespace PinnedManifest.Http

variable {σ : Type} {server : Server σ} {limit : Nat} {url : String} {n : Network σ} {r : Response}

/-- All of a body arrives that was announced, or there is none. -/
def Response.Complete (r : Response) : Prop :=
  isBodiless r.status = true ∨ r.announced?.getD 0 ≤ r.arriving.length

/-- **A complete body** is refused for its length alone. -/
theorem Response.Complete.content_eq (h : r.Complete) (limit : Nat) :
    r.content limit
      = if limit ≤ r.arriving.length then .error (.tooLarge limit) else .ok r.arriving := by
  simp only [content]
  split
  · rfl
  · refine if_neg ?_
    rintro ⟨hstatus, hless⟩
    rcases h with hnone | harrive
    · rw [hnone] at hstatus
      cases hstatus
    · exact absurd harrive (Nat.not_le.mpr hless)

/-- **A last response that is taken** leaves the fetch to its body. -/
theorem fetcher_of_last_taken (hlast : ((fetch limit url).responses server n).getLast? = some r)
    (htaken : isTaken r.status = true) :
    (fetcher server limit url n).1 = (r.content limit).mapError (Fault.downloadError url) := by
  obtain ⟨outcome, hverdict, hresult⟩ := fetcher_decided server limit url n
  rw [hlast] at hverdict
  rw [isTaken, Bool.and_eq_true, Bool.not_eq_true', Bool.not_eq_true'] at htaken
  cases hverdict with
  | astray hredirect => rw [htaken.1] at hredirect; cases hredirect
  | blamed _ hfailure => rw [htaken.2] at hfailure; cases hfailure
  | taken => exact hresult

/-- **A complete body is fetched exactly when it stays below the limit** — and so the rule that refuses
those which exceed it, and no others, holds of every body but one of just that length. -/
theorem body_kept_below_limit (hlast : ((fetch limit url).responses server n).getLast? = some r)
    (hsuccess : 200 ≤ r.status ∧ r.status ≤ 299) (hcomplete : r.Complete) :
    (r.arriving.length < limit → (fetcher server limit url n).1 = .ok r.arriving) ∧
    (limit ≤ r.arriving.length → (fetcher server limit url n).1 = .error
      (.failed url ("the response body is larger than request limit: " ++ toString limit))) ∧
    ((r.arriving.length ≤ limit → (fetcher server limit url n).1 = .ok r.arriving) ∧
        (limit < r.arriving.length →
          ∃ reason, (fetcher server limit url n).1 = .error (.failed url reason)) ↔
      r.arriving.length ≠ limit) := by
  have htaken : isTaken r.status = true := isTaken_iff.mpr (.inl (by simpa [isSuccess] using hsuccess))
  have hfetched := fetcher_of_last_taken hlast htaken
  rw [hcomplete.content_eq] at hfetched
  have hbelow (h : r.arriving.length < limit) : (fetcher server limit url n).1 = .ok r.arriving := by
    rw [hfetched, if_neg (Nat.not_le.mpr h)]
    rfl
  have hreached (h : limit ≤ r.arriving.length) : (fetcher server limit url n).1 = .error
      (.failed url ("the response body is larger than request limit: " ++ toString limit)) := by
    rw [hfetched, if_pos h]
    rfl
  refine ⟨hbelow, hreached, ?_, fun hne => ⟨fun h => ?_, fun h => ?_⟩⟩
  · rintro ⟨hkept, -⟩ heq
    cases (hkept (Nat.le_of_eq heq)).symm.trans (hreached (Nat.le_of_eq heq.symm))
  · exact hbelow (Nat.lt_of_le_of_ne h hne)
  · exact ⟨_, hreached (Nat.le_of_lt h)⟩

namespace Sample

/-- One file of three bytes. -/
def threeBytes : Response := ⟨200, none, [1, 2, 3], none⟩

/-- A server that has moved it. -/
def keeping : Server Unit := fun r s =>
  (.ok (if r.target = "/a" then ⟨302, some "/b", [], none⟩ else threeBytes), s)

/-- Whatever the limit, it is what the last response brings. -/
theorem last_keeping (limit : Nat) :
    ((fetch limit "http://h/a").responses keeping ⟨(), []⟩).getLast? = some threeBytes := by
  rw [fetch]
  have hurl : Uri.ofText "http://h/a" = .ok ⟨some "http", some "h", "/a", none⟩ := by decide +kernel
  rw [hurl]
  simp only [Dialog.responses_map]
  decide +kernel

end Sample

/-- Three bytes below a limit of four, and above one of two. -/
theorem body_kept_below_limit_sample :
    (fetcher Sample.keeping 4 "http://h/a" ⟨(), []⟩).1 = .ok [1, 2, 3] ∧
    ∃ reason, (fetcher Sample.keeping 2 "http://h/a" ⟨(), []⟩).1
      = .error (.failed "http://h/a" reason) := by
  have hsuccess : 200 ≤ Sample.threeBytes.status ∧ Sample.threeBytes.status ≤ 299 := by decide
  have hcomplete : Sample.threeBytes.Complete := .inr (by decide)
  obtain ⟨hkept, -⟩ := body_kept_below_limit (Sample.last_keeping 4) hsuccess hcomplete
  obtain ⟨-, hrefused, -⟩ := body_kept_below_limit (Sample.last_keeping 2) hsuccess hcomplete
  exact ⟨hkept (by decide), _, hrefused (by decide)⟩

/-- **A body of just the limit is refused**, although it does not exceed it. -/
theorem full_body_refused :
    ((fetch 3 "http://h/a").responses Sample.keeping ⟨(), []⟩).getLast? = some Sample.threeBytes ∧
      isSuccess Sample.threeBytes.status = true ∧ Sample.threeBytes.Complete ∧
      Sample.threeBytes.arriving.length ≤ 3 ∧
      (fetcher Sample.keeping 3 "http://h/a" ⟨(), []⟩).1 = .error
        (.failed "http://h/a" "the response body is larger than request limit: 3") :=
  ⟨Sample.last_keeping 3, by decide, .inr (by decide), by decide, by decide +kernel⟩

end PinnedManifest.Http
