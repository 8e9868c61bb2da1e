import PinnedManifest.Proofs.Http.Responses

/-!
# Proofs/Http/Redirections — where redirections lead, and why they stop

A fetch asks for one address after the other.  `Reaches` says which address so many redirections lead to,
whatever their number, and `Stops` why nothing is asked for behind it.  With a given number of
redirections left, a fetch reaches some address and stops there (`hold_follow_iff`), so it asks at most
once more than it may be redirected (`asksAtMost_follow`).
-/

namespace PinnedManifest.Http

variable {σ α β : Type} {server : Server σ}

/-! ## How often a dialog asks -/

/-- The requests of a dialog in their order, those that are not answered included. -/
def Dialog.requests (server : Server σ) : Dialog α → Network σ → List Request
  | .done _, _ => []
  | .ask r next, n => r :: (next (server.answer r n).1).requests server (server.answer r n).2

/-- A dialog asks at most so many times, whatever it is told. -/
inductive Dialog.AsksAtMost : Nat → Dialog α → Prop
  | done {k : Nat} {a : α} : AsksAtMost k (.done a)
  | ask {k : Nat} {r : Request} {next : Reply → Dialog α} :
      (∀ reply, AsksAtMost k (next reply)) → AsksAtMost (k + 1) (.ask r next)

theorem Dialog.requests_map (f : α → β) (server : Server σ) : ∀ (d : Dialog α) (n : Network σ),
    (d.map f).requests server n = d.requests server n
  | .done _, _ => rfl
  | .ask r next, n => by
      rw [map, requests, requests, requests_map f server]

theorem Dialog.length_requests_le {k : Nat} {d : Dialog α} (h : d.AsksAtMost k) (n : Network σ) :
    (d.requests server n).length ≤ k := by
  induction h generalizing n with
  | done => exact Nat.zero_le _
  | ask _ ih =>
    rw [requests, List.length_cons]
    exact Nat.succ_le_succ (ih _ _)

/-- **What a server receives** are requests of the dialog, in their order. -/
theorem Dialog.received_hold (server : Server σ) : ∀ (d : Dialog α) (n : Network σ),
    ∃ more, (d.hold server.answer n).2.received = n.received ++ more ∧
      more.Sublist (d.requests server n)
  | .done _, n => ⟨[], (List.append_nil _).symm, List.nil_sublist _⟩
  | .ask r next, n => by
      obtain ⟨here, hhere, hsub⟩ : ∃ here, (server.answer r n).2.received = n.received ++ here ∧
          here.Sublist [r] := by
        rw [Server.answer]
        rcases server r n.state with ⟨reason | response, state⟩
        · exact ⟨[], (List.append_nil _).symm, List.nil_sublist _⟩
        · exact ⟨[r], rfl, List.Sublist.refl _⟩
      obtain ⟨more, hmore, hrest⟩ :=
        received_hold server (next (server.answer r n).1) (server.answer r n).2
      refine ⟨here ++ more, ?_, hsub.append hrest⟩
      rw [← List.append_assoc, ← hhere, ← hmore, hold_ask]

/-- **A fetch asks at most once more than it may be redirected.** -/
theorem asksAtMost_followWith {k : Nat} {next? : Option (Uri → Dialog (Except Fault Response))}
    (hnext : ∀ next ∈ next?, ∀ target, (next target).AsksAtMost k) (u : Uri) :
    (followWith next? u).AsksAtMost (k + 1) := by
  rw [followWith]
  cases Request.ofUri u with
  | error f => exact .done
  | ok r =>
    refine .ask fun reply => ?_
    rcases reply with reason | response
    · exact .done
    simp only
    split
    · rcases next? with _ | next
      · exact .done
      rcases response.location? with _ | location
      · exact .done
      simp only
      split
      · exact .done
      · exact hnext next rfl _
    · split <;> exact .done

theorem asksAtMost_follow : ∀ (left : Nat) (u : Uri), (follow left u).AsksAtMost (left + 1)
  | 0, u => asksAtMost_followWith (fun _ h => by cases h) u
  | left + 1, u => by
      refine asksAtMost_followWith (fun next h target => ?_) u
      cases h
      exact asksAtMost_follow left target

/-! ## Where redirections lead -/

/-- An address is asked for, and answered by a response. -/
def Answered (server : Server σ) (u : Uri) (n : Network σ) (response : Response) (n' : Network σ) :
    Prop :=
  ∃ r, Request.ofUri u = .ok r ∧ server.answer r n = (.ok response, n')

/-- A response leads from one address to another. -/
structure Response.Leads (response : Response) (u target : Uri) : Prop where
  redirect : isRedirect response.status = true
  located : ∃ location, response.location? = some location ∧ u.redirected location = .ok target

/-- **So many redirections lead from one address to another**, and the network from one state to
another. -/
inductive Reaches (server : Server σ) : Nat → Uri → Network σ → Uri → Network σ → Prop
  | here {u : Uri} {n : Network σ} : Reaches server 0 u n u n
  | onward {k : Nat} {u target v : Uri} {n n₁ n₂ : Network σ} {response : Response} :
      Answered server u n response n₁ → response.Leads u target →
      Reaches server k target n₁ v n₂ → Reaches server (k + 1) u n v n₂

/-- **Why nothing is asked for behind an address** when so many redirections are left, with what comes of
it. -/
inductive Stops (server : Server σ) (u : Uri) (n : Network σ) :
    Nat → Except Fault Response → Network σ → Prop
  /-- The address does not say where to connect to. -/
  | unasked {left : Nat} {f : Fault} : Request.ofUri u = .error f → Stops server u n left (.error f) n
  /-- Nothing answers. -/
  | unanswered {left : Nat} {r : Request} {reason : String} {n' : Network σ} :
      Request.ofUri u = .ok r → server.answer r n = (.error reason, n') →
      Stops server u n left (.error (.link reason)) n'
  /-- The response leads on, which is once too often. -/
  | tooMany {response : Response} {n' : Network σ} :
      Answered server u n response n' → isRedirect response.status = true →
      Stops server u n 0 (.error .tooManyRedirects) n'
  /-- The response leads on, but does not say where. -/
  | unlocated {left : Nat} {response : Response} {n' : Network σ} :
      Answered server u n response n' → isRedirect response.status = true →
      response.location? = none → Stops server u n (left + 1) (.error .noLocation) n'
  /-- The response leads to what is no address. -/
  | mislocated {left : Nat} {response : Response} {location : String} {f : Uri.Fault}
      {n' : Network σ} :
      Answered server u n response n' → isRedirect response.status = true →
      response.location? = some location → u.redirected location = .error f →
      Stops server u n (left + 1) (.error (.badUri f)) n'
  /-- The response blames the client or the server. -/
  | blamed {left : Nat} {response : Response} {n' : Network σ} :
      Answered server u n response n' → isFailure response.status = true →
      Stops server u n left (.error (.status response.status)) n'
  /-- The response is taken for what was asked for. -/
  | taken {left : Nat} {response : Response} {n' : Network σ} :
      Answered server u n response n' → isTaken response.status = true →
      Stops server u n left (.ok response) n'

/-! ## A fetch reaches an address and stops there -/

/-- What goes on from an address to which a response leads. -/
def next? : Nat → Option (Uri → Dialog (Except Fault Response))
  | 0 => none
  | left + 1 => some (follow left)

theorem follow_eq (u : Uri) : ∀ left, follow left u = followWith (next? left) u
  | 0 => rfl
  | _ + 1 => rfl

/-- A status that blames leads nowhere. -/
theorem isRedirect_of_isFailure {status : Nat} (h : isFailure status = true) :
    isRedirect status = false := by
  rw [Bool.eq_false_iff]
  intro hredirect
  have hbounds := bounds_of_isRedirect hredirect
  simp only [isFailure, Bool.and_eq_true, decide_eq_true_eq] at h
  omega

variable {u target v : Uri} {n n₁ n' : Network σ} {left k : Nat} {response : Response}
  {outcome : Except Fault Response}

/-- **A redirection that is followed** leaves the rest to what it leads to. -/
theorem hold_follow_of_leads (hanswer : Answered server u n response n₁)
    (hleads : response.Leads u target) (left : Nat) :
    (follow (left + 1) u).hold server.answer n = (follow left target).hold server.answer n₁ := by
  obtain ⟨r, hr, hreply⟩ := hanswer
  obtain ⟨hredirect, location, hlocation, htarget⟩ := hleads
  rw [follow, followWith, hr]
  simp only [Dialog.hold_ask, hreply, hredirect, if_true, hlocation, htarget]

/-- **Where a fetch stops**, that is what comes of it. -/
theorem Stops.hold_eq (h : Stops server u n left outcome n') :
    (follow left u).hold server.answer n = (outcome, n') := by
  rw [follow_eq, followWith]
  cases h with
  | unasked hr => rw [hr]; rfl
  | unanswered hr hreply =>
    rw [hr]
    simp only [Dialog.hold_ask, hreply]
    rfl
  | tooMany hanswer hredirect =>
    obtain ⟨r, hr, hreply⟩ := hanswer
    rw [hr]
    simp only [Dialog.hold_ask, hreply, hredirect, if_true, next?]
    rfl
  | unlocated hanswer hredirect hlocation =>
    obtain ⟨r, hr, hreply⟩ := hanswer
    rw [hr]
    simp only [Dialog.hold_ask, hreply, hredirect, if_true, next?, hlocation]
    rfl
  | mislocated hanswer hredirect hlocation htarget =>
    obtain ⟨r, hr, hreply⟩ := hanswer
    rw [hr]
    simp only [Dialog.hold_ask, hreply, hredirect, if_true, next?, hlocation, htarget]
    rfl
  | blamed hanswer hfailure =>
    obtain ⟨r, hr, hreply⟩ := hanswer
    rw [hr]
    simp only [Dialog.hold_ask, hreply, isRedirect_of_isFailure hfailure, hfailure, if_true,
      Bool.false_eq_true, if_false]
    rfl
  | taken hanswer htaken =>
    obtain ⟨r, hr, hreply⟩ := hanswer
    simp only [isTaken, Bool.and_eq_true, Bool.not_eq_true'] at htaken
    rw [hr]
    simp only [Dialog.hold_ask, hreply, htaken.1, htaken.2, Bool.false_eq_true, if_false]
    rfl

/-- **One address** — a fetch stops there, or is led on. -/
theorem stops_or_leads (server : Server σ) (left : Nat) (u : Uri) (n : Network σ) :
    (∃ outcome n', Stops server u n left outcome n') ∨
      ∃ response n₁ target, left ≠ 0 ∧ Answered server u n response n₁ ∧
        response.Leads u target := by
  rcases hr : Request.ofUri u with f | r
  · exact .inl ⟨_, _, .unasked hr⟩
  rcases hreply : server.answer r n with ⟨reason | response, n₁⟩
  · exact .inl ⟨_, _, .unanswered hr hreply⟩
  have hanswer : Answered server u n response n₁ := ⟨r, hr, hreply⟩
  by_cases hredirect : isRedirect response.status = true
  · cases left with
    | zero => exact .inl ⟨_, _, .tooMany hanswer hredirect⟩
    | succ rest =>
      rcases hlocation : response.location? with _ | location
      · exact .inl ⟨_, _, .unlocated hanswer hredirect hlocation⟩
      rcases htarget : u.redirected location with f | target
      · exact .inl ⟨_, _, .mislocated hanswer hredirect hlocation htarget⟩
      · exact .inr ⟨response, n₁, target, Nat.succ_ne_zero rest, hanswer, hredirect, location, hlocation,
          htarget⟩
  · by_cases hfailure : isFailure response.status = true
    · exact .inl ⟨_, _, .blamed hanswer hfailure⟩
    · rw [Bool.not_eq_true] at hredirect hfailure
      exact .inl ⟨_, _, .taken hanswer (by rw [isTaken, hredirect, hfailure]; rfl)⟩

/-- **Redirections that were followed** leave the rest to the address they lead to. -/
theorem Reaches.hold_eq (h : Reaches server k u n v n') (left : Nat) :
    (follow (k + left) u).hold server.answer n = (follow left v).hold server.answer n' := by
  induction h with
  | here => rw [Nat.zero_add]
  | onward hanswer hleads _ ih => rw [Nat.add_right_comm, hold_follow_of_leads hanswer hleads, ih]

/-- Every fetch reaches an address where it stops. -/
theorem exists_reaches_stops (server : Server σ) (redirects : Nat) (u : Uri) (n : Network σ) :
    ∃ k left v m outcome n', k + left = redirects ∧ Reaches server k u n v m ∧
      Stops server v m left outcome n' := by
  induction redirects generalizing u n with
  | zero =>
    rcases stops_or_leads server 0 u n with ⟨outcome, n', hstops⟩ | ⟨_, _, _, hleft, -⟩
    · exact ⟨0, 0, u, n, outcome, n', rfl, .here, hstops⟩
    · exact absurd rfl hleft
  | succ rest ih =>
    rcases stops_or_leads server (rest + 1) u n with
      ⟨outcome, n', hstops⟩ | ⟨response, n₁, target, -, hanswer, hleads⟩
    · exact ⟨0, rest + 1, u, n, outcome, n', Nat.zero_add _, .here, hstops⟩
    · obtain ⟨k, left, v, m, outcome, n', hsum, hreaches, hstops⟩ := ih target n₁
      exact ⟨k + 1, left, v, m, outcome, n', by omega, .onward hanswer hleads hreaches, hstops⟩

/-- **What comes of a fetch** is what it stops with at the address it reaches. -/
theorem hold_follow_iff {redirects : Nat} :
    (follow redirects u).hold server.answer n = (outcome, n') ↔
      ∃ k left v m, k + left = redirects ∧ Reaches server k u n v m ∧
        Stops server v m left outcome n' := by
  constructor
  · intro h
    obtain ⟨k, left, v, m, outcome', n'', hsum, hreaches, hstops⟩ :=
      exists_reaches_stops server redirects u n
    have heq := (hreaches.hold_eq left).trans hstops.hold_eq
    rw [hsum, h] at heq
    cases heq
    exact ⟨k, left, v, m, hsum, hreaches, hstops⟩
  · rintro ⟨k, left, v, m, rfl, hreaches, hstops⟩
    rw [hreaches.hold_eq, hstops.hold_eq]

end PinnedManifest.Http
