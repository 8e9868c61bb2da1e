import PinnedManifest.Http.Fetch
import PinnedManifest.Proofs.Text.Span

/-!
# Proofs/Http/Address — what a server is asked for at an address

The path of an address ends at the first question mark or number sign, whoever put it there
(`upToMark`): behind the one comes a query, behind the other a fragment, which is not sent.  So a text
that is put into an address as part of its path is part of the path that is asked for exactly when it
has neither (`upToMark_eq_iff`).
-/

namespace PinnedManifest.Http

/-! ## Marks -/

/-- Whether a character ends the path of an address. -/
def endsPath (c : Char) : Bool := c == '?' || c == '#'

/-- A text without a character that ends a path. -/
def Unmarked (text : String) : Prop := ∀ c ∈ text.toList, endsPath c = false

instance (text : String) : Decidable (Unmarked text) :=
  decidable_of_iff (text.toList.all (!endsPath ·) = true) (by simp [Unmarked])

/-- A text up to the first character that ends a path. -/
def upToMark (text : String) : String := String.ofList (text.toList.takeWhile (!endsPath ·))

/-- **Nothing is cut from a text without marks, and something from every other.** -/
theorem upToMark_eq_iff {text : String} : upToMark text = text ↔ Unmarked text := by
  rw [upToMark, ← String.toList_inj, String.toList_ofList, List.takeWhile_eq_self_iff]
  simp [Unmarked]

theorem Unmarked.append {s t : String} (hs : Unmarked s) (ht : Unmarked t) : Unmarked (s ++ t) := by
  intro c hc
  rw [String.toList_append, List.mem_append] at hc
  exact hc.elim (hs c) (ht c)

/-- What is cut from a text lies behind its marks. -/
theorem upToMark_append_of_unmarked {s : String} (hs : Unmarked s) (t : String) :
    upToMark (s ++ t) = s ++ upToMark t := by
  rw [upToMark, String.toList_append, List.takeWhile_append_of_pos (by simpa [Unmarked] using hs),
    String.ofList_append, String.ofList_toList, upToMark]

theorem upToMark_append_of_marked {s : String} (hs : ¬Unmarked s) (t : String) :
    upToMark (s ++ t) = upToMark s := by
  have hkept : s.toList.takeWhile (!endsPath ·) <+: s.toList := List.takeWhile_prefix _
  have hcut : ¬(s.toList.takeWhile (!endsPath ·)).length = s.toList.length := fun hlen =>
    hs (upToMark_eq_iff.mp (by rw [upToMark, hkept.eq_of_length hlen, String.ofList_toList]))
  rw [upToMark, String.toList_append, List.takeWhile_append, if_neg hcut, upToMark]

namespace Uri

/-! ## Reading an address -/

/-- **The path that is read** ends at the first mark, and without marks there is no query. -/
theorem readTarget_eq_ok : ∀ {cs path : List Char} {query? : Option (List Char)},
    readTarget cs = .ok (path, query?) →
      path = cs.takeWhile (!endsPath ·) ∧ ((∀ c ∈ cs, endsPath c = false) → query? = none)
  | [], _, _, h => by
      cases h
      exact ⟨rfl, fun _ => rfl⟩
  | c :: cs, path, query?, h => by
      rw [readTarget] at h
      by_cases hfragment : c = '#'
      · rw [if_pos hfragment] at h
        cases h
        subst hfragment
        exact ⟨rfl, fun _ => rfl⟩
      rw [if_neg hfragment] at h
      by_cases hquery : c = '?'
      · rw [if_pos hquery] at h
        subst hquery
        cases hrest : readQuery cs with
        | error f => rw [hrest] at h; cases h
        | ok query =>
          rw [hrest] at h
          cases h
          exact ⟨rfl, fun hall => absurd (hall '?' List.mem_cons_self) (by decide)⟩
      rw [if_neg hquery] at h
      split at h
      next =>
        cases hrest : readTarget cs with
        | error f => rw [hrest] at h; cases h
        | ok read =>
          obtain ⟨path', query'?⟩ := read
          rw [hrest] at h
          cases h
          obtain ⟨rfl, hnone⟩ := readTarget_eq_ok hrest
          have hc : endsPath c = false := by simp [endsPath, hfragment, hquery]
          refine ⟨?_, fun hall => hnone fun c' hc' => hall c' (List.mem_cons_of_mem _ hc')⟩
          rw [List.takeWhile_cons_of_pos (by rw [hc]; rfl)]
      next => cases h

theorem splitScheme?_http (rest : List Char) :
    splitScheme? ("http://".toList ++ rest) = some ("http".toList, rest) := by
  have hspan : ("http://".toList ++ rest).span (isIn schemeChars)
      = ("http".toList, ':' :: '/' :: '/' :: rest) := by
    refine Text.span_eq_iff.mpr ⟨rfl, List.all_eq_true.mp (by decide), ?_⟩
    rintro b hb
    cases hb
    decide
  simp only [splitScheme?, hspan]

/-- An address behind a scheme, read from its parts. -/
theorem ofChars_http {authority target : List Char} (hne : authority ≠ [])
    (hauthority : ∀ c ∈ authority, endsAuthority c = false)
    (htarget : ∀ c ∈ target.head?, endsAuthority c = true) :
    ofChars ("http://".toList ++ (authority ++ target))
      = (checkAuthority authority).bind fun _ =>
        withTarget (some "http") (some (String.ofList authority)) target := by
  have hspan : (authority ++ target).span (!endsAuthority ·) = (authority, target) :=
    Text.span_eq_iff.mpr ⟨rfl, by simpa using hauthority, by simpa using htarget⟩
  have hchars : ofChars ("http://".toList ++ (authority ++ target)) = ofSchemeAndRest "http".toList
      (authority ++ target) := by
    rw [ofChars, splitScheme?_http]
    -- what begins with a letter is none of the other forms
    all_goals simp
  have hlimit : ¬schemeLimit < "http".toList.length := by decide
  have hname : schemeName "http".toList = "http" := by decide
  rw [hchars]
  simp only [ofSchemeAndRest, if_neg hlimit, hspan, hname, List.isEmpty_eq_false_iff.mpr hne,
    Bool.false_eq_true, if_false]

/-- **An address at a host** — the path is what follows the host, up to the first mark. -/
theorem ofText_http {host path : String} {u : Uri} (hne : host ≠ "")
    (hhost : ∀ c ∈ host.toList, endsAuthority c = false) (hpath : path.toList.head? = some '/')
    (h : ofText ("http://" ++ host ++ path) = .ok u) :
    u.scheme? = some "http" ∧ u.authority? = some host ∧ u.path = upToMark path ∧
      (Unmarked path → u.query? = none) := by
  have hchars : ("http://" ++ host ++ path).toList
      = "http://".toList ++ (host.toList ++ path.toList) := by
    rw [String.toList_append, String.toList_append, List.append_assoc]
  have hauthority : host.toList ≠ [] := fun heq => hne (String.toList_eq_nil_iff.mp heq)
  have htarget : ∀ c ∈ path.toList.head?, endsAuthority c = true := by
    rintro c hc
    rw [hpath] at hc
    cases hc
    decide
  rw [ofText] at h
  split at h
  · cases h
  rw [hchars, ofChars_http hauthority hhost htarget, String.ofList_toList] at h
  cases hcheck : checkAuthority host.toList with
  | error f => rw [hcheck] at h; cases h
  | ok _ =>
    rw [hcheck] at h
    simp only [Except.bind, withTarget] at h
    cases hread : readTarget path.toList with
    | error f => rw [hread] at h; cases h
    | ok read =>
      obtain ⟨cs, query?⟩ := read
      rw [hread] at h
      cases h
      obtain ⟨rfl, hnone⟩ := readTarget_eq_ok hread
      exact ⟨rfl, rfl, rfl, fun hunmarked => by rw [hnone hunmarked]; rfl⟩

end Uri

/-! ## Asking for an address -/

/-- The path that a request asks for: its target without a query. -/
def Request.path (r : Request) : String := String.ofList (r.target.toList.takeWhile (· != '?'))

/-- A path that is not empty is asked for as it is. -/
theorem Uri.target_of_path {u : Uri} (h : u.path ≠ "") :
    u.target = u.path ++ (u.query?.map ("?" ++ ·)).getD "" := by
  have hempty : u.path.isEmpty = false := by simpa using h
  rw [target, askedPath, hempty, if_neg Bool.false_ne_true]

/-- What stands behind a path does not belong to it. -/
theorem Request.path_of_target {r : Request} {path : String} {query? : Option String}
    (hpath : ∀ c ∈ path.toList, endsPath c = false)
    (h : r.target = path ++ (query?.map ("?" ++ ·)).getD "") : r.path = path := by
  have hquery : ∀ c ∈ path.toList, (c != '?') = true := by
    intro c hc
    have hmark := hpath c hc
    simp only [endsPath, Bool.or_eq_false_iff] at hmark
    rw [bne, hmark.1]
    rfl
  rw [Request.path, h, String.toList_append, List.takeWhile_append_of_pos hquery]
  cases query? with
  | none => simp
  | some query => simp

/-- A path that begins with a slash is not cut away. -/
theorem upToMark_ne_empty {path : String} (h : path.toList.head? = some '/') :
    upToMark path ≠ "" := by
  obtain ⟨rest, hrest⟩ := List.head?_eq_some_iff.mp h
  intro hempty
  have hlist := congrArg String.toList hempty
  rw [upToMark, hrest, String.toList_ofList, List.takeWhile_cons_of_pos (by decide)] at hlist
  cases hlist

/-- A request for a path at a host: the path up to its first mark is asked for, and nothing more when
it has none. -/
structure Request.Reaches (r : Request) (host path : String) : Prop where
  authority : r.authority = host
  path_eq : r.path = upToMark path
  target_eq : Unmarked path → r.target = path

/-- **The request for an address at a host** reaches for what follows the host. -/
theorem Request.ofUri_ofText {host path : String} {u : Uri} (hne : host ≠ "")
    (hhost : ∀ c ∈ host.toList, Uri.endsAuthority c = false)
    (hpath : path.toList.head? = some '/') (h : Uri.ofText ("http://" ++ host ++ path) = .ok u) :
    ∃ r, Request.ofUri u = .ok r ∧ r.Reaches host path := by
  obtain ⟨hscheme, hauthority, hupath, hquery⟩ := Uri.ofText_http hne hhost hpath h
  have hserved : isServed "http" = true := by decide
  have htarget := Uri.target_of_path (hupath ▸ upToMark_ne_empty hpath)
  rw [hupath] at htarget
  refine ⟨⟨"http", host, u.target⟩, ?_, rfl, ?_, fun hunmarked => ?_⟩
  · simp [Request.ofUri, hscheme, hauthority, hserved]
  · refine Request.path_of_target (fun c hc => ?_) htarget
    rw [upToMark, String.toList_ofList] at hc
    simpa using List.mem_takeWhile_imp hc
  · rw [hquery hunmarked, upToMark_eq_iff.mpr hunmarked] at htarget
    simpa using htarget

/-- A request that is not answered is the last. -/
theorem follow_of_request {u : Uri} {r : Request} (h : Request.ofUri u = .ok r) :
    ∀ redirects, ∃ next, follow redirects u = .ask r next ∧
      ∀ reason, next (.error reason) = .done (.error (.link reason))
  | 0 => by
      rw [follow, followWith, h]
      exact ⟨_, rfl, fun _ => rfl⟩
  | left + 1 => by
      rw [follow, followWith, h]
      exact ⟨_, rfl, fun _ => rfl⟩

/-- **What is fetched from an address at a host**: nothing, without a request, or what follows upon the
request for the path.  Without a connection that request is the last. -/
theorem fetch_http {host path : String} (limit : Nat) (hne : host ≠ "")
    (hhost : ∀ c ∈ host.toList, Uri.endsAuthority c = false)
    (hpath : path.toList.head? = some '/') :
    (∃ e, fetch limit ("http://" ++ host ++ path) = .done (.error e)) ∨
      ∃ r next, fetch limit ("http://" ++ host ++ path) = .ask r next ∧ r.Reaches host path ∧
        ∀ reason, ∃ e, next (.error reason) = .done (.error e) := by
  rw [fetch]
  cases hu : Uri.ofText ("http://" ++ host ++ path) with
  | error f => exact .inl ⟨_, rfl⟩
  | ok u =>
    obtain ⟨r, hr, hreaches⟩ := Request.ofUri_ofText hne hhost hpath hu
    obtain ⟨next, hfollow, hnext⟩ := follow_of_request hr redirectLimit
    simp only [hfollow, Dialog.map]
    refine .inr ⟨r, _, rfl, hreaches, fun reason => ?_⟩
    rw [hnext]
    exact ⟨_, rfl⟩

end PinnedManifest.Http
