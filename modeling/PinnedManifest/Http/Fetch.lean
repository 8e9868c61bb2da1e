import PinnedManifest.Download
import PinnedManifest.Http.Uri

/-!
# Http/Fetch — artefacts fetched over a network

A fetch sends a request, follows at most ten redirections, and takes the body of the last response.
A client or server error, a body that reaches the limit and one shorter than announced are faults,
and so is an address that does not say where to connect to.  Every fault blames the address that was
asked for first.
-/

namespace PinnedManifest.Http

/-- What a server is asked for. -/
structure Request where
  scheme : String
  authority : String
  /-- Path and query. -/
  target : String
  deriving DecidableEq, Repr

/-- What a server answers. -/
structure Response where
  status : Nat
  location? : Option String := none
  body : List UInt8 := []
  /-- The length announced in front of the body, where it is not the true one. -/
  announced? : Option Nat := none
  deriving DecidableEq, Repr

/-- A response, or the reason why no connection was made. -/
abbrev Reply := Except String Response

/-- What is left of a fetch: its outcome, or a request with what follows upon each reply. -/
inductive Dialog (α : Type)
  | done (outcome : α)
  | ask (request : Request) (next : Reply → Dialog α)

namespace Dialog

variable {α β : Type}

/-- A dialog with another outcome. -/
def map (f : α → β) : Dialog α → Dialog β
  | .done a => .done (f a)
  | .ask r next => .ask r fun reply => (next reply).map f

/-- A dialog held with what answers requests. -/
def hold {m : Type → Type} [Monad m] (answer : Request → m Reply) : Dialog α → m α
  | .done a => return a
  | .ask r next => do
    let reply ← answer r
    (next reply).hold answer

end Dialog

/-- Why nothing was fetched. -/
inductive Fault
  | badUri (f : Uri.Fault)
  /-- The address does not say where to connect to. -/
  | incomplete (u : Uri)
  /-- The address has a scheme under which nothing is served. -/
  | unknownScheme (scheme : String)
  | link (reason : String)
  | tooManyRedirects
  | noLocation
  | status (code : Nat)
  | tooLarge (limit : Nat)
  | disconnected
  deriving DecidableEq, Repr

namespace Fault

/-- The wording of a fault. -/
def message : Fault → String
  | .badUri f => "http: " ++ f.message
  | .incomplete u =>
    "bad uri: " ++ u.text ++ (if u.scheme?.isNone then " is missing scheme" else " is missing host")
  | .unknownScheme scheme => "bad uri: unknown scheme: " ++ scheme
  | .link reason => "io: " ++ reason
  | .tooManyRedirects => "too many redirects"
  | .noLocation => "protocol: missing a location header"
  | .status code => "http status: " ++ toString code
  | .tooLarge limit => "the response body is larger than request limit: " ++ toString limit
  | .disconnected => "io: Peer disconnected"

/-- A fault as the failure of a download. -/
def downloadError (url : String) : Fault → DownloadError
  | .status 404 => .notFound url
  | f => .failed url f.message

end Fault

/-- How many redirections one fetch follows. -/
def redirectLimit : Nat := 10

/-- Whether a status leads elsewhere. -/
def isRedirect (status : Nat) : Bool := [301, 302, 303, 307, 308].contains status

/-- Whether a status blames the client or the server. -/
def isFailure (status : Nat) : Bool := 400 ≤ status && status ≤ 599

/-- Whether a response of a status ends with its head: one on the way, one that says there is no content,
and one that says nothing was modified. -/
def isBodiless (status : Nat) : Bool :=
  (100 ≤ status && status ≤ 199) || status == 204 || status == 304

/-- The schemes that are served. -/
def servedSchemes : List String := ["http", "https", "socks", "socks4", "socks4a", "socks5"]

/-- Whether something is served under a scheme, in either case. -/
def isServed (scheme : String) : Bool :=
  servedSchemes.contains (String.ofList (scheme.toList.map Char.toLower))

/-- The request for an address. -/
def Request.ofUri (u : Uri) : Except Fault Request :=
  match u.scheme?, u.authority? with
  | none, _ => .error (.incomplete u)
  | some scheme, authority? =>
    if !isServed scheme then .error (.unknownScheme scheme)
    else
      match authority? with
      | some authority => .ok ⟨scheme, authority, u.target⟩
      | none => .error (.incomplete u)

/-- A request and what follows upon its reply.  Where another redirection may be followed, `next?` is
what goes on from there. -/
def followWith (next? : Option (Uri → Dialog (Except Fault Response))) (u : Uri) :
    Dialog (Except Fault Response) :=
  match Request.ofUri u with
  | .error f => .done (.error f)
  | .ok request =>
    .ask request fun
      | .error reason => .done (.error (.link reason))
      | .ok response =>
        if isRedirect response.status then
          match next?, response.location? with
          | none, _ => .done (.error .tooManyRedirects)
          | some _, none => .done (.error .noLocation)
          | some next, some location =>
            match u.redirected location with
            | .error f => .done (.error (.badUri f))
            | .ok target => next target
        else if isFailure response.status then .done (.error (.status response.status))
        else .done (.ok response)

/-- The response at the end of at most so many redirections. -/
def follow : Nat → Uri → Dialog (Except Fault Response)
  | 0, u => followWith none u
  | left + 1, u => followWith (some fun target => follow left target) u

/-- The bytes that arrive of a body: none with a status that has no body, and no more than were
announced. -/
def Response.arriving (r : Response) : List UInt8 :=
  if isBodiless r.status then []
  else
    match r.announced? with
    | some length => r.body.take length
    | none => r.body

/-- The body of a response, which must stay below the limit and be as long as announced; a status that has
no body may announce one. -/
def Response.content (r : Response) (limit : Nat) : Except Fault (List UInt8) :=
  let bytes := r.arriving
  if limit ≤ bytes.length then .error (.tooLarge limit)
  else if isBodiless r.status = false ∧ bytes.length < r.announced?.getD 0 then .error .disconnected
  else .ok bytes

/-- What is fetched from an address. -/
def fetch (limit : Nat) (url : String) : Dialog (Except DownloadError (List UInt8)) :=
  match Uri.ofText url with
  | .error f => .done (.error (Fault.downloadError url (.badUri f)))
  | .ok u =>
    (follow redirectLimit u).map fun result =>
      (result.bind (·.content limit)).mapError (Fault.downloadError url)

/-- The number of bytes at which a body is too large, unless another limit is given. -/
def bodyLimit : Nat := 64 * 1024 * 1024

/-! ## Networks with a state -/

/-- What answers requests, with a state of its own. -/
abbrev Server (σ : Type) := Request → σ → Reply × σ

/-- The state of what answers, and the requests that reached it so far. -/
structure Network (σ : Type) where
  state : σ
  received : List Request

variable {σ : Type}

/-- A request put to a server; without a connection it does not reach it. -/
def Server.answer (server : Server σ) (r : Request) : StateM (Network σ) Reply := fun n =>
  match server r n.state with
  | (.ok response, state) => (.ok response, ⟨state, n.received ++ [r]⟩)
  | (.error reason, state) => (.error reason, ⟨state, n.received⟩)

/-- The fetcher that asks a server. -/
def fetcher (server : Server σ) (limit : Nat) : Fetcher (Network σ) := fun url n =>
  ((fetch limit url).hold server.answer).run n

/-- Servers on a network that cannot be reached. -/
def unreachable : Server σ := fun _ state => (.error "Network is unreachable (os error 101)", state)

end PinnedManifest.Http
