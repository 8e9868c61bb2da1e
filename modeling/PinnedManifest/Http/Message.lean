import PinnedManifest.Http.Fetch
import PinnedManifest.Text.Hex
import PinnedManifest.Text.Split
import PinnedManifest.Text.Trim

/-!
# Http/Message — requests and responses as bytes

A request is a few lines of text.  A response is a head, an empty line and a body, which is either
everything that follows or a row of chunks, each with its length in front.
-/

namespace PinnedManifest.Http

/-- The part of an authority that names a server: what follows the user's name. -/
def Request.server (r : Request) : String :=
  match (Text.split '@' r.authority.toList).getLast? with
  | some cs => String.ofList cs
  | none => r.authority

/-- The lines of a request. -/
def Request.text (r : Request) : String :=
  "GET " ++ r.target ++ " HTTP/1.1\r\nHost: " ++ r.server
    ++ "\r\nAccept: */*\r\nConnection: close\r\n\r\n"

/-- The bytes before the first occurrence of a mark, and those after it. -/
def splitAtMark? (mark : List UInt8) : List UInt8 → Option (List UInt8 × List UInt8)
  | [] => none
  | b :: rest =>
    if mark.isPrefixOf (b :: rest) then some ([], (b :: rest).drop mark.length)
    else (splitAtMark? mark rest).map fun (before, after) => (b :: before, after)

/-- The end of a line. -/
def lineEnd : List UInt8 := [0x0D, 0x0A]

/-- The characters of bytes, one for each. -/
def chars (bytes : List UInt8) : List Char := bytes.map fun b => Char.ofNat b.toNat

/-- The status in the first line of a head. -/
def readStatus? (line : List Char) : Option Nat :=
  match Text.split ' ' line with
  | _ :: code :: _ =>
    if code.length = 3 ∧ code.all Char.isDigit then (String.ofList code).toNat? else none
  | _ => none

/-- A field of a head: its name in lower case, and its value. -/
def readField? (line : List Char) : Option (String × String) :=
  match line.span (· != ':') with
  | (name, _ :: value) =>
    some (String.ofList (name.map Char.toLower),
      String.ofList (Text.dropEnds Char.isWhitespace value))
  | _ => none

/-- The bytes of a row of chunks, and whether the row is complete.  Each round takes a chunk. -/
def readChunks : Nat → List UInt8 → List UInt8 × Bool
  | 0, _ => ([], false)
  | fuel + 1, bytes =>
    match splitAtMark? lineEnd bytes with
    | none => ([], false)
    | some (line, rest) =>
      let digits := ((chars line).map Text.Hex.value?).takeWhile (·.isSome)
      let length := digits.foldl (fun n d => 16 * n + d.getD 0) 0
      if length = 0 then ([], !digits.isEmpty)
      else
        let (more, complete) := readChunks fuel (rest.drop (length + lineEnd.length))
        (rest.take length ++ more, complete && length ≤ rest.length)

/-- The response that bytes spell. -/
def Response.ofBytes? (bytes : List UInt8) : Option Response := do
  let (head, rest) ← splitAtMark? (lineEnd ++ lineEnd) bytes
  let lines := (Text.split '\n' (chars head)).map (Text.dropEnd (· == '\r'))
  let status ← readStatus? (← lines.head?)
  let fields := lines.tail.filterMap readField?
  let location? := fields.lookup "location"
  if fields.lookup "transfer-encoding" = some "chunked" then
    let (body, complete) := readChunks rest.length rest
    return ⟨status, location?, body, if complete then none else some (body.length + 1)⟩
  else return ⟨status, location?, rest, (fields.lookup "content-length").bind String.toNat?⟩

end PinnedManifest.Http
