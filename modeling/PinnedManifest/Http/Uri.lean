import PinnedManifest.Text.CharClass

/-!
# Http/Uri — the text of an address

An address is a scheme, an authority, a path and a query, each of which has its own set of characters;
a fragment is cut off and never looked at.  Nothing is decoded and nothing is encoded: a character
outside its set is a fault.
-/

namespace PinnedManifest.Http

/-- Why a text is no address. -/
inductive Uri.Fault
  | tooLong
  | empty
  | character
  | authority
  | form
  | schemeTooLong
  deriving DecidableEq, Repr

/-- The wording of a fault. -/
def Uri.Fault.message : Uri.Fault → String
  | .tooLong => "uri too long"
  | .empty => "empty string"
  | .character => "invalid uri character"
  | .authority => "invalid authority"
  | .form => "invalid format"
  | .schemeTooLong => "scheme too long"

/-- The parts of an address. -/
structure Uri where
  scheme? : Option String
  authority? : Option String
  path : String
  query? : Option String
  deriving DecidableEq, Repr

namespace Uri

/-! ## Characters -/

/-- Characters of a scheme. -/
def schemeChars : List Text.CodeRange :=
  [⟨0x2B, 0x2B⟩, ⟨0x2D, 0x2E⟩, ⟨0x30, 0x39⟩, ⟨0x41, 0x5A⟩, ⟨0x61, 0x7A⟩, ⟨0x7E, 0x7E⟩]

/-- Characters of an authority, without those that have a meaning of their own in it. -/
def authorityChars : List Text.CodeRange :=
  [⟨0x21, 0x21⟩, ⟨0x24, 0x24⟩, ⟨0x26, 0x2E⟩, ⟨0x30, 0x39⟩, ⟨0x3B, 0x3B⟩, ⟨0x3D, 0x3D⟩, ⟨0x41, 0x5A⟩,
    ⟨0x5F, 0x5F⟩, ⟨0x61, 0x7A⟩, ⟨0x7E, 0x7E⟩]

/-- Characters of a path. -/
def pathChars : List Text.CodeRange :=
  [⟨0x21, 0x22⟩, ⟨0x24, 0x3B⟩, ⟨0x3D, 0x3D⟩, ⟨0x40, 0x5F⟩, ⟨0x61, 0x7E⟩, ⟨0x80, 0x10FFFF⟩]

/-- Characters of a query. -/
def queryChars : List Text.CodeRange :=
  [⟨0x21, 0x21⟩, ⟨0x24, 0x3B⟩, ⟨0x3D, 0x3D⟩, ⟨0x3F, 0x7E⟩, ⟨0x80, 0x10FFFF⟩]

/-- Whether a character is in a set. -/
def isIn (set : List Text.CodeRange) (c : Char) : Bool := set.any (·.holds c)

/-! ## Parts -/

/-- The greatest number of bytes in an address. -/
def lengthLimit : Nat := 65534

/-- The greatest number of characters in a scheme. -/
def schemeLimit : Nat := 64

/-- The scheme in front of a text, and what follows its two slashes. -/
def splitScheme? (cs : List Char) : Option (List Char × List Char) :=
  match cs.span (isIn schemeChars) with
  | (name, ':' :: '/' :: '/' :: rest) => some (name, rest)
  | _ => none

/-- A scheme in its usual spelling. -/
def schemeName (name : List Char) : String :=
  let lower := String.ofList (name.map Char.toLower)
  if lower = "http" ∨ lower = "https" then lower else String.ofList name

/-- What has been seen of an authority. -/
structure Marks where
  colons : Nat := 0
  opened : Bool := false
  closed : Bool := false
  percent : Bool := false

/-- The greatest number of colons between brackets. -/
def colonLimit : Nat := 8

/-- One more character of an authority.  What stands before an at sign or between brackets is not
counted with the rest. -/
def Marks.see (m : Marks) (c : Char) : Except Fault Marks :=
  if c = ':' then
    if colonLimit ≤ m.colons then .error .authority else .ok { m with colons := m.colons + 1 }
  else if c = '[' then
    if m.percent || m.opened then .error .authority else .ok { m with opened := true }
  else if c = ']' then
    if !m.opened || m.closed then .error .authority
    else .ok { m with closed := true, colons := 0, percent := false }
  else if c = '@' then .ok { m with colons := 0, percent := false }
  else if c = '%' then .ok { m with percent := true }
  else if isIn authorityChars c then .ok m
  else .error .character

/-- The characters of an authority in turn. -/
def Marks.seeAll (m : Marks) : List Char → Except Fault Marks
  | [] => .ok m
  | c :: rest => (m.see c).bind (seeAll · rest)

/-- Whether characters may stand as an authority. -/
def checkAuthority (cs : List Char) : Except Fault Unit :=
  (Marks.seeAll {} cs).bind fun m =>
    if m.opened != m.closed || 1 < m.colons || cs.getLast? == some '@' || m.percent then
      .error .authority
    else .ok ()

/-- The query in front of a fragment. -/
def readQuery : List Char → Except Fault (List Char)
  | [] => .ok []
  | c :: rest =>
    if c = '#' then .ok []
    else if isIn queryChars c then (readQuery rest).map (c :: ·)
    else .error .character

/-- The path and the query in front of a fragment. -/
def readTarget : List Char → Except Fault (List Char × Option (List Char))
  | [] => .ok ([], none)
  | c :: rest =>
    if c = '#' then .ok ([], none)
    else if c = '?' then (readQuery rest).map fun query => ([], some query)
    else if isIn pathChars c then (readTarget rest).map fun (path, query) => (c :: path, query)
    else .error .character

/-- Whether an authority ends before a character. -/
def endsAuthority (c : Char) : Bool := c == '/' || c == '?' || c == '#'

/-! ## Whole addresses -/

/-- An address with a path and a query put into it. -/
def withTarget (scheme? authority? : Option String) (target : List Char) : Except Fault Uri :=
  (readTarget target).map fun (path, query?) =>
    ⟨scheme?, authority?, String.ofList path, query?.map String.ofList⟩

/-- The address behind a scheme. -/
def ofSchemeAndRest (name rest : List Char) : Except Fault Uri :=
  if schemeLimit < name.length then .error .schemeTooLong
  else
    let (authority, target) := rest.span (!endsAuthority ·)
    (checkAuthority authority).bind fun _ =>
      if authority.isEmpty then .error .form
      else withTarget (some (schemeName name)) (some (String.ofList authority)) target

/-- The address that is an authority alone. -/
def ofAuthority (cs : List Char) : Except Fault Uri :=
  let (authority, rest) := cs.span (!endsAuthority ·)
  (checkAuthority authority).bind fun _ =>
    if rest.isEmpty then .ok ⟨none, some (String.ofList cs), "", none⟩
    else if cs.length = 1 then .error .character
    else .error .form

/-- The address that characters spell. -/
def ofChars (cs : List Char) : Except Fault Uri :=
  match cs with
  | [] => .error .empty
  | ['*'] => .ok ⟨none, none, "*", none⟩
  | '/' :: _ => withTarget none none cs
  | _ =>
    match splitScheme? cs with
    | some (name, rest) => ofSchemeAndRest name rest
    | none => ofAuthority cs

/-- The address that a text spells. -/
def ofText (text : String) : Except Fault Uri :=
  if lengthLimit < text.utf8ByteSize then .error .tooLong else ofChars text.toList

/-- The path as a server is asked for it. -/
def askedPath (u : Uri) : String :=
  if u.path.isEmpty then (if u.scheme?.isSome then "/" else "") else u.path

/-- The path and the query as a server is asked for them. -/
def target (u : Uri) : String :=
  u.askedPath ++ ((u.query?.map ("?" ++ ·)).getD "")

/-- An address as text, without its fragment. -/
def text (u : Uri) : String :=
  ((u.scheme?.map (· ++ "://")).getD "") ++ (u.authority?.getD "") ++ u.target

/-- The address that a redirection from an address leads to. -/
def redirected (u : Uri) (location : String) : Except Fault Uri :=
  match location.toList with
  | '/' :: '/' :: _ => ofText (u.scheme?.getD "" ++ ":" ++ location)
  | '/' :: _ => withTarget u.scheme? u.authority? location.toList
  | _ => ofText location

end Uri

end PinnedManifest.Http
