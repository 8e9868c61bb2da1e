import PinnedManifest.Template.Tag
import PinnedManifest.Text.CharClass
import PinnedManifest.Text.Trim

/-!
# Template/Layout — the text between tags, and how much of it is kept

`scan` divides a source into text and tags, each tag with its place and with what stands around it on
its line.  `arrange` then drops blanks: a mark on a tag takes all white space on that side of it, and
a tag that stands alone on its line takes the line with it, except that a value tag takes nothing.
-/

namespace PinnedManifest.Template

open Json (isBlank skipBlanks)

/-! ## Division into text and tags -/

/-- A place in the source with what stands before it on its line. -/
structure Cursor where
  place : Position
  /-- The blanks just before, last first. -/
  blanks : List Char
  /-- Whether these blanks start a line. -/
  atLineStart : Bool

/-- The start of a source. -/
def Cursor.start : Cursor := ⟨⟨1, 1⟩, [], true⟩

/-- A blank inside a line. -/
def isLineBlank (c : Char) : Bool := c == ' ' || c == '\t'

/-- A character that ends a line. -/
def isLineEnd (c : Char) : Bool := c == '\n' || c == '\r'

/-- The place after one more character. -/
def Cursor.next (at_ : Cursor) (c : Char) : Cursor :=
  let place := if c = '\n' then ⟨at_.place.line + 1, 1⟩
    else ⟨at_.place.line, at_.place.column + 1⟩
  if isLineBlank c then ⟨place, c :: at_.blanks, at_.atLineStart⟩ else ⟨place, [], isLineEnd c⟩

/-- The place after more characters. -/
def Cursor.advance (at_ : Cursor) (cs : List Char) : Cursor := cs.foldl Cursor.next at_

/-- A tag in its source. -/
structure PlacedTag where
  tag : Tag
  place : Position
  /-- The blanks just before it. -/
  indent : String
  /-- Only blanks stand before it on its line. -/
  startsLine : Bool
  /-- Only blanks stand after it on its line, and the line ends. -/
  endsLine : Bool
  /-- Nothing at all stands after it. -/
  endsSource : Bool

/-- A tag at a place, with the text after it. -/
def PlacedTag.between (tag : Tag) (at_ : Cursor) (rest : List Char) : PlacedTag where
  tag := tag
  place := at_.place
  indent := String.ofList at_.blanks.reverse
  startsLine := at_.atLineStart
  endsLine := (rest.dropWhile isLineBlank).head?.any isLineEnd
  endsSource := rest.isEmpty

/-- A tag and the text in front of it. -/
structure Segment where
  text : List Char
  tag : PlacedTag

/-- Whether two opening braces follow a run of backslashes. -/
def escapesBraces (cs : List Char) : Bool :=
  (Json.after? ['{', '{'] (cs.dropWhile (· == '\\'))).isSome

/-- The text up to given braces, without the backslash of each escape, and the rest.  A backslash in
front of two or four braces makes them text; of several in front of braces the first is dropped and
the others, kept as they are, leave the braces a tag. -/
def readText (stop : List Char) : Bool → List Char → List Char × List Char
  | _, [] => ([], [])
  | false, '\\' :: '{' :: '{' :: '{' :: '{' :: rest =>
    let (text, left) := readText stop false rest
    ('{' :: '{' :: '{' :: '{' :: text, left)
  | false, '\\' :: '{' :: '{' :: rest =>
    let (text, left) := readText stop false rest
    ('{' :: '{' :: text, left)
  | keep, c :: rest =>
    if c = '\\' then
      if !keep && rest.head? == some '\\' && escapesBraces rest then readText stop true rest
      else
        let (text, left) := readText stop keep rest
        (c :: text, left)
    else if (Json.after? stop (c :: rest)).isSome then ([], c :: rest)
    else
      let (text, left) := readText stop false rest
      (c :: text, left)

/-- The text in front of the next tag. -/
def readChunk (cs : List Char) : List Char × List Char := readText ['{', '{'] false cs

/-- The text of a raw block, without the blanks at its start, and the closing tag. -/
def readRawBlock (at_ : Cursor) (cs : List Char) : Option (List Segment × Cursor × List Char) := do
  let (opening, rest) ← readRawOpening cs
  let inside := skipBlanks rest
  let (text, left) := readText fourOpen false inside
  let (closing, rest') ← readRawClosing left
  let at₁ := at_.advance (consumed cs inside)
  let at₂ := at₁.advance (consumed inside left)
  return ([⟨[], .between opening at_ rest⟩, ⟨text, .between closing at₂ rest'⟩],
    at₂.advance (consumed left rest'), rest')

/-- The tag, or the tags of the raw block, at the start of a text. -/
def readTags (at_ : Cursor) (cs : List Char) : Option (List Segment × Cursor × List Char) :=
  match readTag cs with
  | some (tag, rest) => some ([⟨[], .between tag at_ rest⟩], at_.advance (consumed cs rest), rest)
  | none => readRawBlock at_ cs

/-- The first segment with a text in front of it. -/
def withText (text : List Char) : List Segment → List Segment
  | [] => []
  | s :: rest => ⟨text ++ s.text, s.tag⟩ :: rest

/-- The segments of a source and the text after the last tag; `none` where braces are no tag.  Each
round takes a tag, so the source is longer than the rounds are many. -/
def scanFrom : Nat → Cursor → List Char → Option (List Segment × List Char)
  | 0, _, _ => none
  | fuel + 1, at_, cs =>
    let (text, rest) := readChunk cs
    if rest.isEmpty then some ([], text)
    else
      let at_ := at_.advance (consumed cs rest)
      (readTags at_ rest).bind fun (segments, at_, rest) =>
        (scanFrom fuel at_ rest).map fun (more, last) => (withText text segments ++ more, last)

/-- The segments of a source and the text after the last tag. -/
def scan (source : List Char) : Option (List Segment × List Char) :=
  scanFrom (source.length + 1) .start source

/-! ## Blanks around tags -/

/-- Whether the blanks after a tag's line count as its own: not for a value. -/
def Form.takesLine : Form → Bool
  | .value _ => false
  | _ => true

/-- Whether a tag has a line to itself; the end of the source ends a line. -/
def PlacedTag.standsAlone (t : PlacedTag) : Bool :=
  t.tag.form.takesLine && t.startsLine && (t.endsLine || t.endsSource)

/-- Whether what a tag leads to starts a line: the tag has one to itself and does not trim it away. -/
def PlacedTag.opensLine (t : PlacedTag) : Bool := t.standsAlone && !t.tag.trimBefore

/-- What the tags before a text ask of it. -/
structure Pending where
  /-- The last tag, comments apart, takes the white space after it. -/
  trim : Bool
  /-- The last tag with a line to itself takes the rest of that line. -/
  trimLine : Bool

/-- A text without one line end at its start. -/
def dropLineEnd : List Char → List Char
  | '\r' :: '\n' :: rest => rest
  | '\n' :: rest => rest
  | cs => cs

/-- A text without the rest of the line it starts in. -/
def dropLineRest (cs : List Char) : List Char := dropLineEnd (cs.dropWhile isLineBlank)

/-- A text after what the tags before it take. -/
def Pending.cutStart (p : Pending) (cs : List Char) : List Char :=
  if p.trim then cs.dropWhile Text.isWhite
  else if p.trimLine then dropLineRest cs
  else cs

/-- A text before what the tag after it takes. -/
def PlacedTag.cutEnd (t : PlacedTag) (cs : List Char) : List Char :=
  let cs := if t.tag.trimBefore then Text.dropEnd Text.isWhite cs else cs
  if t.standsAlone then Text.dropEnd isLineBlank cs else cs

/-- The text that is left of a chunk between tags: nothing of blanks after a mark that trims. -/
def Pending.text (p : Pending) (cs : List Char) : Option (List Char) :=
  if cs.isEmpty || (p.trim && cs.all isBlank) then none else some (p.cutStart cs)

/-- What a tag asks of the text after it; `used` tells that a text stood before it. -/
def Pending.after (p : Pending) (used : Bool) (t : PlacedTag) : Pending where
  trim := match t.tag.form with
    | .comment => p.trim
    | _ => t.tag.trimAfter
  trimLine := if t.tag.form.takesLine then t.standsAlone else p.trimLine && !used

/-- A text or a tag, with all blanks settled. -/
inductive Piece
  | text (content : String)
  | tag (t : PlacedTag)

/-- The pieces of a source. -/
def arrangeFrom (p : Pending) : List Segment → List Char → List Piece
  | [], last =>
    match p.text last with
    | some cs => [.text (String.ofList cs)]
    | none => []
  | ⟨text, tag⟩ :: rest, last =>
    match p.text text with
    | some cs =>
      .text (String.ofList (tag.cutEnd cs)) :: .tag tag :: arrangeFrom (p.after true tag) rest last
    | none => .tag tag :: arrangeFrom (p.after false tag) rest last

/-- The pieces of a source; nothing is pending at its start. -/
def arrange (segments : List Segment) (last : List Char) : List Piece :=
  arrangeFrom ⟨false, false⟩ segments last

end PinnedManifest.Template
