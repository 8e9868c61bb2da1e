/-!
# Text/Terminal — text with and without what steers a terminal

`styled` sets a text off by two control sequences.  `plain` leaves out control characters and every
sequence that an escape opens; tabs and line ends stay.  A sequence ends with its last character, a
message to the terminal at a mark of its own, and either at the next escape: so a sequence that a
text leaves open takes what follows with it, up to where a style begins or ends.
-/

namespace PinnedManifest.Text.Terminal

/-- The character that opens a sequence. -/
def escape : Char := '\x1b'

/-- A text that a terminal sets off from the rest. -/
def styled (text : String) : String :=
  String.singleton escape ++ "[1m" ++ text ++ String.singleton escape ++ "[0m"

/-- Where in a sequence a character stands. -/
inductive Place
  | shown
  /-- Right after an escape. -/
  | escaped
  /-- After an escape and a blank or a mark. -/
  | intermediate
  /-- Among the parameters of a control sequence. -/
  | parameters
  /-- In a command to the system, which a bell ends. -/
  | command
  /-- In front of a message to a device. -/
  | header
  /-- In a message. -/
  | message
  deriving DecidableEq, Repr

/-- Blanks that are kept though they are control characters. -/
def isKept (c : Char) : Bool := c == '\t' || c == '\n' || c == '\x0c' || c == '\r'

/-- Whether a character breaks off any sequence. -/
def breaksOff (c : Char) : Bool := c == '\x18' || c == '\x1a'

/-- Whether one of the bytes of a character ends a message. -/
def endsMessage (c : Char) : Bool := (String.utf8EncodeChar c).contains 0x9C

/-- Whether a character is between two others. -/
def isBetween (low high c : Char) : Bool := low ≤ c && c ≤ high

/-- Where the character after a given one stands, inside a sequence. -/
def Place.next (p : Place) (c : Char) : Place :=
  if c = escape then .escaped
  else if breaksOff c then .shown
  else
    match p with
    | .shown => .shown
    | .escaped =>
      if c = '[' then .parameters
      else if c = ']' then .command
      else if c = 'P' then .header
      else if ['X', '^', '_'].contains c then .message
      else if isBetween ' ' '/' c then .intermediate
      else if isBetween '0' '~' c || isKept c then .shown
      else .escaped
    | .intermediate => if isBetween '0' '~' c || isKept c then .shown else .intermediate
    | .parameters => if isBetween '@' '~' c || isKept c then .shown else .parameters
    | .command => if c = '\x07' then .shown else .command
    | .header => if isBetween '@' '~' c then .message else .header
    | .message => if endsMessage c then .shown else .message

/-- Whether a character is shown: outside sequences all but controls, and a kept blank also in
sequences that are no messages. -/
def Place.shows (p : Place) (c : Char) : Bool :=
  match p with
  | .shown => isKept c || (' ' ≤ c && c != '\x7f')
  | .escaped | .intermediate | .parameters => isKept c
  | .command | .header | .message => false

/-- Characters without the sequences among them, from a place on. -/
def strip (p : Place) : List Char → List Char
  | [] => []
  | c :: rest => if p.shows c then c :: strip (p.next c) rest else strip (p.next c) rest

/-- A text without what steers a terminal. -/
def plain (text : String) : String := String.ofList (strip .shown text.toList)

end PinnedManifest.Text.Terminal
