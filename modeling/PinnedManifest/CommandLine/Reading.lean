import PinnedManifest.CommandLine.Option

/-!
# CommandLine/Reading — what the arguments of a command say

Arguments are read from the left into uses of options.  A value stands in the same argument, after an
equals sign or directly behind a letter, or in the next one, which then may not look like an option.
Reading ends at an argument that has no place.
-/

namespace PinnedManifest.CommandLine

/-- Whether an option was named in full or by its letter. -/
inductive Spelling
  | full
  | letter
  deriving DecidableEq, Repr

/-- One use of an option. -/
inductive Use
  | switch (s : Switch) (spelling : Spelling)
  /-- With its value in the same argument. -/
  | attached (p : Parameter) (value : String)
  /-- With its value, if there is one, in the next argument. -/
  | separate (p : Parameter) (value : Option String)
  deriving DecidableEq, Repr

/-- An argument that has no place. -/
inductive Misfit
  | unexpected (arg : String)
  /-- A switch with a value. -/
  | surplus (s : Switch) (value : String)
  deriving DecidableEq, Repr

/-- What the arguments say, up to the first one that has no place. -/
structure Reading where
  uses : List Use
  misfit? : Option Misfit
  deriving DecidableEq, Repr

/-- A reading with uses in front. -/
def Reading.after (front : List Use) (r : Reading) : Reading := { r with uses := front ++ r.uses }

/-- What one argument looks like. -/
inductive Shape
  /-- Two dashes: no options follow. -/
  | terminator
  | long (name : String) (value? : Option String)
  | letters (cs : List Char)
  | plain
  deriving DecidableEq, Repr

/-- The text before the first equals sign, and the text after it if there is one. -/
def splitAtEquals (cs : List Char) : String × Option String :=
  match cs.span (· != '=') with
  | (name, []) => (String.ofList name, none)
  | (name, _ :: value) => (String.ofList name, some (String.ofList value))

/-- The shape of an argument.  A lone dash is plain. -/
def shape (arg : String) : Shape :=
  match arg.toList with
  | ['-', '-'] => .terminator
  | '-' :: '-' :: rest =>
    let (name, value?) := splitAtEquals rest
    .long name value?
  | '-' :: c :: rest => .letters (c :: rest)
  | _ => .plain

/-- What is expected after an argument. -/
inductive Outlook
  | anything
  | value (p : Parameter)
  | nothing (m : Misfit)
  deriving DecidableEq, Repr

/-- What an option named in full says. -/
def readLong (name : String) (value? : Option String) : List Use × Outlook :=
  match Opt.ofLong? name, value? with
  | none, _ => ([], .nothing (.unexpected ("--" ++ name)))
  | some (.switch s), none => ([.switch s .full], .anything)
  | some (.switch s), some value => ([], .nothing (.surplus s value))
  | some (.parameter p), some value => ([.attached p value], .anything)
  | some (.parameter p), none => ([], .value p)

/-- What letters after a dash say: switches, then at most one parameter with its value behind it. -/
def readLetters : List Char → List Use × Outlook
  | [] => ([], .anything)
  | c :: rest =>
    match Opt.ofLetter? c, rest with
    | none, _ => ([], .nothing (.unexpected (String.ofList ['-', c])))
    | some (.switch s), _ =>
      let (uses, outlook) := readLetters rest
      (.switch s .letter :: uses, outlook)
    | some (.parameter p), [] => ([], .value p)
    | some (.parameter p), '=' :: value => ([.attached p (String.ofList value)], .anything)
    | some (.parameter p), value => ([.attached p (String.ofList value)], .anything)

/-- The use of a parameter that got no value. -/
def unmet (awaiting : Option Parameter) : List Use :=
  (awaiting.map fun p => Use.separate p none).toList

/-- What arguments say when the value of a parameter may be due. -/
def readFrom : Option Parameter → List String → Reading
  | awaiting, [] => ⟨unmet awaiting, none⟩
  | awaiting, arg :: rest =>
    let goOn : List Use × Outlook → Reading
      | (uses, .anything) => (readFrom none rest).after (unmet awaiting ++ uses)
      | (uses, .value p) => (readFrom (some p) rest).after (unmet awaiting ++ uses)
      | (uses, .nothing m) => ⟨unmet awaiting ++ uses, some m⟩
    match shape arg, awaiting with
    | .terminator, _ => ⟨unmet awaiting, rest.head?.map Misfit.unexpected⟩
    | .long name value?, _ => goOn (readLong name value?)
    | .letters cs, _ => goOn (readLetters cs)
    | .plain, some p => (readFrom none rest).after [.separate p (some arg)]
    | .plain, none => ⟨[], some (.unexpected arg)⟩

/-- What arguments say. -/
def read (args : List String) : Reading := readFrom none args

namespace Reading

/-- Uses without a last one whose value was to stand in an argument of its own. -/
def dropOpenEnd (uses : List Use) : List Use :=
  match uses.getLast? with
  | some (.separate _ _) => uses.dropLast
  | _ => uses

/-- The uses that count.  A separate value is looked at only when the next option or the end is
reached, so one right before an argument that has no place is never looked at. -/
def counted (r : Reading) : List Use :=
  match r.misfit? with
  | none => r.uses
  | some _ => dropOpenEnd r.uses

end Reading

end PinnedManifest.CommandLine
