import PinnedManifest.Files.Fault
import PinnedManifest.Template.Rendering
import PinnedManifest.Text.Utf8

/-!
# ManifestTemplate — a template and the path that labels it

A template is read from its source before anything is fetched, so a malformed one is known early.
The path takes part in the wording of faults, and is the name under which the template would insert
itself.
-/

namespace PinnedManifest

/-- A template with its path. -/
structure ManifestTemplate where
  path : String
  body : Template.Body

/-- Why there is no text. -/
inductive TemplateError
  | unreadable (path : String) (fault : Files.Fault)
  | malformed (path : String) (fault : Template.Malformed)
  | failed (path : String) (failure : Template.Failure)
  deriving DecidableEq, Repr

namespace TemplateError

/-- How an unreadable template reads. -/
def unreadableText (path reason : String) : String :=
  "failed to read template " ++ path ++ ": " ++ reason

/-- How a malformed template reads. -/
def malformedText (path reason : String) : String :=
  "malformed template " ++ path ++ ": " ++ reason

/-- How a failure to render reads. -/
def failedText (reason : String) : String := "failed to render template: " ++ reason

/-- Where a failure is, in words. -/
def placeText : Option Template.Position → String
  | some p => " line " ++ toString p.line ++ ", col " ++ toString p.column
  | none => ""

/-- The wording of an error. -/
def message : TemplateError → String
  | .unreadable path fault => unreadableText path fault.message
  | .malformed path fault => malformedText path fault.message
  | .failed path failure =>
    failedText ("Error rendering \"" ++ path ++ "\"" ++ placeText failure.place ++ ": "
      ++ failure.reason.message)

end TemplateError

namespace ManifestTemplate

/-- The template that a source spells. -/
def ofSource (path source : String) : Except TemplateError ManifestTemplate :=
  match Template.ofSource source with
  | .ok body => .ok ⟨path, body⟩
  | .error fault => .error (.malformed path fault)

/-- The template that a file's content spells. -/
def ofContent (path : String) (content : List UInt8) : Except TemplateError ManifestTemplate :=
  match Text.ofUtf8? content with
  | some source => ofSource path source
  | none => .error (.unreadable path .notText)

/-- The text of a template over a value. -/
def render (t : ManifestTemplate) (data : Json.Value) : Except TemplateError String :=
  match Template.render t.path t.body data with
  | .ok text => .ok text
  | .error failure => .error (.failed t.path failure)

end ManifestTemplate

end PinnedManifest
