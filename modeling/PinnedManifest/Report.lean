import PinnedManifest.Log

/-!
# Report — what a command says about its end

A failed run is told once: in the log when there is one, else as a line of its own.  The exit code does
not depend on whether anyone hears it.
-/

namespace PinnedManifest

/-- Where lines go when there is no log. -/
inductive Sink
  | working
  /-- Every write fails. -/
  | broken
  deriving DecidableEq, Repr

/-- What arrives of a line. -/
def Sink.line : Sink → String → String
  | .working, text => text ++ "\n"
  | .broken, _ => ""

/-- The end of a command, as others see it. -/
structure Report where
  exitCode : Nat
  lines : String
  log : List Log.Entry
  deriving DecidableEq, Repr

/-- The report of an end: the wording of the error, or none after a success. -/
def Report.ofEnd (logReady : Bool) (sink : Sink) : Option String → Report
  | none => ⟨0, "", []⟩
  | some message =>
    if logReady then ⟨1, "", [⟨.error, message⟩]⟩ else ⟨1, sink.line message, []⟩

end PinnedManifest
