import PinnedManifest.Catalog.Shipped
import PinnedManifest.CommandLine.Help
import PinnedManifest.Http.Fetch
import PinnedManifest.Report
import PinnedManifest.World

/-!
# Command — a command from its arguments to its exit code

Arguments that stop a command leave everything as it is.  Otherwise the revision is checked, the
manifest is generated, and the end is reported.

## What is left out

* The log has no line that spells out all records before they are rendered; whoever looks for faults is
  told of each artefact as it is fetched.
* How a connection is made: names looked up, keys agreed on and certificates checked, time running out.
  All of this is a server's (`Http.Server`), which answers or says why there is no connection.
* Paths, arguments and variables that are not UTF-8: every text here is one of characters.
* Records that have no form as data for a template: there are none (`manifestContext`).
-/

namespace PinnedManifest

/-- A command: its name and what it lists. -/
structure Command where
  name : String
  catalog : Catalog
  deriving DecidableEq, Repr

namespace Command

/-- The command for the signed blobs. -/
def updateBlobs : Command := ⟨"update-blobs", .nordicBlobs⟩

/-- The command for the Wi-Fi firmware. -/
def updateWifiFirmware : Command := ⟨"update-wifi-fw", .wifiFirmware⟩

/-- The command of a name; the first one is meant when there is none. -/
def ofName (name : String) : Command :=
  if name = updateWifiFirmware.name then updateWifiFirmware else updateBlobs

/-- How an invocation ends. -/
inductive Ending
  | stopped (stop : CommandLine.Stop)
  | ran (settings : CommandLine.Settings) (result : Except RunError Unit) (report : Report)

/-- The exit code of an ending. -/
def Ending.exitCode : Ending → Nat
  | .stopped stop => stop.exitCode
  | .ran _ _ report => report.exitCode

/-- What an ending adds to the log. -/
def Ending.log : Ending → List Log.Entry
  | .stopped _ => []
  | .ran _ _ report => report.log

/-- The wording of a result, none for a success. -/
def failure? : Except RunError Unit → Option String
  | .ok () => none
  | .error e => some e.message

/-- How the end of a run is told. -/
structure Telling where
  logReady : Bool
  sink : Sink
  deriving DecidableEq, Repr

/-- The report of a result. -/
def Telling.report (t : Telling) (result : Except RunError Unit) : Report :=
  .ofEnd t.logReady t.sink (failure? result)

section Hosted

variable {m : Type → Type} [Monad m]

/-- The run that settings ask for, if the revision is one. -/
def runOn (host : Host m) (catalog : Catalog) (s : CommandLine.Settings) :
    ExceptT RunError m Unit :=
  match s.config with
  | .error r => throw (.invalidRevision r)
  | .ok config => do
    let _ ← host.generate catalog config

/-- A whole invocation, on a host made for the settings. -/
def invokeOn (hostFor : CommandLine.Settings → Host m) (t : Telling) (catalog : Catalog)
    (env : CommandLine.Environment) (args : List String) : m Ending :=
  match CommandLine.Settings.ofArgs env args with
  | .error stop => return .stopped stop
  | .ok s => do
    let result ← (runOn (hostFor s) catalog s).run
    return .ran s result (t.report result)

end Hosted

section InWorld

variable {σ : Type}

/-- The hosts of a world whose artefacts come from servers, given for the seconds that an artefact
may take. -/
def hostFor (caller : Files.Caller) (serverFor : Nat → Http.Server σ) (s : CommandLine.Settings) :
    Host (StateM (World (Http.Network σ))) :=
  World.host caller (Http.fetcher (serverFor s.timeout) Http.bodyLimit)

/-- A run in a world. -/
def run (caller : Files.Caller) (serverFor : Nat → Http.Server σ) (catalog : Catalog)
    (s : CommandLine.Settings) (w : World (Http.Network σ)) :
    Except RunError Unit × World (Http.Network σ) :=
  (runOn (hostFor caller serverFor s) catalog s).run w

/-- A whole invocation in a world, whose log gets the report as well. -/
def invoke (caller : Files.Caller) (serverFor : Nat → Http.Server σ) (t : Telling) (catalog : Catalog)
    (env : CommandLine.Environment) (args : List String) (w : World (Http.Network σ)) :
    Ending × World (Http.Network σ) :=
  let (ending, w) := invokeOn (hostFor caller serverFor) t catalog env args w
  (ending, { w with log := w.log ++ ending.log })

end InWorld

end Command

end PinnedManifest
