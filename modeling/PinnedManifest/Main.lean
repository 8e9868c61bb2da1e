import PinnedManifest.Command
import PinnedManifest.Http.Message
import Std.Async.DNS
import Std.Async.TCP
import Std.Async.Timer

/-!
# Main — the commands on a real machine

Both commands are one program, told apart by the name it is called under.  Files are those of the
machine; artefacts come over plain connections, for nothing here speaks an encrypted protocol.
-/

namespace PinnedManifest.Main

open Std.Async Std.Net

/-! ## Files -/

/-- The number of a fault of the system. -/
def errorCode : IO.Error → Nat
  | .alreadyExists _ c _ | .invalidArgument _ c _ | .permissionDenied _ c _
  | .resourceExhausted _ c _ | .inappropriateType _ c _ | .noSuchThing _ c _ => c.toNat
  | .noFileOrDirectory _ c _ | .interrupted _ c _ => c.toNat
  | .otherError c _ | .resourceBusy c _ | .resourceVanished c _ | .unsupportedOperation c _
  | .hardwareFault c _ | .unsatisfiedConstraints c _ | .illegalOperation c _ | .protocolError c _
  | .timeExpired c _ => c.toNat
  | .unexpectedEof => 0
  | .userError _ => 0

/-- A fault of the system as one of files. -/
def faultOf (e : IO.Error) : Files.Fault :=
  match errorCode e with
  | 2 => .notFound
  | 13 => .permissionDenied
  | 16 => .busy
  | 20 => .notADirectory
  | 21 => .isADirectory
  | 36 => .nameTooLong
  | 40 => .linkLoop
  | _ => .other (toString e)

/-- A step on files whose fault is caught. -/
def caught {α : Type} (step : IO α) : ExceptT Files.Fault IO α :=
  ExceptT.mk do
    try return .ok (← step)
    catch e => return .error (faultOf e)

/-- A file being written beside its destination. -/
structure StagedFile where
  path : String
  handle : IO.FS.Handle

/-- The mode that a path is taken to have: what can be opened for writing is an ordinary file, and what
cannot is one that nobody may write. -/
def inspect (path : String) : ExceptT Files.Fault IO (Option Files.Mode) :=
  ExceptT.mk do
    try
      let _ ← IO.FS.Handle.mk path .readWrite
      return .ok (some Files.newFileMode)
    catch e =>
      match faultOf e with
      | .notFound => return .ok none
      | .isADirectory => return .ok (some 0o755)
      | .permissionDenied => return .ok (some 0o444)
      | fault => return .error fault

/-- How many names are tried for a staged file. -/
def stagedNames : Nat := 1000

/-- A new file in a directory, under the first free name from a number on. -/
def stageIn (directory : String) : Nat → ExceptT Files.Fault IO StagedFile
  | 0 => throw (.other "File exists (os error 17)")
  | left + 1 => do
    let path := directory ++ "/" ++ Files.stagedName (stagedNames - left)
    let attempt : IO (Except IO.Error IO.FS.Handle) := (IO.FS.Handle.mk path .writeNew).toBaseIO
    match ← attempt with
    | .ok handle => return ⟨path, handle⟩
    | .error (.alreadyExists ..) => stageIn directory left
    | .error e => throw (faultOf e)

/-- Three permission bits. -/
def accessRight (bits : Nat) : IO.AccessRight where
  read := bits.testBit 2
  write := bits.testBit 1
  execution := bits.testBit 0

/-- Permission bits for owner, group and others. -/
def fileRight (mode : Files.Mode) : IO.FileRight where
  user := accessRight (mode.toNat / 64)
  group := accessRight (mode.toNat / 8)
  other := accessRight mode.toNat

/-- The steps of a replacement on the machine's files. -/
def disk : Files.Disk IO StagedFile where
  inspect := inspect
  stage path := stageIn (Files.Path.parentText path) stagedNames
  append s bytes := caught do
    s.handle.write ⟨bytes.toArray⟩
    return bytes.length
  setMode s mode := caught (IO.setAccessRights s.path (fileRight mode))
  sync s := caught s.handle.flush
  install s path := caught (IO.FS.rename s.path path)
  discard s := do
    try IO.FS.removeFile s.path
    catch _ => return ()

/-! ## Connections -/

/-- The name and the number of the place where a server listens. -/
def endpoint (r : Http.Request) : String × String :=
  match Text.split ':' r.server.toList with
  | [name, number] => (String.ofList name, String.ofList number)
  | _ => (r.server, "80")

/-- How many bytes are read at once. -/
def chunkSize : UInt64 := 65536

/-- The bytes that arrive on a connection in at most so many reads, behind those that have. -/
def receive (client : TCP.Socket.Client) : Nat → ByteArray → Async ByteArray
  | 0, sofar => return sofar
  | reads + 1, sofar => do
    match ← client.recv? chunkSize with
    | some more => if more.isEmpty then return sofar else receive client reads (sofar ++ more)
    | none => return sofar

/-- A request sent to an address, and all that is answered. -/
def exchange (address : IPAddr) (number : UInt16) (request : String) : Async ByteArray := do
  let client ← TCP.Socket.Client.mk
  client.connect (match address with
    | .v4 a => .v4 ⟨a, number⟩
    | .v6 a => .v6 ⟨a, number⟩)
  client.send request.toUTF8
  receive client (2 * Http.bodyLimit) .empty

/-- The end of an exchange that takes longer than so many seconds. -/
def expire (seconds : Nat) : Async ByteArray := do
  sleep (.ofNat (1000 * seconds))
  throw (.userError "timed out")

/-- A request put to the server it names. -/
def answer (seconds : Nat) (r : Http.Request) : IO Http.Reply := do
  if r.scheme ≠ "http" then return .error "encrypted connections are not supported"
  try
    let (name, number) := endpoint r
    let addresses ← (DNS.getAddrInfo name number).block
    match addresses[0]?, number.toNat? with
    | some address, some n =>
      let bytes ← (Async.race (exchange address n.toUInt16 r.text) (expire seconds)).block
      match Http.Response.ofBytes? bytes.data.toList with
      | some response => return .ok response
      | none => return .error "no response"
    | _, _ => return .error "no such server"
  catch e => return .error (toString e)

/-! ## The program -/

/-- A line for the user. -/
def logLine (e : Log.Entry) : IO Unit :=
  IO.eprintln (CommandLine.blanks (5 - e.level.label.length) ++ e.shown)

/-- The entries of a log that are shown. -/
def logShown (s : CommandLine.Settings) (entries : List Log.Entry) : IO Unit :=
  (entries.filter (·.isShown s.leastShown)).forM logLine

/-- The machine, for a run with the given settings. -/
def host (s : CommandLine.Settings) : Host IO where
  read path := (caught do return (← IO.FS.readBinFile path).data.toList).run
  fetch url := (Http.fetch Http.bodyLimit url).hold (answer s.timeout)
  replace path content := (disk.replace path content).run
  log entry := logShown s [entry]

/-- A command called under a name. -/
def run (name : String) (args : List String) : IO UInt32 := do
  let env : CommandLine.Environment :=
    ⟨← IO.getEnv CommandLine.Environment.baseUrlName,
      ← IO.getEnv CommandLine.Environment.timeoutName⟩
  let ending ← Command.invokeOn host ⟨true, .working⟩ (Command.ofName name).catalog env args
  match ending with
  | .stopped (.fault f) => IO.eprintln (CommandLine.Stop.text name env (.fault f))
  | .stopped stop => IO.print (stop.text name env)
  | .ran s _ report =>
    logShown s report.log
    IO.eprint report.lines
  return ending.exitCode.toUInt32

end PinnedManifest.Main

/-- The program. -/
def main (args : List String) : IO UInt32 := do
  PinnedManifest.Main.run (PinnedManifest.CommandLine.commandName (← IO.appPath).toString) args
