import Custody.Rehearsal.Network
import Custody.Wallet.Run
/-!
# The wallet program

The outer layer of the program: it reads the environment and the wallet file that a command needs,
does what the run decides, and writes what has changed. It has no transport of its own, so no
ceremony reaches anyone; wallets can be shown, and every fault that is found before a ceremony is
told.
-/

namespace Custody.Wallet

/-- A network in which no address leads to a peer: no peer has an empty name. -/
def nobody : Rehearsal.Network :=
  ⟨⟨"", 0, "", 0⟩, "", fun _ => [], false⟩

/-- Holds a ceremony without a transport. -/
def performAlone (options : Options) (coordinator : Coordinator) (call : Call) :
    Except Error Answer :=
  let world := Rehearsal.World.new .standard (nobody.cluster (.ofUrl "")) .prompt
  (world.playOver nobody options.controlPlane options.broker coordinator.config call).1.result

/-- The path of the wallet that a command needs. -/
def neededPath? (options : Options) : Command → Option String
  | .keygen _ => none
  | .sign id _ _ _ | .info id => (SessionId.ofText id).toOption.map (walletPath options)

/-- The text of a file, if there is one that can be read. -/
def readFile? (path : String) : IO (Option String) := do
  try
    return some (← IO.FS.readFile path)
  catch _ =>
    return none

/-- Writes a file. A new one belongs to its owner alone. -/
def writeFile (path text : String) : IO Unit := do
  if (← readFile? path).isNone then
    IO.FS.writeFile path ""
    IO.setAccessRights path { user := { read := true, write := true } }
  IO.FS.writeFile path text

/-- The variables of the environment that options can come from. -/
def environment : IO (List (String × String)) := do
  let names := optionParameters.filterMap (·.variableName)
  names.filterMapM fun name => do
    return (← IO.getEnv name).map (name, ·)

/-- The files that a command needs and that are there. -/
def neededFiles (options : Options) (command : Command) : IO Files :=
  match neededPath? options command with
  | none => return []
  | some path => return ((← readFile? path).map fun text => (path, ⟨text, true⟩)).toList

/-- Does a run and gives the status for the system. -/
def perform (options : Options) (command : Command) : IO UInt32 := do
  IO.FS.createDirAll options.directory
  let fresh := SessionId.random (Bytes.toNat (← IO.getRandomBytes 16).toList)
  let files ← neededFiles options command
  let (outcome, after) ← run (fun coordinator call =>
    (pure (performAlone options coordinator call) : IO (Except Error Answer)))
    options fresh files command
  for (path, file) in after do
    if files.read? path ≠ some file.text then
      writeFile path file.text
  for line in outcome.lines do
    IO.println line
  match outcome.failure with
  | none => pure ()
  | some failure => IO.eprintln failure.report
  return UInt32.ofNat outcome.status

end Custody.Wallet

open Custody Custody.Wallet in
/-- Runs the program with its words. -/
def main (words : List String) : IO UInt32 := do
  let values ← environment
  match readArguments (values.lookup ·) words with
  | .ok (options, command) => perform options command
  | .error stop =>
    match stop with
    | .version => IO.println versionLine
    | .help => IO.println "tss-cli [options] keygen | sign | info"
    | .usage => IO.eprintln "usage: tss-cli [options] keygen | sign | info"
    return UInt32.ofNat stop.status
