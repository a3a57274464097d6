import Custody.CommandLine.Number
import Custody.CommandLine.Parameter
import Custody.Session.Parties
/-!
# Arguments of the wallet program

What the program is told by its words and by the environment: the options that all its commands
share, and one command. An option that is neither among the words nor in the environment has its
standard value; words go before the environment.
-/

namespace Custody.Wallet

open CommandLine

/-- The options that all commands share. -/
structure Options where
  /-- The address of the control plane. -/
  controlPlane : String
  /-- The address of the broker. -/
  broker : String
  parties : List PartyId
  threshold : UInt32
  /-- How long a ceremony may take, in seconds. -/
  timeout : Nat
  subscribeFirst : Bool
  /-- Where wallets are kept. -/
  directory : String
  deriving DecidableEq, Repr

/-- A command. -/
inductive Command
  /-- Create a wallet, in the given session or in one made up. -/
  | keygen (session : Option String)
  /-- Sign a digest with a wallet. -/
  | sign (wallet digest : String) (session : Option String) (chainId : Option UInt64)
  /-- Show a wallet. -/
  | info (wallet : String)
  deriving DecidableEq, Repr

/-- What the program tells of its version. -/
def versionLine : String := "tss-cli 0.1.0"

/-! ## Shared options -/

/-- The shared options as far as they have been given. -/
structure GivenOptions where
  controlPlane : Option String
  broker : Option String
  parties : Option (List PartyId)
  threshold : Option UInt32
  timeout : Option Nat
  subscribeFirst : Bool
  directory : Option String

/-- Nothing has been given. -/
def GivenOptions.none : GivenOptions where
  controlPlane := .none
  broker := .none
  parties := .none
  threshold := .none
  timeout := .none
  subscribeFirst := false
  directory := .none

/-- The options, with their standard values where nothing has been given. -/
def GivenOptions.options (given : GivenOptions) : Options where
  controlPlane := given.controlPlane.getD "http://127.0.0.1:50051"
  broker := given.broker.getD "ws://127.0.0.1:8090"
  parties := given.parties.getD [1, 2, 3]
  threshold := given.threshold.getD 2
  timeout := given.timeout.getD 300
  subscribeFirst := given.subscribeFirst
  directory := given.directory.getD "./data"

/-- A number of 32 bits. -/
def word32? (text : String) : Option UInt32 :=
  (intBelow? UInt32.size text).map UInt32.ofNat

/-- A number of 64 bits. -/
def word64? (text : String) : Option Nat :=
  natBelow? UInt64.size text

/-- A path, which is not empty. -/
def path? (text : String) : Option String :=
  if text = "" then none else some text

/-- The parameters of the shared options. -/
def optionParameters : List (Parameter GivenOptions) :=
  [.single "control-plane" none (some "TSS_CONTROL_PLANE_URL") some (·.controlPlane)
      fun url given => { given with controlPlane := some url },
    .single "broker" none (some "TSS_BROKER_URL") some (·.broker)
      fun url given => { given with broker := some url },
    .several "parties" (some "TSS_PARTIES") (listOf? word32?) (·.parties)
      fun parties given => { given with parties := some parties },
    .single "threshold" (some 't') (some "TSS_THRESHOLD") word32? (·.threshold)
      fun threshold given => { given with threshold := some threshold },
    .single "timeout" none (some "TSS_TIMEOUT_SECS") word64? (·.timeout)
      fun timeout given => { given with timeout := some timeout },
    .flag "subscribe-first" (·.subscribeFirst) fun given => { given with subscribeFirst := true },
    .single "dest" (some 'd') (some "DEST") path? (·.directory)
      fun directory given => { given with directory := some directory }]

/-- What stands before a command. -/
def optionInterface : Interface GivenOptions :=
  ⟨optionParameters, true⟩

/-! ## Commands -/

/-- What the commands can be told, as far as it has been given. -/
structure GivenDetails where
  session : Option String
  wallet : Option String
  digest : Option String
  chainId : Option UInt64

/-- No details have been given. -/
def GivenDetails.none : GivenDetails :=
  ⟨.none, .none, .none, .none⟩

/-- The parameter of a session. -/
def sessionParameter : Parameter GivenDetails :=
  .single "session" (some 's') none some (·.session)
    fun session given => { given with session := some session }

/-- The parameter of a wallet. -/
def walletParameter : Parameter GivenDetails :=
  .single "wallet" (some 'w') none some (·.wallet)
    fun wallet given => { given with wallet := some wallet }

/-- The parameter of a digest. -/
def digestParameter : Parameter GivenDetails :=
  .single "hash" none none some (·.digest)
    fun digest given => { given with digest := some digest }

/-- The parameter of a chain id. -/
def chainIdParameter : Parameter GivenDetails :=
  .single "chain-id" none none (fun text => (word64? text).map UInt64.ofNat) (·.chainId)
    fun chainId given => { given with chainId := some chainId }

/-- A kind of command: its name, its parameters and the command that details make; none if one is
missing. -/
structure CommandKind where
  name : String
  parameters : List (Parameter GivenDetails)
  command? : GivenDetails → Option Command

/-- The kinds of commands. -/
def commandKinds : List CommandKind :=
  [⟨"keygen", [sessionParameter], fun given => some (.keygen given.session)⟩,
    ⟨"sign", [walletParameter, digestParameter, sessionParameter, chainIdParameter], fun given => do
      return .sign (← given.wallet) (← given.digest) given.session given.chainId⟩,
    ⟨"info", [walletParameter], fun given => given.wallet.map .info⟩]

/-- Reads the words of a command. -/
def CommandKind.read (kind : CommandKind) (words : List String) : Except Stop Command := do
  let given ← Interface.settings ⟨kind.parameters, false⟩ .none words
  match kind.command? given with
  | some command => return command
  | none => throw .usage

/-- The words name something that there is help on: nothing in particular, or a command. -/
def isHelpTopic : List String → Bool
  | [] => true
  | [name] => name = "help" || commandKinds.any (·.name == name)
  | _ => false

/-- Reads the words that follow the shared options. -/
def readCommand : List String → Except Stop Command
  | [] => throw .usage
  | name :: words =>
    if name = "help" then throw (if isHelpTopic words then .help else .usage)
    else
      match commandKinds.find? (·.name == name) with
      | some kind => kind.read words
      | none => throw .usage

/-- Reads the words of a run in an environment. -/
def readArguments (environment : String → Option String) (words : List String) :
    Except Stop (Options × Command) := do
  let (gathered, rest) ← (Gathered.ofSettings GivenOptions.none).read optionInterface words
  let command ← readCommand rest
  let given ← optionInterface.fill environment (← gathered.settle).settings
  return (given.options, command)

end Custody.Wallet
