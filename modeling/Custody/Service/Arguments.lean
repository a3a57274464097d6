import Custody.CommandLine.Number
import Custody.CommandLine.Parameter
/-!
# Arguments of the service

What the service is told by its words and by the environment. There is no command and nothing else
without a name.
-/

namespace Custody.Service

open CommandLine

/-- How the service is run. -/
structure Options where
  /-- The address that it listens on. -/
  listen : String
  /-- How many payloads a channel holds for a receiver that falls behind. -/
  capacity : Nat
  /-- The time between two sweeps, in seconds; zero counts as one. -/
  interval : Nat
  deriving DecidableEq, Repr

/-- The options as far as they have been given. -/
structure GivenOptions where
  listen : Option String
  capacity : Option Nat
  interval : Option Nat

/-- The options, with their standard values where nothing has been given. -/
def GivenOptions.options (given : GivenOptions) : Options where
  listen := given.listen.getD "0.0.0.0:8090"
  capacity := given.capacity.getD 64
  interval := given.interval.getD 60

/-- What the service takes. -/
def optionInterface : Interface GivenOptions where
  parameters :=
    [.single "listen" (some 'l') (some "BROKER_LISTEN") some (·.listen)
        fun address given => { given with listen := some address },
      .single "capacity" none none (natBelow? UInt64.size) (·.capacity)
        fun capacity given => { given with capacity := some capacity },
      .single "prune-interval" none none (natBelow? UInt64.size) (·.interval)
        fun interval given => { given with interval := some interval }]
  hasVersion := false

/-- Reads the words of a run in an environment. -/
def readArguments (environment : String → Option String) (words : List String) :
    Except Stop Options := do
  let given ← optionInterface.settings ⟨none, none, none⟩ words
  return (← optionInterface.fill environment given).options

end Custody.Service
