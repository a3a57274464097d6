import Custody.Service.Arguments
import Custody.Service.Socket
/-!
# The service over time

A running service sweeps the channels that nobody listens on, when it starts and then at regular
times. Between two sweeps only its clients change it.
-/

namespace Custody.Service

/-- A running service. -/
structure Server where
  service : Service
  /-- The time since the start, in milliseconds. -/
  now : Nat
  /-- The time between two sweeps, in milliseconds. -/
  period : Nat

namespace Server

/-- A service that has just been started and has swept for the first time. -/
def start (options : Options) : Server where
  service := (Service.new (.new options.capacity)).sweep
  now := 0
  period := max 1 options.interval * 1000

/-- Some sweep falls into the next milliseconds. -/
def sweepsWithin (server : Server) (millis : Nat) : Bool :=
  server.now / server.period < (server.now + millis) / server.period

/-- Lets time pass in which clients do nothing. One sweep does the work of several. -/
def pass (server : Server) (millis : Nat) : Server where
  service :=
    let service := server.service.settle
    if server.sweepsWithin millis then service.sweep else service
  now := server.now + millis
  period := server.period

end Server

end Custody.Service
