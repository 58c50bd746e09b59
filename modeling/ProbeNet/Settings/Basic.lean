import ProbeNet.Register.Base

/-!
# Settings

The settings of a debug network, for both of its ends.  A module is listed
by its identity and by whether it can stall; the subnet control module is
always there and is not listed.
-/

namespace ProbeNet

open Register

structure LinkSettings where
  /-- The longest packet, header included. -/
  maxPacketLen : Nat := 12
  bufferDepth : Nat := 16
  deriving DecidableEq, Repr

structure HostSettings where
  address : Address := 0x3ff
  /-- How many milliseconds the host waits for the answer to a register access. -/
  registerTimeoutMs : Nat := 1000
  eventQueueDepth : Nat := 256
  deriving DecidableEq, Repr

/-- A module of the target. -/
structure ModuleSpec where
  identity : Identity
  canStall : Bool := false
  deriving DecidableEq, Repr

/-- The target. -/
structure TargetSettings where
  boundary : Word := defaultBoundary
  maxWidth : Width := .w128
  systemVendor : Word := 1
  systemDevice : Word := 1
  /-- How many microseconds pass between two bursts of steps. -/
  stepIntervalUs : Nat := 0
  modules : List ModuleSpec :=
    [{ identity := .standard .memoryAccess 0, canStall := false },
     { identity := .standard .systemTrace 0, canStall := true }]
  deriving DecidableEq, Repr

structure NetworkSettings where
  listen : String := "127.0.0.1:7411"
  target : String := "127.0.0.1:7411"
  deriving DecidableEq, Repr

structure Settings where
  link : LinkSettings := {}
  host : HostSettings := {}
  target : TargetSettings := {}
  network : NetworkSettings := {}
  deriving DecidableEq, Repr

end ProbeNet
