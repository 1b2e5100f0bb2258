/-
  Provision.Server.Host

  The machine that a server listens on: which addresses can be bound, which of them
  clients can reach, and what is being listened on.
-/
import Provision.Net.IpAddress
import Provision.Report

namespace Provision

/-- An address and port that is listened on by an accept loop. -/
structure Listener where
  address : IpAddress
  /-- The port; zero stands for one that the machine picks. -/
  port : Nat
deriving DecidableEq

/-- A machine with listeners. -/
structure Host where
  /-- Why an address and port cannot be bound while some listeners are open, if it cannot. -/
  bindFault : List Listener → IpAddress → Nat → Option SystemFault
  /-- Why a listener that was just bound cannot tell its own address, if it cannot. -/
  addressFault : Listener → Option SystemFault
  /-- True for addresses at which clients get through to a listener. -/
  reachable : IpAddress → Bool
  listeners : List Listener

namespace Host

/-- True for the address of a family that stands for all addresses of the family. -/
def isWildcard (address : IpAddress) : Bool :=
  address = .v4 0 0 0 0 || address = .v6 (Vector.replicate 8 0)

/-- True when two addresses cannot be listened on at the same port: they are equal, or one
stands for all of its family. The IPv6 wildcard stands for the IPv4 addresses as well. -/
def overlap (a b : IpAddress) : Bool :=
  a = b || (a.isV4 == b.isV4 && (isWildcard a || isWildcard b)) ||
    (!a.isV4 && isWildcard a) || (!b.isV4 && isWildcard b)

/-- True when an open listener takes an address and port. A port that the machine picks is
never taken. -/
def isTaken (listeners : List Listener) (address : IpAddress) (port : Nat) : Bool :=
  port != 0 && listeners.any fun l => l.port == port && overlap l.address address

/-- A machine with these addresses, some of them reachable, and no listener. -/
def ofAddresses (owned reachable : IpAddress → Bool) : Host where
  bindFault := fun listeners address port =>
    if !owned address then some .addressNotAvailable
    else if isTaken listeners address port then some .addressInUse
    else none
  addressFault := fun _ => none
  reachable := reachable
  listeners := []

def bind (host : Host) (address : IpAddress) (port : Nat) :
    Except SystemFault Listener × Host :=
  match host.bindFault host.listeners address port with
  | some fault => (.error fault, host)
  | none =>
    (.ok ⟨address, port⟩, { host with listeners := host.listeners ++ [⟨address, port⟩] })

def close (host : Host) (closed : List Listener) : Host :=
  { host with listeners := closed.foldl List.erase host.listeners }

end Host

end Provision
