/-
  Provision.Server.Service

  A started server at work. Clients connect to its listeners, send bytes and end their
  side; a connection claims a slot when it is accepted and gives it back when it ends. A
  connection is served as soon as the bytes that were sent are enough for it.
-/
import Provision.Connection
import Provision.Server.Start

namespace Provision

/-- A connection that was accepted and has not been served yet. -/
structure Client where
  id : Nat
  slot : Nat
  sent : Bytes
deriving DecidableEq

/-- A server at work on a device. -/
structure Service where
  server : RunningServer
  host : Host
  /-- How deep home pages that are shown by home pages are followed. -/
  depth : Nat
  device : Device
  /-- The connections that wait for more bytes. -/
  waiting : List Client
  /-- The responses of connections that were served, by name, for clients to read. -/
  responses : List (Nat × Bytes)

/-- What came of a client's attempt to connect. -/
inductive Attempt where
  /-- Nobody listens, or the client cannot get through. -/
  | refused
  /-- The connection was dropped because no slot was free. -/
  | dropped
  | accepted (slot : Nat)
deriving DecidableEq

namespace Service

def start (server : RunningServer) (host : Host) (depth : Nat) (device : Device) : Service :=
  ⟨server, host, depth, device, [], []⟩

/-- What arrives from a client that sent these bytes and then ended its side. -/
def arrivals (sent : Bytes) : Source := if sent.isEmpty then [.data []] else [.data sent, .data []]

/-- Serves a connection on which these bytes arrive before the client ends its side. -/
def outcome (service : Service) (sent : Bytes) : Option Outcome × Device :=
  service.device.run (service.server.site.serve service.depth ⟨arrivals sent, .unlimited, none⟩)

/-- True when a connection can be served without its client's end: the end was not read. -/
def isEnough (outcome : Outcome) : Bool := !outcome.transport.source.isEmpty

/-- Ends a connection that was served, and frees its slot. -/
def conclude (service : Service) (client : Client) (outcome : Outcome) (device : Device) :
    Service :=
  { service with
    server := { service.server with pool := service.server.pool.release client.slot }
    device := device
    waiting := service.waiting.filter (·.id != client.id)
    responses := (client.id, outcome.transport.sink.accepted) :: service.responses }

/-- Serves a waiting connection if the bytes sent are enough for it. -/
def attend (service : Service) (client : Client) : Service :=
  match service.outcome client.sent with
  | (none, _) => service
  | (some outcome, device) =>
    if isEnough outcome then service.conclude client outcome device else service

/-- Serves every waiting connection that can be served. -/
def settle (service : Service) : Service := service.waiting.foldl attend service

/-- Connects a client to the listener at an index. -/
def connect (service : Service) (listener : Nat) : Attempt × Service :=
  match service.server.listeners[listener]? with
  | none => (.refused, service)
  | some l =>
    if service.host.listeners.contains l && service.host.reachable l.address then
      match service.server.pool.acquire with
      | (none, _) => (.dropped, service)
      | (some slot, pool) => (.accepted slot, { service with server := { service.server with pool } })
    else (.refused, service)

/-- Connects a client that sends nothing yet. -/
def openClient (service : Service) (listener id : Nat) : Attempt × Service :=
  match service.settle.connect listener with
  | (.accepted slot, service') =>
    (.accepted slot, { service' with waiting := service'.waiting ++ [⟨id, slot, []⟩] })
  | (attempt, service') => (attempt, service')

def send (service : Service) (id : Nat) (data : Bytes) : Service :=
  { service with
    waiting := service.waiting.map fun client =>
      if client.id = id then { client with sent := client.sent ++ data } else client }

/-- Ends the client's side of a connection: what the client reads to the end. -/
def finish (service : Service) (id : Nat) : Bytes × Service :=
  let service := service.settle
  let service :=
    match service.waiting.find? (·.id = id) with
    | none => service
    | some client =>
      match service.outcome client.sent with
      | (none, _) => service
      | (some outcome, device) => service.conclude client outcome device
  (((service.responses.lookup id).getD []), service)

/-- Connects, sends, ends the client's side and reads to the end; no response means that the
connection was refused or has not come to an end. -/
def request (service : Service) (listener : Nat) (data : Bytes) : Option Bytes × Service :=
  match service.settle.connect listener with
  | (.refused, service') => (none, service')
  | (.dropped, service') => (some [], service')
  | (.accepted slot, service') =>
    match service'.outcome data with
    | (none, _) => (none, service')
    | (some outcome, device) =>
      (some outcome.transport.sink.accepted,
        { service' with
          server := { service'.server with pool := service'.server.pool.release slot }
          device := device })

/-- Stops accepting; accepted connections are still served. -/
def stop (service : Service) : Service :=
  let service := service.settle
  { service with host := service.server.stop service.host }

end Service

end Provision
