/-
  Provision.Server.Start

  Starting a server: every enabled address is bound, the IPv6 one first, and an accept
  loop is started on it at once. An IPv4 address whose port the IPv6 listener already
  takes is passed over; any other failure ends the start, and what was bound before it
  stays open. A listener that cannot tell its address is closed before the start ends.
-/
import Provision.Config
import Provision.Page.Visit
import Provision.Server.Host
import Provision.Server.Pool

namespace Provision

/-- A server that is to be started. -/
structure Server where
  config : Config
  registry : Registry
  credentials : Option Credentials

/-- Why a server did not start. -/
inductive StartError where
  /-- Certificate material was supplied, which this server has no use for. -/
  | credentialsUnsupported
  | badAddress (text : String)
  | unbound (address : IpAddress) (port : Nat) (fault : SystemFault)
  /-- A listener was bound and cannot tell its address. -/
  | unnamed (fault : SystemFault)
deriving DecidableEq

namespace StartError

def report : StartError → Report
  | credentialsUnsupported =>
    ⟨.text "TLS credentials supplied but the \x60https\x60 feature is not enabled", []⟩
  | badAddress text =>
    Report.during ⟨.text "invalid IP address syntax", []⟩ ("invalid bind address " ++ text)
  | unbound address port fault =>
    Report.during ⟨.system fault, []⟩ ("binding " ++ address.text ++ " port " ++ toString port)
  | unnamed fault => ⟨.system fault, []⟩

end StartError

/-- A server that was started. -/
structure RunningServer where
  site : Site
  /-- Its listeners, in the order they were bound. -/
  listeners : List Listener
  pool : Pool

namespace RunningServer

/-- Stops accepting. Connections that are being served are not touched. -/
def stop (running : RunningServer) (host : Host) : Host := host.close running.listeners

end RunningServer

namespace Server

/-- The texts of the addresses to bind. -/
def bindTexts (config : ServerConfig) : List String :=
  (if config.ipv6 then [config.bindV6] else []) ++ (if config.ipv4 then [config.bindV4] else [])

/-- True for a failure that only means that the IPv6 listener serves IPv4 clients as well. -/
def isServedAlready (address : IpAddress) (bound : List Listener) (fault : SystemFault) : Bool :=
  address.isV4 && !bound.isEmpty && fault == .addressInUse

/-- Binds addresses in order, after those in `bound`. -/
def bindAll (port : Nat) : List String → List Listener → Host →
    Except StartError (List Listener) × Host
  | [], bound, host => (.ok bound, host)
  | text :: rest, bound, host =>
    match IpAddress.ofText? text with
    | none => (.error (.badAddress text), host)
    | some address =>
      match host.bind address port with
      | (.ok listener, host') =>
        match host.addressFault listener with
        | none => bindAll port rest (bound ++ [listener]) host'
        | some fault => (.error (.unnamed fault), host)
      | (.error fault, host') =>
        if isServedAlready address bound fault then bindAll port rest bound host'
        else (.error (.unbound address port fault), host')

/-- Starts a server on a machine. -/
def start (server : Server) (host : Host) : Except StartError RunningServer × Host :=
  if server.credentials.isSome then (.error .credentialsUnsupported, host)
  else
    match bindAll server.config.port (bindTexts server.config.server) [] host with
    | (.error e, host') => (.error e, host')
    | (.ok listeners, host') =>
      (.ok ⟨⟨server.registry, server.config.limits⟩, listeners,
        .ofSize server.config.server.workers⟩, host')

/-- Serves until the shutdown comes. No result means that the server is still serving. -/
def runUntil (server : Server) (shutdown : Bool) (host : Host) :
    Option (Except StartError Unit) × Host :=
  match server.start host with
  | (.error e, host') => (some (.error e), host')
  | (.ok running, host') =>
    if shutdown then (some (.ok ()), running.stop host') else (none, host')

end Server

end Provision
