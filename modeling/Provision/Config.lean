/-
  Provision.Config

  What a device is configured with. Everything has a default.
-/
import Provision.Limits
import Provision.Device.Credentials

namespace Provision

/-- How the server listens. -/
structure ServerConfig where
  port : Option Nat
  ipv4 : Bool
  ipv6 : Bool
  bindV4 : String
  bindV6 : String
  /-- The number of connections served at once. -/
  workers : Nat
deriving DecidableEq

/-- How the portal looks. -/
structure PortalConfig where
  banner : String
  /-- True when the device starts with its own access point up. -/
  accessPoint : Bool
  hostname : String
deriving DecidableEq

/-- What a device is configured with. -/
structure Config where
  server : ServerConfig
  limits : Limits
  portal : PortalConfig
  tls : Option TlsFiles
deriving DecidableEq

namespace Config

/-- Ports lie below this bound, the number of values of two bytes. -/
def portBound : Nat := 0x10000

def standard : Config where
  server := ⟨none, true, false, "0.0.0.0", "::", 3⟩
  limits := .standard
  portal := ⟨"Onboarding", true, "onboard"⟩
  tls := none

/-- The port that is listened on: what is set, or else the usual one. -/
def port (config : Config) : Nat :=
  config.server.port.getD (if config.tls.isSome then 443 else 80)

end Config

end Provision
