/-
  Provision.Device.Wifi

  The device's radio: the networks a scan finds, whether the device runs its own
  access point, and whether it has joined a network with the stored credentials.
-/
import Provision.Device.Store

namespace Provision

/-- Why the radio could not do what it was asked. -/
inductive WifiError where
  /-- The credentials are not both stored. -/
  | notConfigured
  | scan (reason : String)
  | store (error : StoreError)
deriving DecidableEq

namespace WifiError

def message : WifiError → String
  | notConfigured => "no credentials stored"
  | scan reason => "scan failed: " ++ reason
  | store error => "store: " ++ error.message

end WifiError

/-- The radio of a device. -/
structure Wifi where
  networks : List String
  /-- The reason why scans fail, if they do. -/
  scanFault : Option String
  /-- True while the device runs its own access point. -/
  accessPoint : Bool
  connected : Bool
deriving DecidableEq

namespace Wifi

def scan (wifi : Wifi) : Except WifiError (List String) :=
  match wifi.scanFault with
  | some reason => .error (.scan reason)
  | none => .ok wifi.networks

def setAccessPoint (wifi : Wifi) (up : Bool) : Wifi := { wifi with accessPoint := up }

/-- Joins the network whose name and password are stored. -/
def connect (wifi : Wifi) (store : Store) : Except WifiError Wifi :=
  match store.read Store.wifiDomain Store.ssidId with
  | .error e => .error (.store e)
  | .ok ssid =>
    match store.read Store.wifiDomain Store.passwordId with
    | .error e => .error (.store e)
    | .ok password =>
      if ssid.isSome && password.isSome then .ok { wifi with connected := true }
      else .error .notConfigured

end Wifi

end Provision
