/-
  Provision.Device

  A device: its records, its radio and its reboot request. Pages reach it only by
  the calls of `DeviceCall`, each of which is one atomic step; `Device.answer` says
  what a call answers and what it changes.
-/
import Provision.Program
import Provision.Device.Store
import Provision.Device.Wifi
import Provision.Device.RebootSignal

namespace Provision

/-- A device. -/
structure Device where
  store : Store
  wifi : Wifi
  reboot : RebootSignal

/-- One call on a device. -/
inductive DeviceCall where
  | read (domain id : UInt8)
  | write (domain id : UInt8) (value : Bytes)
  | factoryReset
  | scan
  /-- Joins the network whose credentials are stored. -/
  | connect
  | hasAccessPoint
  | enableAccessPoint
  | disableAccessPoint
  | requestReboot
deriving DecidableEq

/-- The type of the answer to a call. -/
abbrev DeviceCall.Reply : DeviceCall → Type
  | .read .. => Except StoreError (Option Bytes)
  | .write .. => Except StoreError Unit
  | .factoryReset => Unit
  | .scan => Except WifiError (List String)
  | .connect => Except WifiError Unit
  | .hasAccessPoint => Bool
  | .enableAccessPoint => Unit
  | .disableAccessPoint => Unit
  | .requestReboot => Unit

abbrev DeviceProgram := Program DeviceCall.Reply

namespace Device

def answer : (call : DeviceCall) → Device → call.Reply × Device
  | .read domain id, device => (device.store.read domain id, device)
  | .write domain id value, device =>
    match device.store.write domain id value with
    | .error e => (.error e, device)
    | .ok store => (.ok (), { device with store := store })
  | .factoryReset, device => ((), { device with store := device.store.factoryReset })
  | .scan, device => (device.wifi.scan, device)
  | .connect, device =>
    match device.wifi.connect device.store with
    | .error e => (.error e, device)
    | .ok wifi => (.ok (), { device with wifi := wifi })
  | .hasAccessPoint, device => (device.wifi.accessPoint, device)
  | .enableAccessPoint, device => ((), { device with wifi := device.wifi.setAccessPoint true })
  | .disableAccessPoint, device => ((), { device with wifi := device.wifi.setAccessPoint false })
  | .requestReboot, device => ((), { device with reboot := device.reboot.request })

/-- Runs a program on a device to its end. -/
def run {α : Type} (device : Device) (program : DeviceProgram α) : α × Device :=
  program.run answer device

end Device

end Provision
