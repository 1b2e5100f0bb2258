/-
  Provision.Proofs.Device

  What calls change on a device. Its settings are the records, the access point and the
  reboot request; most calls leave all of them alone (`DeviceCall.Harmless`). The radio
  joins a network exactly if both credentials are stored (`Wifi.connect_eq_ok_iff`).
-/
import Provision.Device
import Provision.Proofs.Program

namespace Provision

/-! ## Running a program -/

/-- A program that goes on where another has come to a result. -/
theorem Device.run_bindSome {α β : Type} (device : Device) (program : DeviceProgram (Option α))
    (go : α → DeviceProgram (Option β)) :
    device.run (program.bindSome go) =
      match device.run program with
      | (none, device') => (none, device')
      | (some result, device') => device'.run (go result) := by
  unfold run
  rw [Program.run_bindSome]
  rcases program.run answer device with ⟨_ | result, device'⟩ <;> rfl

/-! ## Records -/

namespace Store

/-- A store whose WiFi domain has its ids refuses none of them. -/
theorem refusal_eq_none {store : Store} (h : store.idCount wifiDomain = some wifiIdCount)
    {id : UInt8} (hid : id < wifiIdCount) : store.refusal wifiDomain id = none := by
  simp [refusal, h, hid]

theorem write_eq_ok {store : Store} (h : store.idCount wifiDomain = some wifiIdCount) (id : UInt8)
    (hid : id < wifiIdCount) (value : Bytes) :
    store.write wifiDomain id value = .ok (store.put wifiDomain id value) := by
  rw [write, refusal_eq_none h hid]

theorem read_eq_ok {store : Store} (h : store.idCount wifiDomain = some wifiIdCount) (id : UInt8)
    (hid : id < wifiIdCount) : store.read wifiDomain id = .ok (store.record wifiDomain id) := by
  rw [read, refusal_eq_none h hid]

end Store

/-! ## Joining a network -/

theorem Wifi.connect_eq_ok_iff {wifi wifi' : Wifi} {store : Store} :
    wifi.connect store = .ok wifi' ↔
      (∃ ssid password, store.read Store.wifiDomain Store.ssidId = .ok (some ssid) ∧
        store.read Store.wifiDomain Store.passwordId = .ok (some password)) ∧
      { wifi with connected := true } = wifi' := by
  unfold connect
  cases store.read Store.wifiDomain Store.ssidId with
  | error e => simp
  | ok ssid =>
    cases store.read Store.wifiDomain Store.passwordId with
    | error e => simp
    | ok password => cases ssid <;> cases password <;> simp

/-! ## Calls that change no setting -/

/-- The settings of a device stay: its records, its access point and its reboot request. -/
structure Device.KeepsSettings (before after : Device) : Prop where
  store : after.store = before.store
  accessPoint : after.wifi.accessPoint = before.wifi.accessPoint
  requested : after.reboot.requested = before.reboot.requested

/-- The calls that change no setting. -/
def DeviceCall.Harmless : DeviceCall → Prop
  | read .. | scan | connect | hasAccessPoint => True
  | write .. | factoryReset | enableAccessPoint | disableAccessPoint | requestReboot => False

theorem DeviceCall.Harmless.keepsSettings {call : DeviceCall} (h : call.Harmless)
    (device : Device) : device.KeepsSettings (Device.answer call device).2 := by
  cases call with
  | read | scan | hasAccessPoint => exact ⟨rfl, rfl, rfl⟩
  | connect =>
    rw [Device.answer]
    cases hconnect : device.wifi.connect device.store with
    | error e => exact ⟨rfl, rfl, rfl⟩
    | ok wifi =>
      obtain ⟨-, rfl⟩ := Wifi.connect_eq_ok_iff.mp hconnect
      exact ⟨rfl, rfl, rfl⟩
  | _ => exact h.elim

end Provision
