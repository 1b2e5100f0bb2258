/-
  Provision.Proofs.Portal.Saving

  What a form that could not be saved leaves behind. The name of the network is written before its
  password, so a save may fail half done only where a store has the id of the one and not of the
  other: where its WiFi domain was registered with a single id (`Store.takes_name_only_iff`). There
  the new name stays behind, and everywhere else nothing does (`WifiSetup.kept_of_save_failed`).
-/
import Provision.Proofs.Portal.Credentials

namespace Provision

open Http

/-! ## Writes that are refused -/

namespace Store

variable {store store' : Store} {domain id : UInt8} {value : Bytes} {error : StoreError}

theorem write_eq_ok_iff :
    store.write domain id value = .ok store' ↔
      store.refusal domain id = none ∧ store' = store.put domain id value := by
  unfold write
  cases store.refusal domain id <;> simp [eq_comm]

theorem write_eq_error_iff :
    store.write domain id value = .error error ↔ store.refusal domain id = some error := by
  unfold write
  cases store.refusal domain id <;> simp

/-- Only the registered ids decide on a refusal, and no record changes them. -/
theorem refusal_put (other other' : UInt8) :
    (store.put domain id value).refusal other other' = store.refusal other other' := rfl

/-- The one store that takes the name of a network and not its password. -/
theorem takes_name_only_iff :
    store.refusal wifiDomain ssidId = none ∧ store.refusal wifiDomain passwordId = some error ↔
      store.idCount wifiDomain = some 1 ∧ error = .unknownId wifiDomain passwordId := by
  unfold refusal
  cases store.idCount wifiDomain with
  | none => simp
  | some count =>
    have hcount : ssidId < count ∧ ¬ passwordId < count ↔ count = 1 := by
      simp only [UInt8.lt_iff_toNat_lt, ← UInt8.toNat_inj, ssidId, passwordId, UInt8.toNat_zero,
        UInt8.toNat_one]
      omega
    by_cases hname : ssidId < count
    · by_cases hpassword : passwordId < count
      · simp [hname, hpassword, ← hcount]
      · simp [hname, hpassword, ← hcount, eq_comm]
    · simp [hname, ← hcount]

end Store

namespace WifiSetup

variable {site : Site} {request : Request} {page : Page} {showHome : Visit → VisitProgram}

/-- The device once the name of a network was stored on it, and not its password. -/
def nameStored (device : Device) (ssid : String) : Device :=
  { device with store := device.store.put Store.wifiDomain Store.ssidId (utf8 ssid) }

/-- What a save that failed has done: nothing, or it was stopped between its two writes. -/
theorem Saves.error_cases {source : Source} {device device' : Device} {e : HandlerError}
    (h : Saves request source device (.error e) device') :
    device' = device ∧ ¬ (device.store.idCount Store.wifiDomain = some 1 ∧
        ∃ ssid password, Holds request source ssid password) ∨
      device.store.idCount Store.wifiDomain = some 1 ∧
        e = .store (.unknownId Store.wifiDomain Store.passwordId) ∧
        ∃ ssid password, Holds request source ssid password ∧ device' = nameStored device ssid := by
  cases h with
  | refused hno => exact Or.inl ⟨rfl, fun hone => hno hone.2⟩
  | @ssidFailed _ _ error _ hfirst =>
    -- a single id is that of the name, so here there is none
    refine Or.inl ⟨rfl, fun hone => ?_⟩
    obtain ⟨hname, -⟩ := Store.takes_name_only_iff.mpr ⟨hone.1, rfl⟩
    rw [Store.write_eq_error_iff, hname] at hfirst
    cases hfirst
  | @passwordFailed ssid password store error hholds hfirst hsecond =>
    -- the name has been put by now, and that does not change which ids there are
    obtain ⟨hname, rfl⟩ := Store.write_eq_ok_iff.mp hfirst
    rw [Store.write_eq_error_iff, Store.refusal_put] at hsecond
    obtain ⟨hone, rfl⟩ := Store.takes_name_only_iff.mp ⟨hname, hsecond⟩
    exact Or.inr ⟨hone, rfl, ssid, password, hholds, rfl⟩

/-- A save that failed has left everything on the device as it was, unless the WiFi domain of its
    store has a single id and the form held credentials. Then the name has been stored, and the
    password is what it was. -/
theorem kept_of_save_failed {device device' : Device} {visit visit' : Visit} {e : HandlerError}
    (hfailed : device.run (save.perform site request page showHome visit) =
      (some (.error e, visit'), device')) :
    (device.store.idCount Store.wifiDomain ≠ some 1 → device' = device) ∧
    ((¬ ∃ ssid password, Holds request visit.transport.source ssid password) →
      device' = device) ∧
    (device.store.idCount Store.wifiDomain = some 1 → ∀ ssid password,
      Holds request visit.transport.source ssid password →
        e = .store (.unknownId Store.wifiDomain Store.passwordId) ∧
        device' = nameStored device ssid) ∧
    device'.store.record Store.wifiDomain Store.passwordId =
      device.store.record Store.wifiDomain Store.passwordId := by
  obtain ⟨saved, after, hrun, hsaves⟩ := run_save site request page showHome device visit
  rw [hfailed] at hrun
  obtain ⟨hresult, rfl⟩ := Prod.mk.inj hrun
  obtain ⟨rfl, -⟩ := Prod.mk.inj (Option.some.inj hresult)
  rcases hsaves.error_cases with ⟨rfl, hkept⟩ | ⟨hone, rfl, ssid, password, hholds, rfl⟩
  · refine ⟨fun _ => rfl, fun _ => rfl, fun hone ssid password hholds => ?_, rfl⟩
    exact absurd ⟨hone, ssid, password, hholds⟩ hkept
  · refine ⟨fun hother => absurd hone hother, fun hno => absurd ⟨ssid, password, hholds⟩ hno,
      fun _ ssid' password' hholds' => ?_, rfl⟩
    obtain ⟨rfl, -⟩ := hholds.unique hholds'
    exact ⟨rfl, rfl⟩

/-- A form that is saved on a store with all ids, where its password is too short, and on one with
    a single id, where it would do. -/
theorem kept_of_save_failed_portal :
    let site : Site := ⟨Portal.pages "device" "Setup" 2, .standard⟩
    let request : Request := ⟨.post, "/setwifi.html", 32⟩
    let short : Visit := .start (.ofBytes (utf8 "ssid=HomeNetwork\r\npassword=secret"))
    let long : Visit := .start (.ofBytes (utf8 "ssid=HomeNet\r\npassword=password1"))
    let run := fun (device : Device) (visit : Visit) =>
      device.run (save.perform site request WifiSetup.page (site.showHome request 1) visit)
    let whole : Device := ⟨.withWifiDomain, ⟨[], none, true, false⟩, .initial⟩
    let narrow : Device :=
      ⟨Store.empty.registerDomain Store.wifiDomain 1, ⟨[], none, true, false⟩, .initial⟩
    (run whole short).1.map Prod.fst = some (.error (tooShort ⟨"password", 8, "secret"⟩)) ∧
      (run whole short).2 = whole ∧
      (run narrow long).1.map Prod.fst = some (.error (.store (.unknownId 1 1))) ∧
      (run narrow long).2 = nameStored narrow "HomeNet" := by
  intro site request short long run whole narrow
  have hshort : (run whole short).1.map Prod.fst =
      some (.error (tooShort ⟨"password", 8, "secret"⟩)) := by decide +kernel
  have hlong : (run narrow long).1.map Prod.fst = some (.error (.store (.unknownId 1 1))) := by
    decide +kernel
  have hholds : Holds request long.transport.source "HomeNet" "password1" :=
    ⟨by decide +kernel, by decide, by decide⟩
  refine ⟨hshort, ?_, hlong, ?_⟩
  · obtain ⟨⟨result, visit⟩, hended, rfl⟩ := Option.map_eq_some_iff.mp hshort
    exact (kept_of_save_failed (Prod.ext hended rfl)).1 (by decide)
  · obtain ⟨⟨result, visit⟩, hended, rfl⟩ := Option.map_eq_some_iff.mp hlong
    exact ((kept_of_save_failed (Prod.ext hended rfl)).2.2.1 rfl "HomeNet" "password1" hholds).2

/-- Good credentials on a store with a single id: the save fails, and the new name stands without
    a password. -/
theorem half_saved :
    let site : Site := ⟨Portal.pages "device" "Setup" 2, .standard⟩
    let request : Request := ⟨.post, "/setwifi.html", 32⟩
    let visit : Visit := .start (.ofBytes (utf8 "ssid=HomeNet\r\npassword=password1"))
    let device : Device :=
      ⟨Store.empty.registerDomain Store.wifiDomain 1, ⟨[], none, true, false⟩, .initial⟩
    let outcome :=
      device.run (save.perform site request WifiSetup.page (site.showHome request 1) visit)
    outcome.1.map Prod.fst = some (.error (.store (.unknownId 1 1))) ∧
      outcome.2.store.record Store.wifiDomain Store.ssidId = some (utf8 "HomeNet") ∧
      ¬ (outcome.2.store.record Store.wifiDomain Store.ssidId =
          device.store.record Store.wifiDomain Store.ssidId ∧
        outcome.2.store.record Store.wifiDomain Store.passwordId =
          device.store.record Store.wifiDomain Store.passwordId) := by
  decide +kernel

end WifiSetup

end Provision
