/-
  Provision.Proofs.Portal.Traffic

  Connections to the portal that are served at once, call by call on one device. Each of
  them goes through the same stages (`Progress`): it stores a network's name, then its
  password, stops the access point, and requests a reboot. A stage that was reached stays
  backed by the device whatever the others do, so the device is never taken off its access
  point without credentials to join a network with (`Traffic.usable_of_left_portal`).
-/
import Mathlib.Logic.Relation
import Provision.Proofs.Http.Form
import Provision.Proofs.Http.Stream
import Provision.Proofs.Portal.Dispatch

namespace Provision

open Http

/-! ## Connections side by side -/

/-- A device, and what is left of the connections that are being served on it. -/
structure Traffic where
  device : Device
  connections : List (DeviceProgram (Option Outcome))

/-- One step of a device with connections to the pages of a registry. -/
inductive Traffic.Step (registry : Registry) : Traffic → Traffic → Prop
  /-- One more connection comes. -/
  | accept (limits : Limits) (depth : Nat) (transport : Transport) (device : Device)
      (connections : List (DeviceProgram (Option Outcome))) :
      Step registry ⟨device, connections⟩
        ⟨device, connections ++ [Site.serve ⟨registry, limits⟩ depth transport]⟩
  /-- One of the connections makes its next call. -/
  | call (device : Device) (call : DeviceCall) (next : call.Reply → DeviceProgram (Option Outcome))
      (before after : List (DeviceProgram (Option Outcome))) :
      Step registry ⟨device, before ++ .ask call next :: after⟩
        ⟨(Device.answer call device).2, before ++ next (Device.answer call device).1 :: after⟩
  /-- Somebody else does something that leaves the settings of the device alone. -/
  | other {device device' : Device} (keeps : device.KeepsSettings device')
      (connections : List (DeviceProgram (Option Outcome))) :
      Step registry ⟨device, connections⟩ ⟨device', connections⟩

/-! ## Credentials on a device -/

/-- A value that the form takes for a credential of at least this many bytes. -/
structure IsCredential (least : Nat) (value : Bytes) : Prop where
  text : ∃ text, utf8 text = value
  long : least ≤ value.length
  short : value.length ≤ maxValueLength
  plain : ∀ b ∈ value, b ≠ Byte.cr ∧ b ≠ Byte.lf

namespace Device

/-- The bytes of a record in the WiFi domain. -/
def setting (device : Device) (id : UInt8) : Option Bytes :=
  device.store.record Store.wifiDomain id

/-- A setting is what reading its record answers. -/
theorem read_setting {device : Device}
    (h : device.store.idCount Store.wifiDomain = some Store.wifiIdCount) (id : UInt8)
    (hid : id < Store.wifiIdCount) :
    device.store.read Store.wifiDomain id = .ok (device.setting id) :=
  Store.read_eq_ok h id hid

/-- Both credentials are stored on the device, and it can join a network with them. -/
structure Usable (device : Device) : Prop where
  ssid : ∃ value, device.setting Store.ssidId = some value ∧ IsCredential 4 value
  password : ∃ value, device.setting Store.passwordId = some value ∧ IsCredential 8 value
  connects : ∃ wifi, device.wifi.connect device.store = .ok wifi

/-- What always holds of a device that serves its portal. -/
structure Sound (device : Device) : Prop where
  registered : device.store.idCount Store.wifiDomain = some Store.wifiIdCount
  /-- Only credentials are ever stored. -/
  ssid : ∀ value, device.setting Store.ssidId = some value → IsCredential 4 value
  password : ∀ value, device.setting Store.passwordId = some value → IsCredential 8 value
  /-- The access point stays up until there are credentials. -/
  down : device.wifi.accessPoint = false →
    (device.setting Store.ssidId).isSome ∧ (device.setting Store.passwordId).isSome
  /-- A reboot is requested last. -/
  reboot : device.reboot.requested = true → device.wifi.accessPoint = false

theorem Sound.usable {device : Device} (h : device.Sound)
    (hdown : device.wifi.accessPoint = false) : device.Usable := by
  obtain ⟨hssid, hpassword⟩ := h.down hdown
  obtain ⟨ssid, hssid⟩ := Option.isSome_iff_exists.mp hssid
  obtain ⟨password, hpassword⟩ := Option.isSome_iff_exists.mp hpassword
  refine ⟨⟨ssid, hssid, h.ssid ssid hssid⟩,
    ⟨password, hpassword, h.password password hpassword⟩, ?_⟩
  refine ⟨_, Wifi.connect_eq_ok_iff.mpr ⟨⟨ssid, password, ?_, ?_⟩, rfl⟩⟩
  · rw [read_setting h.registered Store.ssidId (by decide), hssid]
  · rw [read_setting h.registered Store.passwordId (by decide), hpassword]

end Device

/-! ## The stages of a connection -/

/-- How far a connection has come in taking the device off its access point. -/
inductive Progress where
  | start
  /-- The network's name was stored. -/
  | named
  /-- Both credentials were stored. -/
  | stored
  /-- The access point was stopped. -/
  | left

namespace Progress

/-- What a connection that has come this far relies on. -/
def Backed (device : Device) : Progress → Prop
  | start => True
  | named => (device.setting Store.ssidId).isSome
  | stored => (device.setting Store.ssidId).isSome ∧ (device.setting Store.passwordId).isSome
  | left => ((device.setting Store.ssidId).isSome ∧ (device.setting Store.passwordId).isSome) ∧
      device.wifi.accessPoint = false

/-- The calls that a connection makes at each stage. -/
inductive Allows : Progress → DeviceCall → Prop
  | harmless {progress : Progress} {call : DeviceCall} (h : call.Harmless) : Allows progress call
  | name {value : Bytes} (h : IsCredential 4 value) :
      Allows start (.write Store.wifiDomain Store.ssidId value)
  | password {value : Bytes} (h : IsCredential 8 value) :
      Allows named (.write Store.wifiDomain Store.passwordId value)
  | leave : Allows stored .disableAccessPoint
  | reboot : Allows left .requestReboot

/-- The stage after a call was answered. -/
def next : Progress → (call : DeviceCall) → call.Reply → Progress
  | start, .write .., .ok () => named
  | named, .write .., .ok () => stored
  | stored, .disableAccessPoint, () => left
  | progress, _, _ => progress

/-- What calls of connections leave of what others rely on. -/
structure Keeps (before after : Device) : Prop where
  setting : ∀ id, (before.setting id).isSome → (after.setting id).isSome
  down : before.wifi.accessPoint = false → after.wifi.accessPoint = false

theorem Backed.mono {before after : Device} {progress : Progress} (h : progress.Backed before)
    (hkeeps : Keeps before after) : progress.Backed after := by
  cases progress with
  | start => trivial
  | named => exact hkeeps.setting _ h
  | stored => exact ⟨hkeeps.setting _ h.1, hkeeps.setting _ h.2⟩
  | left => exact ⟨⟨hkeeps.setting _ h.1.1, hkeeps.setting _ h.1.2⟩, hkeeps.down h.2⟩

theorem next_of_harmless {call : DeviceCall} (h : call.Harmless) (progress : Progress)
    (reply : call.Reply) : progress.next call reply = progress := by
  cases call with
  | read | scan | connect | hasAccessPoint => cases progress <;> rfl
  | _ => exact h.elim

end Progress

namespace Device

theorem Sound.of_keepsSettings {before after : Device} (h : before.Sound)
    (hkeeps : before.KeepsSettings after) : after.Sound ∧ Progress.Keeps before after := by
  have hsetting : after.setting = before.setting := by
    funext id
    rw [setting, setting, hkeeps.store]
  refine ⟨⟨?_, ?_, ?_, ?_, ?_⟩, ?_, ?_⟩
  · rw [hkeeps.store]
    exact h.registered
  · rw [hsetting]
    exact h.ssid
  · rw [hsetting]
    exact h.password
  · rw [hsetting, hkeeps.accessPoint]
    exact h.down
  · rw [hkeeps.requested, hkeeps.accessPoint]
    exact h.reboot
  · rw [hsetting]
    exact fun _ => id
  · rw [hkeeps.accessPoint]
    exact id

/-- The device with a record of the WiFi domain written. -/
def put (device : Device) (id : UInt8) (value : Bytes) : Device :=
  { device with store := device.store.put Store.wifiDomain id value }

theorem setting_put (device : Device) (id other : UInt8) (value : Bytes) :
    (device.put id value).setting other =
      if other = id then some value else device.setting other := by
  simp [setting, put, Store.put]

theorem answer_write {device : Device}
    (h : device.store.idCount Store.wifiDomain = some Store.wifiIdCount) (id : UInt8)
    (hid : id < Store.wifiIdCount) (value : Bytes) :
    answer (.write Store.wifiDomain id value) device = (.ok (), device.put id value) := by
  rw [answer, Store.write_eq_ok h id hid]
  rfl

theorem keeps_put (device : Device) (id : UInt8) (value : Bytes) :
    Progress.Keeps device (device.put id value) := by
  refine ⟨fun other hother => ?_, fun hdown => hdown⟩
  rw [setting_put]
  split
  · rfl
  · exact hother

/-- Storing a credential keeps a device sound. -/
theorem Sound.put {device : Device} (h : device.Sound) {id : UInt8} {value : Bytes}
    (hssid : id = Store.ssidId → IsCredential 4 value)
    (hpassword : id = Store.passwordId → IsCredential 8 value) : (device.put id value).Sound := by
  have hkeeps := device.keeps_put id value
  refine ⟨h.registered, fun stored hstored => ?_, fun stored hstored => ?_, fun hdown => ?_,
    h.reboot⟩
  · rw [setting_put] at hstored
    split_ifs at hstored with hid
    · exact Option.some.inj hstored ▸ hssid hid.symm
    · exact h.ssid stored hstored
  · rw [setting_put] at hstored
    split_ifs at hstored with hid
    · exact Option.some.inj hstored ▸ hpassword hid.symm
    · exact h.password stored hstored
  · obtain ⟨hssid, hpassword⟩ := h.down hdown
    exact ⟨hkeeps.setting _ hssid, hkeeps.setting _ hpassword⟩

/-- A call that a stage allows leads to the next, and keeps the device sound. -/
theorem Sound.answer {device : Device} {progress : Progress} {call : DeviceCall}
    (hsound : device.Sound) (hbacked : progress.Backed device) (hallows : progress.Allows call) :
    (Device.answer call device).2.Sound ∧ Progress.Keeps device (Device.answer call device).2 ∧
      (progress.next call (Device.answer call device).1).Backed (Device.answer call device).2 := by
  cases hallows with
  | harmless h =>
    obtain ⟨hsound', hkeeps⟩ := hsound.of_keepsSettings (h.keepsSettings device)
    rw [Progress.next_of_harmless h]
    exact ⟨hsound', hkeeps, hbacked.mono hkeeps⟩
  | @name value h =>
    rw [answer_write hsound.registered Store.ssidId (by decide)]
    refine ⟨hsound.put (fun _ => h) (absurd · (by decide)), device.keeps_put _ value, ?_⟩
    simp [Progress.next, Progress.Backed, setting_put]
  | @password value h =>
    rw [answer_write hsound.registered Store.passwordId (by decide)]
    -- writing the password leaves the name that was stored before
    have hkeeps := device.keeps_put Store.passwordId value
    refine ⟨hsound.put (absurd · (by decide)) fun _ => h, hkeeps, hkeeps.setting _ hbacked, ?_⟩
    simp [setting_put]
  | leave =>
    refine ⟨⟨hsound.registered, hsound.ssid, hsound.password, fun _ => hbacked, fun _ => rfl⟩,
      ?_, ?_⟩
    · exact ⟨fun _ => id, fun _ => rfl⟩
    · exact ⟨hbacked, rfl⟩
  | reboot =>
    refine ⟨⟨hsound.registered, hsound.ssid, hsound.password, hsound.down,
      fun _ => hbacked.2⟩, ?_, ?_⟩
    · exact ⟨fun _ => id, id⟩
    · exact hbacked

end Device

/-! ## Programs that go from stage to stage -/

namespace Progress

variable {α β : Type} {post : Progress → α → Prop} {progress : Progress}

/-- From this stage on, the program makes no call that its stage does not allow, and what it
    ends with suits the stage that it has come to. -/
def Careful (post : Progress → α → Prop) : Progress → DeviceProgram α → Prop
  | progress, .done result => post progress result
  | progress, .ask call go =>
    progress.Allows call ∧ ∀ reply, Careful post (progress.next call reply) (go reply)

theorem careful_bind {mid : Progress → α → Prop} {post : Progress → β → Prop}
    {program : DeviceProgram α} {go : α → DeviceProgram β} (h : Careful mid progress program)
    (hgo : ∀ progress result, mid progress result → Careful post progress (go result)) :
    Careful post progress (program.bind go) := by
  induction program generalizing progress with
  | done result => exact hgo progress result h
  | ask call next ih => exact ⟨h.1, fun reply => ih reply (h.2 reply)⟩

theorem careful_bindSome {mid : Progress → Option α → Prop} {post : Progress → Option β → Prop}
    {program : DeviceProgram (Option α)} {go : α → DeviceProgram (Option β)}
    (h : Careful mid progress program) (hnone : ∀ progress, post progress none)
    (hgo : ∀ progress result, mid progress (some result) → Careful post progress (go result)) :
    Careful post progress (program.bindSome go) := by
  refine careful_bind h fun reached result hresult => ?_
  cases result with
  | none => exact hnone reached
  | some result => exact hgo reached result hresult

/-- A program that changes no setting stays at its stage. -/
theorem careful_of_harmless {program : DeviceProgram α}
    (h : program.OnlyAsks DeviceCall.Harmless) (hpost : ∀ result, post progress result) :
    Careful post progress program := by
  induction program with
  | done result => exact hpost result
  | ask call next ih =>
    refine ⟨.harmless h.1, fun reply => ?_⟩
    rw [next_of_harmless h.1]
    exact ih reply (h.2 reply)

end Progress

/-! ## The form that is posted -/

namespace WifiSetup

/-- A form that holds credentials holds values that can be stored. -/
theorem Holds.isCredential {request : Request} {source : Source} {ssid password : String}
    (h : Holds request source ssid password) :
    IsCredential 4 (utf8 ssid) ∧ IsCredential 8 (utf8 password) := by
  obtain ⟨-, hparse⟩ := Form.read_eq_ok_iff.mp h.read
  have hcredential : ∀ {least : Nat} {value : String}, 0 < least → least ≤ value.utf8ByteSize →
      (value = "" ∨ value.utf8ByteSize ≤ maxValueLength ∧
        ∀ b ∈ utf8 value, Byte.isBreak b = false) → IsCredential least (utf8 value) := by
    intro least value hpos hlong hvalue
    rcases hvalue with rfl | ⟨hshort, hplain⟩
    · -- an empty value is too short
      have hempty : "".utf8ByteSize = 0 := rfl
      omega
    · refine ⟨⟨value, rfl⟩, by rwa [length_utf8], by rwa [length_utf8], fun b hb => ?_⟩
      simpa [Byte.isBreak] using hplain b hb
  refine ⟨hcredential (by decide) h.ssid_long ?_, hcredential (by decide) h.password_long ?_⟩
  · exact Form.value_of_parse_eq_ok hparse 0 rfl rfl
  · exact Form.value_of_parse_eq_ok hparse 1 rfl rfl

end WifiSetup

/-! ## Connections go from stage to stage -/

variable (site : Site) (request : Request) (page : Page) (showHome : Visit → VisitProgram)

namespace WifiSetup

open Progress

/-- A setting that was stored takes the connection to the next stage. -/
theorem careful_storeSetting {progress after : Progress} {id : UInt8} {value : Bytes}
    (hallows : progress.Allows (.write Store.wifiDomain id value))
    (hnext : progress.next (.write Store.wifiDomain id value) (.ok ()) = after) (visit : Visit) :
    Careful (fun reached returned => ∀ visit', returned = some (.ok (), visit') → reached = after)
      progress ((storeSetting id value).perform site request page showHome visit) := by
  refine ⟨hallows, fun reply => ?_⟩
  cases reply with
  | error e => exact fun visit' hok => by cases hok
  | ok => exact fun _ _ => hnext

theorem careful_storeCredentials {ssid password : Bytes} (hssid : IsCredential 4 ssid)
    (hpassword : IsCredential 8 password) (visit : Visit) :
    Careful (fun reached returned => ∀ visit', returned = some (.ok (), visit') → reached = stored)
      start ((storeCredentials ssid password).perform site request page showHome visit) := by
  unfold storeCredentials
  rw [Handler.perform_bind]
  have hfirst := careful_storeSetting site request page showHome (.name hssid) rfl visit
  refine careful_bindSome hfirst (fun _ _ hok => by cases hok) fun progress returned hreached => ?_
  obtain ⟨result, visit'⟩ := returned
  cases result with
  | error e => exact fun _ hok => by cases hok
  | ok =>
    obtain rfl := hreached visit' rfl
    exact careful_storeSetting site request page showHome (.password hpassword) rfl visit'

theorem careful_save (visit : Visit) :
    Careful (fun reached returned => ∀ visit', returned = some (.ok (), visit') → reached = stored)
      start (save.perform site request page showHome visit) := by
  unfold save
  simp only [Handler.perform]
  cases hread : (visit.readForm request fields).1 with
  | error e => exact fun _ hok => by cases hok
  | ok read =>
    have hform : (Form.read fields request.contentLength visit.transport.source).1 = .ok read :=
      hread
    obtain ⟨ssid, password, rfl⟩ := exists_eq_filled request hform
    dsimp only
    split
    · exact fun _ hok => by cases hok
    · rename_i hfind
      obtain ⟨hssid, hpassword⟩ := find?_filled_eq_none_iff.mp hfind
      have hholds : Holds request visit.transport.source ssid password := ⟨hform, hssid, hpassword⟩
      obtain ⟨hssid, hpassword⟩ := hholds.isCredential
      exact careful_storeCredentials site request page showHome hssid hpassword _

/-- A POST leaves the portal only once both credentials are stored. -/
theorem careful_onPost (hhome : ∀ visit, (showHome visit).OnlyAsks DeviceCall.Harmless)
    (visit : Visit) :
    Careful (fun _ _ => True) start (onPost.perform site request page showHome visit) := by
  unfold onPost
  rw [Handler.perform_bind]
  refine careful_bindSome (careful_save site request page showHome visit) (fun _ => trivial) ?_
  rintro progress ⟨saved, visit'⟩ hsaved
  simp only [Handler.perform]
  -- showing the home page leaves the connection at its stage
  have hshown : Careful (fun reached _ => reached = progress) progress (showHome visit') :=
    careful_of_harmless (hhome visit') fun _ => rfl
  refine careful_bindSome hshown (fun _ => trivial) ?_
  rintro _ ⟨shown, after⟩ rfl
  cases saved with
  | error e => trivial
  | ok =>
    obtain rfl := hsaved visit' rfl
    exact ⟨.leave, fun _ => ⟨.reboot, fun _ => trivial⟩⟩

end WifiSetup

namespace Site

open Progress

variable {site} {hostname banner : String} {maxPages depth : Nat}

/-- A page that only shows itself makes no call that matters. -/
theorem harmless_perform {handler : Handler} (h : handler.OnlyAsks PageCall.Plain) (visit : Visit) :
    (handler.perform site request page showHome visit).OnlyAsks DeviceCall.Harmless :=
  Handler.onlyAsks_perform site request page (fun _ => id) False.elim h visit

theorem harmless_showHome (hhome : site.registry.homePage = some (Home.page hostname)) (depth : Nat)
    (visit : Visit) : (site.showHome request depth visit).OnlyAsks DeviceCall.Harmless := by
  cases depth with
  | zero => trivial
  | succ depth =>
    rw [Site.showHome, hhome]
    exact harmless_perform request _ _ (Home.plain_onGet hostname) visit

theorem careful_answerWith {found : Option Page} {visit : Visit}
    (h : ∀ p, (found.filter fun p => p.supports request.method) = some p →
      Careful (fun _ _ => True) start (site.visitPage depth request p visit)) :
    Careful (fun _ _ => True) start (site.answerWith depth request found visit) := by
  unfold answerWith
  split
  · trivial
  · exact careful_bindSome (h _ ‹_›) (fun _ => trivial) fun _ _ _ => trivial

theorem careful_answerWith_get {found : Option Page}
    (hfound : ∀ p, found = some p → p ∈ (Portal.pages hostname banner maxPages).pages)
    (hmethod : request.method = .get) (visit : Visit) :
    Careful (fun _ _ => True) start (site.answerWith depth request found visit) := by
  refine careful_answerWith request fun p hfilter => ?_
  have hmem := hfound p (Option.eq_some_of_filter_eq_some hfilter)
  have hplain := plain_handler_get hmem hmethod
  exact careful_of_harmless (harmless_perform request p _ hplain visit) fun _ => trivial

theorem careful_answerWith_post (hregistry : site.registry = Portal.pages hostname banner maxPages)
    (hmethod : request.method = .post) (visit : Visit) :
    Careful (fun _ _ => True) start
      (site.answerWith depth request (site.registry.findByPath request.path) visit) := by
  have hhome := Portal.homePage_of_eq_pages hregistry
  refine careful_answerWith request fun p hfilter => ?_
  -- no page but the captive portal answers a POST
  rw [hmethod, hregistry, filter_findByPath_post] at hfilter
  split_ifs at hfilter
  obtain rfl := Option.some.inj hfilter
  unfold visitPage
  rw [hmethod]
  exact WifiSetup.careful_onPost site request WifiSetup.page _
    (fun visit' => harmless_showHome request hhome _ visit') visit

theorem careful_dispatch (hregistry : site.registry = Portal.pages hostname banner maxPages)
    (visit : Visit) : Careful (fun _ _ => True) start (site.dispatch depth request visit) := by
  unfold dispatch
  split
  · trivial
  · rename_i hmethod
    rw [hregistry]
    split
    · refine ⟨.harmless trivial, fun accessPoint => ?_⟩
      exact careful_answerWith_get request (fun p hp => Registry.mem_of_findRoot hp) hmethod visit
    · exact careful_answerWith_get request (fun p hp => mem_of_findByPath_pages hp) hmethod visit
  · exact careful_answerWith_post request hregistry ‹_› visit

/-- A connection to the portal goes from stage to stage. -/
theorem careful_serve (hregistry : site.registry = Portal.pages hostname banner maxPages)
    (transport : Transport) : Careful (fun _ _ => True) start (site.serve depth transport) := by
  unfold serve
  split
  · trivial
  · exact careful_bindSome (careful_dispatch _ hregistry _) (fun _ => trivial)
      fun _ _ _ => trivial

end Site

/-! ## Any number of connections -/

namespace Traffic

variable {registry : Registry} {traffic traffic' : Traffic}

/-- What always holds while connections are served: the device is sound, and each connection
    is at a stage that the device backs. -/
structure Sound (traffic : Traffic) : Prop where
  device : traffic.device.Sound
  connections : ∀ connection ∈ traffic.connections, ∃ progress : Progress,
    progress.Backed traffic.device ∧ Progress.Careful (fun _ _ => True) progress connection

theorem Sound.step {hostname banner : String} {maxPages : Nat} (h : traffic.Sound)
    (hstep : Step (Portal.pages hostname banner maxPages) traffic traffic') : traffic'.Sound := by
  obtain ⟨hdevice, hconnections⟩ := h
  -- whatever the device keeps of what a connection relies on, it keeps for all of them
  have hothers : ∀ {after : Device} {connections : List (DeviceProgram (Option Outcome))},
      (∀ connection ∈ connections, ∃ progress : Progress, progress.Backed traffic.device ∧
        Progress.Careful (fun _ _ => True) progress connection) →
      Progress.Keeps traffic.device after →
      ∀ connection ∈ connections, ∃ progress : Progress, progress.Backed after ∧
        Progress.Careful (fun _ _ => True) progress connection := by
    intro after connections h hkeeps connection hmem
    obtain ⟨progress, hbacked, hcareful⟩ := h connection hmem
    exact ⟨progress, hbacked.mono hkeeps, hcareful⟩
  cases hstep with
  | accept limits depth transport device connections =>
    refine ⟨hdevice, List.forall_mem_append.mpr ⟨hconnections, ?_⟩⟩
    exact List.forall_mem_singleton.mpr ⟨.start, trivial, Site.careful_serve rfl transport⟩
  | call device call next before after =>
    rw [List.forall_mem_append, List.forall_mem_cons] at hconnections
    obtain ⟨hbefore, ⟨progress, hbacked, hallows, hnext⟩, hafter⟩ := hconnections
    obtain ⟨hsound, hkeeps, hbacked'⟩ := hdevice.answer hbacked hallows
    refine ⟨hsound, List.forall_mem_append.mpr ⟨hothers hbefore hkeeps, ?_⟩⟩
    exact List.forall_mem_cons.mpr ⟨⟨_, hbacked', hnext _⟩, hothers hafter hkeeps⟩
  | other keeps connections =>
    obtain ⟨hsound, hkeeps⟩ := hdevice.of_keepsSettings keeps
    exact ⟨hsound, hothers hconnections hkeeps⟩

theorem Sound.reachable {hostname banner : String} {maxPages : Nat} (h : traffic.Sound)
    (hreach : Relation.ReflTransGen (Step (Portal.pages hostname banner maxPages)) traffic
      traffic') : traffic'.Sound := by
  induction hreach with
  | refl => exact h
  | tail _ hstep ih => exact ih.step hstep

/-- A device in its portal, with nothing stored for its radio. -/
structure Fresh (device : Device) : Prop where
  registered : device.store.idCount Store.wifiDomain = some Store.wifiIdCount
  empty : ∀ id, device.setting id = none
  accessPoint : device.wifi.accessPoint = true
  reboot : device.reboot.requested = false

theorem Fresh.sound {device : Device} (h : Fresh device) : Sound ⟨device, []⟩ := by
  refine ⟨⟨h.registered, ?_, ?_, ?_, ?_⟩, by simp⟩
  · simp [h.empty]
  · simp [h.empty]
  · simp [h.accessPoint]
  · simp [h.reboot]

/-- A connection can be served to its end while the others wait. -/
theorem reaches_run (registry : Registry) (device : Device)
    (program : DeviceProgram (Option Outcome))
    (before after : List (DeviceProgram (Option Outcome))) :
    Relation.ReflTransGen (Step registry) ⟨device, before ++ program :: after⟩
      ⟨(device.run program).2, before ++ .done (device.run program).1 :: after⟩ := by
  induction program generalizing device with
  | done result => exact .refl
  | ask call next ih => exact (ih _ _).head (.call device call next before after)

/-- Whatever connections the portal serves at once, the device leaves its access point and
    asks for a reboot only with credentials that it can join a network with, and the access
    point goes first. -/
theorem usable_of_left_portal {hostname banner : String} {maxPages : Nat}
    (hregister : Portal.register hostname (.empty banner maxPages) = (.ok (), registry))
    {device : Device} (hfresh : Fresh device)
    (hreach : Relation.ReflTransGen (Step registry) ⟨device, []⟩ traffic) :
    (traffic.device.wifi.accessPoint = false ∨ traffic.device.reboot.requested = true →
      traffic.device.Usable) ∧
    (traffic.device.reboot.requested = true → traffic.device.wifi.accessPoint = false) := by
  obtain rfl := Portal.eq_pages_of_register hregister
  have hsound := (hfresh.sound.reachable hreach).device
  refine ⟨?_, hsound.reboot⟩
  rintro (hdown | hrequested)
  · exact hsound.usable hdown
  · exact hsound.usable (hsound.reboot hrequested)

/-- The form of a browser, served while the form page is asked for and waits. -/
theorem usable_of_left_portal_browser :
    let device : Device := ⟨.withWifiDomain, ⟨[], none, true, false⟩, .initial⟩
    ∃ traffic, Relation.ReflTransGen (Step (Portal.pages "device" "Setup" 2)) ⟨device, []⟩ traffic ∧
      traffic.connections.length = 2 ∧ traffic.device.wifi.accessPoint = false ∧
      traffic.device.Usable := by
  intro device
  let ask : Transport := .ofBytes (utf8 "GET /setwifi.html HTTP/1.1\r\n\r\n")
  let post : Transport := .ofBytes (utf8 ("POST /setwifi.html HTTP/1.1\r\n" ++
    "Content-Length: 28\r\n\r\nssid=home\r\npassword=12345678"))
  let site : Site := ⟨Portal.pages "device" "Setup" 2, .standard⟩
  have hregister : Portal.register "device" (.empty "Setup" 2) =
      (.ok (), Portal.pages "device" "Setup" 2) := rfl
  have hfresh : Fresh device := ⟨rfl, fun _ => rfl, rfl, rfl⟩
  have hdown : (device.run (site.serve 1 post)).2.wifi.accessPoint = false := by decide +kernel
  -- both connections come, and then only the one that posts goes on
  have hreach : Relation.ReflTransGen (Step (Portal.pages "device" "Setup" 2)) ⟨device, []⟩
      ⟨(device.run (site.serve 1 post)).2,
        [site.serve 1 ask, .done (device.run (site.serve 1 post)).1]⟩ :=
    .head (.accept .standard 1 ask device []) <| .head (.accept .standard 1 post device _) <|
      reaches_run _ device (site.serve 1 post) [site.serve 1 ask] []
  exact ⟨_, hreach, rfl, hdown, (usable_of_left_portal hregister hfresh hreach).1 (.inl hdown)⟩

end Traffic

end Provision
