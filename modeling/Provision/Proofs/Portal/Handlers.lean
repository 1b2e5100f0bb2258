/-
  Provision.Proofs.Portal.Handlers

  What the handlers of the two pages do to a device and a connection, each run to its
  end. The two that answer a GET leave the device alone. The one that answers a POST
  reads the form, stores credentials if it holds some, shows the home page either way,
  and leaves the portal only if they were stored (`run_onPost`).
-/
import Provision.Portal
import Provision.Proofs.Page.Calls
import Provision.Proofs.Page.Visit

namespace Provision

open Http

variable (site : Site) (request : Request) (page : Page) (showHome : Visit → VisitProgram)

/-! ## The home page -/

namespace Home

/-- A body that the home page can have on a device with these records. -/
def Shows (hostname : String) (store : Store) (body : String) : Prop :=
  ∃ stored ssid, store.read Store.wifiDomain Store.hostnameId = .ok stored ∧
    store.read Store.wifiDomain Store.ssidId = .ok ssid ∧
    body = render ((stored.map Utf8.decodeLossy).getD hostname) (ssid.map Utf8.decodeLossy)

theorem run_onGet (hostname : String) (device : Device) (visit : Visit) :
    ∃ result after,
      device.run ((onGet hostname).perform site request page showHome visit) =
        (some (result, after), device) ∧
      visit.Answered site page.title (Shows hostname device.store) result after := by
  unfold onGet
  simp only [Handler.perform, Device.run, Program.run, Device.answer]
  cases hname : device.store.read Store.wifiDomain Store.hostnameId with
  | error e => exact ⟨_, _, rfl, Or.inl ⟨rfl, by simp⟩⟩
  | ok stored =>
    simp only [Handler.perform, Program.run, Device.answer]
    cases hssid : device.store.read Store.wifiDomain Store.ssidId with
    | error e => exact ⟨_, _, rfl, Or.inl ⟨rfl, by simp⟩⟩
    | ok ssid =>
      obtain ⟨result, after, hperform, hanswered⟩ :=
        Handler.perform_sendPage site request page showHome
          (render ((stored.map Utf8.decodeLossy).getD hostname) (ssid.map Utf8.decodeLossy)) visit
      simp only [hperform, Program.run]
      refine ⟨result, after, rfl, ?_⟩
      rcases hanswered with hunsent | ⟨body, rfl, hsent⟩
      · exact Or.inl hunsent
      · exact Or.inr ⟨_, ⟨stored, ssid, hname, hssid, rfl⟩, hsent⟩

/-- The handler only shows a page. -/
theorem plain_onGet (hostname : String) : (onGet hostname).OnlyAsks PageCall.Plain := by
  refine ⟨trivial, fun stored => ?_⟩
  cases stored with
  | error e => trivial
  | ok stored =>
    refine ⟨trivial, fun ssid => ?_⟩
    cases ssid with
    | error e => trivial
    | ok ssid => exact Handler.plain_sendPage _

end Home

/-- Showing the home page is letting it answer, which goes no deeper. -/
theorem Site.run_showHome {hostname : String}
    (hhome : site.registry.homePage = some (Home.page hostname)) (depth : Nat) (device : Device)
    (visit : Visit) :
    ∃ result after,
      device.run (site.showHome request (depth + 1) visit) = (some (result, after), device) ∧
      visit.Answered site Home.title (Home.Shows hostname device.store) result after := by
  rw [Site.showHome, hhome]
  exact Home.run_onGet site request (Home.page hostname) (site.showHome request depth) hostname
    device visit

/-! ## The captive portal -/

namespace WifiSetup

theorem run_onGet (device : Device) (visit : Visit) :
    ∃ result after,
      device.run (onGet.perform site request page showHome visit) =
        (some (result, after), device) ∧
      visit.Answered site page.title (fun body => ∃ ssids, body = renderForm ssids) result
        after := by
  unfold onGet
  simp only [Handler.perform, Device.run, Program.run, Device.answer]
  cases device.wifi.scan with
  | error e => exact ⟨_, _, rfl, Or.inl ⟨rfl, by simp⟩⟩
  | ok ssids =>
    obtain ⟨result, after, hperform, hanswered⟩ :=
      Handler.perform_sendPage site request page showHome (renderForm ssids) visit
    simp only [hperform, Program.run]
    refine ⟨result, after, rfl, ?_⟩
    rcases hanswered with hunsent | ⟨body, rfl, hsent⟩
    · exact Or.inl hunsent
    · exact Or.inr ⟨_, ⟨ssids, rfl⟩, hsent⟩

/-- The handler only shows a page. -/
theorem plain_onGet : onGet.OnlyAsks PageCall.Plain := by
  refine ⟨trivial, fun ssids => ?_⟩
  cases ssids with
  | error e => trivial
  | ok ssids => exact Handler.plain_sendPage _

/-- The fields of the form with these values. -/
def filled (ssid password : String) : List Field := [⟨"ssid", 4, ssid⟩, ⟨"password", 8, password⟩]

/-- The form that comes next from a source holds credentials that are long enough. -/
structure Holds (request : Request) (source : Source) (ssid password : String) : Prop where
  read : (Form.read fields request.contentLength source).1 = .ok (filled ssid password)
  ssid_long : 4 ≤ ssid.utf8ByteSize
  password_long : 8 ≤ password.utf8ByteSize

/-- A body changes no more of the form than its two values. -/
theorem exists_eq_filled {source : Source} {read : List Field}
    (h : (Form.read fields request.contentLength source).1 = .ok read) :
    ∃ ssid password, read = filled ssid password := by
  unfold Form.read at h
  cases hread : (FormReader.initial fields).read fields request.contentLength source with
  | mk result rest =>
    rw [hread] at h
    cases result with
    | error e => cases h
    | ok found =>
      obtain rfl := Except.ok.inj h
      -- there are two fields, so at most two values are taken over
      have hnil : ∀ texts, Form.commit texts [] = [] := by
        intro texts
        rcases texts with _ | ⟨_ | text, texts⟩ <;> rfl
      rcases found with _ | ⟨_ | ssid, _ | ⟨_ | password, found⟩⟩ <;>
        simp [Form.commit, fields, filled, hnil]

theorem find?_filled_eq_none_iff {ssid password : String} :
    ((filled ssid password).find? fun field => !field.meetsMinLength) = none ↔
      4 ≤ ssid.utf8ByteSize ∧ 8 ≤ password.utf8ByteSize := by
  simp [filled, Field.meetsMinLength]

theorem run_storeSetting (id : UInt8) (value : Bytes) (device : Device) (visit : Visit) :
    device.run ((storeSetting id value).perform site request page showHome visit) =
      match device.store.write Store.wifiDomain id value with
      | .error e => (some (.error (.store e), visit), device)
      | .ok store => (some (.ok (), visit), { device with store := store }) := by
  unfold storeSetting
  simp only [Handler.perform, Device.run, Program.run, Device.answer]
  cases device.store.write Store.wifiDomain id value <;> rfl

/-- The network's name is written before its password. -/
theorem run_storeCredentials (ssid password : Bytes) (device : Device) (visit : Visit) :
    device.run ((storeCredentials ssid password).perform site request page showHome visit) =
      match device.store.write Store.wifiDomain Store.ssidId ssid with
      | .error e => (some (.error (.store e), visit), device)
      | .ok store =>
        match store.write Store.wifiDomain Store.passwordId password with
        | .error e => (some (.error (.store e), visit), { device with store := store })
        | .ok store' => (some (.ok (), visit), { device with store := store' }) := by
  unfold storeCredentials
  rw [Handler.run_perform_bind, run_storeSetting]
  cases device.store.write Store.wifiDomain Store.ssidId ssid with
  | error e => rfl
  | ok store => exact run_storeSetting site request page showHome _ _ _ _

/-- What saving the form that comes next from a source can end with. -/
inductive Saves (request : Request) (source : Source) (device : Device) :
    Except HandlerError Unit → Device → Prop
  /-- The form holds no credentials. -/
  | refused {e : HandlerError} (h : ¬ ∃ ssid password, Holds request source ssid password) :
      Saves request source device (.error e) device
  /-- The network's name cannot be written. -/
  | ssidFailed {ssid password : String} {e : StoreError} (h : Holds request source ssid password)
      (first : device.store.write Store.wifiDomain Store.ssidId (utf8 ssid) = .error e) :
      Saves request source device (.error (.store e)) device
  /-- The password cannot be written, after the name was. -/
  | passwordFailed {ssid password : String} {store : Store} {e : StoreError}
      (h : Holds request source ssid password)
      (first : device.store.write Store.wifiDomain Store.ssidId (utf8 ssid) = .ok store)
      (second : store.write Store.wifiDomain Store.passwordId (utf8 password) = .error e) :
      Saves request source device (.error (.store e)) { device with store := store }
  | stored {ssid password : String} {store store' : Store} (h : Holds request source ssid password)
      (first : device.store.write Store.wifiDomain Store.ssidId (utf8 ssid) = .ok store)
      (second : store.write Store.wifiDomain Store.passwordId (utf8 password) = .ok store') :
      Saves request source device (.ok ()) { device with store := store' }

theorem run_save (device : Device) (visit : Visit) :
    ∃ saved device',
      device.run (save.perform site request page showHome visit) =
        (some (saved, (visit.readForm request fields).2), device') ∧
      Saves request visit.transport.source device saved device' := by
  have hread : (visit.readForm request fields).1 =
      (Form.read fields request.contentLength visit.transport.source).1 := rfl
  unfold save
  simp only [Handler.perform]
  cases hform : (visit.readForm request fields).1 with
  | error e =>
    refine ⟨_, _, rfl, .refused ?_⟩
    rintro ⟨ssid, password, hholds⟩
    have hok := hholds.read
    rw [← hread, hform] at hok
    cases hok
  | ok read =>
    rw [hread] at hform
    obtain ⟨ssid, password, rfl⟩ := exists_eq_filled request hform
    simp only
    cases hfind : (filled ssid password).find? fun field => !field.meetsMinLength with
    | some field =>
      -- the values are determined by the form, so one that is too short rules out any others
      refine ⟨_, _, rfl, .refused ?_⟩
      rintro ⟨ssid', password', hholds⟩
      have hok := hholds.read
      rw [hform] at hok
      rw [Except.ok.inj hok, find?_filled_eq_none_iff.mpr ⟨hholds.ssid_long, hholds.password_long⟩]
        at hfind
      cases hfind
    | none =>
      obtain ⟨hssid, hpassword⟩ := find?_filled_eq_none_iff.mp hfind
      have hholds : Holds request visit.transport.source ssid password := ⟨hform, hssid, hpassword⟩
      have hvalues : valueBytes (filled ssid password) 0 = utf8 ssid ∧
          valueBytes (filled ssid password) 1 = utf8 password := ⟨rfl, rfl⟩
      simp only [hvalues, run_storeCredentials]
      cases hfirst : device.store.write Store.wifiDomain Store.ssidId (utf8 ssid) with
      | error e => exact ⟨_, _, rfl, .ssidFailed hholds hfirst⟩
      | ok store =>
        simp only
        cases hsecond : store.write Store.wifiDomain Store.passwordId (utf8 password) with
        | error e => exact ⟨_, _, rfl, .passwordFailed hholds hfirst hsecond⟩
        | ok store' => exact ⟨_, _, rfl, .stored hholds hfirst hsecond⟩

end WifiSetup

/-- The device once it has left its portal: no access point, and a reboot requested. -/
def Device.leavePortal (device : Device) : Device :=
  { device with wifi := device.wifi.setAccessPoint false, reboot := device.reboot.request }

/-- A POST saves the form, shows the home page either way, and leaves the portal only if
    credentials were stored. -/
theorem WifiSetup.run_onPost {hostname : String}
    (hhome : site.registry.homePage = some (Home.page hostname)) (depth : Nat) (device : Device)
    (visit : Visit) :
    ∃ saved device' shown after,
      Saves request visit.transport.source device saved device' ∧
      (visit.readForm request fields).2.Answered site Home.title
        (Home.Shows hostname device'.store) shown after ∧
      device.run (onPost.perform site request page (site.showHome request (depth + 1)) visit) =
        match saved with
        | .error e => (some (.error e, after), device')
        | .ok () => (some (shown, after), device'.leavePortal) := by
  obtain ⟨saved, device', hsave, hsaves⟩ :=
    run_save site request page (site.showHome request (depth + 1)) device visit
  obtain ⟨shown, after, hshown, hanswered⟩ :=
    site.run_showHome request hhome depth device' (visit.readForm request fields).2
  refine ⟨saved, device', shown, after, hsaves, hanswered, ?_⟩
  unfold onPost
  rw [Handler.run_perform_bind, hsave]
  simp only [Handler.perform, Device.run_bindSome, hshown]
  cases saved <;> rfl

end Provision
