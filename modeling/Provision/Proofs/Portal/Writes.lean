/-
  Provision.Proofs.Portal.Writes

  What a POST of credentials writes on the device: the network's name and then its password,
  by two calls, and nothing else (`Site.stores_serve`). `Stores` says so of a program before
  it is run, so it holds however its calls are interleaved with others.
-/
import Provision.Proofs.Portal.Credentials
import Provision.Proofs.Portal.Traffic

namespace Provision

open Http

/-! ## The writes of a program -/

namespace DeviceCall

/-- The setting that a call writes, and its value. -/
def written : DeviceCall → List (UInt8 × Bytes)
  | write _ id value => [(id, value)]
  | _ => []

theorem written_eq (call : DeviceCall) :
    call.written = [] ∨ ∃ id value, call.written = [(id, value)] := by
  cases call with
  | write _ id value => exact Or.inr ⟨id, value, rfl⟩
  | _ => exact Or.inl rfl

/-- The call reaches no record but those of the WiFi domain, and those only to write them. -/
def Confined : DeviceCall → Prop
  | write domain id _ => domain = Store.wifiDomain ∧ id < Store.wifiIdCount
  | factoryReset => False
  | _ => True

/-- The answer is one of a store that refuses no write. -/
def Granted : (call : DeviceCall) → call.Reply → Prop
  | write .., reply => reply = .ok ()
  | _, _ => True

theorem Harmless.confined {call : DeviceCall} (h : call.Harmless) :
    call.Confined ∧ call.written = [] := by
  cases call with
  | write | factoryReset => exact h.elim
  | _ => exact ⟨trivial, rfl⟩

end DeviceCall

/-- As long as no write is refused, the program writes these settings in this order and no
    others, and what it ends with is as said. -/
def Stores {α : Type} (post : α → Prop) : List (UInt8 × Bytes) → DeviceProgram α → Prop
  | writes, .done result => writes = [] ∧ post result
  | writes, .ask call next =>
    call.Confined ∧ ∃ later, writes = call.written ++ later ∧
      ∀ reply, call.Granted reply → Stores post later (next reply)

section

variable {α β : Type} {mid : α → Prop} {post : β → Prop} {writes later : List (UInt8 × Bytes)}

theorem stores_bind {program : DeviceProgram α} {go : α → DeviceProgram β}
    (h : Stores mid writes program) (hgo : ∀ result, mid result → Stores post later (go result)) :
    Stores post (writes ++ later) (program.bind go) := by
  induction program generalizing writes with
  | done result =>
    obtain ⟨rfl, hmid⟩ := h
    exact hgo result hmid
  | ask call next ih =>
    obtain ⟨hconfined, rest, rfl, hnext⟩ := h
    exact ⟨hconfined, rest ++ later, List.append_assoc .., fun reply hreply =>
      ih reply (hnext reply hreply)⟩

/-- Where the first program may come to no result, what follows it writes nothing. -/
theorem stores_bindSome {mid : Option α → Prop} {post : Option β → Prop}
    {program : DeviceProgram (Option α)} {go : α → DeviceProgram (Option β)}
    (h : Stores mid writes program) (hnone : mid none → later = [] ∧ post none)
    (hgo : ∀ result, mid (some result) → Stores post later (go result)) :
    Stores post (writes ++ later) (program.bindSome go) := by
  refine stores_bind h fun result hresult => ?_
  cases result with
  | none => exact hnone hresult
  | some result => exact hgo result hresult

/-- A program that changes no setting writes none. -/
theorem stores_of_harmless {program : DeviceProgram β} (h : program.OnlyAsks DeviceCall.Harmless)
    (hpost : ∀ result, post result) : Stores post [] program := by
  induction program with
  | done result => exact ⟨rfl, hpost result⟩
  | ask call next ih =>
    obtain ⟨hconfined, hwritten⟩ := h.1.confined
    exact ⟨hconfined, [], by rw [hwritten, List.append_nil], fun reply _ => ih reply (h.2 reply)⟩

end

namespace Device

variable {device : Device}

theorem idCount_answer (call : DeviceCall) (device : Device) :
    (answer call device).2.store.idCount = device.store.idCount := by
  cases call with
  | write domain id value =>
    rw [answer, Store.write]
    cases device.store.refusal domain id <;> rfl
  | connect =>
    rw [answer]
    cases device.wifi.connect device.store <;> rfl
  | _ => rfl

theorem granted_answer (h : device.store.idCount Store.wifiDomain = some Store.wifiIdCount)
    {call : DeviceCall} (hconfined : call.Confined) : call.Granted (answer call device).1 := by
  cases call with
  | write domain id value =>
    obtain ⟨rfl, hid⟩ := hconfined
    rw [answer_write h id hid]
    rfl
  | _ => trivial

/-- After a call a setting is the value that the call wrote, or what it was before. -/
theorem setting_answer (h : device.store.idCount Store.wifiDomain = some Store.wifiIdCount)
    {call : DeviceCall} (hconfined : call.Confined) (id : UInt8) :
    (answer call device).2.setting id = ((call.written.lookup id).or (device.setting id)) := by
  cases call with
  | write domain other value =>
    obtain ⟨rfl, hother⟩ := hconfined
    rw [answer_write h other hother, setting_put]
    by_cases hid : id = other
    · simp [DeviceCall.written, hid]
    · have hne : (id == other) = false := beq_false_of_ne hid
      simp [DeviceCall.written, List.lookup_cons, hid, hne]
  | factoryReset => exact hconfined.elim
  | connect =>
    rw [answer]
    cases device.wifi.connect device.store <;> rfl
  | _ => rfl

end Device

/-! ## The writes of a POST -/

namespace WifiSetup

/-- The settings that a POST of credentials writes. -/
def writes (ssid password : String) : List (UInt8 × Bytes) :=
  [(Store.ssidId, utf8 ssid), (Store.passwordId, utf8 password)]

variable (site : Site) (request : Request) (page : Page) (showHome : Visit → VisitProgram)

theorem stores_storeSetting (id : UInt8) (hid : id < Store.wifiIdCount) (value : Bytes)
    (visit : Visit) :
    Stores (fun returned => ∃ visit', returned = some (.ok (), visit')) [(id, value)]
      ((storeSetting id value).perform site request page showHome visit) := by
  refine ⟨⟨rfl, hid⟩, [], rfl, fun reply hreply => ?_⟩
  obtain rfl := hreply
  exact ⟨rfl, visit, rfl⟩

theorem stores_save {visit : Visit} {ssid password : String}
    (h : Holds request visit.transport.source ssid password) :
    Stores (fun returned => ∃ visit', returned = some (.ok (), visit')) (writes ssid password)
      (save.perform site request page showHome visit) := by
  have hread : (visit.readForm request fields).1 = .ok (filled ssid password) := h.read
  have hfind := find?_filled_eq_none_iff.mpr ⟨h.ssid_long, h.password_long⟩
  have hvalues : valueBytes (filled ssid password) 0 = utf8 ssid ∧
      valueBytes (filled ssid password) 1 = utf8 password := ⟨rfl, rfl⟩
  unfold save
  simp only [Handler.perform, hread, hfind, hvalues, storeCredentials, Handler.perform_bind]
  have hname := stores_storeSetting site request page showHome Store.ssidId (by decide)
    (utf8 ssid) (visit.readForm request fields).2
  refine stores_bindSome hname (fun hnone => by simp at hnone) fun returned hstored => ?_
  obtain ⟨visit', hvisit⟩ := hstored
  obtain rfl := Option.some.inj hvisit
  exact stores_storeSetting site request page showHome Store.passwordId (by decide)
    (utf8 password) visit'

/-- A POST of credentials writes the name, and then the password, and nothing else. -/
theorem stores_onPost (hhome : ∀ visit, (showHome visit).OnlyAsks DeviceCall.Harmless)
    {visit : Visit} {ssid password : String}
    (h : Holds request visit.transport.source ssid password) :
    Stores (fun _ => True) (writes ssid password)
      (onPost.perform site request page showHome visit) := by
  unfold onPost
  rw [Handler.perform_bind, ← List.append_nil (writes ssid password)]
  refine stores_bindSome (stores_save site request page showHome h) (fun hnone => by simp at hnone)
    fun returned hsaved => ?_
  obtain ⟨visit', hvisit⟩ := hsaved
  obtain rfl := Option.some.inj hvisit
  simp only [Handler.perform]
  -- showing the home page and leaving the portal write no record
  have hshown : Stores (fun _ => True) [] (showHome visit') :=
    stores_of_harmless (hhome visit') fun _ => trivial
  refine stores_bindSome hshown (fun _ => ⟨rfl, trivial⟩) fun returned _ => ?_
  exact ⟨trivial, [], rfl, fun _ _ => ⟨trivial, [], rfl, fun _ _ => ⟨rfl, trivial⟩⟩⟩

end WifiSetup

namespace Site

variable {site : Site} {hostname banner : String} {maxPages depth : Nat} {ssid password : String}

theorem stores_dispatch (hregistry : site.registry = Portal.pages hostname banner maxPages)
    {request : Request} {visit : Visit} (hmethod : request.method = .post)
    (htarget : utf8 WifiSetup.path <+: utf8 request.path)
    (hholds : WifiSetup.Holds request visit.transport.source ssid password) :
    Stores (fun _ => True) (WifiSetup.writes ssid password) (site.dispatch depth request visit) := by
  have hhome := Portal.homePage_of_eq_pages hregistry
  have hserves : Registry.serves WifiSetup.page request.path = true :=
    Registry.serves_iff.mpr htarget
  have honPost := WifiSetup.stores_onPost site request WifiSetup.page
    (site.showHome request depth) (fun visit' => harmless_showHome request hhome depth visit') hholds
  unfold dispatch answerWith
  rw [hmethod, hregistry]
  simp only [filter_findByPath_post, hserves, if_true, visitPage, hmethod]
  rw [← List.append_nil (WifiSetup.writes ssid password)]
  exact stores_bindSome honPost (fun _ => ⟨rfl, trivial⟩) fun _ _ => ⟨rfl, trivial⟩

/-- A connection on which credentials are posted writes them, name first. -/
theorem stores_serve (hregistry : site.registry = Portal.pages hostname banner maxPages)
    {transport : Transport}
    (h : WifiSetup.Posts site.limits transport.source.delivered ssid password) :
    Stores (fun _ => True) (WifiSetup.writes ssid password) (site.serve depth transport) := by
  unfold serve
  rcases hread : readRequest site.limits transport.source with ⟨_ | request, rest⟩
  · exact absurd h (WifiSetup.not_posts_of_readRequest_error (congrArg Prod.fst hread) _ _)
  · obtain ⟨hmethod, htarget, hholds⟩ := (WifiSetup.posts_iff_of_readRequest hread).mp h
    have hvisit : WifiSetup.Holds request
        (Visit.start { transport with source := rest }).transport.source ssid password := hholds
    rw [← List.append_nil (WifiSetup.writes ssid password)]
    exact stores_bindSome (stores_dispatch hregistry hmethod htarget hvisit)
      (fun _ => ⟨rfl, trivial⟩) fun _ _ => ⟨rfl, trivial⟩

end Site

end Provision
