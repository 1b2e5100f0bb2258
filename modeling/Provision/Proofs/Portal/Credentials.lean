/-
  Provision.Proofs.Portal.Credentials

  The credentials that are posted to a device, as one transaction. A connection either
  posts credentials (`WifiSetup.Posts`), and then they are stored, the access point is
  stopped and a reboot requested, whatever becomes of the answer; or it changes nothing
  on the device at all. How the bytes arrive and how writes end makes no difference.
-/
import Provision.Proofs.Device
import Provision.Proofs.Http.Stream
import Provision.Proofs.Portal.Responses

namespace Provision

open Http

/-! ## The transaction -/

namespace WifiSetup

/-- The bytes that arrive begin with a request that posts these credentials. -/
structure PostsIn (limits : Limits) (incoming : Bytes) (ssid password : String)
    (request : Request) (n : Nat) : Prop where
  /-- The request's header is good, and ends at offset `n`. -/
  header : parseHeader limits incoming = .ok (request, n)
  method : request.method = .post
  target : utf8 path <+: utf8 request.path
  /-- The whole body arrives. -/
  arrived : n + request.contentLength ≤ incoming.length
  /-- The body is a good form with these values. -/
  form : Form.parse fields ((incoming.drop n).take request.contentLength) =
    .ok (filled ssid password)
  ssid_long : 4 ≤ ssid.utf8ByteSize
  password_long : 8 ≤ password.utf8ByteSize

/-- The bytes that arrive post these credentials. -/
def Posts (limits : Limits) (incoming : Bytes) (ssid password : String) : Prop :=
  ∃ request n, PostsIn limits incoming ssid password request n

/-- The device after credentials were stored on it. -/
structure Provisioned (before : Device) (ssid password : String) (after : Device) : Prop where
  ssid : after.store.record Store.wifiDomain Store.ssidId = some (utf8 ssid)
  password : after.store.record Store.wifiDomain Store.passwordId = some (utf8 password)
  others : ∀ domain id,
    ¬ (domain = Store.wifiDomain ∧ (id = Store.ssidId ∨ id = Store.passwordId)) →
    after.store.record domain id = before.store.record domain id
  accessPoint : after.wifi.accessPoint = false
  reboot : after.reboot.requested = true

/-! ## The form on its source -/

theorem holds_iff {request : Request} {source : Source} {ssid password : String} :
    Holds request source ssid password ↔
      request.contentLength ≤ source.delivered.length ∧
      Form.parse fields (source.delivered.take request.contentLength) = .ok (filled ssid password) ∧
      4 ≤ ssid.utf8ByteSize ∧ 8 ≤ password.utf8ByteSize := by
  refine ⟨?_, ?_⟩
  · rintro ⟨hread, hssid, hpassword⟩
    obtain ⟨hcount, hform⟩ := Form.read_eq_ok_iff.mp hread
    exact ⟨hcount, hform, hssid, hpassword⟩
  · rintro ⟨hcount, hform, hssid, hpassword⟩
    exact ⟨Form.read_eq_ok_iff.mpr ⟨hcount, hform⟩, hssid, hpassword⟩

/-- Credentials are posted by a POST to the captive portal whose form holds them. -/
theorem posts_iff_of_readRequest {limits : Limits} {source rest : Source} {request : Request}
    {ssid password : String} (h : readRequest limits source = (.ok request, rest)) :
    Posts limits source.delivered ssid password ↔
      request.method = .post ∧ utf8 path <+: utf8 request.path ∧
        Holds request rest ssid password := by
  -- the form is read from what the source delivers behind the header
  obtain ⟨n, hheader⟩ := readRequest_eq_ok_iff.mp (congrArg Prod.fst h)
  have hrest : rest.delivered = source.delivered.drop n := by
    rw [← delivered_readRequest hheader, h]
  have hn := le_length_of_parseHeader hheader
  rw [holds_iff, hrest, List.length_drop]
  refine ⟨?_, ?_⟩
  · rintro ⟨request', n', hheader', hmethod, htarget, harrived, hform, hlong⟩
    rw [hheader] at hheader'
    obtain ⟨rfl, rfl⟩ := Prod.mk.inj (Except.ok.inj hheader')
    exact ⟨hmethod, htarget, by omega, hform, hlong, by assumption⟩
  · rintro ⟨hmethod, htarget, hcount, hform, hssid, hpassword⟩
    exact ⟨request, n, hheader, hmethod, htarget, by omega, hform, hssid, hpassword⟩

theorem not_posts_of_readRequest_error {limits : Limits} {source : Source} {e : ParseError}
    (h : (readRequest limits source).1 = .error e) (ssid password : String) :
    ¬ Posts limits source.delivered ssid password := by
  rintro ⟨request, n, hposts⟩
  rw [readRequest_eq_ok_iff.mpr ⟨n, hposts.header⟩] at h
  cases h

end WifiSetup

/-! ## What a handler does to the device -/

namespace Store

/-- The store with credentials put into it. -/
def withCredentials (store : Store) (ssid password : Bytes) : Store :=
  (store.put wifiDomain ssidId ssid).put wifiDomain passwordId password

theorem record_withCredentials_ssid (store : Store) (ssid password : Bytes) :
    (store.withCredentials ssid password).record wifiDomain ssidId = some ssid := rfl

theorem record_withCredentials_password (store : Store) (ssid password : Bytes) :
    (store.withCredentials ssid password).record wifiDomain passwordId = some password := rfl

theorem record_withCredentials_other (store : Store) (ssid password : Bytes) {domain id : UInt8}
    (h : ¬ (domain = wifiDomain ∧ (id = ssidId ∨ id = passwordId))) :
    (store.withCredentials ssid password).record domain id = store.record domain id := by
  simp only [not_and_or, not_or] at h
  rcases h with hdomain | ⟨hssid, hpassword⟩
  · simp [withCredentials, put, hdomain]
  · simp [withCredentials, put, hssid, hpassword]

end Store

namespace WifiSetup

variable {site : Site} {request : Request} {hostname : String}

/-- Saving a form changes the device only if it holds credentials, and then both are
    stored. -/
theorem Saves.eq_or_withCredentials {source : Source} {device device' : Device}
    {saved : Except HandlerError Unit}
    (hdomain : device.store.idCount Store.wifiDomain = some Store.wifiIdCount)
    (h : Saves request source device saved device') :
    ((¬ ∃ ssid password, Holds request source ssid password) ∧ (∃ e, saved = .error e) ∧
      device' = device) ∨
    (∃ ssid password, Holds request source ssid password ∧ saved = .ok () ∧
      device' = { device with
        store := device.store.withCredentials (utf8 ssid) (utf8 password) }) := by
  -- writing a record registers nothing, so the second write is refused no more than the first
  have hnext : ∀ ssid, (device.store.put Store.wifiDomain Store.ssidId ssid).idCount
      Store.wifiDomain = some Store.wifiIdCount := fun _ => hdomain
  cases h with
  | refused hno => exact Or.inl ⟨hno, ⟨_, rfl⟩, rfl⟩
  | ssidFailed _ hfirst =>
    rw [Store.write_eq_ok hdomain Store.ssidId (by decide)] at hfirst
    cases hfirst
  | passwordFailed _ hfirst hsecond =>
    rw [Store.write_eq_ok hdomain Store.ssidId (by decide)] at hfirst
    obtain rfl := Except.ok.inj hfirst
    rw [Store.write_eq_ok (hnext _) Store.passwordId (by decide)] at hsecond
    cases hsecond
  | stored hholds hfirst hsecond =>
    rw [Store.write_eq_ok hdomain Store.ssidId (by decide)] at hfirst
    obtain rfl := Except.ok.inj hfirst
    rw [Store.write_eq_ok (hnext _) Store.passwordId (by decide)] at hsecond
    obtain rfl := Except.ok.inj hsecond
    exact Or.inr ⟨_, _, hholds, rfl, rfl⟩

theorem Holds.unique {source : Source} {ssid ssid' password password' : String}
    (h : Holds request source ssid password) (h' : Holds request source ssid' password') :
    ssid = ssid' ∧ password = password' := by
  have heq := h.read.symm.trans h'.read
  simpa [filled] using heq

/-- A POST that holds credentials stores them and leaves the portal, and one that holds
    none leaves the device alone. -/
theorem device_onPost {page : Page} (hhome : site.registry.homePage = some (Home.page hostname))
    {depth : Nat} {device : Device}
    (hdomain : device.store.idCount Store.wifiDomain = some Store.wifiIdCount) {visit : Visit} :
    let after :=
      (device.run (onPost.perform site request page (site.showHome request (depth + 1)) visit)).2
    (∀ ssid password, Holds request visit.transport.source ssid password →
      Provisioned device ssid password after) ∧
    ((¬ ∃ ssid password, Holds request visit.transport.source ssid password) → after = device) := by
  obtain ⟨saved, device', shown, after, hsaves, -, hrun⟩ :=
    run_onPost site request page hhome depth device visit
  rw [hrun]
  rcases hsaves.eq_or_withCredentials hdomain with
    ⟨hno, ⟨e, rfl⟩, rfl⟩ | ⟨ssid, password, hholds, rfl, rfl⟩
  · exact ⟨fun ssid password hholds => absurd ⟨ssid, password, hholds⟩ hno, fun _ => rfl⟩
  · refine ⟨fun ssid' password' hholds' => ?_, fun hno => absurd ⟨ssid, password, hholds⟩ hno⟩
    obtain ⟨rfl, rfl⟩ := hholds.unique hholds'
    exact {
      ssid := Store.record_withCredentials_ssid _ _ _
      password := Store.record_withCredentials_password _ _ _
      others := fun domain id hother => Store.record_withCredentials_other _ _ _ hother
      accessPoint := rfl
      reboot := rfl }

end WifiSetup

/-! ## What a connection does to the device -/

namespace Site

variable {site : Site} {hostname banner : String} {maxPages : Nat}

theorem device_answerWith_get {depth : Nat} {request : Request} {page : Option Page}
    {device : Device} {visit : Visit} (hmethod : request.method = .get)
    (hpage : ∀ p, page = some p → p ∈ (Portal.pages hostname banner maxPages).pages) :
    (device.run (site.answerWith depth request page visit)).2 = device := by
  rw [run_answerWith]
  split
  · rfl
  · rename_i p hfilter
    have hmem := hpage p (Option.eq_some_of_filter_eq_some hfilter)
    obtain ⟨bodies, result, after, hrun, -⟩ := site.run_visitPage_get hmem hmethod depth device visit
    simp only [hrun]

/-- Only a POST to the captive portal whose form holds credentials changes the device. -/
theorem device_dispatch (depth : Nat) (request : Request) (device : Device) (visit : Visit)
    (hregistry : site.registry = Portal.pages hostname banner maxPages)
    (hdomain : device.store.idCount Store.wifiDomain = some Store.wifiIdCount) :
    let after := (device.run (site.dispatch (depth + 1) request visit)).2
    let posts := fun ssid password => request.method = .post ∧
      utf8 WifiSetup.path <+: utf8 request.path ∧
      WifiSetup.Holds request visit.transport.source ssid password
    (∀ ssid password, posts ssid password → WifiSetup.Provisioned device ssid password after) ∧
    ((¬ ∃ ssid password, posts ssid password) → after = device) := by
  have hhome := Portal.homePage_of_eq_pages hregistry
  -- where nothing is posted, it is enough that the device stays
  have hkeeps : ∀ {posts : String → String → Prop} {after : Device},
      (∀ ssid password, ¬ posts ssid password) → after = device →
      (∀ ssid password, posts ssid password → WifiSetup.Provisioned device ssid password after) ∧
      ((¬ ∃ ssid password, posts ssid password) → after = device) := by
    intro posts after hno hafter
    exact ⟨fun ssid password hposts => absurd hposts (hno ssid password), fun _ => hafter⟩
  unfold dispatch
  rw [hregistry]
  cases hmethod : request.method with
  | unknown => exact hkeeps (by simp) rfl
  | get =>
    refine hkeeps (by simp) ?_
    dsimp only
    split
    · show (device.run (site.answerWith (depth + 1) request
        (Registry.findRoot _ device.wifi.accessPoint) visit)).2 = device
      exact device_answerWith_get hmethod fun p hp => Registry.mem_of_findRoot hp
    · exact device_answerWith_get hmethod fun p hp => mem_of_findByPath_pages hp
  | post =>
    dsimp only
    rw [run_answerWith, hmethod, filter_findByPath_post]
    by_cases hserves : Registry.serves WifiSetup.page request.path = true
    · have htarget : utf8 WifiSetup.path <+: utf8 request.path := Registry.serves_iff.mp hserves
      rw [if_pos hserves]
      simp only [run_visitPage_post site hmethod, htarget, true_and]
      exact WifiSetup.device_onPost hhome hdomain
    · rw [if_neg hserves]
      exact hkeeps (fun _ _ hposts => hserves (Registry.serves_iff.mpr hposts.2.1)) rfl

end Site

/-! ## The whole connection -/

/-- A connection comes to its end, stores the credentials that are posted on it, and changes
    nothing on the device if none are. -/
theorem Site.credentials_transaction {hostname banner : String} {maxPages : Nat}
    {registry : Registry}
    (hregister : Portal.register hostname (.empty banner maxPages) = (.ok (), registry))
    (limits : Limits) (device : Device)
    (hdomain : device.store.idCount Store.wifiDomain = some Store.wifiIdCount)
    (transport : Transport) :
    ∃ outcome after,
      (∀ depth, device.run (Site.serve ⟨registry, limits⟩ (depth + 1) transport) =
        (some outcome, after)) ∧
      (∀ ssid password, WifiSetup.Posts limits transport.source.delivered ssid password →
        WifiSetup.Provisioned device ssid password after) ∧
      ((¬ ∃ ssid password, WifiSetup.Posts limits transport.source.delivered ssid password) →
        after = device) := by
  obtain rfl := Portal.eq_pages_of_register hregister
  let site : Site := ⟨Portal.pages hostname banner maxPages, limits⟩
  have hregistry : site.registry = Portal.pages hostname banner maxPages := rfl
  obtain ⟨outcome, after, hrun⟩ := ends_serve hregistry device transport
  refine ⟨outcome, after, hrun, ?_⟩
  obtain rfl : (device.run (site.serve 1 transport)).2 = after := congrArg Prod.snd (hrun 0)
  rw [run_serve]
  rcases hread : readRequest limits transport.source with ⟨_ | request, source⟩
  · have hno := WifiSetup.not_posts_of_readRequest_error (congrArg Prod.fst hread)
    dsimp only
    exact ⟨fun ssid password hposts => absurd hposts (hno ssid password), fun _ => rfl⟩
  · simp only [WifiSetup.posts_iff_of_readRequest hread]
    exact device_dispatch 0 request device (.start { transport with source := source })
      hregistry hdomain

/-- The form of a browser, posted to a device in its portal. -/
theorem Site.credentials_transaction_browser :
    let device : Device := ⟨.withWifiDomain, ⟨[], none, true, false⟩, .initial⟩
    ∃ outcome after,
      device.run (Site.serve ⟨Portal.pages "device" "Setup" 2, .standard⟩ 1
        (.ofBytes (utf8 ("POST /setwifi.html HTTP/1.1\r\nContent-Length: 28\r\n\r\n" ++
          "ssid=home\r\npassword=12345678")))) = (some outcome, after) ∧
      WifiSetup.Provisioned device "home" "12345678" after := by
  intro device
  have hregister : Portal.register "device" (.empty "Setup" 2) =
      (.ok (), Portal.pages "device" "Setup" 2) := rfl
  obtain ⟨outcome, after, hrun, htransaction, -⟩ :=
    Site.credentials_transaction hregister .standard device rfl
      (.ofBytes (utf8 ("POST /setwifi.html HTTP/1.1\r\nContent-Length: 28\r\n\r\n" ++
        "ssid=home\r\npassword=12345678")))
  refine ⟨outcome, after, hrun 0, htransaction "home" "12345678" ?_⟩
  refine ⟨⟨.post, "/setwifi.html", 28⟩, 51, ?_⟩
  exact {
    header := by decide +kernel
    method := rfl
    target := by decide
    arrived := by decide +kernel
    form := by decide +kernel
    ssid_long := by decide
    password_long := by decide }

end Provision
