/-
  Provision.Proofs.Portal.Fragments

  How the bytes of a request arrive makes no difference to a connection to the portal, and
  neither does what comes after them. The header and the form are the only parts that are
  read (`Site.dispatch_withSource`), each up to a byte that depends on the delivered bytes
  alone, so two connections that bring the same bytes and end alike run the same course
  (`Site.serve_sameCourse`).
-/
import Provision.Proofs.Http.Stream
import Provision.Proofs.Page.Incoming
import Provision.Proofs.Portal.Responses

namespace Provision

open Http

/-! ## What the pages read -/

variable (site : Site) (request : Request) (page : Page)

/-- Showing the home page reads nothing. -/
theorem Site.showHome_withSource {hostname : String}
    (hhome : site.registry.homePage = some (Home.page hostname)) (depth : Nat) (visit : Visit)
    (source : Source) :
    site.showHome request depth (visit.withSource source) =
      (site.showHome request depth visit).changed (·.withSource source) := by
  cases depth with
  | zero => rfl
  | succ depth =>
    rw [Site.showHome, Site.showHome, hhome]
    exact Handler.perform_withSource site request (Home.page hostname) (fun _ => id) False.elim
      (Home.plain_onGet hostname) visit source

namespace WifiSetup

theorem keepsSource_storeSetting (id : UInt8) (value : Bytes) :
    (storeSetting id value).OnlyAsks PageCall.KeepsSource := by
  refine ⟨trivial, fun written => ?_⟩
  cases written <;> trivial

theorem keepsSource_storeCredentials (ssid password : Bytes) :
    (storeCredentials ssid password).OnlyAsks PageCall.KeepsSource := by
  refine Program.onlyAsks_bind (keepsSource_storeSetting _ _) fun written => ?_
  cases written with
  | error e => trivial
  | ok => exact keepsSource_storeSetting _ _

/-- A POST reads the form first, and nothing after it. -/
theorem exists_onPost_eq_ask :
    ∃ next, onPost = .ask (.readForm fields) next ∧
      ∀ read, (next read).OnlyAsks PageCall.KeepsSource := by
  refine ⟨_, rfl, fun read => ?_⟩
  refine Program.onlyAsks_bind (?_ : Program.OnlyAsks PageCall.KeepsSource _) fun saved => ?_
  · cases read with
    | error e => trivial
    | ok read =>
      dsimp only
      split
      · trivial
      · exact keepsSource_storeCredentials _ _
  · refine ⟨trivial, fun shown => ?_⟩
    cases saved with
    | error e => trivial
    | ok => exact ⟨trivial, fun _ => ⟨trivial, fun _ => trivial⟩⟩

/-- The request posts a form to the captive portal. -/
def TakesForm (request : Request) : Prop :=
  request.method = .post ∧ Registry.serves WifiSetup.page request.path
deriving Decidable

/-- The bytes that a request to the portal leaves to come: those after its form, if it posts
    one. -/
def leftover (request : Request) (source : Source) : Source :=
  if TakesForm request then (Form.read fields request.contentLength source).2 else source

theorem perform_onPost_withSource {showHome showHome' : Visit → VisitProgram}
    (hhome : ∀ visit source,
      showHome (visit.withSource source) = (showHome' visit).changed (·.withSource source))
    (visit : Visit) (source : Source)
    (hform : (Form.read fields request.contentLength source).1 =
      (Form.read fields request.contentLength visit.transport.source).1) :
    onPost.perform site request page showHome (visit.withSource source) =
      (onPost.perform site request page showHome' visit).changed
        (·.withSource (Form.read fields request.contentLength source).2) := by
  obtain ⟨next, honPost, hnext⟩ := exists_onPost_eq_ask
  rw [honPost]
  -- the form is read to the same result, and what follows does not look at the bytes left
  have hread : (visit.withSource source).readForm request fields =
      ((visit.readForm request fields).1, (visit.readForm request fields).2.withSource
        (Form.read fields request.contentLength source).2) := by
    rw [Visit.readForm_withSource, hform]
    rfl
  simp only [Handler.perform, hread]
  exact Handler.perform_withSource site request page (fun _ => id) (fun _ => hhome) (hnext _) _ _

end WifiSetup

/-! ## Answering a request -/

/-- How a connection ended, with other bytes left to come. -/
def Outcome.withSource (outcome : Outcome) (source : Source) : Outcome :=
  { outcome with transport := outcome.transport.withSource source }

namespace Site

variable {site} {hostname banner : String} {maxPages : Nat}

/-- A page answers alike if it does so once it is settled. -/
theorem answerWith_withSource {depth : Nat} {found : Option Page} (visit : Visit)
    (source left : Source)
    (hnone : (found.filter fun p => p.supports request.method) = none → left = source)
    (hsome : ∀ p, (found.filter fun p => p.supports request.method) = some p →
      site.visitPage depth request p (visit.withSource source) =
        (site.visitPage depth request p visit).changed (·.withSource left)) :
    site.answerWith depth request found (visit.withSource source) =
      (site.answerWith depth request found visit).changed (·.withSource left) := by
  unfold answerWith
  cases hfilter : found.filter fun p => p.supports request.method with
  | none =>
    rw [hnone hfilter]
    rfl
  | some p =>
    simp only [hsome p hfilter, DeviceProgram.changed, Program.bindSome_assoc]
    congr 1
    funext returned
    obtain ⟨result, after⟩ := returned
    simp only [Program.bindSome_done_some,
      site.conclude_of_unseen (Visit.unseen_withSource left)]

theorem visitPage_withSource_get {depth : Nat} {p : Page}
    (hmem : p ∈ (Portal.pages hostname banner maxPages).pages) (hmethod : request.method = .get)
    (visit : Visit) (source : Source) :
    site.visitPage depth request p (visit.withSource source) =
      (site.visitPage depth request p visit).changed (·.withSource source) := by
  have hplain := plain_handler_get hmem hmethod
  exact Handler.perform_withSource site request p (fun _ => id) False.elim hplain visit source

theorem visitPage_withSource_post {depth : Nat}
    (hhome : site.registry.homePage = some (Home.page hostname)) (hmethod : request.method = .post)
    (visit : Visit) (source : Source)
    (hform : (Form.read WifiSetup.fields request.contentLength source).1 =
      (Form.read WifiSetup.fields request.contentLength visit.transport.source).1) :
    site.visitPage depth request WifiSetup.page (visit.withSource source) =
      (site.visitPage depth request WifiSetup.page visit).changed
        (·.withSource (Form.read WifiSetup.fields request.contentLength source).2) := by
  unfold visitPage
  rw [hmethod]
  exact WifiSetup.perform_onPost_withSource site request WifiSetup.page
    (fun visit' source' => site.showHome_withSource request hhome depth visit' source')
    visit source hform

theorem answerWith_withSource_get {depth : Nat} {found : Option Page}
    (hfound : ∀ p, found = some p → p ∈ (Portal.pages hostname banner maxPages).pages)
    (hmethod : request.method = .get) (visit : Visit) (source : Source) :
    site.answerWith depth request found (visit.withSource source) =
      (site.answerWith depth request found visit).changed (·.withSource source) := by
  refine answerWith_withSource request visit source source (fun _ => rfl) fun p hfilter => ?_
  have hmem := hfound p (Option.eq_some_of_filter_eq_some hfilter)
  exact visitPage_withSource_get request hmem hmethod visit source

theorem answerWith_withSource_post {depth : Nat}
    (hregistry : site.registry = Portal.pages hostname banner maxPages)
    (hmethod : request.method = .post) (visit : Visit) (source : Source)
    (hform : WifiSetup.TakesForm request →
      (Form.read WifiSetup.fields request.contentLength source).1 =
        (Form.read WifiSetup.fields request.contentLength visit.transport.source).1) :
    site.answerWith depth request (site.registry.findByPath request.path)
        (visit.withSource source) =
      (site.answerWith depth request (site.registry.findByPath request.path) visit).changed
        (·.withSource (WifiSetup.leftover request source)) := by
  have hhome := Portal.homePage_of_eq_pages hregistry
  have hfilter : ((site.registry.findByPath request.path).filter
      fun p => p.supports request.method) =
        if Registry.serves WifiSetup.page request.path then some WifiSetup.page else none := by
    rw [hmethod, hregistry, filter_findByPath_post]
  unfold WifiSetup.leftover
  refine answerWith_withSource request visit source _ (fun hnone => ?_) fun p hsome => ?_
  · refine if_neg fun htakes => ?_
    rw [hfilter, if_pos htakes.2] at hnone
    cases hnone
  · rw [hfilter] at hsome
    split_ifs at hsome with hserves
    obtain rfl := Option.some.inj hsome
    have htakes : WifiSetup.TakesForm request := ⟨hmethod, hserves⟩
    rw [if_pos htakes]
    exact visitPage_withSource_post request hhome hmethod visit source (hform htakes)

/-- Answering a request looks at nothing of what is to come but a form that is posted. -/
theorem dispatch_withSource (hregistry : site.registry = Portal.pages hostname banner maxPages)
    (depth : Nat) (visit : Visit) (source : Source)
    (hform : WifiSetup.TakesForm request →
      (Form.read WifiSetup.fields request.contentLength source).1 =
        (Form.read WifiSetup.fields request.contentLength visit.transport.source).1) :
    site.dispatch depth request (visit.withSource source) =
      (site.dispatch depth request visit).changed
        (·.withSource (WifiSetup.leftover request source)) := by
  have hleftover : request.method ≠ .post → WifiSetup.leftover request source = source := by
    intro hmethod
    exact if_neg fun htakes => hmethod htakes.1
  unfold dispatch
  split
  · rename_i hmethod
    rw [hleftover (by simp [hmethod])]
    rfl
  · rename_i hmethod
    rw [hleftover (by simp [hmethod]), hregistry]
    split
    · simp only [DeviceProgram.changed, Program.bindSome_ask]
      congr 1
      funext accessPoint
      exact answerWith_withSource_get request (fun p hp => Registry.mem_of_findRoot hp) hmethod
        visit source
    · exact answerWith_withSource_get request (fun p hp => mem_of_findByPath_pages hp) hmethod
        visit source
  · exact answerWith_withSource_post request hregistry ‹_› visit source hform

theorem reject_withSource (site : Site) (e : ParseError) (transport : Transport) (source : Source) :
    site.reject e (transport.withSource source) =
      (site.reject e transport).withSource source := by
  cases e <;> rfl

end Site

/-! ## The bytes that a connection takes -/

namespace Portal

variable {limits : Limits}

/-- What a connection to the portal leaves to come. -/
def leftover (limits : Limits) (source : Source) : Source :=
  match readRequest limits source with
  | (.error _, rest) => rest
  | (.ok request, rest) => WifiSetup.leftover request rest

/-- The bytes that a connection to the portal takes of those that are delivered: a header,
    and the form that is posted under it. -/
def taken (limits : Limits) (bytes : Bytes) : Bytes :=
  match parseHeader limits bytes with
  | .error _ => HeaderReader.initial.taken limits bytes
  | .ok (request, n) =>
    bytes.take n ++
      if WifiSetup.TakesForm request then
        (FormReader.initial WifiSetup.fields).taken WifiSetup.fields
          ((bytes.drop n).take request.contentLength)
      else []

theorem unread_leftover (limits : Limits) (source : Source) :
    source.unread = taken limits source.delivered ++ (leftover limits source).unread := by
  have hheader := unread_readRequest limits source
  unfold taken leftover
  rcases hread : readRequest limits source with ⟨e | request, rest⟩
  · have hnone : ∀ request n, parseHeader limits source.delivered ≠ .ok (request, n) := by
      intro request n hparse
      have hok := readRequest_eq_ok_iff.mpr ⟨n, hparse⟩
      rw [hread] at hok
      cases hok
    rw [hread] at hheader
    cases hparse : parseHeader limits source.delivered with
    | error e' => exact hheader
    | ok parsed => exact absurd hparse (hnone parsed.1 parsed.2)
  · obtain ⟨n, hparse⟩ := readRequest_eq_ok_iff.mp (congrArg Prod.fst hread)
    have hdelivered := delivered_readRequest hparse
    rw [taken_eq_take_of_parseHeader hparse, hread] at hheader
    rw [hread] at hdelivered
    rw [hparse]
    dsimp only at hheader hdelivered ⊢
    unfold WifiSetup.leftover
    split_ifs
    · -- the form is what follows the header
      have hform := Form.unread_read WifiSetup.fields request.contentLength rest
      rw [hdelivered] at hform
      rw [List.append_assoc, ← hform]
      exact hheader
    · rw [List.append_nil]
      exact hheader

theorem taken_prefix_of_parseHeader {bytes : Bytes} {request : Request} {n : Nat}
    (h : parseHeader limits bytes = .ok (request, n)) :
    taken limits bytes <+: bytes.take (n + request.contentLength) := by
  unfold taken
  rw [h]
  dsimp only
  rw [List.take_add, List.prefix_append_right_inj]
  split_ifs
  · exact FormReader.taken_prefix _ _
  · exact List.nil_prefix

theorem taken_prefix (limits : Limits) (bytes : Bytes) : taken limits bytes <+: bytes := by
  cases h : parseHeader limits bytes with
  | error e =>
    unfold taken
    rw [h]
    exact HeaderReader.taken_prefix _ _
  | ok parsed => exact (taken_prefix_of_parseHeader h).trans (List.take_prefix _ _)

/-- What is taken for a request hangs on no byte after the request. -/
theorem taken_eq_of_take_eq {bytes bytes' : Bytes} {request : Request} {n : Nat}
    (h : parseHeader limits bytes = .ok (request, n))
    (heq : bytes.take (n + request.contentLength) = bytes'.take (n + request.contentLength)) :
    taken limits bytes' = taken limits bytes := by
  have htake : bytes'.take n = bytes.take n := by
    have hshort := congrArg (List.take n) heq
    simpa [List.take_take] using hshort.symm
  have hdrop : (bytes'.drop n).take request.contentLength =
      (bytes.drop n).take request.contentLength := by
    rw [List.take_drop, List.take_drop, heq]
  unfold taken
  rw [h, parseHeader_of_take_eq h htake]
  dsimp only
  rw [htake, hdrop]

/-- What two sources bring is the same to the portal: the request, and the form if it posts
    one. -/
structure Alike (limits : Limits) (a b : Source) : Prop where
  request : (readRequest limits a).1 = (readRequest limits b).1
  form : ∀ request, (readRequest limits a).1 = .ok request → WifiSetup.TakesForm request →
    (Form.read WifiSetup.fields request.contentLength (readRequest limits a).2).1 =
      (Form.read WifiSetup.fields request.contentLength (readRequest limits b).2).1

theorem Alike.of_agreesTo {a b : Source} {request : Request} {n : Nat}
    (h : parseHeader limits a.delivered = .ok (request, n))
    (hagrees : a.AgreesTo (n + request.contentLength) b) : Alike limits a b := by
  have htake : b.delivered.take n = a.delivered.take n := by
    have hshort := congrArg (List.take n) hagrees.take
    simpa [List.take_take] using hshort.symm
  have h' := parseHeader_of_take_eq h htake
  have ha := readRequest_eq_ok_iff.mpr ⟨n, h⟩
  have hb := readRequest_eq_ok_iff.mpr ⟨n, h'⟩
  refine ⟨ha.trans hb.symm, fun request' hrequest _ => ?_⟩
  obtain rfl := Except.ok.inj (ha.symm.trans hrequest)
  exact Form.read_eq_of_agreesTo (hagrees.of_yields (yields_readRequest h) (yields_readRequest h'))

theorem Alike.of_agrees {a b : Source} (h : a.Agrees b) : Alike limits a b := by
  cases hparse : parseHeader limits a.delivered with
  | ok parsed => exact .of_agreesTo hparse (h.agreesTo _)
  | error e =>
    refine ⟨readRequest_eq_of_agrees h, fun request hrequest => ?_⟩
    obtain ⟨n, hok⟩ := readRequest_eq_ok_iff.mp hrequest
    rw [hparse] at hok
    cases hok

end Portal

/-! ## The whole connection -/

namespace Site

variable {site : Site} {hostname banner : String} {maxPages : Nat}

/-- Where two sources are alike, connections differ in nothing but what is left of them. -/
theorem run_serve_withSource (hregistry : site.registry = Portal.pages hostname banner maxPages)
    (depth : Nat) (device : Device) (transport : Transport) (source : Source)
    (h : Portal.Alike site.limits transport.source source) :
    device.run (site.serve depth (transport.withSource source)) =
      let (ended, device') := device.run (site.serve depth transport)
      (ended.map fun outcome => outcome.withSource (Portal.leftover site.limits source),
        device') := by
  rw [run_serve, run_serve]
  -- alike sources are both refused for one reason, or both bring one request
  have hrequest := h.request
  have hform := h.form
  unfold Portal.leftover
  rw [show (transport.withSource source).source = source from rfl]
  rcases hread : readRequest site.limits transport.source with ⟨e | request, rest⟩ <;>
    rcases hread' : readRequest site.limits source with ⟨e' | request', rest'⟩ <;>
    rw [hread, hread'] at hrequest
  · obtain rfl := Except.error.inj hrequest
    exact congrArg (some ·, device)
      (site.reject_withSource e { transport with source := rest } rest')
  · cases hrequest
  · cases hrequest
  · obtain rfl := Except.ok.inj hrequest
    have hread_form := hform request (by rw [hread])
    rw [hread, hread'] at hread_form
    have hdispatch := site.dispatch_withSource request hregistry depth
      (.start { transport with source := rest }) rest' fun htakes => (hread_form htakes).symm
    have hvisit : Visit.start { transport.withSource source with source := rest' } =
        (Visit.start { transport with source := rest }).withSource rest' := rfl
    simp only [hvisit, hdispatch, DeviceProgram.run_changed]
    rcases device.run (site.dispatch depth request (.start { transport with source := rest }))
      with ⟨_ | _, _⟩ <;> rfl

/-- Two connections ended alike: they made the same calls and took the same bytes of those that
    arrived. -/
structure EndAlike (first second : Transport) (taken : Bytes) (outcome outcome' : Outcome) :
    Prop where
  disposition : outcome.disposition = outcome'.disposition
  /-- Each call on the outgoing half is the same, and so is its answer. -/
  sink : outcome.transport.sink = outcome'.transport.sink
  first_unread : first.source.unread = taken ++ outcome.transport.source.unread
  second_unread : second.source.unread = taken ++ outcome'.transport.source.unread

/-- Two connections run the same course on a device: they come to their ends, end alike and
    leave the same device. -/
def SameCourse (site : Site) (device : Device) (first second : Transport) (taken : Bytes) : Prop :=
  ∃ outcome outcome' after,
    (∀ depth, device.run (site.serve (depth + 1) first) = (some outcome, after)) ∧
    (∀ depth, device.run (site.serve (depth + 1) second) = (some outcome', after)) ∧
    EndAlike first second taken outcome outcome'

theorem unread_serve (hregistry : site.registry = Portal.pages hostname banner maxPages)
    {depth : Nat} {device after : Device} {transport : Transport} {outcome : Outcome}
    (h : device.run (site.serve depth transport) = (some outcome, after)) :
    transport.source.unread = Portal.taken site.limits transport.source.delivered ++
      outcome.transport.source.unread := by
  have hrun := run_serve_withSource hregistry depth device transport transport.source
    ⟨rfl, by simp⟩
  rw [show transport.withSource transport.source = transport from rfl, h] at hrun
  have houtcome := Option.some.inj (Prod.mk.inj hrun).1
  rw [houtcome]
  exact Portal.unread_leftover site.limits transport.source

theorem sameCourse_withSource (hregistry : site.registry = Portal.pages hostname banner maxPages)
    (device : Device) (transport : Transport) (source : Source)
    (halike : Portal.Alike site.limits transport.source source)
    (htaken : Portal.taken site.limits source.delivered =
      Portal.taken site.limits transport.source.delivered) :
    site.SameCourse device transport (transport.withSource source)
      (Portal.taken site.limits transport.source.delivered) := by
  obtain ⟨outcome, after, hfirst⟩ := ends_serve hregistry device transport
  have hsecond := run_serve_withSource hregistry 1 device transport source halike
  rw [hfirst] at hsecond
  have hunread := unread_serve hregistry hsecond
  rw [show (transport.withSource source).source = source from rfl, htaken] at hunread
  exact ⟨_, _, _, hfirst, run_serve_of_one hsecond, {
    disposition := rfl
    sink := rfl
    first_unread := unread_serve hregistry (hfirst 0)
    second_unread := hunread }⟩

/-- How the bytes arrive makes no difference to a connection to the portal, and neither
    does anything after the request, which is not taken. -/
theorem serve_sameCourse {registry : Registry}
    (hregister : Portal.register hostname (.empty banner maxPages) = (.ok (), registry))
    (limits : Limits) (device : Device) (transport : Transport) :
    let site : Site := ⟨registry, limits⟩
    let taken := Portal.taken limits transport.source.delivered
    taken <+: transport.source.delivered ∧
    (∀ source, transport.source.Agrees source →
      site.SameCourse device transport (transport.withSource source) taken) ∧
    (∀ request n, parseHeader limits transport.source.delivered = .ok (request, n) →
      taken.length ≤ n + request.contentLength ∧
      ∀ source, transport.source.AgreesTo (n + request.contentLength) source →
        site.SameCourse device transport (transport.withSource source) taken) := by
  obtain rfl := Portal.eq_pages_of_register hregister
  intro site taken
  have hregistry : site.registry = Portal.pages hostname banner maxPages := rfl
  refine ⟨Portal.taken_prefix _ _, fun source hagrees => ?_, fun request n hparse => ⟨?_, ?_⟩⟩
  · refine sameCourse_withSource hregistry device transport source (.of_agrees hagrees) ?_
    rw [hagrees.delivered]
  · refine (Portal.taken_prefix_of_parseHeader hparse).length_le.trans ?_
    exact List.length_take_le _ _
  · intro source hagrees
    refine sameCourse_withSource hregistry device transport source
      (.of_agreesTo hparse hagrees) ?_
    exact Portal.taken_eq_of_take_eq hparse hagrees.take

/-- The form of a browser, once in one piece and once in three with a failure between them
    that passes, and with other bytes after it. -/
theorem serve_sameCourse_browser :
    let site : Site := ⟨Portal.pages "device" "Setup" 2, .standard⟩
    let device : Device := ⟨.withWifiDomain, ⟨[], none, true, false⟩, .initial⟩
    let header := "POST /setwifi.html HTTP/1.1\r\nContent-Length: 28\r\n\r\n"
    let whole : Transport := .ofBytes (utf8 (header ++ "ssid=home\r\npassword=12345678GET "))
    let pieces : Source := [.data (utf8 header), .failure .interrupted,
      .data (utf8 "ssid=home\r\npass"), .data (utf8 "word=12345678POST "), .data []]
    site.SameCourse device whole (whole.withSource pieces)
      (utf8 (header ++ "ssid=home\r\npassword=12345678")) := by
  intro site device header whole pieces
  have hregister : Portal.register "device" (.empty "Setup" 2) =
      (.ok (), Portal.pages "device" "Setup" 2) := rfl
  have hcourse := serve_sameCourse hregister .standard device whole
  have hparse : parseHeader .standard whole.source.delivered =
      .ok (⟨.post, "/setwifi.html", 28⟩, 51) := by decide +kernel
  have htaken : Portal.taken .standard whole.source.delivered =
      utf8 (header ++ "ssid=home\r\npassword=12345678") := by decide +kernel
  have hagrees : whole.source.AgreesTo (51 + 28) pieces :=
    ⟨by decide +kernel, fun _ => rfl⟩
  rw [← htaken]
  exact (hcourse.2.2 _ _ hparse).2 pieces hagrees

end Site

end Provision
