/-
  Provision.Proofs.Portal.Responses

  The answer to a connection. At most one is ever sent: a fixed answer, or a page with
  its head, menu and body. What the peer gets is a prefix of it, and all of it unless a
  write breaks off, after which nothing more is offered. `Site.StandsFor` says which
  answer each disposition stands for.
-/
import Provision.Proofs.Connection
import Provision.Proofs.Page.Depth
import Provision.Proofs.Portal.Dispatch

namespace Provision

open Http

/-! ## One answer -/

namespace Site

/-- The whole answers that a site can give. -/
inductive IsResponse (site : Site) : Bytes → Prop
  | badRequest : IsResponse site Answer.badRequest
  | notFound : IsResponse site Answer.notFound
  | internalServerError : IsResponse site Answer.internalServerError
  | page {page : Page} (registered : page ∈ site.registry.pages) (body : String) :
      IsResponse site (Answer.page page.title site.menuText body)

/-- The answer that a disposition stands for. A handler may also fail with one of the
    answers in `refusals`. -/
inductive StandsFor (site : Site) (refusals : Bytes → Prop) : Disposition → Bytes → Prop
  | served {page : Page} (registered : page ∈ site.registry.pages) (body : String) :
      StandsFor site refusals .served (Answer.page page.title site.menuText body)
  | notFound : StandsFor site refusals .notFound Answer.notFound
  | badRequest : StandsFor site refusals .badRequest Answer.badRequest
  | handlerFailed : StandsFor site refusals .handlerFailed Answer.internalServerError
  | refused {response : Bytes} (h : refusals response) :
      StandsFor site refusals .handlerFailed response

/-- The calls made on a connection that ended with a disposition: none where no request
    came, and otherwise those that send one answer. -/
def AnswersOnce (site : Site) (refusals : Bytes → Prop) (disposition : Disposition)
    (made : List SinkCall) : Prop :=
  match disposition with
  | .peerClosed | .failed => made = []
  | disposition => ∃ response, site.IsResponse response ∧ Transmits response made ∧
      (Unbroken made → site.StandsFor refusals disposition response)

end Site

/-- The answer to a POST whose credentials could not be read or were refused: the home
    page of a device with these records. -/
structure WifiSetup.Refused (site : Site) (hostname : String) (store : Store) (request : Request)
    (source : Source) (response : Bytes) : Prop where
  method : request.method = .post
  target : utf8 path <+: utf8 request.path
  not_holds : ¬ ∃ ssid password, Holds request source ssid password
  home : ∃ body, Home.Shows hostname store body ∧
    response = Answer.page Home.title site.menuText body

namespace Site

/-- One answer was sent to one sink, and the other is what came of it. -/
structure RespondsOnce (site : Site) (refusals : Bytes → Prop) (before : Sink)
    (disposition : Disposition) (after : Sink) : Prop where
  came : ¬ disposition.Unanswered
  sent : ∃ response complete, site.IsResponse response ∧ Sink.Sends before response after complete ∧
    (complete → site.StandsFor refusals disposition response)

variable {site : Site} {refusals : Bytes → Prop}

theorem StandsFor.came {disposition : Disposition} {response : Bytes}
    (h : site.StandsFor refusals disposition response) : ¬ disposition.Unanswered := by
  cases h <;> simp [Disposition.Unanswered]

theorem RespondsOnce.shutdown {before after : Sink} {disposition : Disposition}
    (h : site.RespondsOnce refusals before disposition after) :
    site.RespondsOnce refusals before disposition after.shutdown := by
  obtain ⟨hcame, response, complete, hresponse, hsends, hstands⟩ := h
  exact ⟨hcame, response, complete, hresponse, hsends.shutdown, hstands⟩

theorem RespondsOnce.answersOnce {before after : Sink} {disposition : Disposition}
    (h : site.RespondsOnce refusals before disposition after) :
    ∃ made, after.calls = before.calls ++ made ∧ site.AnswersOnce refusals disposition made := by
  obtain ⟨hcame, response, complete, hresponse, ⟨made, hmade, htransmits, hcomplete⟩, hstands⟩ := h
  have hanswer : ∃ response, site.IsResponse response ∧ Transmits response made ∧
      (Unbroken made → site.StandsFor refusals disposition response) :=
    ⟨response, hresponse, htransmits, fun hno => hstands (hcomplete.mpr hno)⟩
  refine ⟨made, hmade, ?_⟩
  cases disposition with
  | peerClosed => exact absurd (Or.inl rfl) hcame
  | failed => exact absurd (Or.inr rfl) hcame
  | _ => exact hanswer

/-! ## Fixed answers -/

/-- The three answers that report a failure are what is composed for them. -/
theorem respondsOnce_sendFixed {status : Status} {disposition : Disposition} {response : Bytes}
    (heq : Response.fixed status = response) (visit : Visit) (hresponse : site.IsResponse response)
    (hstands : site.StandsFor refusals disposition response) :
    site.RespondsOnce refusals visit.transport.sink disposition
      (visit.sendFixed site.limits status).transport.sink := by
  subst heq
  exact ⟨hstands.came, _, _, hresponse, Sink.sendAll_spec _ _ _, fun _ => hstands⟩

theorem respondsOnce_badRequest (visit : Visit) :
    site.RespondsOnce refusals visit.transport.sink .badRequest
      (visit.sendFixed site.limits .badRequest).transport.sink :=
  respondsOnce_sendFixed Response.fixed_badRequest visit .badRequest .badRequest

theorem respondsOnce_notFound (visit : Visit) :
    site.RespondsOnce refusals visit.transport.sink .notFound
      (visit.sendFixed site.limits .notFound).transport.sink :=
  respondsOnce_sendFixed Response.fixed_notFound visit .notFound .notFound

/-! ## Answers of handlers -/

/-- A handler that has answered with a page, or left no trace, is concluded with one
    answer, also where it reports a failure other than that of the page. -/
theorem respondsOnce_conclude {page : Page} {bodies : String → Prop} {visit after : Visit}
    {shown result : Except HandlerError Unit} (hpage : page ∈ site.registry.pages)
    (hfresh : visit.responded = false)
    (h : visit.Answered site page.title bodies shown after)
    (hresult : result = shown ∨ ((∃ e, result = .error e) ∧
      ∀ body, bodies body → refusals (Answer.page page.title site.menuText body))) :
    site.RespondsOnce refusals visit.transport.sink (site.conclude result after).1
      (site.conclude result after).2.transport.sink := by
  rcases h with ⟨rfl, hunsent⟩ | ⟨body, hbody, hresponded, hsends⟩
  · -- the handler left no trace, so it failed, and the failure is answered
    have hfailed : ∃ e, result = .error e := by
      rcases hresult with rfl | ⟨hfailed, -⟩
      · cases result with
        | error e => exact ⟨e, rfl⟩
        | ok => exact absurd rfl hunsent
      · exact hfailed
    obtain ⟨e, rfl⟩ := hfailed
    have hconclude : site.conclude (.error e) after =
        (.handlerFailed, after.sendFixed site.limits .internalServerError) := by
      simp [conclude, hfresh]
    rw [hconclude]
    exact respondsOnce_sendFixed Response.fixed_internalServerError after .internalServerError
      .handlerFailed
  · -- the handler has answered, so nothing is sent after it
    refine ⟨?_, site.pageResponse page.title body, shown = .ok (), .page hpage body, ?_, ?_⟩
    · cases result <;> simp [conclude, Disposition.Unanswered]
    · cases result <;> simp [conclude, hresponded, hsends]
    · intro hshown
      cases result with
      | ok => exact .served hpage body
      | error e =>
        rcases hresult with rfl | ⟨-, hrefused⟩
        · cases hshown
        · exact .refused (hrefused body hbody)

/-! ## Requests to the two pages -/

variable {hostname banner : String} {maxPages : Nat}

/-- A request that a program answers comes to an end, and one answer was sent. -/
def EndsOnce (site : Site) (refusals : Bytes → Prop) (program : DispatchProgram) (before : Sink)
    (device : Device) : Prop :=
  ∃ disposition visit device', device.run program = (some (disposition, visit), device') ∧
    site.RespondsOnce refusals before disposition visit.transport.sink

theorem endsOnce_answerWith_get {request : Request} {page : Option Page} (depth : Nat)
    (device : Device) {visit : Visit}
    (hregistry : site.registry = Portal.pages hostname banner maxPages)
    (hmethod : request.method = .get) (hfresh : visit.responded = false)
    (hpage : ∀ p, page = some p → p ∈ (Portal.pages hostname banner maxPages).pages) :
    site.EndsOnce refusals (site.answerWith depth request page visit) visit.transport.sink
      device := by
  unfold EndsOnce
  rw [run_answerWith]
  split
  · exact ⟨_, _, _, rfl, respondsOnce_notFound visit⟩
  · rename_i p hfilter
    have hmem := hpage p (Option.eq_some_of_filter_eq_some hfilter)
    obtain ⟨bodies, result, after, hrun, hanswered⟩ :=
      site.run_visitPage_get hmem hmethod depth device visit
    rw [hrun]
    exact ⟨_, _, _, rfl, respondsOnce_conclude (hregistry ▸ hmem) hfresh hanswered (Or.inl rfl)⟩

/-- Where a credential is refused by the store, so is the device's name, and the home page
    cannot be shown. -/
theorem not_shows_of_write_error {store : Store} {id : UInt8} {value : Bytes} {e : StoreError}
    (hid : id ≤ Store.hostnameId) (h : store.write Store.wifiDomain id value = .error e)
    (body : String) : ¬ Home.Shows hostname store body := by
  rintro ⟨stored, ssid, hread, -⟩
  unfold Store.write at h
  unfold Store.read at hread
  cases hcount : store.idCount Store.wifiDomain with
  | none => simp [Store.refusal, hcount] at hread
  | some count =>
    -- the name's id is the last one, so a store that has it has the others
    by_cases hlt : Store.hostnameId < count
    · simp [Store.refusal, hcount, UInt8.lt_of_le_of_lt hid hlt] at h
    · simp [Store.refusal, hcount, hlt] at hread

theorem respondsOnce_onPost {request : Request} (device : Device) {visit : Visit} (depth : Nat)
    (hregistry : site.registry = Portal.pages hostname banner maxPages)
    (hfresh : visit.responded = false) (hmethod : request.method = .post)
    (htarget : utf8 WifiSetup.path <+: utf8 request.path)
    (hrefusals : ∀ response, WifiSetup.Refused site hostname device.store request
      visit.transport.source response → refusals response) :
    ∃ result after device',
      device.run (WifiSetup.onPost.perform site request WifiSetup.page
        (site.showHome request (depth + 1)) visit) = (some (result, after), device') ∧
      site.RespondsOnce refusals visit.transport.sink (site.conclude result after).1
        (site.conclude result after).2.transport.sink := by
  have hhome := Portal.homePage_of_eq_pages hregistry
  have hpage : Home.page hostname ∈ site.registry.pages := by
    rw [hregistry]
    exact List.mem_cons_self
  -- reading the form leaves the sink as it was, and the response unsent
  have hconclude : ∀ {shown result : Except HandlerError Unit} {store : Store} {after : Visit},
      (visit.readForm request WifiSetup.fields).2.Answered site Home.title
        (Home.Shows hostname store) shown after →
      (result = shown ∨ ((∃ e, result = .error e) ∧ ∀ body, Home.Shows hostname store body →
        refusals (Answer.page Home.title site.menuText body))) →
      site.RespondsOnce refusals visit.transport.sink (site.conclude result after).1
        (site.conclude result after).2.transport.sink := by
    intro shown result store after hanswered hresult
    have hfresh' : (visit.readForm request WifiSetup.fields).2.responded = false := hfresh
    have hsent := respondsOnce_conclude hpage hfresh' hanswered hresult
    exact hsent
  obtain ⟨saved, device', shown, after, hsaves, hanswered, hrun⟩ :=
    WifiSetup.run_onPost site request WifiSetup.page hhome depth device visit
  rw [hrun]
  cases hsaves with
  | refused hholds =>
    refine ⟨_, _, _, rfl, hconclude hanswered (Or.inr ⟨⟨_, rfl⟩, fun body hbody => ?_⟩)⟩
    exact hrefusals _ ⟨hmethod, htarget, hholds, body, hbody, rfl⟩
  | ssidFailed _ hfirst =>
    refine ⟨_, _, _, rfl, hconclude hanswered (Or.inr ⟨⟨_, rfl⟩, fun body hbody => ?_⟩)⟩
    exact absurd hbody (not_shows_of_write_error (by decide) hfirst body)
  | passwordFailed _ _ hsecond =>
    refine ⟨_, _, _, rfl, hconclude hanswered (Or.inr ⟨⟨_, rfl⟩, fun body hbody => ?_⟩)⟩
    exact absurd hbody (not_shows_of_write_error (by decide) hsecond body)
  | stored => exact ⟨_, _, _, rfl, hconclude hanswered (Or.inl rfl)⟩

theorem endsOnce_dispatch {request : Request} (depth : Nat) (device : Device) (visit : Visit)
    (hregistry : site.registry = Portal.pages hostname banner maxPages)
    (hfresh : visit.responded = false)
    (hrefusals : ∀ response, WifiSetup.Refused site hostname device.store request
      visit.transport.source response → refusals response) :
    site.EndsOnce refusals (site.dispatch (depth + 1) request visit) visit.transport.sink
      device := by
  unfold dispatch
  rw [hregistry]
  cases hmethod : request.method with
  | unknown => exact ⟨_, _, _, rfl, respondsOnce_badRequest visit⟩
  | get =>
    dsimp only
    split
    · exact endsOnce_answerWith_get _ device hregistry hmethod hfresh
        fun p hp => Registry.mem_of_findRoot hp
    · exact endsOnce_answerWith_get _ device hregistry hmethod hfresh
        fun p hp => mem_of_findByPath_pages hp
  | post =>
    unfold EndsOnce
    dsimp only
    rw [run_answerWith, hmethod, filter_findByPath_post]
    by_cases hserves : Registry.serves WifiSetup.page request.path = true
    · obtain ⟨result, after, device', hrun, hresponds⟩ := respondsOnce_onPost device depth hregistry
        hfresh hmethod (Registry.serves_iff.mp hserves) hrefusals
      rw [if_pos hserves]
      simp only [run_visitPage_post site hmethod, hrun]
      exact ⟨_, _, _, rfl, hresponds⟩
    · rw [if_neg hserves]
      exact ⟨_, _, _, rfl, respondsOnce_notFound visit⟩

/-- A connection on which no request could be read is left as it is, or refused. -/
theorem answersOnce_reject (site : Site) (refusals : Bytes → Prop) (e : ParseError)
    (transport : Transport) :
    ∃ made, (site.reject e transport).transport.sink.calls = transport.sink.calls ++ made ∧
      site.AnswersOnce refusals (site.reject e transport).disposition made := by
  have hrefused : site.RespondsOnce refusals transport.sink .badRequest
      ((Visit.start transport).sendFixed site.limits .badRequest).transport.sink :=
    respondsOnce_badRequest (.start transport)
  cases e with
  | peerClosed => exact ⟨[], by simp [reject], rfl⟩
  | io error => exact ⟨[], by simp [reject, ParseError.isMalformed], rfl⟩
  | incomplete => exact ⟨[], by simp [reject, ParseError.isMalformed], rfl⟩
  | _ => exact hrefused.shutdown.answersOnce

/-! ## The whole connection -/

theorem answersOnce_serve (hregistry : site.registry = Portal.pages hostname banner maxPages)
    (device : Device) (transport : Transport) :
    let read := readRequest site.limits transport.source
    let refusals := fun response => ∃ request source, read = (.ok request, source) ∧
      WifiSetup.Refused site hostname device.store request source response
    ∃ outcome after, device.run (site.serve 1 transport) = (some outcome, after) ∧
      (∃ made, outcome.transport.sink.calls = transport.sink.calls ++ made ∧
        site.AnswersOnce refusals outcome.disposition made) ∧
      (outcome.disposition.Unanswered ↔ ∃ e, read.1 = .error e ∧ e.isMalformed = false) := by
  intro read refusals
  rw [run_serve]
  rcases hread : readRequest site.limits transport.source with ⟨e | request, source⟩
  · have hreject := answersOnce_reject site refusals e { transport with source := source }
    have hunanswered := site.unanswered_reject_iff e { transport with source := source }
    refine ⟨_, _, rfl, hreject, hunanswered.trans ?_⟩
    simp [read, hread]
  · obtain ⟨disposition, visit, device', hrun, hresponds⟩ :
        site.EndsOnce refusals _ transport.sink device :=
      endsOnce_dispatch 0 device (.start { transport with source := source }) hregistry rfl
        fun response hrefused => ⟨request, source, hread, hrefused⟩
    dsimp only
    rw [hrun]
    refine ⟨_, _, rfl, hresponds.shutdown.answersOnce, ?_⟩
    -- a request came, so there is an answer to it
    have hcame : ¬ ∃ e, read.1 = .error e ∧ e.isMalformed = false := by simp [read, hread]
    exact iff_of_false hresponds.came hcame

/-- A connection to the two pages comes to its end. The home page shows no other, so one level
    of it is enough. -/
theorem ends_serve (hregistry : site.registry = Portal.pages hostname banner maxPages)
    (device : Device) (transport : Transport) :
    ∃ outcome after, ∀ depth,
      device.run (site.serve (depth + 1) transport) = (some outcome, after) := by
  obtain ⟨outcome, after, hrun, -⟩ := answersOnce_serve hregistry device transport
  exact ⟨outcome, after, run_serve_of_one hrun⟩

end Site

end Provision
