/-
  Provision.Proofs.Page.Visit

  What a handler does to a connection. Handlers carried out one after the other are
  carried out as a whole (`perform_bind`), and a page that is sent either fails before
  its first byte, because its head cannot be composed, or sends the head, the menu and
  the body of one answer (`perform_sendPage`).
-/
import Mathlib.Tactic.SplitIfs
import Provision.Page.Visit
import Provision.Proofs.Device
import Provision.Proofs.Http.Answer
import Provision.Proofs.Page.Menu
import Provision.Proofs.Program
import Provision.Proofs.Wire.Sink

namespace Provision

open Http

/-! ## Handlers one after the other -/

namespace Handler

variable (site : Site) (request : Request) (page : Page) (showHome : Visit → VisitProgram)

theorem perform_bind (handler : Handler) (next : Except HandlerError Unit → Handler)
    (visit : Visit) :
    perform site request page showHome (handler.bind next) visit =
      (perform site request page showHome handler visit).bindSome fun (result, visit') =>
        perform site request page showHome (next result) visit' := by
  induction handler generalizing visit with
  | done result => rfl
  | ask question rest ih =>
    cases question with
    | send data => exact ih _ _
    | head bodyLength title => exact ih _ _
    | readForm fields => exact ih _ _
    | showHome =>
      -- the home page is a program of its own, so here the law of `bindSome` is needed
      simp only [Program.bind, perform, Program.bindSome_assoc]
      congr 1
      funext returned
      obtain ⟨result, visit'⟩ := returned
      exact ih result visit'
    | context => exact ih _ _
    | device call =>
      simp only [Program.bind, perform, Program.bindSome_ask]
      congr 1
      funext reply
      exact ih reply visit

/-- What a device makes of a handler and of another that goes on from its result. -/
theorem run_perform_bind (device : Device) (handler : Handler)
    (next : Except HandlerError Unit → Handler) (visit : Visit) :
    device.run (perform site request page showHome (handler.bind next) visit) =
      match device.run (perform site request page showHome handler visit) with
      | (none, device') => (none, device')
      | (some (result, visit'), device') =>
        device'.run (perform site request page showHome (next result) visit') := by
  rw [perform_bind, Device.run_bindSome]
  rcases device.run (perform site request page showHome handler visit) with ⟨_ | _, _⟩ <;> rfl

end Handler

/-! ## Sending a page -/

namespace Site

variable {site : Site} {bodyLength : Nat} {title body : String}

/-- The menu of a site as it is written. -/
def menuText (site : Site) : String := String.join site.registry.menuParts

/-- A whole answer that holds a page: head, menu and body. -/
def pageResponse (site : Site) (title body : String) : Bytes := Answer.page title site.menuText body

/-- The menu fits, and so does the head of this page. -/
def Fits (site : Site) (title body : String) : Prop :=
  site.menuText.utf8ByteSize ≤ site.limits.menuCapacity ∧
    (Answer.head body.utf8ByteSize title site.menuText).utf8ByteSize ≤ site.limits.headCapacity

theorem head_eq :
    site.head bodyLength title =
      if site.menuText.utf8ByteSize ≤ site.limits.menuCapacity then
        Response.head bodyLength title site.menuText site.limits.headCapacity
      else .error (.menuTooLarge site.limits.menuCapacity) := by
  rw [head, Registry.menu_eq, Registry.menuText_eq_join, ← menuText]
  split_ifs <;> rfl

theorem head_eq_ok {head : Bytes} (h : site.head bodyLength title = .ok head) :
    head = utf8 (Answer.head bodyLength title site.menuText) := by
  rw [head_eq, Response.head_eq] at h
  split_ifs at h
  exact (Except.ok.inj h).symm

theorem exists_head_eq_ok_iff :
    (∃ head, site.head body.utf8ByteSize title = .ok head) ↔ site.Fits title body := by
  rw [Fits, head_eq, Response.head_eq]
  split_ifs with hmenu hhead
  · exact iff_of_true ⟨_, rfl⟩ ⟨hmenu, hhead⟩
  · exact iff_of_false (by simp) fun hfits => hhead hfits.2
  · exact iff_of_false (by simp) fun hfits => hmenu hfits.1

end Site

namespace Visit

theorem send_spec (limits : Limits) (data : Bytes) (visit : Visit) :
    (visit.send limits data).2.responded = true ∧
      Sink.Sends visit.transport.sink data (visit.send limits data).2.transport.sink
        ((visit.send limits data).1 = .ok ()) :=
  ⟨rfl, Sink.sendAll_spec _ _ _⟩

/-- A handler has answered with a page whose body is one of `bodies`, or has failed
    without a trace on the connection. -/
def Answered (site : Site) (title : String) (bodies : String → Prop) (before : Visit)
    (result : Except HandlerError Unit) (after : Visit) : Prop :=
  (after = before ∧ result ≠ .ok ()) ∨
    ∃ body, bodies body ∧ after.responded = true ∧
      Sink.Sends before.transport.sink (site.pageResponse title body) after.transport.sink
        (result = .ok ())

end Visit

namespace Handler

variable (site : Site) (request : Request) (page : Page) (showHome : Visit → VisitProgram)

theorem perform_sendBytes (data : Bytes) (visit : Visit) :
    ∃ result after,
      perform site request page showHome (sendBytes data) visit = .done (some (result, after)) ∧
      after.responded = true ∧
      Sink.Sends visit.transport.sink data after.transport.sink (result = .ok ()) := by
  obtain ⟨hresponded, hsends⟩ := visit.send_spec site.limits data
  unfold sendBytes perform
  cases hsend : visit.send site.limits data with
  | mk sent after =>
    rw [hsend] at hresponded hsends
    cases sent with
    | error e =>
      refine ⟨.error (.io e), after, rfl, hresponded, ?_⟩
      simpa using hsends
    | ok => exact ⟨.ok (), after, rfl, hresponded, by simpa using hsends⟩

theorem perform_sendHeadAndBody (head body : Bytes) (visit : Visit) :
    ∃ result after,
      perform site request page showHome (sendHeadAndBody head body) visit =
        .done (some (result, after)) ∧
      after.responded = true ∧
      Sink.Sends visit.transport.sink (head ++ body) after.transport.sink (result = .ok ()) := by
  obtain ⟨first, between, hfirst, hresponded, hhead⟩ :=
    perform_sendBytes site request page showHome head visit
  unfold sendHeadAndBody
  rw [perform_bind, hfirst]
  cases first with
  | error e => exact ⟨.error e, between, rfl, hresponded, hhead.stop (by simp) (by simp) body⟩
  | ok =>
    obtain ⟨second, after, hsecond, hresponded', hbody⟩ :=
      perform_sendBytes site request page showHome body between
    exact ⟨second, after, hsecond, hresponded', hhead.append rfl hbody⟩

/-- A page whose head cannot be composed leaves the connection alone. -/
theorem perform_sendPage_of_head_eq_error {body : String} {e : ResponseError}
    (h : site.head body.utf8ByteSize page.title = .error e) (visit : Visit) :
    perform site request page showHome (sendPage body) visit =
      .done (some (.error (.response e), visit)) := by
  unfold sendPage
  simp only [perform, h]

/-- A page whose head can be composed is sent as one answer. -/
theorem perform_sendPage_of_head_eq_ok {body : String} {head : Bytes}
    (h : site.head body.utf8ByteSize page.title = .ok head) (visit : Visit) :
    ∃ result after,
      perform site request page showHome (sendPage body) visit = .done (some (result, after)) ∧
      after.responded = true ∧
      Sink.Sends visit.transport.sink (site.pageResponse page.title body) after.transport.sink
        (result = .ok ()) := by
  unfold sendPage
  simp only [perform, h]
  -- head and body are two sends of one answer
  obtain ⟨result, after, hperform, hresponded, hsends⟩ :=
    perform_sendHeadAndBody site request page showHome head (utf8 body) visit
  refine ⟨result, after, hperform, hresponded, ?_⟩
  rwa [Site.pageResponse, Answer.page, utf8_append, ← Site.head_eq_ok h]

theorem perform_sendPage (body : String) (visit : Visit) :
    ∃ result after,
      perform site request page showHome (sendPage body) visit = .done (some (result, after)) ∧
      visit.Answered site page.title (· = body) result after := by
  cases hhead : site.head body.utf8ByteSize page.title with
  | error e =>
    have hperform := perform_sendPage_of_head_eq_error site request page showHome hhead visit
    exact ⟨_, _, hperform, Or.inl ⟨rfl, by simp⟩⟩
  | ok head =>
    obtain ⟨result, after, hperform, hresponded, hsends⟩ :=
      perform_sendPage_of_head_eq_ok site request page showHome hhead visit
    exact ⟨result, after, hperform, Or.inr ⟨body, rfl, hresponded, hsends⟩⟩

end Handler

end Provision
