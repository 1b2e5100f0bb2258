/-
  Provision.Proofs.Page.Depth

  How deep the home page is followed. A run that comes to an outcome comes to the same one
  wherever the home page is followed deeper (`Site.serve_extends`), so a request has at most one
  outcome (`Site.Dispatches.unique`).
-/
import Provision.Connection
import Provision.Proofs.Device

namespace Provision

open Http

/-! ## Programs that go further -/

namespace DeviceProgram

variable {α β : Type}

/-- Wherever the one program comes to a result, so does the other, to the same one. -/
def Extends (longer shorter : DeviceProgram (Option α)) : Prop :=
  ∀ (device : Device) (result : α) (device' : Device),
    device.run shorter = (some result, device') → device.run longer = (some result, device')

theorem Extends.refl (program : DeviceProgram (Option α)) : program.Extends program :=
  fun _ _ _ hrun => hrun

theorem Extends.trans {long middle short : DeviceProgram (Option α)} (h : long.Extends middle)
    (h' : middle.Extends short) : long.Extends short :=
  fun device result device' hrun => h device result device' (h' device result device' hrun)

theorem extends_done_none (program : DeviceProgram (Option α)) : program.Extends (.done none) := by
  intro device result device' hrun
  cases (Prod.mk.inj hrun).1

theorem extends_ask {call : DeviceCall} {longer shorter : call.Reply → DeviceProgram (Option α)}
    (h : ∀ reply, (longer reply).Extends (shorter reply)) :
    Extends (.ask call longer) (.ask call shorter) :=
  fun _ result device' hrun => h _ _ result device' hrun

theorem Extends.bindSome {longer shorter : DeviceProgram (Option α)}
    {go go' : α → DeviceProgram (Option β)} (h : longer.Extends shorter)
    (hgo : ∀ result, (go result).Extends (go' result)) :
    Extends (longer.bindSome go) (shorter.bindSome go') := by
  intro device result device' hrun
  rw [Device.run_bindSome] at hrun ⊢
  rcases hfirst : device.run shorter with ⟨_ | between, device₁⟩
  · rw [hfirst] at hrun
    cases (Prod.mk.inj hrun).1
  · rw [hfirst] at hrun
    rw [h device between device₁ hfirst]
    exact hgo between device₁ result device' hrun

/-- Of programs each of which goes further than the one before it, all that come to a result come
    to the same. -/
theorem unique_of_extends {program : Nat → DeviceProgram (Option α)}
    (h : ∀ {depth depth'}, depth ≤ depth' → (program depth').Extends (program depth))
    {device device₁ device₂ : Device} {first second : α} {depth depth' : Nat}
    (hrun : device.run (program depth) = (some first, device₁))
    (hrun' : device.run (program depth') = (some second, device₂)) :
    first = second ∧ device₁ = device₂ := by
  -- both are seen again in one that goes as far as either
  have hfar := h (Nat.le_max_left depth depth') device first device₁ hrun
  have hfar' := h (Nat.le_max_right depth depth') device second device₂ hrun'
  obtain ⟨hresult, hdevice⟩ := Prod.mk.inj (hfar.symm.trans hfar')
  exact ⟨Option.some.inj hresult, hdevice⟩

end DeviceProgram

open DeviceProgram

/-! ## Following the home page deeper -/

namespace Handler

variable (site : Site) (request : Request) (page : Page)

theorem perform_extends {longer shorter : Visit → VisitProgram}
    (hhome : ∀ visit, (longer visit).Extends (shorter visit)) (handler : Handler) (visit : Visit) :
    (handler.perform site request page longer visit).Extends
      (handler.perform site request page shorter visit) := by
  induction handler generalizing visit with
  | done result => exact .refl _
  | ask question next ih =>
    cases question with
    | send data => exact ih _ _
    | head bodyLength title => exact ih _ _
    | readForm fields => exact ih _ _
    | showHome => exact (hhome visit).bindSome fun (result, visit') => ih result visit'
    | context => exact ih _ _
    | device call => exact extends_ask fun reply => ih reply visit

end Handler

namespace Site

variable (site : Site) {depth depth' : Nat} (request : Request)

theorem showHome_extends_succ (depth : Nat) (visit : Visit) :
    (site.showHome request (depth + 1) visit).Extends (site.showHome request depth visit) := by
  induction depth generalizing visit with
  | zero => exact extends_done_none _
  | succ depth ih =>
    rw [showHome, showHome]
    cases site.registry.homePage with
    | none => exact .refl _
    | some home =>
      dsimp only
      split
      · exact Handler.perform_extends site request home ih home.onGet visit
      · exact .refl _

theorem showHome_extends (h : depth ≤ depth') (visit : Visit) :
    (site.showHome request depth' visit).Extends (site.showHome request depth visit) := by
  induction h with
  | refl => exact .refl _
  | step _ ih => exact (site.showHome_extends_succ request _ visit).trans ih

theorem answerWith_extends (h : depth ≤ depth') (page : Option Page) (visit : Visit) :
    (site.answerWith depth' request page visit).Extends
      (site.answerWith depth request page visit) := by
  unfold answerWith visitPage
  cases page.filter fun page => page.supports request.method with
  | none => exact .refl _
  | some page =>
    have hperform := Handler.perform_extends site request page (site.showHome_extends request h)
      (page.handler request.method) visit
    exact hperform.bindSome fun _ => .refl _

theorem dispatch_extends (h : depth ≤ depth') (visit : Visit) :
    (site.dispatch depth' request visit).Extends (site.dispatch depth request visit) := by
  unfold dispatch
  split
  · exact .refl _
  · split
    · exact extends_ask fun _ => site.answerWith_extends request h _ visit
    · exact site.answerWith_extends request h _ visit
  · exact site.answerWith_extends request h _ visit

/-- A connection that comes to its end comes to the same end wherever the home page is followed
    deeper. -/
theorem serve_extends (h : depth ≤ depth') (transport : Transport) :
    (site.serve depth' transport).Extends (site.serve depth transport) := by
  unfold serve
  rcases readRequest site.limits transport.source with ⟨_ | request, source⟩
  · exact .refl _
  · exact (site.dispatch_extends request h _).bindSome fun _ => .refl _

/-- What one level of the home page is enough for comes out alike at every greater depth. -/
theorem run_serve_of_one {site : Site} {device after : Device} {transport : Transport}
    {outcome : Outcome} (h : device.run (site.serve 1 transport) = (some outcome, after))
    (depth : Nat) : device.run (site.serve (depth + 1) transport) = (some outcome, after) :=
  site.serve_extends (Nat.le_add_left 1 depth) transport device outcome after h

/-- Dispatching a request on a device comes to this, the home page followed as deep as it takes. -/
def Dispatches (site : Site) (request : Request) (visit : Visit) (device : Device)
    (disposition : Disposition) (after : Visit) (device' : Device) : Prop :=
  ∃ depth, device.run (site.dispatch depth request visit) =
    (some (disposition, after), device')

theorem Dispatches.unique {site : Site} {request : Request} {visit after after' : Visit}
    {device device₁ device₂ : Device} {disposition disposition' : Disposition}
    (h : site.Dispatches request visit device disposition after device₁)
    (h' : site.Dispatches request visit device disposition' after' device₂) :
    disposition = disposition' ∧ after = after' ∧ device₁ = device₂ := by
  obtain ⟨depth, hrun⟩ := h
  obtain ⟨depth', hrun'⟩ := h'
  obtain ⟨hended, hdevice⟩ :=
    unique_of_extends (fun hle => site.dispatch_extends request hle visit) hrun hrun'
  obtain ⟨hdisposition, hafter⟩ := Prod.mk.inj hended
  exact ⟨hdisposition, hafter, hdevice⟩

end Site

end Provision
