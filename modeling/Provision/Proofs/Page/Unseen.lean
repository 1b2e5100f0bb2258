/-
  Provision.Proofs.Page.Unseen

  Changes of a connection that answering a request does not see. Sending goes on with such a
  change as it does without, and leaves it in place (`Visit.Unseen`). So a handler on the
  changed visit comes to what it came to before, but for the change
  (`Handler.perform_of_unseen`), and so does what the dispatcher makes of it
  (`Site.conclude_of_unseen`). The bytes to come are changed unseen by all that read none of
  them, and the end of a shutdown by everything before it.
-/
import Mathlib.Tactic.SplitIfs
import Provision.Connection
import Provision.Proofs.Device

namespace Provision

open Http

/-! ## Changes of a visit -/

namespace Visit

/-- Sending does not see the change, and leaves it in place. -/
structure Unseen (change : Visit → Visit) : Prop where
  responded : ∀ visit, (change visit).responded = visit.responded
  send : ∀ (limits : Limits) (data : Bytes) (visit : Visit),
    (change visit).send limits data =
      ((visit.send limits data).1, change (visit.send limits data).2)
  sendFixed : ∀ (limits : Limits) (status : Status) (visit : Visit),
    (change visit).sendFixed limits status = change (visit.sendFixed limits status)

variable {change : Visit → Visit}

theorem Unseen.refuseHome (h : Unseen change) (limits : Limits) (visit : Visit) :
    (change visit).refuseHome limits =
      ((visit.refuseHome limits).1, change (visit.refuseHome limits).2) := by
  unfold Visit.refuseHome
  rw [h.send]
  rcases visit.send limits (Response.fixed .notFound) with ⟨_ | _, _⟩ <;> rfl

end Visit

namespace DeviceProgram

variable {α : Type} (change : Visit → Visit)

/-- What a program on a visit comes to, with the visit changed at its end. -/
def changed (program : DeviceProgram (Option (α × Visit))) : DeviceProgram (Option (α × Visit)) :=
  program.bindSome fun (result, visit) => .done (some (result, change visit))

theorem run_changed (program : DeviceProgram (Option (α × Visit))) (device : Device) :
    device.run (program.changed change) =
      ((device.run program).1.map (Prod.map id change), (device.run program).2) := by
  rw [changed, Device.run_bindSome]
  rcases device.run program with ⟨_ | _, _⟩ <;> rfl

end DeviceProgram

/-! ## Handlers -/

namespace Handler

variable (site : Site) (request : Request) (page : Page)

/-- A handler does not see a change that none of its calls sees: not those that read a form, if
    it makes some, and not the home page, if it shows that. -/
theorem perform_of_unseen {change : Visit → Visit} (hunseen : Visit.Unseen change)
    {allowed : PageCall → Prop} {showHome showHome' : Visit → VisitProgram}
    (hform : ∀ fields, allowed (.readForm fields) → ∀ visit : Visit,
      (change visit).readForm request fields =
        ((visit.readForm request fields).1, change (visit.readForm request fields).2))
    (hhome : allowed .showHome → ∀ visit,
      showHome (change visit) = (showHome' visit).changed change)
    {handler : Handler} (h : handler.OnlyAsks allowed) (visit : Visit) :
    perform site request page showHome handler (change visit) =
      (perform site request page showHome' handler visit).changed change := by
  induction handler generalizing visit with
  | done result => rfl
  | ask question next ih =>
    obtain ⟨hallowed, hnext⟩ := h
    cases question with
    | send data =>
      simp only [perform, hunseen.send]
      exact ih _ (hnext _) _
    | head bodyLength title => exact ih _ (hnext _) _
    | readForm fields =>
      simp only [perform, hform fields hallowed]
      exact ih _ (hnext _) _
    | showHome =>
      simp only [perform, hhome hallowed, DeviceProgram.changed, Program.bindSome_assoc]
      congr 1
      funext returned
      obtain ⟨result, visit'⟩ := returned
      exact ih result (hnext result) visit'
    | context =>
      simp only [perform, hunseen.responded]
      exact ih _ (hnext _) _
    | device call =>
      simp only [perform, DeviceProgram.changed, Program.bindSome_ask]
      congr 1
      funext reply
      exact ih reply (hnext reply) visit

end Handler

/-! ## Ending a request -/

/-- Concluding a request does not see the change either. -/
theorem Site.conclude_of_unseen (site : Site) {change : Visit → Visit}
    (h : Visit.Unseen change) (result : Except HandlerError Unit) (visit : Visit) :
    site.conclude result (change visit) =
      ((site.conclude result visit).1, change (site.conclude result visit).2) := by
  cases result with
  | ok => rfl
  | error e =>
    unfold conclude
    rw [h.responded, h.sendFixed]
    split_ifs <;> rfl

end Provision
