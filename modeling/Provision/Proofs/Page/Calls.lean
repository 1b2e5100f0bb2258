/-
  Provision.Proofs.Page.Calls

  The calls that handlers make. What a handler calls on the device is what it was allowed
  to call, whatever it is answered (`Handler.onlyAsks_perform`). A handler that only shows a
  page is `Plain`: it reads no form, shows no other page and makes only calls on the device
  that leave its settings alone.
-/
import Provision.Page.Visit
import Provision.Proofs.Device
import Provision.Proofs.Program

namespace Provision

open Http

/-! ## Calls on the context -/

namespace PageCall

/-- The calls that leave the bytes to come alone, unless the home page takes some. -/
def KeepsSource : PageCall → Prop
  | readForm _ => False
  | _ => True

/-- The calls that concern no form and no page but the one that answers, and change no
    setting. -/
def Plain : PageCall → Prop
  | readForm _ | showHome => False
  | device call => call.Harmless
  | _ => True

end PageCall

/-! ## The calls of a handler -/

namespace Handler

variable (site : Site) (request : Request) (page : Page)

/-- A handler calls on the device what it was allowed to, and the home page what it was. -/
theorem onlyAsks_perform {allowed : PageCall → Prop} {calls : DeviceCall → Prop}
    {showHome : Visit → VisitProgram} (hdevice : ∀ call, allowed (.device call) → calls call)
    (hhome : allowed .showHome → ∀ visit, (showHome visit).OnlyAsks calls) {handler : Handler}
    (h : handler.OnlyAsks allowed) (visit : Visit) :
    (handler.perform site request page showHome visit).OnlyAsks calls := by
  induction handler generalizing visit with
  | done result => trivial
  | ask question next ih =>
    obtain ⟨hallowed, hnext⟩ := h
    cases question with
    | send data => exact ih _ (hnext _) _
    | head bodyLength title => exact ih _ (hnext _) _
    | readForm fields => exact ih _ (hnext _) _
    | showHome =>
      refine Program.onlyAsks_bindSome (hhome hallowed visit) fun returned => ?_
      exact ih _ (hnext _) _
    | context => exact ih _ (hnext _) _
    | device call => exact ⟨hdevice call hallowed, fun reply => ih reply (hnext reply) visit⟩

theorem plain_sendBytes (data : Bytes) : (sendBytes data).OnlyAsks PageCall.Plain := by
  refine ⟨trivial, fun sent => ?_⟩
  cases sent <;> trivial

theorem plain_sendPage (body : String) : (sendPage body).OnlyAsks PageCall.Plain := by
  refine ⟨trivial, fun context => ⟨trivial, fun head => ?_⟩⟩
  cases head with
  | error e => trivial
  | ok head =>
    refine Program.onlyAsks_bind (plain_sendBytes head) fun sent => ?_
    cases sent with
    | error e => trivial
    | ok => exact plain_sendBytes _

end Handler

end Provision
