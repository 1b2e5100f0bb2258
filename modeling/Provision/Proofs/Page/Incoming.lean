/-
  Provision.Proofs.Page.Incoming

  The incoming half of a connection, seen from a handler. Only reading a form touches it:
  a handler that reads none does the same on a visit with other bytes to come, and leaves
  them where they are (`perform_withSource`). So whatever is known of the bytes of a request
  is known from the forms that were read.
-/
import Provision.Proofs.Page.Unseen

namespace Provision

open Http

/-! ## Other bytes to come -/

/-- The connection with other bytes to come. -/
def Transport.withSource (transport : Transport) (source : Source) : Transport :=
  { transport with source := source }

namespace Visit

/-- The visit with other bytes to come. -/
def withSource (visit : Visit) (source : Source) : Visit :=
  { visit with transport := visit.transport.withSource source }

/-- Sending does not look at the bytes to come. -/
theorem unseen_withSource (source : Source) : Unseen fun visit => visit.withSource source :=
  ⟨fun _ => rfl, fun _ _ _ => rfl, fun _ _ _ => rfl⟩

theorem readForm_withSource (request : Request) (fields : List Field) (visit : Visit)
    (source : Source) :
    (visit.withSource source).readForm request fields =
      ((Form.read fields request.contentLength source).1,
        visit.withSource (Form.read fields request.contentLength source).2) := rfl

end Visit

/-! ## Handlers that read no form -/

namespace Handler

variable (site : Site) (request : Request) (page : Page)

/-- A handler that reads no form does not depend on the bytes to come, as long as the home
    page that it shows does not either. -/
theorem perform_withSource {allowed : PageCall → Prop} {showHome showHome' : Visit → VisitProgram}
    (hform : ∀ fields, ¬ allowed (.readForm fields))
    (hhome : allowed .showHome → ∀ visit source,
      showHome (visit.withSource source) = (showHome' visit).changed (·.withSource source))
    {handler : Handler} (h : handler.OnlyAsks allowed) (visit : Visit) (source : Source) :
    perform site request page showHome handler (visit.withSource source) =
      (perform site request page showHome' handler visit).changed (·.withSource source) :=
  perform_of_unseen site request page (Visit.unseen_withSource source)
    (fun fields hallowed => absurd hallowed (hform fields))
    (fun hallowed visit' => hhome hallowed visit' source) h visit

end Handler

end Provision
