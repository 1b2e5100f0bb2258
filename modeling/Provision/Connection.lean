/-
  Provision.Connection

  One connection from its first byte to its end: a request is read, the page for it
  answers, and the stream is shut down. A request that cannot be read is answered with
  400, one that no page answers with 404, and a handler that fails before it sent
  anything with 500. A stream that ends or fails inside the header is left as it is.
-/
import Provision.Page.Visit

namespace Provision

open Http

/-- How a connection ended. -/
inductive Disposition where
  /-- A page answered. -/
  | served
  | notFound
  | handlerFailed
  /-- The request was refused. -/
  | badRequest
  /-- The stream ended inside the header. -/
  | peerClosed
  /-- The connection failed inside the header. -/
  | failed
deriving DecidableEq, Repr

/-- A connection that has ended. -/
structure Outcome where
  disposition : Disposition
  transport : Transport
deriving DecidableEq

namespace Site

/-! ## Answering a request -/

/-- What is left of answering a request once its page is settled. -/
abbrev DispatchProgram := DeviceProgram (Option (Disposition × Visit))

/-- Ends a request whose handler has ended. -/
def conclude (site : Site) (result : Except HandlerError Unit) (visit : Visit) :
    Disposition × Visit :=
  match result with
  | .ok () => (.served, visit)
  | .error _ =>
    (.handlerFailed,
      if visit.responded then visit else visit.sendFixed site.limits .internalServerError)

/-- Lets a page answer, if there is one that answers the method. -/
def answerWith (site : Site) (depth : Nat) (request : Request) (page : Option Page)
    (visit : Visit) : DispatchProgram :=
  match page.filter fun page => page.supports request.method with
  | none => .done (some (.notFound, visit.sendFixed site.limits .notFound))
  | some page =>
    (site.visitPage depth request page visit).bindSome fun (result, visit') =>
      .done (some (site.conclude result visit'))

def dispatch (site : Site) (depth : Nat) (request : Request) (visit : Visit) : DispatchProgram :=
  match request.method with
  | .unknown => .done (some (.badRequest, visit.sendFixed site.limits .badRequest))
  | .get =>
    if request.isRoot then
      .ask .hasAccessPoint fun accessPoint =>
        site.answerWith depth request (site.registry.findRoot accessPoint) visit
    else site.answerWith depth request (site.registry.findByPath request.path) visit
  | .post => site.answerWith depth request (site.registry.findByPath request.path) visit

/-! ## Whole connections -/

/-- Ends a connection that was answered. A shutdown that fails changes nothing. -/
def close (disposition : Disposition) (visit : Visit) : Outcome :=
  ⟨disposition, visit.transport.shutdown.2⟩

/-- Ends a connection on which no request could be read. -/
def reject (site : Site) (error : ParseError) (transport : Transport) : Outcome :=
  match error with
  | .peerClosed => ⟨.peerClosed, transport⟩
  | error =>
    if error.isMalformed then
      close .badRequest ((Visit.start transport).sendFixed site.limits .badRequest)
    else ⟨.failed, transport⟩

/-- Serves a connection: what it calls on the device, and how it ends. -/
def serve (site : Site) (depth : Nat) (transport : Transport) : DeviceProgram (Option Outcome) :=
  match readRequest site.limits transport.source with
  | (.error e, source) => .done (some (site.reject e { transport with source := source }))
  | (.ok request, source) =>
    (site.dispatch depth request (Visit.start { transport with source := source })).bindSome
      fun (disposition, visit) => .done (some (close disposition visit))

end Site

end Provision
