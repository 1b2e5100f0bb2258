/-
  Provision.Page.Visit

  One request being answered. A `Visit` is the connection with what has happened on it
  so far; `Handler.perform` carries a handler's calls out on it, which leaves a program
  that only calls the device.

  A handler may show the home page, whose handler may do so again, and how deep that goes
  may hang on what the device answers. So the home page is followed down to some depth,
  and where it goes deeper a program has no outcome. One that has an outcome has the same
  at every greater depth, and a request whose handler ends has one at some depth.
-/
import Provision.Page.Registry
import Provision.Wire.Transport

namespace Provision

open Http

/-- The pages and the bounds that connections are served with. -/
structure Site where
  registry : Registry
  limits : Limits

namespace Site

/-- The head of a page: the menu must fit, and then the head that holds it. -/
def head (site : Site) (bodyLength : Nat) (title : String) : Except ResponseError Bytes :=
  match site.registry.menu site.limits.menuCapacity with
  | .error e => .error e
  | .ok menu => Response.head bodyLength title menu site.limits.headCapacity

end Site

/-- One request being answered. -/
structure Visit where
  transport : Transport
  /-- True once a handler has sent something, be it no byte at all. -/
  responded : Bool
deriving DecidableEq

namespace Visit

/-- A connection on which nothing was answered yet. -/
def start (transport : Transport) : Visit := ⟨transport, false⟩

/-- Sends bytes of a handler's response. -/
def send (limits : Limits) (data : Bytes) (visit : Visit) : Except IoError Unit × Visit :=
  let (result, transport) := visit.transport.sendAll limits.sendChunk data
  (result, ⟨transport, true⟩)

/-- Sends a fixed answer, which is not a handler's. A failure to do so changes nothing else. -/
def sendFixed (limits : Limits) (status : Status) (visit : Visit) : Visit :=
  { visit with
    transport := (visit.transport.sendAll limits.sendChunk (Response.fixed status)).2 }

def readForm (request : Request) (fields : List Field) (visit : Visit) :
    Except FormError (List Field) × Visit :=
  let (result, source) := Form.read fields request.contentLength visit.transport.source
  (result, { visit with transport := { visit.transport with source := source } })

/-- Answers that there is no home page. -/
def refuseHome (limits : Limits) (visit : Visit) : Except HandlerError Unit × Visit :=
  match visit.send limits (Response.fixed .notFound) with
  | (.error e, visit') => (.error (.io e), visit')
  | (.ok (), visit') => (.error .noHomePage, visit')

end Visit

/-- What is left of answering a request: device calls, and then its outcome, if the home page
was followed deep enough to come to one. -/
abbrev VisitProgram := DeviceProgram (Option (Except HandlerError Unit × Visit))

namespace Handler

/-- Carries out the calls of a handler for a page; `showHome` says how the home page is
shown. -/
def perform (site : Site) (request : Request) (page : Page) (showHome : Visit → VisitProgram) :
    Handler → Visit → VisitProgram
  | .done result, visit => .done (some (result, visit))
  | .ask (.send data) next, visit =>
    let (result, visit') := visit.send site.limits data
    perform site request page showHome (next result) visit'
  | .ask (.head bodyLength title) next, visit =>
    perform site request page showHome (next (site.head bodyLength title)) visit
  | .ask (.readForm fields) next, visit =>
    let (result, visit') := visit.readForm request fields
    perform site request page showHome (next result) visit'
  | .ask .showHome next, visit =>
    (showHome visit).bindSome fun (result, visit') =>
      perform site request page showHome (next result) visit'
  | .ask .context next, visit =>
    perform site request page showHome
      (next ⟨request, page.path, page.title, page.roles, visit.responded⟩) visit
  | .ask (.device call) next, visit =>
    .ask call fun reply => perform site request page showHome (next reply) visit

end Handler

namespace Site

/-- Shows the home page, or answers that there is none; followed `depth` levels deep. -/
def showHome (site : Site) (request : Request) : Nat → Visit → VisitProgram
  | 0, _ => .done none
  | depth + 1, visit =>
    match site.registry.homePage with
    | none => .done (some (visit.refuseHome site.limits))
    | some home =>
      if home.supports .get then
        home.onGet.perform site request home (site.showHome request depth) visit
      else .done (some (visit.refuseHome site.limits))

/-- Lets a page answer a request. -/
def visitPage (site : Site) (depth : Nat) (request : Request) (page : Page) (visit : Visit) :
    VisitProgram :=
  (page.handler request.method).perform site request page (site.showHome request depth) visit

end Site

end Provision
