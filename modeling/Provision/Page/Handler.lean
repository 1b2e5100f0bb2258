/-
  Provision.Page.Handler

  What a page does with a request. A handler is a program over the calls that a
  request's context offers: it sends bytes, asks for a page head, reads the form that
  was posted, shows the home page, or calls the device. It never holds the connection
  itself.
-/
import Provision.Device
import Provision.Http.Form
import Provision.Http.Header
import Provision.Http.Response
import Provision.Page.Roles

namespace Provision

open Http

/-! ## Errors -/

/-- Why a handler failed. -/
inductive HandlerError where
  | io (error : IoError)
  | form (error : FormError)
  | response (error : ResponseError)
  | store (error : StoreError)
  | wifi (error : WifiError)
  | methodNotSupported (method : Method)
  | noHomePage
  /-- The request asks for something that is not allowed. -/
  | invalid (reason : String)
deriving DecidableEq

namespace HandlerError

def message : HandlerError → String
  | io error => "send failed: " ++ error.message
  | form error => "form: " ++ error.message
  | response error => "response: " ++ error.message
  | store error => "store: " ++ error.message
  | wifi error => "wifi: " ++ error.message
  | methodNotSupported method => method.name ++ " is not supported by this page"
  | noHomePage => "no home page registered"
  | invalid reason => reason

end HandlerError

/-! ## The context of a request -/

/-- What a handler can learn about the request it answers. -/
structure RequestContext where
  request : Request
  path : String
  title : String
  roles : Roles
  /-- True once something was sent on the connection, be it no byte at all. -/
  responded : Bool
deriving DecidableEq

/-- One call on the context of a request. -/
inductive PageCall where
  | send (data : Bytes)
  /-- Composes the head of a page with this title, for a body of this length. -/
  | head (bodyLength : Nat) (title : String)
  | readForm (fields : List Field)
  /-- Shows the home page on this connection. -/
  | showHome
  | context
  | device (call : DeviceCall)

/-- The type of the answer to a call. -/
abbrev PageCall.Reply : PageCall → Type
  | .send _ => Except IoError Unit
  | .head .. => Except ResponseError Bytes
  | .readForm _ => Except FormError (List Field)
  | .showHome => Except HandlerError Unit
  | .context => RequestContext
  | .device call => call.Reply

/-- What a page does with a request. -/
abbrev Handler := Program PageCall.Reply (Except HandlerError Unit)

namespace Handler

def unsupported (method : Method) : Handler := .done (.error (.methodNotSupported method))

def sendBytes (data : Bytes) : Handler :=
  .ask (.send data) fun
    | .error e => .done (.error (.io e))
    | .ok () => .done (.ok ())

def sendHeadAndBody (head body : Bytes) : Handler :=
  (sendBytes head).bind fun
    | .error e => .done (.error e)
    | .ok () => sendBytes body

/-- Sends a whole page, titled as the page that answers. A page whose head cannot be
composed sends nothing. -/
def sendPage (body : String) : Handler :=
  .ask .context fun context =>
    .ask (.head body.utf8ByteSize context.title) fun
      | .error e => .done (.error (.response e))
      | .ok head => sendHeadAndBody head (utf8 body)

end Handler

/-! ## Pages -/

/-- A page of the site. -/
structure Page where
  path : String
  title : String
  roles : Roles
  supports : Method → Bool
  onGet : Handler
  onPost : Handler

namespace Page

def handler (page : Page) : Method → Handler
  | .post => page.onPost
  | _ => page.onGet

/-- The printed form of a page. -/
def describe (page : Page) : String :=
  "Page \x7b path: \x22" ++ page.path ++ "\x22, title: \x22" ++ page.title ++ "\x22, flags: " ++
    page.roles.describe ++ ", .. \x7d"

end Page

end Provision
