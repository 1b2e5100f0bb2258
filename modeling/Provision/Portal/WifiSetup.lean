/-
  Provision.Portal.WifiSetup

  The captive portal: a form with the networks that a scan finds, and what happens when
  it is posted. The credentials are stored, the home page is shown, and then, if they
  were stored, the access point is stopped and a reboot requested.
-/
import Provision.Text.Html
import Provision.Page.Handler

namespace Provision.WifiSetup

open Http

def path : String := "/setwifi.html"

def title : String := "Wifi setup"

/-! ## The form -/

def formStart : String :=
  "<form method=\"post\" enctype=\"text/plain\" action=\"/setwifi.html\"><div>" ++
    "<label for=\"ssid\">Select a SSID:</label><select name=\"ssid\" id=\"ssid\">"

def formEnd : String :=
  "</select></div><div><label for=\"pass\">Password (8 characters minimum):</label>" ++
    "<input type=\"password\" id=\"pass\" name=\"password\" minlength=\"8\" required /></div>" ++
    "<input type=\"submit\" value=\"Configure\" /></form></body></html>"

def option (ssid : String) : String :=
  "<option value=\"" ++ Html.escape ssid ++ "\">" ++ Html.escape ssid ++ "</option>"

def options (ssids : List String) : String := ssids.foldr (fun ssid rest => option ssid ++ rest) ""

/-- The body of the page for a list of networks. -/
def renderForm (ssids : List String) : String := formStart ++ options ssids ++ formEnd

/-- Shows the form with the networks in reach. -/
def onGet : Handler :=
  .ask (.device .scan) fun
    | .error e => .done (.error (.wifi e))
    | .ok ssids => Handler.sendPage (renderForm ssids)

/-! ## Storing credentials -/

def fields : List Field := [⟨"ssid", 4, ""⟩, ⟨"password", 8, ""⟩]

/-- The bytes of the value of the field at an index. -/
def valueBytes (fields : List Field) (index : Nat) : Bytes :=
  utf8 ((fields[index]?.map Field.value).getD "")

/-- Says which value is too short. -/
def tooShort (field : Field) : HandlerError :=
  .invalid (field.name ++ " must be at least " ++ toString field.minLength ++ " characters")

def storeSetting (id : UInt8) (value : Bytes) : Handler :=
  .ask (.device (.write Store.wifiDomain id value)) fun
    | .error e => .done (.error (.store e))
    | .ok () => .done (.ok ())

/-- Writes the network's name, and then its password. -/
def storeCredentials (ssid password : Bytes) : Handler :=
  (storeSetting Store.ssidId ssid).bind fun
    | .error e => .done (.error e)
    | .ok () => storeSetting Store.passwordId password

/-- Reads the form that was posted and stores its values if they are long enough. -/
def save : Handler :=
  .ask (.readForm fields) fun
    | .error e => .done (.error (.form e))
    | .ok read =>
      match read.find? fun field => !field.meetsMinLength with
      | some field => .done (.error (tooShort field))
      | none => storeCredentials (valueBytes read 0) (valueBytes read 1)

/-- Leaves access point mode for good. -/
def leavePortal (result : Except HandlerError Unit) : Handler :=
  .ask (.device .disableAccessPoint) fun () =>
    .ask (.device .requestReboot) fun () => .done result

/-- Stores the credentials, shows the home page either way, and leaves the portal if they
were stored. A refused form is reported before a home page that could not be shown. -/
def onPost : Handler :=
  save.bind fun saved =>
    .ask .showHome fun shown =>
      match saved with
      | .error e => .done (.error e)
      | .ok () => leavePortal shown

def page : Page where
  path := path
  title := title
  roles := .captivePortalOnly
  supports := fun method => method == .get || method == .post
  onGet := onGet
  onPost := onPost

end Provision.WifiSetup
