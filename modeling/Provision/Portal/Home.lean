/-
  Provision.Portal.Home

  The home page: the device's name and the network it is set up for. A name stored on
  the device goes before the configured one.
-/
import Provision.Text.Html
import Provision.Page.Handler

namespace Provision.Home

def path : String := "/index.html"

def title : String := "Home"

/-- The network as the page shows it. -/
def networkText : Option String → String
  | none => "not configured"
  | some ssid => Html.escape ssid

def render (hostname : String) (ssid : Option String) : String :=
  "<p>Device: " ++ Html.escape hostname ++ "</p><p>WiFi network: " ++ networkText ssid ++
    "</p></body></html>"

/-- Shows the device's name and network as they are stored. -/
def onGet (hostname : String) : Handler :=
  .ask (.device (.read Store.wifiDomain Store.hostnameId)) fun
    | .error e => .done (.error (.store e))
    | .ok stored =>
      .ask (.device (.read Store.wifiDomain Store.ssidId)) fun
        | .error e => .done (.error (.store e))
        | .ok ssid =>
          Handler.sendPage
            (render ((stored.map Utf8.decodeLossy).getD hostname) (ssid.map Utf8.decodeLossy))

/-- The home page of a device with this configured name. -/
def page (hostname : String) : Page where
  path := path
  title := title
  roles := .homeOnly
  supports := fun method => method == .get
  onGet := onGet hostname
  onPost := Handler.unsupported .post

end Provision.Home
