/-
  Provision.Portal

  The pages that a device is set up with.
-/
import Provision.Page.Registry
import Provision.Portal.Home
import Provision.Portal.WifiSetup

namespace Provision.Portal

/-- Registers the home page and then the captive portal, and stops at the first that is
refused. -/
def register (hostname : String) (registry : Registry) : Except RegistryError Unit × Registry :=
  match registry.register (Home.page hostname) with
  | .error e => (.error e, registry)
  | .ok registry' =>
    match registry'.register WifiSetup.page with
    | .error e => (.error e, registry')
    | .ok registry'' => (.ok (), registry'')

end Provision.Portal
