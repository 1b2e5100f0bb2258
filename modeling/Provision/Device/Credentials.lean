/-
  Provision.Device.Credentials

  The certificate material for serving over TLS, read from the files that the
  configuration names. Its printed form shows sizes only.
-/
import Provision.Files

namespace Provision

/-- The files that hold the certificate material. -/
structure TlsFiles where
  /-- The certificate of the authority, if one is to be sent along. -/
  authority : Option String
  certificate : String
  privateKey : String
deriving DecidableEq

/-- The certificate material itself. -/
structure Credentials where
  authority : Option Bytes
  certificate : Bytes
  privateKey : Bytes
deriving DecidableEq

namespace Credentials

/-- Reads one file, and says what it was for when it cannot be read. -/
def readPart (files : Files) (role name : String) : Except Report Bytes :=
  match files.read name with
  | .error fault => .error (Report.during ⟨.system fault, []⟩ ("reading " ++ role ++ " " ++ name))
  | .ok bytes => .ok bytes

def readAuthority (files : Files) : Option String → Except Report (Option Bytes)
  | none => .ok none
  | some name =>
    match readPart files "CA certificate" name with
    | .error report => .error report
    | .ok bytes => .ok (some bytes)

/-- Reads the material: authority, certificate, then key. The first file that cannot be
read is reported. -/
def load (files : Files) (tls : TlsFiles) : Except Report Credentials :=
  match readAuthority files tls.authority with
  | .error report => .error report
  | .ok authority =>
    match readPart files "server certificate" tls.certificate with
    | .error report => .error report
    | .ok certificate =>
      match readPart files "private key" tls.privateKey with
      | .error report => .error report
      | .ok privateKey => .ok ⟨authority, certificate, privateKey⟩

/-- The printed form: sizes of the certificates, and nothing of the key. -/
def describe (credentials : Credentials) : String :=
  let authority := match credentials.authority with
    | none => "None"
    | some bytes => "Some(" ++ toString bytes.length ++ ")"
  "Credentials \x7b ca_cert: " ++ authority ++ ", server_cert: " ++
    toString credentials.certificate.length ++ ", private_key: \x22<redacted>\x22 \x7d"

end Credentials

end Provision
