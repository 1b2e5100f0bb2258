/-
  Provision.Config.Schema

  A configuration as a YAML document. Sections are mappings whose unknown keys are passed
  over; a known key may occur once. A section where nothing is written has its defaults, and
  so has a stream without a document (`Schema.decode`).
-/
import Provision.Config.Load
import Provision.Yaml.Stream

namespace Provision.Schema

open Yaml (Node)

/-! ## Scalars -/

/-- The spellings of nothing. -/
def isNull (text : String) : Bool := ["", "~", "null", "Null", "NULL"].contains text

def digit? (base : Nat) (c : Char) : Option Nat :=
  let value? :=
    if '0' ≤ c && c ≤ '9' then some (c.toNat - 48)
    else if 'a' ≤ c && c ≤ 'f' then some (c.toNat - 87)
    else if 'A' ≤ c && c ≤ 'F' then some (c.toNat - 55)
    else none
  value?.filter (· < base)

/-- The value of at least one digit in a base, if it stays below `bound`. -/
def inBase? (base bound : Nat) (digits : List Char) : Option Nat :=
  if digits.isEmpty then none
  else
    match digits.mapM (digit? base) with
    | none => none
    | some values =>
      let value := values.foldl (fun n d => n * base + d) 0
      if value < bound then some value else none

/-- An unsigned number below `bound`: decimal without zeros in front, or in base sixteen,
eight or two after its marker; a plus sign may stand before either. -/
def unsigned? (bound : Nat) (text : String) : Option Nat :=
  let chars := text.toList
  match (if chars.head? = some '+' then chars.drop 1 else chars) with
  | '0' :: 'x' :: digits => inBase? 16 bound digits
  | '0' :: 'o' :: digits => inBase? 8 bound digits
  | '0' :: 'b' :: digits => inBase? 2 bound digits
  | ['0'] => if 0 < bound then some 0 else none
  | '0' :: _ => none
  | digits => inBase? 10 bound digits

/-! ## Values of fields -/

def number? (bound : Nat) : Node → Option Nat
  | .scalar text true => unsigned? bound text
  | _ => none

def bool? : Node → Option Bool
  | .scalar text true =>
    if ["true", "True", "TRUE"].contains text then some true
    else if ["false", "False", "FALSE"].contains text then some false
    else none
  | _ => none

/-- A text: any scalar as it is written. -/
def text? : Node → Option String
  | .scalar text _ => some text
  | _ => none

/-- A value that may be left out or written as nothing. -/
def optional? {α : Type} (value? : Node → Option α) (node : Node) : Option (Option α) :=
  match node with
  | .scalar text true => if isNull text then some none else (value? node).map some
  | _ => (value? node).map some

/-! ## Sections -/

/-- The key of an entry; only scalars are keys. -/
def key? (entry : Node × Node) : Option String := text? entry.1

/-- The entries of a section that has these keys. -/
def entries? (known : List String) : Node → Option (List (String × Node))
  | .scalar "" true => some []
  | .mapping entries =>
    match entries.mapM fun entry => (key? entry).map fun key => (key, entry.2) with
    | none => none
    | some named =>
      let found := named.filter fun entry => known.contains entry.1
      if (found.map Prod.fst).Nodup then some found else none
  | _ => none

/-- The value at a key, or a default where the key is missing. -/
def field? {α : Type} (entries : List (String × Node)) (key : String)
    (value? : Node → Option α) (standard : α) : Option α :=
  match entries.lookup key with
  | none => some standard
  | some node => value? node

def required? {α : Type} (entries : List (String × Node)) (key : String)
    (value? : Node → Option α) : Option α :=
  (entries.lookup key).bind value?

/-- Sizes lie below this bound, the number of values of eight bytes. -/
def sizeBound : Nat := 0x10000000000000000

def server? (node : Node) : Option ServerConfig := do
  let entries ← entries? ["port", "ipv4", "ipv6", "bind_v4", "bind_v6", "workers"] node
  let standard := Config.standard.server
  let port ← field? entries "port" (optional? (number? Config.portBound)) standard.port
  let ipv4 ← field? entries "ipv4" bool? standard.ipv4
  let ipv6 ← field? entries "ipv6" bool? standard.ipv6
  let bindV4 ← field? entries "bind_v4" text? standard.bindV4
  let bindV6 ← field? entries "bind_v6" text? standard.bindV6
  let workers ← field? entries "workers" (number? sizeBound) standard.workers
  return ⟨port, ipv4, ipv6, bindV4, bindV6, workers⟩

def limits? (node : Node) : Option Limits := do
  let entries ← entries?
    ["menu_capacity", "header_capacity", "send_chunk", "max_header_bytes", "max_body_bytes",
      "max_pages"] node
  let standard := Limits.standard
  let menuCapacity ← field? entries "menu_capacity" (number? sizeBound) standard.menuCapacity
  let headCapacity ← field? entries "header_capacity" (number? sizeBound) standard.headCapacity
  let sendChunk ← field? entries "send_chunk" (number? sizeBound) standard.sendChunk
  let maxHeaderBytes ←
    field? entries "max_header_bytes" (number? sizeBound) standard.maxHeaderBytes
  let maxBodyBytes ← field? entries "max_body_bytes" (number? sizeBound) standard.maxBodyBytes
  let maxPages ← field? entries "max_pages" (number? sizeBound) standard.maxPages
  return ⟨menuCapacity, headCapacity, sendChunk, maxHeaderBytes, maxBodyBytes, maxPages⟩

def portal? (node : Node) : Option PortalConfig := do
  let entries ← entries? ["banner", "access_point", "hostname"] node
  let standard := Config.standard.portal
  let banner ← field? entries "banner" text? standard.banner
  let accessPoint ← field? entries "access_point" bool? standard.accessPoint
  let hostname ← field? entries "hostname" text? standard.hostname
  return ⟨banner, accessPoint, hostname⟩

/-- The section on TLS, where the two files of the server must be named. -/
def tls? (node : Node) : Option TlsFiles := do
  let entries ← entries? ["ca_cert", "server_cert", "private_key"] node
  let authority ← field? entries "ca_cert" (optional? text?) none
  let certificate ← required? entries "server_cert" text?
  let privateKey ← required? entries "private_key" text?
  return ⟨authority, certificate, privateKey⟩

def config? (node : Node) : Option Config := do
  let entries ← entries? ["server", "limits", "portal", "tls"] node
  let standard := Config.standard
  let server ← field? entries "server" server? standard.server
  let limits ← field? entries "limits" limits? standard.limits
  let portal ← field? entries "portal" portal? standard.portal
  let tls ← field? entries "tls" (optional? tls?) standard.tls
  return ⟨server, limits, portal, tls⟩

/-- Configurations that are written in YAML. -/
def decode : Config.Decoder := fun text =>
  match Yaml.Stream.ofText text with
  | .malformed => none
  | .empty => some .standard
  | .document root => config? root

end Provision.Schema
