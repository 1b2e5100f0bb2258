/-
  Provision.Device.Store

  The device's records, addressed by domain and id. A domain is registered with the
  number of its ids; registering it again changes the number and keeps the records.
  One observer, named by a tag, may watch the writes that succeed.
-/
import Provision.Bytes

namespace Provision

/-- Why a record could not be reached. -/
inductive StoreError where
  | unknownDomain (domain : UInt8)
  /-- The id is not below the number registered for its domain. -/
  | unknownId (domain id : UInt8)
  /-- The store cannot be used at all. -/
  | unavailable
deriving DecidableEq

namespace StoreError

def message : StoreError → String
  | unknownDomain domain => "domain " ++ toString domain.toNat ++ " is not registered"
  | unknownId domain id =>
    "id " ++ toString id.toNat ++ " is out of range for domain " ++ toString domain.toNat
  | unavailable => "store unavailable"

end StoreError

/-- What an observer is told of one write. -/
structure Observation where
  observer : String
  domain : UInt8
  id : UInt8
  value : Bytes
deriving DecidableEq

/-- The records of a device. -/
structure Store where
  /-- The number of ids of each registered domain. -/
  idCount : UInt8 → Option UInt8
  record : UInt8 → UInt8 → Option Bytes
  observer : Option String

namespace Store

/-! ## The WiFi domain -/

/-- The domain that holds the WiFi settings. -/
def wifiDomain : UInt8 := 1

def ssidId : UInt8 := 0

def passwordId : UInt8 := 1

/-- The id of the device's own name. -/
def hostnameId : UInt8 := 2

/-- The number of ids that the WiFi domain uses. -/
def wifiIdCount : UInt8 := 3

/-! ## Operations -/

def empty : Store := ⟨fun _ => none, fun _ _ => none, none⟩

/-- Registers a domain, or changes the number of its ids. -/
def registerDomain (store : Store) (domain ids : UInt8) : Store :=
  { store with idCount := fun d => if d = domain then some ids else store.idCount d }

def withWifiDomain : Store := empty.registerDomain wifiDomain wifiIdCount

/-- Why the record at an address cannot be reached, if it cannot. -/
def refusal (store : Store) (domain id : UInt8) : Option StoreError :=
  match store.idCount domain with
  | none => some (.unknownDomain domain)
  | some count => if id < count then none else some (.unknownId domain id)

def read (store : Store) (domain id : UInt8) : Except StoreError (Option Bytes) :=
  match store.refusal domain id with
  | some e => .error e
  | none => .ok (store.record domain id)

/-- Puts a value at an address, whether it is registered or not. -/
def put (store : Store) (domain id : UInt8) (value : Bytes) : Store :=
  { store with
    record := fun d i => if d = domain ∧ i = id then some value else store.record d i }

def write (store : Store) (domain id : UInt8) (value : Bytes) : Except StoreError Store :=
  match store.refusal domain id with
  | some e => .error e
  | none => .ok (store.put domain id value)

/-- Erases every record; domains and observer stay. -/
def factoryReset (store : Store) : Store := { store with record := fun _ _ => none }

/-- Installs an observer in place of the one before it. -/
def observe (store : Store) (observer : String) : Store := { store with observer := some observer }

/-! ## Runs of operations -/

/-- One operation on a store. -/
inductive Operation where
  | registerDomain (domain ids : UInt8)
  | read (domain id : UInt8)
  | write (domain id : UInt8) (value : Bytes)
  | factoryReset
  | observe (observer : String)
deriving DecidableEq

/-- What one operation answers. -/
inductive Answer where
  | accepted
  | record (value : Option Bytes)
  /-- The operation was refused and changed nothing. -/
  | refused (error : StoreError)
deriving DecidableEq

/-- Carries out one operation: its answer, what the observer is told, and the store after it. -/
def perform (store : Store) : Operation → Answer × Option Observation × Store
  | .registerDomain domain ids => (.accepted, none, store.registerDomain domain ids)
  | .read domain id =>
    match store.read domain id with
    | .error e => (.refused e, none, store)
    | .ok value => (.record value, none, store)
  | .write domain id value =>
    match store.write domain id value with
    | .error e => (.refused e, none, store)
    | .ok store' =>
      (.accepted, store.observer.map fun observer => ⟨observer, domain, id, value⟩, store')
  | .factoryReset => (.accepted, none, store.factoryReset)
  | .observe observer => (.accepted, none, store.observe observer)

end Store

end Provision
