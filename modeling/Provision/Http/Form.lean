/-
  Provision.Http.Form

  Form bodies: `name=value` pairs, each value ended by a line break or by the end of
  the body. Nothing is decoded. Values are staged while the body is read and reach
  the fields only after the whole body was found good.
-/
import Provision.Text.Utf8
import Provision.Wire.Source

namespace Provision.Http

/-- Most bytes in a field's name. -/
def maxNameLength : Nat := 31

/-- Most bytes in a field's value. -/
def maxValueLength : Nat := 64

/-- Why a body was refused. -/
inductive FormError where
  | unknownField (name : String)
  | nameTooLong
  | valueTooLong (name : String)
  /-- The value kept for a field is not UTF-8. -/
  | invalidValue (name : String)
  /-- The body ends inside a name. -/
  | missingValue (name : String)
  /-- The stream ended inside the body. -/
  | peerClosed
  | io (error : IoError)
deriving DecidableEq

namespace FormError

def message : FormError → String
  | unknownField name => "unknown attribute '" ++ name ++ "'"
  | nameTooLong => "attribute name longer than " ++ toString maxNameLength ++ " bytes"
  | valueTooLong name =>
    "value of '" ++ name ++ "' longer than " ++ toString maxValueLength ++ " bytes"
  | invalidValue name => "value of '" ++ name ++ "' is not valid UTF-8"
  | missingValue name => "attribute '" ++ name ++ "' has no value"
  | peerClosed => "connection closed before the body was complete"
  | io error => "connection error: " ++ error.message

end FormError

/-- A field that a form expects, with the value read for it. -/
structure Field where
  name : String
  /-- Least number of bytes that a value should have. -/
  minLength : Nat
  /-- The value, empty until a body with this field was read. -/
  value : String
deriving DecidableEq

namespace Field

def meetsMinLength (field : Field) : Bool := field.minLength ≤ field.value.utf8ByteSize

end Field

/-- Which part of a pair is being read, with its bytes so far. -/
inductive FormPhase where
  /-- A name, line breaks left out. -/
  | name (seen : Bytes)
  /-- The value of the field at an index. -/
  | value (index : Nat) (seen : Bytes)
deriving DecidableEq

/-- A body that is being read: the current part, and the value staged for each field. -/
structure FormReader where
  phase : FormPhase
  staged : List (Option Bytes)
deriving DecidableEq

namespace FormReader

def initial (fields : List Field) : FormReader := ⟨.name [], fields.map fun _ => none⟩

/-- The first field with this name. -/
def fieldIndex? (fields : List Field) (name : Bytes) : Option Nat :=
  fields.findIdx? fun field => utf8 field.name == name

def fieldName (fields : List Field) (index : Nat) : String :=
  (fields[index]?.map Field.name).getD ""

/-- Stages a value for the field at an index and goes on to the next name. -/
def stage (reader : FormReader) (index : Nat) (value : Bytes) : FormReader :=
  ⟨.name [], reader.staged.set index (some value)⟩

/-- Reads one byte. -/
def push (fields : List Field) (reader : FormReader) (b : UInt8) : Except FormError FormReader :=
  match reader.phase with
  | .name seen =>
    if b == Byte.equals then
      match fieldIndex? fields seen with
      | some index => .ok { reader with phase := .value index [] }
      | none => .error (.unknownField (Utf8.decodeLossy seen))
    else if Byte.isBreak b then .ok reader
    else if seen.length == maxNameLength then .error .nameTooLong
    else .ok { reader with phase := .name (seen ++ [b]) }
  | .value index seen =>
    if Byte.isBreak b then .ok (reader.stage index seen)
    else if seen.length == maxValueLength then .error (.valueTooLong (fieldName fields index))
    else .ok { reader with phase := .value index (seen ++ [b]) }

def pushAll (fields : List Field) (reader : FormReader) : Bytes → Except FormError FormReader
  | [] => .ok reader
  | b :: rest =>
    match reader.push fields b with
    | .error e => .error e
    | .ok reader' => pushAll fields reader' rest

/-- Ends the last pair. A value may end with the body, a name may not. -/
def close (reader : FormReader) : Except FormError FormReader :=
  match reader.phase with
  | .value index seen => .ok (reader.stage index seen)
  | .name [] => .ok reader
  | .name seen => .error (.missingValue (Utf8.decodeLossy seen))

/-- Reads the staged values as text, field by field. -/
def decodeStaged : List Field → List (Option Bytes) → Except FormError (List (Option String))
  | field :: fields, some value :: staged =>
    match Utf8.decode? value with
    | none => .error (.invalidValue field.name)
    | some text =>
      match decodeStaged fields staged with
      | .error e => .error e
      | .ok texts => .ok (some text :: texts)
  | _ :: fields, none :: staged =>
    match decodeStaged fields staged with
    | .error e => .error e
    | .ok texts => .ok (none :: texts)
  | _, _ => .ok []

/-- Ends the body: the value found for each field. -/
def finish (fields : List Field) (reader : FormReader) :
    Except FormError (List (Option String)) :=
  match reader.close with
  | .error e => .error e
  | .ok reader' => decodeStaged fields reader'.staged

/-- Reads `count` bytes of a body from a connection and ends it. -/
def read (fields : List Field) (reader : FormReader) :
    Nat → Source → Except FormError (List (Option String)) × Source
  | 0, source => (reader.finish fields, source)
  | count + 1, source =>
    match source.receive with
    | (.error e, rest) => (.error (.io e), rest)
    | (.ok none, rest) => (.error .peerClosed, rest)
    | (.ok (some b), rest) =>
      match reader.push fields b with
      | .error e => (.error e, rest)
      | .ok reader' => read fields reader' count rest

end FormReader

namespace Form

/-- Puts found values into fields, pairing them by position. A field without a found
value keeps its own. -/
def commit : List (Option String) → List Field → List Field
  | some value :: found, field :: fields => { field with value := value } :: commit found fields
  | none :: found, field :: fields => field :: commit found fields
  | _, fields => fields

/-- Reads a body held in memory: the fields with their new values. -/
def parse (fields : List Field) (body : Bytes) : Except FormError (List Field) :=
  match (FormReader.initial fields).pushAll fields body with
  | .error e => .error e
  | .ok reader =>
    match reader.finish fields with
    | .error e => .error e
    | .ok found => .ok (commit found fields)

/-- Reads a body of `count` bytes from a connection. -/
def read (fields : List Field) (count : Nat) (source : Source) :
    Except FormError (List Field) × Source :=
  match (FormReader.initial fields).read fields count source with
  | (.error e, rest) => (.error e, rest)
  | (.ok found, rest) => (.ok (commit found fields), rest)

end Form

end Provision.Http
