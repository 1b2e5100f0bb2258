/-
  Provision.Http.Header

  The request header. `HeaderReader` takes one byte at a time and lets every byte
  pass the request line, the length field and the blank line, in this order, so the
  first of them that refuses it decides the error. `parseHeader` reads a header held
  in memory, `readRequest` one that arrives on a connection; neither reads a byte
  beyond the blank line.
-/
import Provision.Limits
import Provision.Text.Utf8
import Provision.Wire.Source
import Provision.Http.RequestLine
import Provision.Http.LengthField
import Provision.Http.BlankLine

namespace Provision.Http

/-- A header that is being read. -/
structure HeaderReader where
  consumed : Nat
  line : RequestLine
  length : LengthField
  blank : BlankLine
deriving DecidableEq

namespace HeaderReader

def initial : HeaderReader := ⟨0, .opening [], .initial, .nothing⟩

/-- Reads one byte; true once the blank line that ends the header was seen. -/
def push (limits : Limits) (reader : HeaderReader) (b : UInt8) :
    Except ParseError (Bool × HeaderReader) :=
  if limits.maxHeaderBytes ≤ reader.consumed then .error (.headerTooLarge limits.maxHeaderBytes)
  else
    match reader.line.push b with
    | .error e => .error e
    | .ok line =>
      match reader.length.push limits.maxBodyBytes b with
      | .error e => .error e
      | .ok length =>
        let (ended, blank) := reader.blank.push b
        .ok (ended, ⟨reader.consumed + 1, line, length, blank⟩)

/-- The request that the bytes read so far make. -/
def finish (reader : HeaderReader) : Except ParseError Request :=
  match reader.line.settle with
  | .error e => .error e
  | .ok (method, path) =>
    match Utf8.decode? path with
    | none => .error .malformedRequestLine
    | some path => .ok ⟨method, path, reader.length.declared.value⟩

/-- Reads a header from the front of `bytes`: the request and the number of bytes read. -/
def parse (limits : Limits) (reader : HeaderReader) : Bytes → Except ParseError (Request × Nat)
  | [] => .error .incomplete
  | b :: rest =>
    match reader.push limits b with
    | .error e => .error e
    | .ok (false, reader') => parse limits reader' rest
    | .ok (true, reader') =>
      match reader'.finish with
      | .error e => .error e
      | .ok request => .ok (request, reader'.consumed)

def read (limits : Limits) (reader : HeaderReader) (source : Source) :
    Except ParseError Request × Source :=
  match _h : source.receive with
  | (.error e, rest) => (.error (.io e), rest)
  | (.ok none, rest) => (.error .peerClosed, rest)
  | (.ok (some b), rest) =>
    match reader.push limits b with
    | .error e => (.error e, rest)
    | .ok (false, reader') => read limits reader' rest
    | .ok (true, reader') => (reader'.finish, rest)
termination_by source.size
decreasing_by exact Source.size_receive_lt _h

end HeaderReader

/-- The request at the front of `bytes`, and where its header ends. -/
def parseHeader (limits : Limits) (bytes : Bytes) : Except ParseError (Request × Nat) :=
  HeaderReader.initial.parse limits bytes

/-- The request that arrives on a connection. What follows its header stays unread. -/
def readRequest (limits : Limits) (source : Source) : Except ParseError Request × Source :=
  HeaderReader.initial.read limits source

end Provision.Http
