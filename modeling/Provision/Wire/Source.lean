/-
  Provision.Wire.Source

  The incoming half of a connection: what the coming reads will find. One read
  takes one byte of the first event; an empty piece of data is one read that
  finds the stream ended, and so is every read after the last event.

  `receive` is one read that repeats itself over transient failures. Each byte it
  hands out makes the source smaller (`size_receive_lt`), which is why the
  readers built on it end.
-/
import Provision.Bytes
import Provision.Wire.IoError

namespace Provision

/-- What one arrival on the wire brings. -/
inductive ReadEvent where
  /-- Bytes that arrive together; none at all means the end of the stream. -/
  | data (bytes : Bytes)
  | failure (error : IoError)
deriving DecidableEq

/-- The arrivals to come, first one first. -/
abbrev Source := List ReadEvent

namespace Source

/-- The bytes not read yet, failures left out. -/
def unread (source : Source) : Bytes :=
  source.flatMap fun
    | .data bytes => bytes
    | .failure _ => []

/-- A measure of the reads that a source can still answer before it runs dry. -/
def size : Source → Nat
  | [] => 0
  | .data bytes :: rest => bytes.length + 1 + size rest
  | .failure _ :: rest => 1 + size rest

/-- Reads one byte, repeating the read over transient failures. No byte means that
the stream has ended. -/
def receive : Source → Except IoError (Option UInt8) × Source
  | [] => (.ok none, [])
  | .data [] :: rest => (.ok none, rest)
  | .data [b] :: rest => (.ok (some b), rest)
  | .data (b :: bs) :: rest => (.ok (some b), .data bs :: rest)
  | .failure e :: rest => if e.isTransient then receive rest else (.error e, rest)

theorem size_receive_lt {source rest : Source} {b : UInt8}
    (h : source.receive = (.ok (some b), rest)) : Source.size rest < Source.size source := by
  fun_induction receive source with
  | case1 => simp at h
  | case2 => simp at h
  | case3 b' rest' =>
    obtain ⟨-, rfl⟩ := Prod.mk.inj h
    simp [size]
  | case4 b' bs rest' hbs =>
    obtain ⟨-, rfl⟩ := Prod.mk.inj h
    simp [size]
  | case5 e rest' he ih =>
    have := ih h
    rw [size]
    omega
  | case6 => simp at h

end Source

end Provision
