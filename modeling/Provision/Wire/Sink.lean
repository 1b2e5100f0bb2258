/-
  Provision.Wire.Sink

  The outgoing half of a connection: how the coming write calls will be answered, and
  every call made so far with its answer, from which the bytes on the wire follow.

  `sendAll` writes a whole buffer in pieces. It ends because each call either takes
  at least one byte, uses up one scripted answer, or is the last.
-/
import Provision.Bytes
import Provision.Wire.IoError

namespace Provision

/-- The answer to one write call. -/
inductive WriteAnswer where
  /-- Takes at most this many of the bytes offered; `none` for all of them. -/
  | accept (limit : Option Nat)
  /-- Fails and takes nothing. -/
  | failure (error : IoError)
deriving DecidableEq

/-- The number of bytes that a write takes of those it is offered. -/
def takenOf (limit : Option Nat) (offered : Nat) : Nat :=
  match limit with
  | none => offered
  | some most => min most offered

/-- One call on the outgoing half, with its answer. -/
inductive SinkCall where
  /-- A write that took the first bytes of those offered. -/
  | write (offered : Bytes) (taken : Nat)
  /-- A write that failed. -/
  | failure (offered : Bytes) (error : IoError)
  | shutdown
deriving DecidableEq

namespace SinkCall

/-- The bytes that the call put on the wire. -/
def accepted : SinkCall → Bytes
  | write offered taken => offered.take taken
  | failure .. | shutdown => []

/-- The number of bytes that a write offered. -/
def offer? : SinkCall → Option Nat
  | write offered _ | failure offered _ => some offered.length
  | shutdown => none

end SinkCall

/-- The outgoing half of a connection. -/
structure Sink where
  /-- The answers to the coming write calls. -/
  script : List WriteAnswer
  /-- The most that one write takes once the script is used up; `none` for no limit. -/
  ceiling : Option Nat
  calls : List SinkCall
deriving DecidableEq

namespace Sink

def unlimited : Sink := ⟨[], none, []⟩

/-- A sink with a ceiling on every write, except for the calls with a number in `answers`. -/
def withAnswers (ceiling : Option Nat) (answers : List (Nat × WriteAnswer)) : Sink :=
  let scripted := (answers.map fun answer => answer.1 + 1).foldl max 0
  ⟨(List.range scripted).map fun call => (answers.lookup call).getD (.accept ceiling),
    ceiling, []⟩

def accepted (sink : Sink) : Bytes := sink.calls.flatMap SinkCall.accepted

/-- The lengths offered to the write calls, in order. -/
def offers (sink : Sink) : List Nat := sink.calls.filterMap SinkCall.offer?

def shutdowns (sink : Sink) : Nat := sink.calls.count .shutdown

/-- Notes a call, and what is left of the script after it. -/
def record (sink : Sink) (call : SinkCall) (script : List WriteAnswer) : Sink :=
  { sink with script := script, calls := sink.calls ++ [call] }

/-- One write call: the number of bytes taken, or why it failed. -/
def write (sink : Sink) (bytes : Bytes) : Except IoError Nat × Sink :=
  match sink.script with
  | [] =>
    let taken := takenOf sink.ceiling bytes.length
    (.ok taken, sink.record (.write bytes taken) [])
  | .accept limit :: script =>
    let taken := takenOf limit bytes.length
    (.ok taken, sink.record (.write bytes taken) script)
  | .failure e :: script => (.error e, sink.record (.failure bytes e) script)

def shutdown (sink : Sink) : Sink := sink.record .shutdown sink.script

theorem script_write_ok {sink sink' : Sink} {bytes : Bytes} {count : Nat}
    (h : sink.write bytes = (.ok count, sink')) :
    sink'.script.length ≤ sink.script.length := by
  unfold write at h
  split at h <;> simp_all only [Prod.mk.injEq, reduceCtorEq, false_and] <;>
    (obtain ⟨-, rfl⟩ := h; simp [record, *])

theorem script_write_error {sink sink' : Sink} {bytes : Bytes} {e : IoError}
    (h : sink.write bytes = (.error e, sink')) :
    sink'.script.length < sink.script.length := by
  unfold write at h
  split at h <;> simp_all only [Prod.mk.injEq, reduceCtorEq, false_and]
  obtain ⟨-, rfl⟩ := h
  simp [record, *]

/-- Writes all of `data` in calls that offer at most `chunk` bytes (at least one).
Transient failures repeat the same offer; a call that takes nothing, or the first
other failure, ends the sending. -/
def sendAll (chunk : Nat) (data : Bytes) (sink : Sink) : Except IoError Unit × Sink :=
  match data with
  | [] => (.ok (), sink)
  | b :: bs =>
    match _h : sink.write ((b :: bs).take (max chunk 1)) with
    | (.ok 0, sink') => (.error .writeZero, sink')
    | (.ok (n + 1), sink') => sendAll chunk (bs.drop n) sink'
    | (.error e, sink') => if e.isTransient then sendAll chunk (b :: bs) sink' else (.error e, sink')
termination_by sink.script.length + data.length
decreasing_by
  · have := script_write_ok _h
    simp only [List.length_drop, List.length_cons]
    omega
  · have := script_write_error _h
    omega

end Sink

end Provision
