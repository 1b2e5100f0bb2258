/-
  Provision.Device.RebootSignal

  A reboot request and those who wait for it. A waiter takes a ticket, then looks
  whether a reboot was requested, and only then sleeps on its ticket; a request first
  raises the flag and then calls every ticket that is out. Each of these is one atomic
  step here, and `request` and `poll` put them together.
-/

namespace Provision

/-- Where a waiter stands. -/
inductive Waiter where
  | idle
  /-- It holds a ticket, called or not, and has not looked at the flag since. -/
  | ticketed (called : Bool)
  | asleep (called : Bool)
  | returned
deriving DecidableEq

namespace Waiter

def call : Waiter → Waiter
  | ticketed _ => ticketed true
  | asleep _ => asleep true
  | waiter => waiter

/-- One step of a waiter that looks at the flag: it takes a ticket, checks the flag and
sleeps, or wakes from a called ticket. A sleeper that was not called stays. -/
def step (requested : Bool) : Waiter → Waiter
  | idle => ticketed false
  | ticketed called => if requested then returned else asleep called
  | asleep called => if called then idle else asleep false
  | returned => returned

/-- Steps a waiter until it sleeps uncalled or has returned. Four steps are enough:
wake, take a ticket, look, and find out that there is nothing more to do. -/
def poll (requested : Bool) (waiter : Waiter) : Waiter :=
  step requested (step requested (step requested (step requested waiter)))

end Waiter

/-- A reboot request, and those who wait for it in the order they came. -/
structure RebootSignal where
  requested : Bool
  /-- Those who wait or have waited. -/
  waiters : List Waiter
deriving DecidableEq

namespace RebootSignal

def initial : RebootSignal := ⟨false, []⟩

/-- Raises the flag, the first step of a request. -/
def raise (signal : RebootSignal) : RebootSignal := { signal with requested := true }

/-- Calls every ticket that is out, the second step of a request. -/
def notify (signal : RebootSignal) : RebootSignal :=
  { signal with waiters := signal.waiters.map Waiter.call }

def request (signal : RebootSignal) : RebootSignal := signal.raise.notify

/-- Lets one more waiter come; it does nothing before it is polled. -/
def wait (signal : RebootSignal) : RebootSignal :=
  { signal with waiters := signal.waiters ++ [.idle] }

def stepWaiter (signal : RebootSignal) (index : Nat) : RebootSignal :=
  { signal with waiters := signal.waiters.modify index (Waiter.step signal.requested) }

/-- What a poll finds. -/
inductive Poll where
  | pending
  | ready
  | finished
deriving DecidableEq

def poll (signal : RebootSignal) (index : Nat) : Poll × RebootSignal :=
  let before := signal.waiters[index]?
  let signal' := { signal with waiters := signal.waiters.modify index (Waiter.poll signal.requested) }
  if before = some .returned then (.finished, signal')
  else if signal'.waiters[index]? = some .returned then (.ready, signal')
  else (.pending, signal')

end RebootSignal

end Provision
