/-
  Provision.Server.Pool

  The slots that connections are served in. A claim looks at the slots one by one and
  takes the first that is free; looking at a slot and taking it is one atomic step.
-/

namespace Provision

/-- A fixed number of slots, each free or taken. -/
structure Pool where
  /-- True for a slot that is taken. -/
  slots : List Bool
deriving DecidableEq

namespace Pool

def ofSize (size : Nat) : Pool := ⟨List.replicate size false⟩

def capacity (pool : Pool) : Nat := pool.slots.length

def inUse (pool : Pool) : Nat := pool.slots.count true

/-- Takes a slot if it is free; true when it was. -/
def claimAt (pool : Pool) (index : Nat) : Bool × Pool :=
  if pool.slots[index]? = some false then (true, ⟨pool.slots.set index true⟩) else (false, pool)

/-- Tries slots in order until one is taken. -/
def claimFirst (pool : Pool) : List Nat → Option Nat × Pool
  | [] => (none, pool)
  | index :: rest =>
    match pool.claimAt index with
    | (true, pool') => (some index, pool')
    | (false, pool') => claimFirst pool' rest

/-- Takes a free slot, if there is one. -/
def acquire (pool : Pool) : Option Nat × Pool := pool.claimFirst (List.range pool.capacity)

def release (pool : Pool) (index : Nat) : Pool := ⟨pool.slots.set index false⟩

end Pool

/-- A pool and the claims made on it, in order. A claim holds a slot, never got one, or has
given it back. -/
structure PoolLedger where
  pool : Pool
  /-- The slot that each claim holds. -/
  claims : List (Option Nat)
deriving DecidableEq

namespace PoolLedger

def ofSize (size : Nat) : PoolLedger := ⟨.ofSize size, []⟩

/-- Makes a claim: the slot it gets, if any. -/
def acquire (ledger : PoolLedger) : Option Nat × PoolLedger :=
  let (slot, pool) := ledger.pool.acquire
  (slot, ⟨pool, ledger.claims ++ [slot]⟩)

/-- Gives back what a claim holds: the slot that becomes free, if any. -/
def release (ledger : PoolLedger) (claim : Nat) : Option Nat × PoolLedger :=
  match ledger.claims[claim]? with
  | some (some slot) => (some slot, ⟨ledger.pool.release slot, ledger.claims.set claim none⟩)
  | _ => (none, ledger)

end PoolLedger

end Provision
