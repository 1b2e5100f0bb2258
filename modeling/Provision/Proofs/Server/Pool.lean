/-
  Provision.Proofs.Server.Pool

  Slots over whole runs. Whatever is claimed and given back, and in whatever order, a slot is
  taken exactly while one claim holds it (`PoolLedger.Tallies`). So a claim gets the lowest
  slot that nobody holds, and none only where all are held (`PoolLedger.claims_tally`).
-/
import Mathlib.Data.List.Nodup
import Mathlib.Data.List.ReduceOption
import Mathlib.Order.Bounds.Basic
import Provision.Server.Pool

namespace Provision

/-! ## Looking for a free slot -/

namespace Pool

variable {pool : Pool} {slot : Nat}

/-- The slot exists, and is free. -/
def IsFree (pool : Pool) (slot : Nat) : Prop := pool.slots[slot]? = some false

/-- The slot exists, and is taken. -/
def IsTaken (pool : Pool) (slot : Nat) : Prop := pool.slots[slot]? = some true

/-- The pool once a slot of it is taken. -/
def take (pool : Pool) (slot : Nat) : Pool := ⟨pool.slots.set slot true⟩

theorem IsFree.lt_capacity (h : pool.IsFree slot) : slot < pool.capacity :=
  (List.getElem?_eq_some_iff.mp h).1

theorem IsTaken.lt_capacity (h : pool.IsTaken slot) : slot < pool.capacity :=
  (List.getElem?_eq_some_iff.mp h).1

theorem isFree_iff : pool.IsFree slot ↔ slot < pool.capacity ∧ ¬ pool.IsTaken slot := by
  unfold IsFree IsTaken capacity
  by_cases hlt : slot < pool.slots.length
  · simp [hlt]
  · simp [hlt]

theorem claimFirst_eq (pool : Pool) (indices : List Nat) :
    pool.claimFirst indices =
      match indices.find? fun index => pool.slots[index]? == some false with
      | none => (none, pool)
      | some slot => (some slot, pool.take slot) := by
  induction indices with
  | nil => rfl
  | cons index rest ih =>
    rw [claimFirst, claimAt]
    by_cases hfree : pool.slots[index]? = some false
    · simp [hfree, take]
    · simp [hfree, ih]

/-- A claim takes the lowest free slot, or leaves a pool as it is in which none is free. -/
theorem acquire_cases (pool : Pool) :
    (∃ slot, IsLeast {index | pool.IsFree index} slot ∧
        pool.acquire = (some slot, pool.take slot)) ∨
      (∀ index, ¬ pool.IsFree index) ∧ pool.acquire = (none, pool) := by
  rw [acquire, claimFirst_eq]
  cases hfind : (List.range pool.capacity).find? fun index => pool.slots[index]? == some false with
  | none =>
    rw [List.find?_range_eq_none] at hfind
    refine Or.inr ⟨fun index hfree => ?_, rfl⟩
    have hbusy := hfind index hfree.lt_capacity
    rw [IsFree] at hfree
    simp [hfree] at hbusy
  | some slot =>
    obtain ⟨hfree, -, hbelow⟩ := List.find?_range_eq_some.mp hfind
    refine Or.inl ⟨slot, ⟨by simpa [IsFree] using hfree, fun index hindex => ?_⟩, rfl⟩
    have hvalue : pool.slots[index]? = some false := hindex
    -- a free slot below would have been found first
    by_contra hlt
    have hbusy := hbelow index (Nat.lt_of_not_le hlt)
    simp [hvalue] at hbusy

theorem acquire_eq_none_iff : pool.acquire.1 = none ↔ ∀ slot, ¬ pool.IsFree slot := by
  rcases pool.acquire_cases with ⟨slot, hleast, hacquire⟩ | ⟨hnone, hacquire⟩
  · rw [hacquire]
    exact iff_of_false (by simp) fun hnone => hnone slot hleast.1
  · rw [hacquire]
    exact iff_of_true rfl hnone

theorem acquire_eq_some_iff :
    pool.acquire.1 = some slot ↔ IsLeast {index | pool.IsFree index} slot := by
  rcases pool.acquire_cases with ⟨found, hleast, hacquire⟩ | ⟨hnone, hacquire⟩
  · rw [hacquire, Option.some_inj]
    refine ⟨?_, hleast.unique⟩
    rintro rfl
    exact hleast
  · rw [hacquire]
    exact iff_of_false (by simp) fun hleast => hnone slot hleast.1

/-- Beyond the slots that exist none is taken, so the lowest free slot is the lowest that is
    not taken, if it exists. -/
theorem isLeast_isFree_iff :
    IsLeast {index | pool.IsFree index} slot ↔
      slot < pool.capacity ∧ IsLeast {index | ¬ pool.IsTaken index} slot := by
  constructor
  · rintro ⟨hfree, hleast⟩
    obtain ⟨hlt, htaken⟩ := isFree_iff.mp hfree
    refine ⟨hlt, htaken, fun index hindex => ?_⟩
    by_cases hexists : index < pool.capacity
    · exact hleast (isFree_iff.mpr ⟨hexists, hindex⟩)
    · omega
  · rintro ⟨hlt, htaken, hleast⟩
    exact ⟨isFree_iff.mpr ⟨hlt, htaken⟩, fun index hindex => hleast (isFree_iff.mp hindex).2⟩

theorem isTaken_take (hfree : pool.IsFree slot) (other : Nat) :
    (pool.take slot).IsTaken other ↔ other = slot ∨ pool.IsTaken other := by
  have hlt : slot < pool.slots.length := hfree.lt_capacity
  unfold IsTaken take
  rw [List.getElem?_set]
  by_cases heq : slot = other
  · simp [heq, heq ▸ hlt]
  · simp [heq, Ne.symm heq]

theorem getElem?_release (htaken : pool.IsTaken slot) (other : Nat) :
    (pool.release slot).slots[other]? =
      if other = slot then some false else pool.slots[other]? := by
  have hlt : slot < pool.slots.length := htaken.lt_capacity
  rw [release, List.getElem?_set, if_pos hlt]
  simp only [eq_comm]

theorem isTaken_release (htaken : pool.IsTaken slot) (other : Nat) :
    (pool.release slot).IsTaken other ↔ other ≠ slot ∧ pool.IsTaken other := by
  unfold IsTaken
  rw [getElem?_release htaken]
  by_cases heq : other = slot
  · simp [heq]
  · simp [heq]

theorem inUse_take (hfree : pool.IsFree slot) : (pool.take slot).inUse = pool.inUse + 1 := by
  obtain ⟨hlt, hvalue⟩ := List.getElem?_eq_some_iff.mp hfree
  unfold inUse take
  rw [List.count_set hlt, hvalue]
  rfl

theorem inUse_release (htaken : pool.IsTaken slot) :
    (pool.release slot).inUse + 1 = pool.inUse := by
  obtain ⟨hlt, hvalue⟩ := List.getElem?_eq_some_iff.mp htaken
  have hpos : 0 < pool.slots.count true :=
    List.count_pos_iff.mpr (hvalue ▸ List.getElem_mem hlt)
  unfold inUse release
  rw [List.count_set hlt, hvalue, if_pos (beq_self_eq_true true), if_neg (by decide)]
  omega

@[simp] theorem capacity_take : (pool.take slot).capacity = pool.capacity := by
  simp [capacity, take]

@[simp] theorem capacity_release : (pool.release slot).capacity = pool.capacity := by
  simp [capacity, release]

/-- All slots are in use exactly where none is free. -/
theorem inUse_eq_capacity_iff : pool.inUse = pool.capacity ↔ ∀ slot, ¬ pool.IsFree slot := by
  unfold inUse capacity IsFree
  rw [List.count_eq_length]
  constructor
  · intro hall slot hfree
    exact absurd (hall false (List.mem_of_getElem? hfree)) (by decide)
  · intro hnone value hvalue
    obtain ⟨slot, hslot⟩ := List.mem_iff_getElem?.mp hvalue
    cases value with
    | false => exact absurd hslot (hnone slot)
    | true => rfl

end Pool

/-! ## Runs of claims -/

namespace PoolLedger

variable {ledger : PoolLedger}

/-- What can be done with a pool. Copies of a pool share its slots, so a claim through a copy is
    a claim on the pool. -/
inductive Action where
  | acquire
  /-- The claim made at this place gives back its slot. -/
  | release (claim : Nat)
deriving DecidableEq

def act (ledger : PoolLedger) : Action → PoolLedger
  | .acquire => ledger.acquire.2
  | .release claim => (ledger.release claim).2

/-- The ledger after actions were carried out one by one. -/
def actAll (ledger : PoolLedger) (actions : List Action) : PoolLedger := actions.foldl act ledger

/-- The slots that claims hold, in the order in which they were claimed. -/
def held (ledger : PoolLedger) : List Nat := ledger.claims.reduceOption

/-- The slots that are taken are those that claims hold, each held by one claim. -/
structure Tallies (ledger : PoolLedger) : Prop where
  distinct : ledger.held.Nodup
  isTaken_iff : ∀ slot, ledger.pool.IsTaken slot ↔ slot ∈ ledger.held
  inUse : ledger.pool.inUse = ledger.held.length

theorem tallies_ofSize (size : Nat) : (ofSize size).Tallies where
  distinct := List.nodup_nil
  isTaken_iff := fun slot => by
    simp [Pool.IsTaken, ofSize, Pool.ofSize, held, List.getElem?_replicate]
  inUse := by simp [Pool.inUse, ofSize, Pool.ofSize, held, List.count_replicate]

theorem Tallies.isFree_iff (h : ledger.Tallies) {slot : Nat} :
    ledger.pool.IsFree slot ↔ slot < ledger.pool.capacity ∧ slot ∉ ledger.held := by
  rw [Pool.isFree_iff, h.isTaken_iff]

theorem acquire_eq : ledger.acquire =
    (ledger.pool.acquire.1, ⟨ledger.pool.acquire.2, ledger.claims ++ [ledger.pool.acquire.1]⟩) :=
  rfl

/-- A claim that gets a slot holds it from then on; one that gets none changes nothing. -/
theorem held_acquire (ledger : PoolLedger) :
    ledger.acquire.2.held = ledger.held ++ ledger.acquire.1.toList := by
  rw [acquire_eq, held, held, List.reduceOption_append, List.reduceOption_singleton]

theorem Tallies.acquire (h : ledger.Tallies) : ledger.acquire.2.Tallies := by
  have hheld := held_acquire ledger
  rcases ledger.pool.acquire_cases with ⟨slot, hleast, hacquire⟩ | ⟨-, hacquire⟩
  · have hfree : ledger.pool.IsFree slot := hleast.1
    rw [acquire_eq, hacquire] at hheld ⊢
    change _ = ledger.held ++ [slot] at hheld
    refine ⟨?_, fun other => ?_, ?_⟩
    · rw [hheld, List.nodup_append]
      refine ⟨h.distinct, List.nodup_singleton slot, fun other hother last hlast => ?_⟩
      rw [List.mem_singleton.mp hlast]
      rintro rfl
      exact (h.isFree_iff.mp hfree).2 hother
    · rw [hheld, Pool.isTaken_take hfree, h.isTaken_iff, List.mem_append, List.mem_singleton,
        or_comm]
    · rw [hheld, Pool.inUse_take hfree, h.inUse, List.length_append, List.length_singleton]
  · rw [acquire_eq, hacquire] at hheld ⊢
    change _ = ledger.held ++ [] at hheld
    rw [List.append_nil] at hheld
    exact ⟨hheld ▸ h.distinct, hheld ▸ h.isTaken_iff, hheld ▸ h.inUse⟩

/-- A claim that gives back its slot is taken out of those that hold one. -/
theorem exists_held_release {claim slot : Nat} (h : ledger.claims[claim]? = some (some slot)) :
    ledger.release claim =
        (some slot, ⟨ledger.pool.release slot, ledger.claims.set claim none⟩) ∧
      ∃ before after, ledger.held = before ++ slot :: after ∧
        (ledger.release claim).2.held = before ++ after := by
  have hrelease : ledger.release claim =
      (some slot, ⟨ledger.pool.release slot, ledger.claims.set claim none⟩) := by
    rw [release, h]
  obtain ⟨hlt, hvalue⟩ := List.getElem?_eq_some_iff.mp h
  obtain ⟨before, after, hclaims, -, hset⟩ := @List.exists_of_set _ claim none _ hlt
  refine ⟨hrelease, before.reduceOption, after.reduceOption, ?_, ?_⟩
  · rw [held, hclaims, hvalue, List.reduceOption_append, List.reduceOption_cons_of_some]
  · rw [hrelease, held, hset, List.reduceOption_append, List.reduceOption_cons_of_none]

theorem release_eq_of_not_held {claim : Nat}
    (h : ∀ slot, ledger.claims[claim]? ≠ some (some slot)) :
    ledger.release claim = (none, ledger) := by
  rw [release]
  split
  · rename_i slot hslot
    exact absurd hslot (h slot)
  · rfl

theorem Tallies.release (h : ledger.Tallies) (claim : Nat) : (ledger.release claim).2.Tallies := by
  by_cases hclaim : ∃ slot, ledger.claims[claim]? = some (some slot)
  · obtain ⟨slot, hslot⟩ := hclaim
    obtain ⟨hrelease, before, after, hheld, hheld'⟩ := exists_held_release hslot
    have htaken : ledger.pool.IsTaken slot := by
      rw [h.isTaken_iff, hheld]
      simp
    have hdistinct := h.distinct
    rw [hheld, List.nodup_middle, List.nodup_cons] at hdistinct
    refine ⟨hheld' ▸ hdistinct.2, fun other => ?_, ?_⟩
    · rw [hheld', hrelease, Pool.isTaken_release htaken, h.isTaken_iff, hheld]
      -- the slot was held once, so it is not held any more
      have hgone := hdistinct.1
      simp only [List.mem_append, List.mem_cons] at hgone ⊢
      constructor
      · tauto
      · rintro hother
        refine ⟨?_, by tauto⟩
        rintro rfl
        exact hgone hother
    · have hinUse := h.inUse
      have hless := Pool.inUse_release htaken
      rw [hheld] at hinUse
      rw [hheld', hrelease]
      simp only [List.length_append, List.length_cons] at hinUse ⊢
      omega
  · rw [release_eq_of_not_held fun slot hslot => hclaim ⟨slot, hslot⟩]
    exact h

theorem Tallies.act (h : ledger.Tallies) (action : Action) : (ledger.act action).Tallies := by
  cases action with
  | acquire => exact h.acquire
  | release claim => exact h.release claim

theorem capacity_act (action : Action) :
    (ledger.act action).pool.capacity = ledger.pool.capacity := by
  cases action with
  | acquire =>
    rw [PoolLedger.act, acquire_eq]
    rcases ledger.pool.acquire_cases with ⟨slot, -, hacquire⟩ | ⟨-, hacquire⟩
    · simp [hacquire]
    · simp [hacquire]
  | release claim =>
    rw [PoolLedger.act, release]
    split
    · exact Pool.capacity_release
    · rfl

theorem Tallies.actAll (h : ledger.Tallies) (actions : List Action) :
    (ledger.actAll actions).Tallies ∧
      (ledger.actAll actions).pool.capacity = ledger.pool.capacity := by
  induction actions generalizing ledger with
  | nil => exact ⟨h, rfl⟩
  | cons action actions ih =>
    obtain ⟨htallies, hcapacity⟩ := ih (h.act action)
    exact ⟨htallies, hcapacity.trans (capacity_act action)⟩

/-- Over any run, the slots in use are those that claims hold, each held by one claim. A claim
    gets none exactly where all are held and else the lowest that is not, and one that gives its
    slot back frees that slot and no other. -/
theorem claims_tally (size : Nat) (actions : List Action) :
    let ledger := (ofSize size).actAll actions
    ledger.pool.capacity = size ∧
    ledger.held.Nodup ∧ (∀ slot ∈ ledger.held, slot < size) ∧
    (∀ slot, ledger.pool.slots[slot]? = some true ↔ slot ∈ ledger.held) ∧
    ledger.pool.inUse = ledger.held.length ∧
    (ledger.acquire.1 = none ↔ ledger.held.length = size) ∧
    (∀ slot, ledger.acquire.1 = some slot ↔
      slot < size ∧ IsLeast {index | index ∉ ledger.held} slot) ∧
    ledger.acquire.2.claims = ledger.claims ++ [ledger.acquire.1] ∧
    ∀ claim slot, ledger.claims[claim]? = some (some slot) →
      (ledger.release claim).1 = some slot ∧
      (ledger.release claim).2.claims = ledger.claims.set claim none ∧
      ∀ other, (ledger.release claim).2.pool.slots[other]? =
        if other = slot then some false else ledger.pool.slots[other]? := by
  intro ledger
  obtain ⟨htallies, hcapacity⟩ := (tallies_ofSize size).actAll actions
  change ledger.Tallies at htallies
  replace hcapacity : ledger.pool.capacity = size := hcapacity.trans List.length_replicate
  refine ⟨hcapacity, htallies.distinct, fun slot hslot => ?_, htallies.isTaken_iff, htallies.inUse,
    ?_, fun slot => ?_, rfl, fun claim slot hclaim => ?_⟩
  · rw [← hcapacity]
    exact ((htallies.isTaken_iff slot).mpr hslot).lt_capacity
  · rw [acquire_eq, Pool.acquire_eq_none_iff, ← Pool.inUse_eq_capacity_iff, hcapacity,
      htallies.inUse]
  · rw [acquire_eq, Pool.acquire_eq_some_iff, Pool.isLeast_isFree_iff, hcapacity]
    simp only [htallies.isTaken_iff]
  · have htaken : ledger.pool.IsTaken slot :=
      (htallies.isTaken_iff slot).mpr (List.reduceOption_mem_iff.mpr (List.mem_of_getElem? hclaim))
    obtain ⟨hrelease, -⟩ := exists_held_release hclaim
    rw [hrelease]
    exact ⟨rfl, rfl, Pool.getElem?_release htaken⟩

end PoolLedger

end Provision
