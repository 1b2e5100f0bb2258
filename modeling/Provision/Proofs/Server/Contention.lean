/-
  Provision.Proofs.Server.Contention

  Claims that are made on one pool at the same time. A claim looks at the slots one by one, and
  between two looks others take slots and free them, behind it and ahead of it. One look is one
  atomic step (`Claim.step`), and so is the write that frees a slot. A slot is taken exactly
  while one claim owns it (`Contention.Exclusive`), so whatever the order of the steps no two
  claims hold the same slot and none is lost (`Contention.claims_exclusive`).
-/
import Mathlib.Data.List.Count
import Provision.Proofs.Server.Pool

namespace Provision

/-! ## The steps of a claim -/

/-- How far a claim has come. -/
inductive Claim where
  /-- It has yet to look at these slots, the first of them next. -/
  | looking (rest : List Nat)
  /-- It took a slot and has not handed it out. -/
  | took (slot : Nat)
  /-- It is over, and the slot is held. -/
  | held (slot : Nat)
  /-- Its slot was given back. -/
  | released
  /-- It is over without a slot. -/
  | refused
deriving DecidableEq

namespace Claim

variable {pool : Pool} {claim : Claim}

/-- The slot that was taken for the claim and not given back. -/
def owned? : Claim → Option Nat
  | took slot => some slot
  | held slot => some slot
  | _ => none

def held? : Claim → Option Nat
  | held slot => some slot
  | _ => none

/-- The claim was answered. -/
def isOver : Claim → Bool
  | looking _ => false
  | took _ => false
  | _ => true

/-- One step of a claim. The step of a claim that holds a slot gives it back. -/
def step (pool : Pool) : Claim → Claim × Pool
  | looking [] => (refused, pool)
  | looking (slot :: rest) =>
    match pool.claimAt slot with
    | (true, pool') => (took slot, pool')
    | (false, pool') => (looking rest, pool')
  | took slot => (held slot, pool)
  | held slot => (released, pool.release slot)
  | released => (released, pool)
  | refused => (refused, pool)

/-- A step takes a free slot for a claim that has none, or gives back the slot it has, or leaves
    the pool and what the claim owns as they are. -/
theorem step_cases (pool : Pool) (claim : Claim) :
    (∃ slot, pool.IsFree slot ∧ claim.owned? = none ∧
        claim.step pool = (took slot, pool.take slot)) ∨
      (∃ slot, claim.owned? = some slot ∧ claim.step pool = (released, pool.release slot)) ∨
      ∃ claim', claim'.owned? = claim.owned? ∧ claim.step pool = (claim', pool) := by
  cases claim with
  | looking rest =>
    cases rest with
    | nil => exact Or.inr (Or.inr ⟨refused, rfl, rfl⟩)
    | cons slot rest =>
      rw [step, Pool.claimAt]
      by_cases hfree : pool.slots[slot]? = some false
      · rw [if_pos hfree]
        exact Or.inl ⟨slot, hfree, rfl, rfl⟩
      · rw [if_neg hfree]
        exact Or.inr (Or.inr ⟨looking rest, rfl, rfl⟩)
  | took slot => exact Or.inr (Or.inr ⟨held slot, rfl, rfl⟩)
  | held slot => exact Or.inr (Or.inl ⟨slot, rfl, rfl⟩)
  | released => exact Or.inr (Or.inr ⟨released, rfl, rfl⟩)
  | refused => exact Or.inr (Or.inr ⟨refused, rfl, rfl⟩)

theorem owned?_of_held? {slot : Nat} (h : claim.held? = some slot) :
    claim.owned? = some slot := by
  cases claim with
  | held slot' => exact h
  | _ => cases h

theorem held?_of_isOver (h : claim.isOver = true) : claim.held? = claim.owned? := by
  cases claim with
  | looking rest => cases h
  | took slot => cases h
  | _ => rfl

end Claim

/-! ## Claims side by side -/

/-- A pool, and the claims that were ever made on it in the order in which they started. -/
structure Contention where
  pool : Pool
  claims : List Claim
deriving DecidableEq

namespace Contention

variable {contention : Contention}

/-- What happens next: one more claim starts, or one of those that did makes a step. -/
inductive Action where
  | start
  | step (claim : Nat)
deriving DecidableEq

def ofSize (size : Nat) : Contention := ⟨.ofSize size, []⟩

def act (contention : Contention) : Action → Contention
  | .start =>
    { contention with
      claims := contention.claims ++ [.looking (List.range contention.pool.capacity)] }
  | .step index =>
    match contention.claims[index]? with
    | none => contention
    | some claim =>
      let (claim', pool) := claim.step contention.pool
      ⟨pool, contention.claims.set index claim'⟩

/-- What is left of a pool and its claims after a run in this order. -/
def actAll (contention : Contention) (actions : List Action) : Contention :=
  actions.foldl act contention

/-- The slots that were taken for claims and not given back. -/
def owned (contention : Contention) : List Nat := contention.claims.filterMap Claim.owned?

/-- The slots that claims handed out and that were not given back. -/
def held (contention : Contention) : List Nat := contention.claims.filterMap Claim.held?

/-- The slots that are taken are those that claims own, each owned by one. -/
structure Exclusive (contention : Contention) : Prop where
  distinct : contention.owned.Nodup
  isTaken_iff : ∀ slot, contention.pool.IsTaken slot ↔ slot ∈ contention.owned

theorem exclusive_ofSize (size : Nat) : (ofSize size).Exclusive where
  distinct := List.nodup_nil
  isTaken_iff := fun slot => by
    simp [Pool.IsTaken, ofSize, Pool.ofSize, owned, List.getElem?_replicate]

/-- What one claim owns, and what all the others do. -/
theorem exists_owned_perm {index : Nat} {claim : Claim}
    (h : contention.claims[index]? = some claim) :
    ∃ others, contention.owned.Perm (claim.owned?.toList ++ others) ∧
      ∀ claim' pool, (owned ⟨pool, contention.claims.set index claim'⟩).Perm
        (claim'.owned?.toList ++ others) := by
  obtain ⟨hlt, rfl⟩ := List.getElem?_eq_some_iff.mp h
  have hperm : ∀ (claim : Claim) (before after : List Claim),
      ((before ++ claim :: after).filterMap Claim.owned?).Perm
        (claim.owned?.toList ++ (before ++ after).filterMap Claim.owned?) := by
    intro claim before after
    have hmiddle : (before ++ claim :: after).Perm (claim :: (before ++ after)) :=
      List.perm_middle
    refine (hmiddle.filterMap Claim.owned?).trans ?_
    rw [List.filterMap_cons]
    cases claim.owned? with
    | none => exact .refl _
    | some slot => exact .refl _
  refine ⟨(contention.claims.take index ++ contention.claims.drop (index + 1)).filterMap
    Claim.owned?, ?_, fun claim' pool => ?_⟩
  · have hsplit : contention.claims =
        contention.claims.take index ++ contention.claims[index] ::
          contention.claims.drop (index + 1) := by simp
    exact (List.Perm.of_eq (congrArg (List.filterMap Claim.owned?) hsplit)).trans (hperm _ _ _)
  · rw [owned, List.set_eq_take_append_cons_drop, if_pos hlt]
    exact hperm _ _ _

theorem Exclusive.step (h : contention.Exclusive) (index : Nat) :
    (contention.act (.step index)).Exclusive := by
  rw [act]
  cases hclaim : contention.claims[index]? with
  | none => exact h
  | some claim =>
    obtain ⟨others, hbefore, hafter⟩ := exists_owned_perm hclaim
    have hdistinct := hbefore.nodup_iff.mp h.distinct
    have htaken := fun slot => (h.isTaken_iff slot).trans hbefore.mem_iff
    rcases claim.step_cases contention.pool with
      ⟨slot, hfree, howned, hstep⟩ | ⟨slot, howned, hstep⟩ | ⟨claim', howned, hstep⟩
    · -- nobody owned a slot that was free
      have hnew : slot ∉ others := fun hmem =>
        (Pool.isFree_iff.mp hfree).2 ((htaken slot).mpr (List.mem_append_right _ hmem))
      rw [howned] at hdistinct htaken
      specialize hafter (.took slot) (contention.pool.take slot)
      simp only [hstep]
      refine ⟨hafter.nodup_iff.mpr (List.nodup_cons.mpr ⟨hnew, hdistinct⟩), fun other => ?_⟩
      rw [Pool.isTaken_take hfree, htaken, hafter.mem_iff]
      exact List.mem_cons.symm
    · rw [howned] at hdistinct htaken
      obtain ⟨hgone, hdistinct⟩ := List.nodup_cons.mp hdistinct
      specialize hafter .released (contention.pool.release slot)
      simp only [hstep]
      refine ⟨hafter.nodup_iff.mpr hdistinct, fun other => ?_⟩
      rw [Pool.isTaken_release ((htaken slot).mpr (List.mem_cons_self ..)), htaken,
        hafter.mem_iff]
      -- the slot was owned once, so it is not owned any more
      change other ≠ slot ∧ other ∈ slot :: others ↔ other ∈ others
      rw [List.mem_cons]
      refine ⟨fun hother => hother.2.resolve_left hother.1, fun hother => ⟨?_, Or.inr hother⟩⟩
      rintro rfl
      exact hgone hother
    · specialize hafter claim' contention.pool
      rw [howned] at hafter
      simp only [hstep]
      exact ⟨hafter.nodup_iff.mpr hdistinct, fun other => (htaken other).trans hafter.mem_iff.symm⟩

theorem Exclusive.act (h : contention.Exclusive) (action : Action) :
    (contention.act action).Exclusive := by
  cases action with
  | start =>
    -- a claim that starts owns nothing
    have howned : (contention.act .start).owned = contention.owned := by
      simp [owned, Contention.act, Claim.owned?]
    exact ⟨howned ▸ h.distinct, howned ▸ h.isTaken_iff⟩
  | step index => exact h.step index

theorem capacity_act (action : Action) :
    (contention.act action).pool.capacity = contention.pool.capacity := by
  cases action with
  | start => rfl
  | step index =>
    rw [act]
    cases contention.claims[index]? with
    | none => rfl
    | some claim =>
      rcases claim.step_cases contention.pool with
        ⟨slot, -, -, hstep⟩ | ⟨slot, -, hstep⟩ | ⟨claim', -, hstep⟩
      · simp [hstep]
      · simp [hstep]
      · simp [hstep]

theorem Exclusive.actAll (h : contention.Exclusive) (actions : List Action) :
    (contention.actAll actions).Exclusive ∧
      (contention.actAll actions).pool.capacity = contention.pool.capacity := by
  induction actions generalizing contention with
  | nil => exact ⟨h, rfl⟩
  | cons action actions ih =>
    obtain ⟨hexclusive, hcapacity⟩ := ih (h.act action)
    exact ⟨hexclusive, hcapacity.trans (capacity_act action)⟩

/-! ## The slots that are held -/

theorem held_sublist_owned (contention : Contention) : contention.held.Sublist contention.owned := by
  unfold held owned
  induction contention.claims with
  | nil => exact List.Sublist.refl _
  | cons claim claims ih =>
    rw [List.filterMap_cons, List.filterMap_cons]
    cases hheld : claim.held? with
    | some slot =>
      rw [Claim.owned?_of_held? hheld]
      exact ih.cons_cons slot
    | none =>
      cases claim.owned? with
      | none => exact ih
      | some slot => exact ih.cons slot

/-- Once all claims are over, what is taken is held. -/
theorem held_eq_owned (h : ∀ claim ∈ contention.claims, claim.isOver) :
    contention.held = contention.owned :=
  List.filterMap_congr fun claim hclaim => Claim.held?_of_isOver (h claim hclaim)

/-- Whatever claims are made at the same time and whatever slots are given back meanwhile, in
    whatever order their steps come: no two claims hold the same slot, every slot that is held is
    taken, no more are held than there are, and once all claims are over no other slot is
    taken. -/
theorem claims_exclusive (size : Nat) (actions : List Action) :
    let contention := (ofSize size).actAll actions
    contention.pool.capacity = size ∧
    contention.held.Nodup ∧
    (∀ slot ∈ contention.held, contention.pool.slots[slot]? = some true) ∧
    contention.held.length ≤ size ∧
    ((∀ claim ∈ contention.claims, claim.isOver) →
      ∀ slot, contention.pool.slots[slot]? = some true ↔ slot ∈ contention.held) := by
  intro contention
  obtain ⟨hexclusive, hcapacity⟩ := (exclusive_ofSize size).actAll actions
  change contention.Exclusive at hexclusive
  replace hcapacity : contention.pool.capacity = size := hcapacity.trans List.length_replicate
  have hsub := held_sublist_owned contention
  have hdistinct : contention.held.Nodup := hexclusive.distinct.sublist hsub
  have htaken : ∀ slot ∈ contention.held, contention.pool.IsTaken slot := fun slot hslot =>
    (hexclusive.isTaken_iff slot).mpr (hsub.subset hslot)
  refine ⟨hcapacity, hdistinct, htaken, ?_, fun hover slot => ?_⟩
  · -- different slots of a pool are no more than its slots
    have hrange : contention.held ⊆ List.range size := fun slot hslot =>
      List.mem_range.mpr (hcapacity ▸ (htaken slot hslot).lt_capacity)
    simpa using (List.subperm_of_subset hdistinct hrange).length_le
  · rw [held_eq_owned hover]
    exact hexclusive.isTaken_iff slot

/-- Three claims on two slots. The first gives back its slot behind the third, which has looked
    at it and finds nothing. -/
def overtaken : List Action :=
  [.start, .start, .start, .step 0, .step 1, .step 2, .step 0, .step 1, .step 0, .step 2,
    .step 2, .step 1]

theorem claims_exclusive_overtaken :
    ((ofSize 2).actAll overtaken).claims = [.released, .held 1, .refused] ∧
    1 ∈ ((ofSize 2).actAll overtaken).held ∧
    ((ofSize 2).actAll overtaken).pool.slots[1]? = some true ∧
    (∀ claim ∈ ((ofSize 2).actAll overtaken).claims, claim.isOver) ∧
    ∀ slot, ((ofSize 2).actAll overtaken).pool.slots[slot]? = some true ↔
      slot ∈ ((ofSize 2).actAll overtaken).held := by
  obtain ⟨-, -, htaken, -, hover⟩ := claims_exclusive 2 overtaken
  have hheld : 1 ∈ ((ofSize 2).actAll overtaken).held := by decide
  have hends : ∀ claim ∈ ((ofSize 2).actAll overtaken).claims, claim.isOver := by decide
  exact ⟨by decide, hheld, htaken 1 hheld, hends, hover hends⟩

end Contention

end Provision
