/-
  Provision.Proofs.Server.Refusal

  Claims that get no slot. A claim is refused once it has found every slot taken, but it looks at
  the slots one after the other, and a slot that it has left behind may be given back before it
  comes to the last (`Contention.Scanned`). So a claim is refused either because at some moment on
  its way all slots were in use, or with a slot given back behind it
  (`Contention.found_taken_of_refused`), and in that case there may have been a free slot all
  along (`Contention.refused_beside_free_slot`).

  A moment of a run is the part of it that lies before.
-/
import Mathlib.Data.List.Induction
import Mathlib.Data.List.Infix
import Provision.Proofs.Server.Contention

namespace Provision

namespace Contention

variable {size claim slot : Nat} {actions : List Action} {state : Claim}

/-! ## Moments of a claim -/

/-- At this moment the claim has started, is not over, and has yet to look at these slots. -/
def IsLooking (size : Nat) (before : List Action) (claim : Nat) (rest : List Nat) : Prop :=
  ((ofSize size).actAll before).claims[claim]? = some (.looking rest)

def IsTakenAt (size : Nat) (before : List Action) (slot : Nat) : Prop :=
  ((ofSize size).actAll before).pool.IsTaken slot

/-- The claim looks at a slot and finds it taken. -/
structure FindsTaken (size : Nat) (actions : List Action) (claim slot : Nat)
    (before : List Action) : Prop where
  within : before ++ [.step claim] <+: actions
  looking : ∃ rest, IsLooking size before claim (slot :: rest)
  taken : IsTakenAt size before slot

/-- A slot that the claim has looked at is given back while it looks at others. -/
structure FreedBehind (size : Nat) (actions : List Action) (claim slot : Nat)
    (before : List Action) (action : Action) : Prop where
  within : before ++ [action] <+: actions
  /-- The slot is none of those that the claim has yet to look at. -/
  behind : ∃ rest, IsLooking size before claim rest ∧ slot ∉ rest
  taken : IsTakenAt size before slot
  free : ((ofSize size).actAll (before ++ [action])).pool.IsFree slot

/-- The claim is on its way, and all slots are in use. -/
def IsFull (size : Nat) (actions : List Action) (claim : Nat) (before : List Action) : Prop :=
  before <+: actions ∧ (∃ rest, IsLooking size before claim rest) ∧
    ∀ slot < size, IsTakenAt size before slot

theorem actAll_concat (contention : Contention) (actions : List Action) (action : Action) :
    contention.actAll (actions ++ [action]) = (contention.actAll actions).act action := by
  rw [actAll, actAll, List.foldl_append, List.foldl_cons, List.foldl_nil]

theorem capacity_actAll_ofSize (size : Nat) (actions : List Action) :
    ((ofSize size).actAll actions).pool.capacity = size :=
  ((exclusive_ofSize size).actAll actions).2.trans List.length_replicate

theorem FindsTaken.concat {before : List Action} (h : FindsTaken size actions claim slot before)
    (action : Action) : FindsTaken size (actions ++ [action]) claim slot before :=
  { h with within := h.within.trans (List.prefix_append _ _) }

theorem FreedBehind.concat {before : List Action} {freeing : Action}
    (h : FreedBehind size actions claim slot before freeing) (action : Action) :
    FreedBehind size (actions ++ [action]) claim slot before freeing :=
  { h with within := h.within.trans (List.prefix_append _ _) }

theorem IsFull.concat {before : List Action} (h : IsFull size actions claim before)
    (action : Action) : IsFull size (actions ++ [action]) claim before :=
  ⟨h.1.trans (List.prefix_append _ _), h.2⟩

/-- Where a claim may come from. -/
theorem claim_cases_of_act {now : Contention} {action : Action}
    (h : (now.act action).claims[claim]? = some state) :
    (action ≠ .step claim ∧ now.claims[claim]? = some state) ∨
      (action = .start ∧ state = .looking (List.range now.pool.capacity)) ∨
      ∃ earlier, action = .step claim ∧ now.claims[claim]? = some earlier ∧
        (earlier.step now.pool).1 = state ∧ (now.act action).pool = (earlier.step now.pool).2 := by
  cases action with
  | start =>
    rw [act] at h
    by_cases hlt : claim < now.claims.length
    · rw [List.getElem?_append_left hlt] at h
      exact Or.inl ⟨by simp, h⟩
    · rw [List.getElem?_append_right (Nat.le_of_not_lt hlt)] at h
      exact Or.inr (Or.inl ⟨rfl, List.mem_singleton.mp (List.mem_of_getElem? h)⟩)
  | step index =>
    rw [act] at h ⊢
    cases hindex : now.claims[index]? with
    | none =>
      rw [hindex] at h
      refine Or.inl ⟨?_, h⟩
      rintro heq
      obtain rfl := Action.step.inj heq
      rw [hindex] at h
      cases h
    | some earlier =>
      rw [hindex] at h
      by_cases heq : index = claim
      · subst heq
        obtain ⟨hlt, -⟩ := List.getElem?_eq_some_iff.mp hindex
        simp only [List.getElem?_set_self hlt, Option.some.injEq] at h
        exact Or.inr (Or.inr ⟨earlier, rfl, hindex, h, rfl⟩)
      · simp only [List.getElem?_set_ne heq] at h
        exact Or.inl ⟨fun hstep => heq (Action.step.inj hstep), h⟩

/-! ## The way of a claim -/

/-- The claim has found these many slots taken, and those that are not taken any more were given
    back behind it. -/
structure Passed (size : Nat) (actions : List Action) (claim count : Nat) : Prop where
  found : ∀ slot < count, ∃ before, FindsTaken size actions claim slot before
  kept : (∀ slot < count, IsTakenAt size actions slot) ∨
    ∃ slot before action, FreedBehind size actions claim slot before action

/-- What is known of a run by how far a claim has come in it. -/
def Scanned (size : Nat) (actions : List Action) (claim : Nat) : Claim → Prop
  | .looking rest =>
    ∃ count ≤ size, rest = List.range' count (size - count) ∧ Passed size actions claim count
  | .refused =>
    (∀ slot < size, ∃ before, FindsTaken size actions claim slot before) ∧
      ((∃ before, IsFull size actions claim before) ∨
        ∃ slot before action, FreedBehind size actions claim slot before action)
  | _ => True

/-- What a claim has passed it has passed later as well: a slot that is not taken any more was
    given back behind it. -/
theorem Passed.concat {count : Nat} (h : Passed size actions claim count) (hcount : count ≤ size)
    (hlooking : IsLooking size actions claim (List.range' count (size - count)))
    (action : Action) : Passed size (actions ++ [action]) claim count := by
  refine ⟨fun slot hslot => ?_, ?_⟩
  · obtain ⟨before, hfinds⟩ := h.found slot hslot
    exact ⟨before, hfinds.concat action⟩
  · rcases h.kept with htaken | ⟨slot, before, freeing, hfreed⟩
    · by_cases hstill : ∀ slot < count, IsTakenAt size (actions ++ [action]) slot
      · exact Or.inl hstill
      · obtain ⟨slot, hslot, hgone⟩ :
            ∃ slot < count, ¬ IsTakenAt size (actions ++ [action]) slot := by
          simpa using hstill
        refine Or.inr ⟨slot, actions, action, List.prefix_rfl, ⟨_, hlooking, ?_⟩,
          htaken slot hslot, Pool.isFree_iff.mpr ⟨?_, hgone⟩⟩
        · simp [List.mem_range'_1, hslot]
        · rw [capacity_actAll_ofSize]
          omega
    · exact Or.inr ⟨slot, before, freeing, hfreed.concat action⟩

theorem Scanned.concat (h : Scanned size actions claim state)
    (hstate : ((ofSize size).actAll actions).claims[claim]? = some state) (action : Action) :
    Scanned size (actions ++ [action]) claim state := by
  cases state with
  | looking rest =>
    obtain ⟨count, hcount, rfl, hpassed⟩ := h
    exact ⟨count, hcount, rfl, hpassed.concat hcount hstate action⟩
  | refused =>
    obtain ⟨hfound, hwhy⟩ := h
    refine ⟨fun slot hslot => ?_, ?_⟩
    · obtain ⟨before, hfinds⟩ := hfound slot hslot
      exact ⟨before, hfinds.concat action⟩
    · rcases hwhy with ⟨before, hfull⟩ | ⟨slot, before, freeing, hfreed⟩
      · exact Or.inl ⟨before, hfull.concat action⟩
      · exact Or.inr ⟨slot, before, freeing, hfreed.concat action⟩
  | _ => trivial

/-- One slot more, which was found taken and still is. -/
theorem Passed.succ {count : Nat} {before : List Action} (h : Passed size actions claim count)
    (hfinds : FindsTaken size actions claim count before)
    (htaken : IsTakenAt size actions count) : Passed size actions claim (count + 1) := by
  refine ⟨fun slot hslot => ?_, h.kept.imp_left fun hkept slot hslot => ?_⟩
  · rcases Nat.lt_succ_iff_lt_or_eq.mp hslot with hlt | rfl
    · exact h.found slot hlt
    · exact ⟨before, hfinds⟩
  · rcases Nat.lt_succ_iff_lt_or_eq.mp hslot with hlt | rfl
    · exact hkept slot hlt
    · exact htaken

/-- A claim that looks at the next slot finds it taken, or gets it. -/
theorem Scanned.look {next : Nat} {rest : List Nat}
    (h : Scanned size actions claim (.looking (next :: rest)))
    (hlooking : IsLooking size actions claim (next :: rest))
    (hbusy : ¬ ((ofSize size).actAll actions).pool.IsFree next)
    (hpool : ((ofSize size).actAll (actions ++ [.step claim])).pool =
      ((ofSize size).actAll actions).pool) :
    Scanned size (actions ++ [.step claim]) claim (.looking rest) := by
  obtain ⟨count, hcount, hrest, hpassed⟩ := h
  -- the next slot is the first that was not looked at
  obtain ⟨more, hmore⟩ : ∃ more, size - count = more + 1 :=
    Nat.exists_eq_succ_of_ne_zero fun hzero => by simp [hzero] at hrest
  rw [hmore, List.range'_succ] at hrest
  obtain ⟨rfl, rfl⟩ := List.cons.inj hrest
  have htaken : IsTakenAt size actions next := by
    by_contra hno
    exact hbusy (Pool.isFree_iff.mpr ⟨by rw [capacity_actAll_ofSize]; omega, hno⟩)
  have hlater : IsTakenAt size (actions ++ [.step claim]) next := by
    rwa [IsTakenAt, hpool]
  have hfinds : FindsTaken size (actions ++ [.step claim]) claim next actions :=
    ⟨List.prefix_rfl, ⟨_, hlooking⟩, htaken⟩
  refine ⟨next + 1, by omega, by congr 1; omega, ?_⟩
  refine (hpassed.concat hcount ?_ (.step claim)).succ hfinds hlater
  rwa [hmore, List.range'_succ]

/-- A claim that has looked at every slot is refused. -/
theorem Scanned.refuse (h : Scanned size actions claim (.looking []))
    (hlooking : IsLooking size actions claim []) :
    Scanned size (actions ++ [.step claim]) claim .refused := by
  obtain ⟨count, hcount, hrest, hpassed⟩ := h
  obtain rfl : count = size := by
    have hlength := congrArg List.length hrest
    rw [List.length_nil, List.length_range'] at hlength
    omega
  refine ⟨fun slot hslot => ?_, ?_⟩
  · obtain ⟨before, hfinds⟩ := hpassed.found slot hslot
    exact ⟨before, hfinds.concat _⟩
  · rcases hpassed.kept with htaken | ⟨slot, before, freeing, hfreed⟩
    · exact Or.inl ⟨actions, List.prefix_append _ _, ⟨_, hlooking⟩, htaken⟩
    · exact Or.inr ⟨slot, before, freeing, hfreed.concat _⟩

/-- A claim knows of the run what its own looks have shown. -/
theorem scanned_of_actAll
    (h : ((ofSize size).actAll actions).claims[claim]? = some state) :
    Scanned size actions claim state := by
  induction actions using List.reverseRecOn generalizing state with
  | nil => cases h
  | append_singleton actions action ih =>
    have hact := h
    rw [actAll_concat] at hact
    rcases claim_cases_of_act hact with
      ⟨-, hsame⟩ | ⟨rfl, rfl⟩ | ⟨earlier, rfl, hearlier, rfl, hpool⟩
    · exact (ih hsame).concat hsame action
    · rw [capacity_actAll_ofSize, List.range_eq_range']
      exact ⟨0, Nat.zero_le _, rfl, nofun, Or.inl nofun⟩
    · rw [← actAll_concat] at hpool
      replace ih := ih hearlier
      cases earlier with
      | looking rest =>
        cases rest with
        | nil => exact ih.refuse hearlier
        | cons next rest =>
          rw [Claim.step, Pool.claimAt] at hpool ⊢
          by_cases hfree : ((ofSize size).actAll actions).pool.slots[next]? = some false
          · rw [if_pos hfree]
            exact trivial
          · rw [if_neg hfree] at hpool ⊢
            exact ih.look hearlier hfree hpool
      | refused => exact ih.concat hearlier _
      | _ => trivial

/-! ## Refusals -/

/-- A claim that is refused has found every slot taken when it looked at it. If at no moment on its
    way all slots were in use, then one of those that it had looked at was given back while it
    looked at the others. -/
theorem found_taken_of_refused
    (h : ((ofSize size).actAll actions).claims[claim]? = some .refused) :
    (∀ slot < size, ∃ before, FindsTaken size actions claim slot before) ∧
      ((∃ before, IsFull size actions claim before) ∨
        ∃ slot before action, FreedBehind size actions claim slot before action) :=
  scanned_of_actAll h

/-- The third of the claims that overtake each other is refused where both slots were in use. -/
theorem found_taken_of_refused_overtaken :
    ((ofSize 2).actAll overtaken).claims[2]? = some .refused ∧
      (∃ before, FindsTaken 2 overtaken 2 0 before) ∧
      (∃ before, FindsTaken 2 overtaken 2 1 before) ∧
      ((∃ before, IsFull 2 overtaken 2 before) ∨
        ∃ slot before action, FreedBehind 2 overtaken 2 slot before action) := by
  have hrefused : ((ofSize 2).actAll overtaken).claims[2]? = some .refused := by decide
  obtain ⟨hfound, hwhy⟩ := found_taken_of_refused hrefused
  exact ⟨hrefused, hfound 0 (by decide), hfound 1 (by decide), hwhy⟩

/-- Three claims on two slots. The second and the third look at the first slot while it is taken.
    Then it is given back, the third takes the other one, and the second finds nothing. -/
def crossed : List Action :=
  [.start, .start, .start, .step 0, .step 1, .step 2, .step 0, .step 0, .step 2, .step 1, .step 1]

/-- A claim may be refused although a slot was free at every moment. -/
theorem refused_beside_free_slot :
    ((ofSize 2).actAll crossed).claims[1]? = some .refused ∧
      ∀ before, before <+: crossed →
        ∃ slot < 2, ((ofSize 2).actAll before).pool.slots[slot]? = some false := by
  refine ⟨by decide, fun before hbefore => ?_⟩
  rw [← List.mem_inits] at hbefore
  revert before
  decide

end Contention

end Provision
