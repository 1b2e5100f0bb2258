/-
  Provision.Proofs.Device.RebootSignal

  Waiters and requests at the same time. A waiter takes its ticket before it looks at the flag,
  and a request raises the flag before it calls the tickets, each as a step of its own between
  which all others may make theirs. So a ticket that was taken too late to be called belongs to a
  waiter that finds the flag raised: after a request nobody sleeps on a ticket that was not called
  (`Signalling.Sound`), and no request is lost (`Signalling.requests_reach_waiters`).

  Of the calling of tickets only that is used which a request does. A ticket may be called without
  a request as well (`Signalling.Action.wake`).
-/
import Mathlib.Data.List.Basic
import Provision.Device.RebootSignal

namespace Provision

/-! ## The steps of a waiter -/

namespace Waiter

variable {flag : Bool} {waiter : Waiter}

theorem eq_returned_of_step (h : waiter.step flag = returned) :
    flag = true ∨ waiter = returned := by
  cases waiter with
  | idle => cases h
  | ticketed called => cases flag <;> simp_all [step]
  | asleep called => cases called <;> cases h
  | returned => exact Or.inr rfl

theorem eq_asleep_of_step (h : waiter.step flag = asleep false) :
    flag = false ∨ waiter = asleep false := by
  cases waiter with
  | idle => cases h
  | ticketed called => cases flag <;> simp_all [step]
  | asleep called => cases called <;> simp_all [step]
  | returned => cases h

theorem eq_returned_of_call (h : waiter.call = returned) : waiter = returned := by
  cases waiter with
  | returned => rfl
  | _ => cases h

theorem call_ne_asleep (waiter : Waiter) : waiter.call ≠ asleep false := by
  cases waiter <;> nofun

/-- What a poll answers whose next step is that of this waiter, if it ends there. -/
def answer? (flag : Bool) : Waiter → Option RebootSignal.Poll
  | idle => none
  | ticketed _ => if flag then some .ready else none
  | asleep called => if called then none else some .pending
  | returned => some .finished

/-- The steps that a poll takes to its answer, as long as nobody calls a ticket meanwhile. -/
def patience (flag : Bool) : Waiter → Nat
  | idle => if flag then 2 else 3
  | ticketed called => if flag then 1 else if called then 5 else 2
  | asleep called => if called then (if flag then 3 else 4) else 1
  | returned => 1

/-- The answer to a poll of a waiter that has not returned. -/
def verdict (flag : Bool) : RebootSignal.Poll := if flag then .ready else .pending

/-- How much longer a poll takes for a ticket that is called meanwhile. -/
def detour (flag : Bool) : Nat := if flag then 0 else 3

/-- The waiter is neither done nor, where the flag is raised, asleep on a ticket that was not
    called. -/
def Wakeful (flag : Bool) (waiter : Waiter) : Prop :=
  waiter ≠ returned ∧ (flag = true → waiter ≠ asleep false)

/-- A step of a poll answers it, or brings it closer to its answer. -/
theorem Wakeful.step (h : waiter.Wakeful flag) :
    waiter.answer? flag = some (verdict flag) ∨
      (waiter.answer? flag = none ∧ (waiter.step flag).Wakeful flag ∧
        (waiter.step flag).patience flag + 1 = waiter.patience flag) := by
  obtain ⟨hopen, hcalled⟩ := h
  cases waiter with
  | idle => cases flag <;> simp [answer?, Waiter.step, Wakeful, patience]
  | ticketed called =>
    cases flag with
    | true => exact Or.inl rfl
    | false => cases called <;> simp [answer?, Waiter.step, Wakeful, patience]
  | asleep called =>
    cases called with
    | true => cases flag <;> simp [answer?, Waiter.step, Wakeful, patience]
    | false =>
      cases flag with
      | true => exact absurd rfl (hcalled rfl)
      | false => exact Or.inl rfl
  | returned => exact absurd rfl hopen

theorem Wakeful.call (h : waiter.Wakeful flag) :
    waiter.call.Wakeful flag ∧ waiter.call.patience flag ≤ waiter.patience flag + detour flag := by
  refine ⟨⟨fun hcall => h.1 (eq_returned_of_call hcall), fun _ => call_ne_asleep waiter⟩, ?_⟩
  obtain ⟨-, hcalled⟩ := h
  cases waiter with
  | idle => exact Nat.le_add_right _ _
  | ticketed called => cases flag <;> cases called <;> decide
  | asleep called =>
    cases called with
    | true => exact Nat.le_add_right _ _
    | false =>
      cases flag with
      | true => exact absurd rfl (hcalled rfl)
      | false => decide
  | returned => exact Nat.le_add_right _ _

theorem patience_pos (flag : Bool) (waiter : Waiter) : 0 < waiter.patience flag := by
  cases waiter with
  | idle => cases flag <;> decide
  | ticketed called => cases flag <;> cases called <;> decide
  | asleep called => cases flag <;> cases called <;> decide
  | returned => exact Nat.one_pos

theorem patience_le (flag : Bool) (waiter : Waiter) :
    waiter.patience flag ≤ if flag then 3 else 5 := by
  cases waiter with
  | idle => cases flag <;> decide
  | ticketed called => cases flag <;> cases called <;> decide
  | asleep called => cases flag <;> cases called <;> decide
  | returned => cases flag <;> decide

/-- A poll that nobody disturbs returns exactly under a raised flag. -/
theorem Wakeful.poll_eq_returned_iff (h : waiter.Wakeful flag) :
    waiter.poll flag = returned ↔ flag = true := by
  obtain ⟨hopen, hcalled⟩ := h
  cases waiter with
  | idle => cases flag <;> decide
  | ticketed called => cases flag <;> cases called <;> decide
  | asleep called =>
    cases called with
    | true => cases flag <;> decide
    | false =>
      cases flag with
      | true => exact absurd rfl (hcalled rfl)
      | false => decide
  | returned => exact absurd rfl hopen

end Waiter

/-! ## Waiters and requests side by side -/

/-- How far a request has come. -/
inductive Requester where
  | called
  /-- It raised the flag and has not called the tickets. -/
  | raised
  | completed
deriving DecidableEq

/-- A signal, and the requests that were ever made of it in the order in which they started. -/
structure Signalling where
  signal : RebootSignal
  requesters : List Requester
deriving DecidableEq

namespace Signalling

variable {now : Signalling} {index : Nat} {waiter : Waiter} {flag : Bool}

/-- What happens next. -/
inductive Action where
  /-- One more waiter comes. -/
  | wait
  | stepWaiter (waiter : Nat)
  /-- One more request is made. -/
  | request
  | stepRequester (requester : Nat)
  /-- The ticket of a waiter is called, and by no request. -/
  | wake (waiter : Nat)
deriving DecidableEq

def initial : Signalling := ⟨.initial, []⟩

def act (now : Signalling) : Action → Signalling
  | .wait => { now with signal := now.signal.wait }
  | .stepWaiter index => { now with signal := now.signal.stepWaiter index }
  | .request => { now with requesters := now.requesters ++ [.called] }
  | .stepRequester index =>
    match now.requesters[index]? with
    | some .called => ⟨now.signal.raise, now.requesters.set index .raised⟩
    | some .raised => ⟨now.signal.notify, now.requesters.set index .completed⟩
    | _ => now
  | .wake index =>
    { now with signal := { now.signal with waiters := now.signal.waiters.modify index .call } }

/-- The signal and its requests after a run in this order. -/
def actAll (now : Signalling) (actions : List Action) : Signalling := actions.foldl act now

/-- Where an action leaves a waiter. -/
def moved (now : Signalling) (index : Nat) (waiter : Waiter) : Action → Waiter
  | .stepWaiter other => if other = index then waiter.step now.signal.requested else waiter
  | .stepRequester other => if now.requesters[other]? = some .raised then waiter.call else waiter
  | .wake other => if other = index then waiter.call else waiter
  | _ => waiter

theorem getElem?_act (h : now.signal.waiters[index]? = some waiter) (action : Action) :
    (now.act action).signal.waiters[index]? = some (now.moved index waiter action) := by
  cases action with
  | wait =>
    obtain ⟨hlt, -⟩ := List.getElem?_eq_some_iff.mp h
    simpa [act, RebootSignal.wait, moved, List.getElem?_append_left hlt] using h
  | stepWaiter other =>
    simp [act, RebootSignal.stepWaiter, moved, List.getElem?_modify, h]
  | request => exact h
  | stepRequester other =>
    rw [act, moved]
    cases now.requesters[other]? with
    | none => exact h
    | some requester =>
      cases requester with
      | called => exact h
      | raised => simp [RebootSignal.notify, h]
      | completed => exact h
  | wake other => simp [act, moved, List.getElem?_modify, h]

/-- An action leaves nobody waiting but those who waited, and the one who came. -/
theorem exists_of_mem_act {action : Action} (h : waiter ∈ (now.act action).signal.waiters) :
    waiter = .idle ∨ ∃ index before, now.signal.waiters[index]? = some before ∧
      waiter = now.moved index before action := by
  obtain ⟨index, hindex⟩ := List.mem_iff_getElem?.mp h
  cases hbefore : now.signal.waiters[index]? with
  | some before =>
    rw [getElem?_act hbefore] at hindex
    exact Or.inr ⟨index, before, hbefore, (Option.some.inj hindex).symm⟩
  | none =>
    refine Or.inl ?_
    have hlength := List.getElem?_eq_none_iff.mp hbefore
    cases action with
    | wait =>
      rw [act, RebootSignal.wait, List.getElem?_append_right hlength] at hindex
      exact List.mem_singleton.mp (List.mem_of_getElem? hindex)
    | stepWaiter other =>
      simp [act, RebootSignal.stepWaiter, List.getElem?_modify, hbefore] at hindex
    | request =>
      rw [act, hbefore] at hindex
      cases hindex
    | stepRequester other =>
      rw [act] at hindex
      split at hindex
      · rw [RebootSignal.raise, hbefore] at hindex
        cases hindex
      · simp [RebootSignal.notify, hbefore] at hindex
      · rw [hbefore] at hindex
        cases hindex
    | wake other => simp [act, List.getElem?_modify, hbefore] at hindex

/-! ## What always holds -/

/-- What holds of a signal whatever steps its waiters and requests have made. -/
structure Sound (now : Signalling) : Prop where
  /-- A request raises the flag first. -/
  raised : ∀ requester ∈ now.requesters, requester ≠ .called → now.signal.requested = true
  /-- Nobody returns without the flag. -/
  returned : .returned ∈ now.signal.waiters → now.signal.requested = true
  /-- After a request nobody sleeps on a ticket that was not called. -/
  woken : .completed ∈ now.requesters → .asleep false ∉ now.signal.waiters

theorem sound_initial : initial.Sound := ⟨nofun, nofun, nofun⟩

theorem requested_act (h : now.signal.requested = true) (action : Action) :
    (now.act action).signal.requested = true := by
  cases action with
  | stepRequester index =>
    rw [act]
    split
    · rfl
    · exact h
    · exact h
  | _ => exact h

theorem requested_actAll (h : now.signal.requested = true) (actions : List Action) :
    (now.actAll actions).signal.requested = true := by
  induction actions generalizing now with
  | nil => exact h
  | cons action actions ih => exact ih (requested_act h action)

theorem completed_act (h : .completed ∈ now.requesters) (action : Action) :
    .completed ∈ (now.act action).requesters := by
  have hset : ∀ index requester, now.requesters[index]? = some requester →
      requester ≠ .completed → ∀ next, .completed ∈ now.requesters.set index next := by
    intro index requester hindex hne next
    obtain ⟨other, hother⟩ := List.mem_iff_getElem?.mp h
    have hindexes : index ≠ other := by
      rintro rfl
      rw [hindex] at hother
      exact hne (Option.some.inj hother)
    exact List.mem_iff_getElem?.mpr ⟨other, by rw [List.getElem?_set_ne hindexes, hother]⟩
  cases action with
  | request => exact List.mem_append_left _ h
  | stepRequester index =>
    rw [act]
    split
    · rename_i hcalled
      exact hset index .called hcalled nofun _
    · rename_i hraised
      exact hset index .raised hraised nofun _
    · exact h
  | _ => exact h

theorem Sound.raised_act (h : now.Sound) (action : Action) :
    ∀ requester ∈ (now.act action).requesters, requester ≠ .called →
      (now.act action).signal.requested = true := by
  intro requester hmem hne
  cases action with
  | request =>
    rcases List.mem_append.mp hmem with hmem | hmem
    · exact h.raised requester hmem hne
    · exact absurd (List.mem_singleton.mp hmem) hne
  | stepRequester index =>
    rw [act] at hmem ⊢
    split at hmem
    · rfl
    · -- the flag was raised before the tickets are called
      exact h.raised .raised (List.mem_of_getElem? ‹_›) nofun
    · exact h.raised requester hmem hne
  | _ => exact h.raised requester hmem hne

/-- A request completes by calling the tickets. -/
theorem completed_of_act {action : Action} (h : .completed ∈ (now.act action).requesters) :
    .completed ∈ now.requesters ∨
      ∃ index, action = .stepRequester index ∧ now.requesters[index]? = some .raised := by
  cases action with
  | request =>
    rcases List.mem_append.mp h with h | h
    · exact Or.inl h
    · cases List.mem_singleton.mp h
  | stepRequester index =>
    rw [act] at h
    split at h
    · rcases List.mem_or_eq_of_mem_set h with h | h
      · exact Or.inl h
      · cases h
    · exact Or.inr ⟨index, rfl, ‹_›⟩
    · exact Or.inl h
  | _ => exact Or.inl h

/-- A waiter makes a step of its own, or its ticket is called, which no request does before the
    flag is raised, or it stays. -/
theorem Sound.moved_cases (h : now.Sound) (index : Nat) (waiter : Waiter) (action : Action) :
    (action = .stepWaiter index ∧
        now.moved index waiter action = waiter.step now.signal.requested) ∨
      action ≠ .stepWaiter index ∧
        (now.moved index waiter action = waiter ∨ now.moved index waiter action = waiter.call ∧
          (action = .wake index ∨ now.signal.requested = true)) := by
  cases action with
  | stepWaiter other =>
    by_cases hother : other = index
    · exact Or.inl ⟨by rw [hother], if_pos hother⟩
    · exact Or.inr ⟨fun heq => hother (Action.stepWaiter.inj heq), Or.inl (if_neg hother)⟩
  | stepRequester other =>
    refine Or.inr ⟨nofun, ?_⟩
    by_cases hraised : now.requesters[other]? = some .raised
    · exact Or.inr ⟨if_pos hraised, Or.inr (h.raised .raised (List.mem_of_getElem? hraised) nofun)⟩
    · exact Or.inl (if_neg hraised)
  | wake other =>
    refine Or.inr ⟨nofun, ?_⟩
    by_cases hother : other = index
    · exact Or.inr ⟨if_pos hother, Or.inl (by rw [hother])⟩
    · exact Or.inl (if_neg hother)
  | _ => exact Or.inr ⟨nofun, Or.inl rfl⟩

theorem Sound.returned_act (h : now.Sound) (action : Action)
    (hreturned : .returned ∈ (now.act action).signal.waiters) :
    (now.act action).signal.requested = true := by
  obtain hidle | ⟨index, before, hbefore, hmoved⟩ := exists_of_mem_act hreturned
  · cases hidle
  · -- who returns has seen the flag, or had returned
    have hflag : now.signal.requested = true ∨ before = .returned := by
      rcases h.moved_cases index before action with ⟨-, hstep⟩ | ⟨-, hstays | ⟨hcall, -⟩⟩
      · exact Waiter.eq_returned_of_step (hstep.symm.trans hmoved.symm)
      · exact Or.inr (hstays.symm.trans hmoved.symm)
      · exact Or.inr (Waiter.eq_returned_of_call (hcall.symm.trans hmoved.symm))
    rcases hflag with hflag | rfl
    · exact requested_act hflag action
    · exact requested_act (h.returned (List.mem_of_getElem? hbefore)) action

theorem Sound.woken_act (h : now.Sound) (action : Action)
    (hcompleted : .completed ∈ (now.act action).requesters) :
    .asleep false ∉ (now.act action).signal.waiters := by
  intro hasleep
  obtain hidle | ⟨index, before, hbefore, hmoved⟩ := exists_of_mem_act hasleep
  · cases hidle
  · rcases completed_of_act hcompleted with hcompleted | ⟨other, rfl, hraised⟩
    · -- a waiter whose ticket was not called finds the flag raised
      have hflag := h.raised .completed hcompleted nofun
      have hbefore' : before = .asleep false := by
        rcases h.moved_cases index before action with ⟨-, hstep⟩ | ⟨-, hstays | ⟨hcall, -⟩⟩
        · have hslept := Waiter.eq_asleep_of_step (hstep.symm.trans hmoved.symm)
          exact hslept.resolve_left (by simp [hflag])
        · exact hstays.symm.trans hmoved.symm
        · exact absurd (hcall.symm.trans hmoved.symm) before.call_ne_asleep
      exact h.woken hcompleted (hbefore' ▸ List.mem_of_getElem? hbefore)
    · -- this action calls every ticket that is out
      rw [moved, if_pos hraised] at hmoved
      exact before.call_ne_asleep hmoved.symm

theorem Sound.act (h : now.Sound) (action : Action) : (now.act action).Sound :=
  ⟨h.raised_act action, h.returned_act action, h.woken_act action⟩

theorem Sound.actAll (h : now.Sound) (actions : List Action) : (now.actAll actions).Sound := by
  induction actions generalizing now with
  | nil => exact h
  | cons action actions ih => exact ih (h.act action)

/-! ## Polls -/

/-- The answer that an action gives to a poll of a waiter. -/
def answer? (now : Signalling) (index : Nat) (action : Action) : Option RebootSignal.Poll :=
  if action = .stepWaiter index then
    now.signal.waiters[index]?.bind (Waiter.answer? now.signal.requested)
  else none

/-- The answer to a poll of a waiter that starts now, where its steps are those that the waiter
    makes among these actions; none as long as the poll goes on. -/
def pollOver (now : Signalling) (index : Nat) : List Action → Option RebootSignal.Poll
  | [] => none
  | action :: actions =>
    match now.answer? index action with
    | some answer => some answer
    | none => (now.act action).pollOver index actions

/-- The flag keeps this value as long as a poll goes on, and if it is raised then a request has
    completed before. -/
def Steady (now : Signalling) (actions : List Action) : Bool → Prop
  | true => .completed ∈ now.requesters
  | false => (now.actAll actions).signal.requested = false

theorem Steady.act {action : Action} {actions : List Action}
    (h : now.Steady (action :: actions) flag) : (now.act action).Steady actions flag := by
  cases flag with
  | true => exact completed_act h action
  | false => exact h

theorem Steady.requested_eq {actions : List Action} (h : now.Steady actions flag)
    (hsound : now.Sound) : now.signal.requested = flag := by
  cases flag with
  | true => exact hsound.raised .completed h nofun
  | false =>
    by_contra hraised
    have hlast := requested_actAll (eq_true_of_ne_false hraised) actions
    rw [Steady, hlast] at h
    cases h

theorem Steady.wakeful {actions : List Action} (h : now.Steady actions flag) (hsound : now.Sound)
    (hwaiter : now.signal.waiters[index]? = some waiter) (hopen : waiter ≠ .returned) :
    waiter.Wakeful flag := by
  refine ⟨hopen, ?_⟩
  rintro rfl rfl
  exact hsound.woken h (List.mem_of_getElem? hwaiter)

/-- What an action does to a waiter that is not its own step makes a poll longer only by calling
    its ticket. -/
theorem Steady.patience_moved {action : Action} {actions : List Action}
    (h : now.Steady (action :: actions) flag) (hsound : now.Sound)
    (hwakeful : waiter.Wakeful flag) (hother : action ≠ .stepWaiter index) :
    now.moved index waiter action ≠ .returned ∧
      (now.moved index waiter action).patience flag +
          Waiter.detour flag * actions.count (.wake index) ≤
        waiter.patience flag + Waiter.detour flag * (action :: actions).count (.wake index) := by
  have hcount : actions.count (.wake index) ≤ (action :: actions).count (.wake index) :=
    List.count_le_count_cons
  have hless := Nat.mul_le_mul_left (Waiter.detour flag) hcount
  rcases hsound.moved_cases index waiter action with ⟨hown, -⟩ | ⟨-, hstays | ⟨hcall, hwhy⟩⟩
  · exact absurd hown hother
  · rw [hstays]
    exact ⟨hwakeful.1, by omega⟩
  · obtain ⟨hwakeful', hlonger⟩ := hwakeful.call
    rw [hcall]
    refine ⟨hwakeful'.1, ?_⟩
    rcases hwhy with rfl | hraised
    · rw [List.count_cons_self, Nat.mul_succ]
      omega
    · -- under a raised flag a call takes nobody another round
      have hdetour : Waiter.detour flag = 0 := by
        rw [← h.requested_eq hsound, hraised]
        rfl
      rw [hdetour] at hlonger ⊢
      omega

/-- A poll under a steady flag is answered by it, and goes on only for so many steps. -/
theorem Steady.pollOver {actions : List Action} (h : now.Steady actions flag)
    (hsound : now.Sound) (hwaiter : now.signal.waiters[index]? = some waiter)
    (hopen : waiter ≠ .returned) :
    now.pollOver index actions = some (Waiter.verdict flag) ∨
      now.pollOver index actions = none ∧
        actions.count (.stepWaiter index) <
          waiter.patience flag + Waiter.detour flag * actions.count (.wake index) := by
  -- the induction is on the actions to come; what a poll has left to do is the waiter's patience
  induction actions generalizing now waiter with
  | nil => exact Or.inr ⟨rfl, Nat.add_pos_left (waiter.patience_pos flag) _⟩
  | cons action actions ih =>
    have hflag := h.requested_eq hsound
    have hwakeful := h.wakeful hsound hwaiter hopen
    have hnext := getElem?_act hwaiter action
    rw [Signalling.pollOver, answer?, hwaiter, hflag, Option.bind_some]
    by_cases hown : action = .stepWaiter index
    · subst hown
      rw [moved, if_pos rfl, hflag] at hnext
      rw [if_pos rfl]
      rcases hwakeful.step with hanswer | ⟨hanswer, hwakeful', hcloser⟩
      · rw [hanswer]
        exact Or.inl rfl
      · rw [hanswer, List.count_cons_self, List.count_cons_of_ne (by nofun)]
        rcases ih h.act (hsound.act _) hnext hwakeful'.1 with hready | ⟨hnone, hcount⟩
        · exact Or.inl hready
        · exact Or.inr ⟨hnone, by omega⟩
    · obtain ⟨hopen', hlonger⟩ := h.patience_moved hsound hwakeful hown
      rw [if_neg hown, List.count_cons_of_ne hown]
      rcases ih h.act (hsound.act _) hnext hopen' with hready | ⟨hnone, hcount⟩
      · exact Or.inl hready
      · exact Or.inr ⟨hnone, by omega⟩

/-- A poll between whose steps nobody else makes one is answered by the flag. -/
theorem Steady.poll (h : now.Steady [] flag) (hsound : now.Sound)
    (hwaiter : now.signal.waiters[index]? = some waiter) (hopen : waiter ≠ .returned) :
    (now.signal.poll index).1 = Waiter.verdict flag := by
  have hreturns := (h.wakeful hsound hwaiter hopen).poll_eq_returned_iff
  unfold RebootSignal.poll
  simp only [List.getElem?_modify_eq, hwaiter, h.requested_eq hsound, Option.map_eq_map,
    Option.map_some, Option.some.injEq, if_neg hopen, hreturns]
  cases flag <;> rfl

/-! ## No request is lost -/

/-- Whatever waiters come and whatever requests are made, in whatever order their steps come:
    nobody returns before the flag is raised, and once a request has completed nobody sleeps on a
    ticket that was not called. So from then on every poll of a waiter that has not returned answers
    that it is ready, by its third step, and a poll that ends before the flag is raised answers that
    it is pending. -/
theorem requests_reach_waiters (actions : List Action) :
    let now := initial.actAll actions
    (.returned ∈ now.signal.waiters → now.signal.requested = true) ∧
    (.completed ∈ now.requesters → .asleep false ∉ now.signal.waiters) ∧
    ∀ index waiter, now.signal.waiters[index]? = some waiter → waiter ≠ .returned →
      (.completed ∈ now.requesters →
        (now.signal.poll index).1 = .ready ∧
        ∀ more, now.pollOver index more = some .ready ∨
          now.pollOver index more = none ∧ more.count (.stepWaiter index) < 3) ∧
      (now.signal.requested = false → (now.signal.poll index).1 = .pending) ∧
      ∀ more, (now.actAll more).signal.requested = false →
        now.pollOver index more = some .pending ∨
          now.pollOver index more = none ∧
            more.count (.stepWaiter index) < 5 + 3 * more.count (.wake index) := by
  intro now
  have hsound : now.Sound := sound_initial.actAll actions
  refine ⟨hsound.returned, hsound.woken, fun index waiter hwaiter hopen => ⟨?_, ?_, ?_⟩⟩
  · intro hcompleted
    have hsteady : ∀ more, now.Steady more true := fun _ => hcompleted
    refine ⟨(hsteady []).poll hsound hwaiter hopen, fun more => ?_⟩
    rcases (hsteady more).pollOver hsound hwaiter hopen with hready | ⟨hnone, hcount⟩
    · exact Or.inl hready
    · have hpatience := waiter.patience_le true
      simp only [Waiter.detour, if_true] at hpatience hcount
      exact Or.inr ⟨hnone, by omega⟩
  · intro hflag
    have hsteady : now.Steady [] false := hflag
    exact hsteady.poll hsound hwaiter hopen
  · intro more hflag
    have hsteady : now.Steady more false := hflag
    rcases hsteady.pollOver hsound hwaiter hopen with hpending | ⟨hnone, hcount⟩
    · exact Or.inl hpending
    · have hpatience := waiter.patience_le false
      simp only [Waiter.detour, Bool.false_eq_true, if_false] at hpatience hcount
      exact Or.inr ⟨hnone, by omega⟩

/-- Three waiters and a request. The first sleeps before the flag is raised, the second takes its
    ticket and the third comes and goes between the two steps of the request. -/
def raced : List Action :=
  [.wait, .stepWaiter 0, .stepWaiter 0, .wait, .request, .stepRequester 0, .stepWaiter 1, .wait,
    .stepWaiter 2, .stepWaiter 2, .stepRequester 0]

theorem requests_reach_waiters_raced :
    let now := initial.actAll raced
    let early := initial.actAll (raced.take 3)
    now.signal.waiters = [.asleep true, .ticketed true, .returned] ∧
    now.requesters = [.completed] ∧ now.signal.requested = true ∧
    .asleep false ∉ now.signal.waiters ∧ (now.signal.poll 0).1 = .ready ∧
    now.pollOver 0 [.stepWaiter 0, .stepWaiter 1, .stepWaiter 0, .stepWaiter 0] = some .ready ∧
    early.signal.waiters = [.asleep false] ∧ early.signal.requested = false ∧
    (early.signal.poll 0).1 = .pending ∧
    early.pollOver 0 [.request, .stepWaiter 0, .stepWaiter 0, .stepWaiter 0, .stepWaiter 0,
      .stepWaiter 0] = some .pending := by
  intro now early
  obtain ⟨hreturned, hwoken, hopen⟩ := requests_reach_waiters raced
  obtain ⟨hready, -, -⟩ := hopen 0 (.asleep true) (by decide) (by decide)
  obtain ⟨hpoll, hover⟩ := hready (by decide)
  obtain ⟨-, -, hearly⟩ := requests_reach_waiters (raced.take 3)
  obtain ⟨-, hpending, hbefore⟩ := hearly 0 (.asleep false) (by decide) (by decide)
  refine ⟨by decide, by decide, hreturned (by decide), hwoken (by decide), hpoll, ?_, by decide,
    by decide, hpending (by decide), ?_⟩
  · exact (hover _).resolve_right (fun hshort => absurd hshort.2 (by decide))
  · exact (hbefore _ (by decide)).resolve_right (fun hshort => absurd hshort.2 (by decide))

end Signalling

end Provision
