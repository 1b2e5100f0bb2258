/-
  Provision.Proofs.Wire.Sending

  The calls that sending a buffer makes, whatever the writer answers. `Sending` are the states that
  the loop gets into: the calls so far, and the bytes that none of them took. `Sent` are its ends.
  From them follows what each call offers and what becomes of each answer (`SentInOrder`,
  `EndsAs`), for a writer that is known to its last answer and for one that goes on for ever
  (`sendAll_in_order`).
-/
import Provision.Proofs.Wire.Sink

namespace Provision

/-! ## Calls and answers -/

theorem takenOf_le (limit : Option Nat) (offered : Nat) : takenOf limit offered ≤ offered := by
  cases limit with
  | none => exact Nat.le_refl _
  | some most => exact Nat.min_le_right most offered

namespace WriteAnswer

/-- A failure after which the same call is made again. -/
def isTransient : WriteAnswer → Bool
  | accept _ => false
  | failure e => e.isTransient

/-- The call that offers some bytes and is answered so. -/
def call (answer : WriteAnswer) (offered : Bytes) : SinkCall :=
  match answer with
  | accept limit => .write offered (takenOf limit offered.length)
  | failure e => .failure offered e

end WriteAnswer

namespace SinkCall

/-- The bytes that a call offers. -/
def offered : SinkCall → Bytes
  | write bytes _ | failure bytes _ => bytes
  | shutdown => []

def isTransient : SinkCall → Bool
  | failure _ e => e.isTransient
  | write .. | shutdown => false

/-- A call that takes nothing ends the sending as refused, one that fails for good with its
    failure. -/
def BreaksWith : SinkCall → IoError → Prop
  | write _ taken, e => taken = 0 ∧ e = .writeZero
  | failure _ error, e => error.isTransient = false ∧ e = error
  | shutdown, _ => False

variable {call : SinkCall}

theorem BreaksWith.breaks {e : IoError} (h : call.BreaksWith e) : call.Breaks := by
  cases call with
  | write | failure => exact h.1
  | shutdown => exact h.elim

theorem Breaks.exists_breaksWith (h : call.Breaks) : ∃ e, call.BreaksWith e := by
  cases call with
  | write => exact ⟨.writeZero, h, rfl⟩
  | failure offered e => exact ⟨e, h, rfl⟩
  | shutdown => exact h.elim

theorem BreaksWith.unique {e e' : IoError} (h : call.BreaksWith e) (h' : call.BreaksWith e') :
    e = e' := by
  cases call with
  | write | failure => rw [h.2, h'.2]
  | shutdown => exact h.elim

theorem accepted_of_isTransient (h : call.isTransient = true) : call.accepted = [] := by
  cases call with
  | failure => rfl
  | write | shutdown => cases h

theorem not_breaks_of_isTransient (h : call.isTransient = true) : ¬ call.Breaks := by
  cases call with
  | failure offered e =>
    have htransient : e.isTransient = true := h
    simp [Breaks, htransient]
  | write | shutdown => cases h

theorem accepted_prefix_offered (call : SinkCall) : call.accepted <+: call.offered := by
  cases call with
  | write offered taken => exact List.take_prefix taken offered
  | failure | shutdown => exact List.nil_prefix

end SinkCall

namespace WriteAnswer

variable (answer : WriteAnswer) (bytes : Bytes)

@[simp] theorem offered_call : (answer.call bytes).offered = bytes := by
  cases answer <;> rfl

@[simp] theorem isTransient_call : (answer.call bytes).isTransient = answer.isTransient := by
  cases answer <;> rfl

/-- What a call takes is as long as it is answered. -/
theorem length_accepted_accept (limit : Option Nat) :
    ((accept limit).call bytes).accepted.length = takenOf limit bytes.length := by
  rw [call, SinkCall.accepted, List.length_take, Nat.min_eq_left (takenOf_le limit _)]

end WriteAnswer

/-- The bytes that calls put on the wire. -/
def acceptedBy (made : List SinkCall) : Bytes := made.flatMap SinkCall.accepted

theorem acceptedBy_concat (made : List SinkCall) (call : SinkCall) :
    acceptedBy (made ++ [call]) = acceptedBy made ++ call.accepted := by
  simp [acceptedBy]

namespace Sink

/-! ## The states of the loop -/

/-- The piece that the next call offers of what is left. -/
def piece (chunk : Nat) (rest : Bytes) : Bytes := rest.take (max chunk 1)

/-- The calls that were made to send some data, and what is left of it. -/
inductive Sending (chunk : Nat) (data : Bytes) : List SinkCall → Bytes → Prop
  | start : Sending chunk data [] data
  /-- A call took some of what it was offered. -/
  | took {made : List SinkCall} {rest : Bytes} {n : Nat} (before : Sending chunk data made rest)
      (pending : rest ≠ []) (positive : 0 < n) (within : n ≤ (piece chunk rest).length) :
      Sending chunk data (made ++ [.write (piece chunk rest) n]) (rest.drop n)
  /-- A call failed in passing and will be made again. -/
  | again {made : List SinkCall} {rest : Bytes} {e : IoError}
      (before : Sending chunk data made rest) (pending : rest ≠ [])
      (transient : e.isTransient = true) :
      Sending chunk data (made ++ [.failure (piece chunk rest) e]) rest

/-- The calls that were made to send some data, and how this ended. -/
inductive Sent (chunk : Nat) (data : Bytes) : List SinkCall → Except IoError Unit → Prop
  | whole {made : List SinkCall} (before : Sending chunk data made []) :
      Sent chunk data made (.ok ())
  /-- The last call broke off. -/
  | broken {made : List SinkCall} {rest : Bytes} {call : SinkCall} {e : IoError}
      (before : Sending chunk data made rest) (pending : rest ≠ [])
      (offers : call.offered = piece chunk rest) (breaks : call.BreaksWith e) :
      Sent chunk data (made ++ [call]) (.error e)

variable {chunk : Nat} {data rest : Bytes} {made : List SinkCall} {result : Except IoError Unit}

namespace Sending

theorem split (h : Sending chunk data made rest) : data = acceptedBy made ++ rest := by
  induction h with
  | start => rfl
  | @took made rest n before pending positive within ih =>
    have hpiece : (piece chunk rest).take n = rest.take n := by
      rw [piece, List.length_take] at within
      rw [piece, List.take_take, Nat.min_eq_left (by omega)]
    rw [acceptedBy_concat, SinkCall.accepted, hpiece, List.append_assoc, List.take_append_drop]
    exact ih
  | again before pending transient ih =>
    rw [acceptedBy_concat, SinkCall.accepted, List.append_nil]
    exact ih

theorem unbroken (h : Sending chunk data made rest) : Unbroken made := by
  induction h with
  | start => exact unbroken_nil
  | took before pending positive within ih =>
    exact unbroken_append.mpr ⟨ih, unbroken_singleton.mpr (Nat.ne_of_gt positive)⟩
  | again before pending transient ih =>
    refine unbroken_append.mpr ⟨ih, unbroken_singleton.mpr ?_⟩
    exact SinkCall.not_breaks_of_isTransient transient

/-- Each call takes a byte or fails in passing. -/
theorem length_le (h : Sending chunk data made rest) :
    made.length ≤ (acceptedBy made).length + made.countP SinkCall.isTransient := by
  induction h with
  | start => exact Nat.zero_le _
  | took before pending positive within ih =>
    simp only [acceptedBy_concat, SinkCall.accepted, List.length_append, List.length_singleton,
      List.length_take, List.countP_append]
    omega
  | @again made rest e before pending transient ih =>
    have hcount : [SinkCall.failure (piece chunk rest) e].countP SinkCall.isTransient = 1 := by
      simp [SinkCall.isTransient, transient]
    rw [List.length_append, List.length_singleton, List.countP_append, hcount, acceptedBy_concat,
      SinkCall.accepted, List.append_nil]
    omega

/-- A call is only made again where something is left to offer. -/
theorem rest_ne_nil {call : SinkCall} (h : Sending chunk data (made ++ [call]) rest)
    (htransient : call.isTransient = true) : rest ≠ [] := by
  generalize hcalls : made ++ [call] = calls at h
  cases h with
  | start => simp at hcalls
  | took before pending positive within =>
    obtain ⟨-, rfl⟩ := List.append_singleton_inj.mp hcalls
    cases htransient
  | again before pending transient => exact pending

/-- Where there is nothing to send, no call is made. -/
theorem eq_nil_of_data_eq_nil (h : Sending chunk data made rest) (hdata : data = []) :
    made = [] := by
  have hnothing : ∀ {made rest}, Sending chunk data made rest → rest = [] := by
    intro made rest h
    have hsplit := h.split
    rw [hdata] at hsplit
    exact (List.append_eq_nil_iff.mp hsplit.symm).2
  cases h with
  | start => rfl
  | took before pending positive within => exact absurd (hnothing before) pending
  | again before pending transient => exact absurd (hnothing before) pending

/-- A call that does not break off leads on to the next state. -/
theorem next (h : Sending chunk data made rest) (hpending : rest ≠ []) {answer : WriteAnswer}
    (hgoes : ¬ (answer.call (piece chunk rest)).Breaks) :
    Sending chunk data (made ++ [answer.call (piece chunk rest)])
      (rest.drop (answer.call (piece chunk rest)).accepted.length) := by
  cases answer with
  | accept limit =>
    rw [WriteAnswer.length_accepted_accept]
    exact h.took hpending (Nat.pos_of_ne_zero hgoes) (takenOf_le limit _)
  | failure e =>
    have htransient : e.isTransient = true := by
      simpa [WriteAnswer.call, SinkCall.Breaks] using hgoes
    exact h.again hpending htransient

end Sending

/-! ## What every call offers -/

/-- Where the piece ends that is offered behind the first `written` bytes of a buffer. The sum stops
    at the greatest index there is. -/
def pieceEnd (most chunk length written : Nat) : Nat :=
  min length (min (written + max chunk 1) most)

/-- A call that is made after others offers the next piece of what they left. -/
structure OffersNext (chunk : Nat) (data : Bytes) (earlier : List SinkCall) (call : SinkCall) :
    Prop where
  /-- What was taken so far is the front of the data, and not all of it. -/
  starts : acceptedBy earlier <+: data
  pending : (acceptedBy earlier).length < data.length
  offered : call.offered = piece chunk (data.drop (acceptedBy earlier).length)
  size : call.offered.length = min (max chunk 1) (data.length - (acceptedBy earlier).length)
  /-- It takes no more than it is offered. -/
  within : call.accepted.length ≤ call.offered.length
  /-- In indices that stop somewhere, as long as the buffer does not reach further: the piece lies
      between two of them, and so does what is taken of it. -/
  indexed : ∀ most, data.length ≤ most →
    let finish := pieceEnd most chunk data.length (acceptedBy earlier).length
    call.offered = (data.take finish).drop (acceptedBy earlier).length ∧
      finish ≤ data.length ∧ (acceptedBy earlier).length + call.accepted.length ≤ finish

theorem Sending.offersNext (h : Sending chunk data made rest) (hpending : rest ≠ [])
    {call : SinkCall} (hcall : call.offered = piece chunk rest) :
    OffersNext chunk data made call := by
  have hrest : data.drop (acceptedBy made).length = rest := by
    rw [h.split, List.drop_left]
  have hlength := congrArg List.length h.split
  rw [List.length_append] at hlength
  have hpos := List.length_pos_iff.mpr hpending
  have hsize : call.offered.length = min (max chunk 1) rest.length := by
    rw [hcall, piece, List.length_take]
  have hwithin := call.accepted_prefix_offered.length_le
  refine ⟨⟨rest, h.split.symm⟩, by omega, by rw [hrest, hcall], by omega, hwithin, ?_⟩
  intro most hmost finish
  -- the sum stops at no less than the length of the buffer, so it stops nothing short
  have hfinish : finish = (acceptedBy made).length + min (max chunk 1) rest.length := by
    simp only [finish, pieceEnd]
    omega
  refine ⟨?_, by omega, by omega⟩
  rw [hfinish, List.drop_take, hrest, Nat.add_sub_cancel_left, hcall, piece,
    ← List.take_eq_take_min]

/-- With what a next call takes, it is still the front of the data that was taken. -/
theorem OffersNext.starts_concat {call : SinkCall} (h : OffersNext chunk data made call) :
    acceptedBy (made ++ [call]) <+: data := by
  obtain ⟨rest, rfl⟩ := h.starts
  have hoffered := h.offered
  rw [List.drop_left] at hoffered
  have hprefix := call.accepted_prefix_offered
  rw [hoffered] at hprefix
  rw [acceptedBy_concat, List.prefix_append_right_inj]
  exact hprefix.trans (List.take_prefix _ rest)

/-- Calls that offer the data piece by piece, each behind what those before it took. -/
structure SentInOrder (chunk : Nat) (data : Bytes) (made : List SinkCall) : Prop where
  /-- The bytes taken so far are at every time the front of the data. -/
  starts : ∀ earlier, earlier <+: made → acceptedBy earlier <+: data
  next : ∀ earlier call later, made = earlier ++ call :: later → OffersNext chunk data earlier call
  /-- A call that failed in passing is followed by the same offer. -/
  repeats : ∀ earlier call again later, made = earlier ++ call :: again :: later →
    call.isTransient = true → again.offered = call.offered
  /-- No call is made after one that broke off. -/
  lasts : ∀ earlier call later, made = earlier ++ call :: later → call.Breaks → later = []

/-- How sending some data ends, read off the calls that were made. -/
structure EndsAs (data : Bytes) (made : List SinkCall) (result : Except IoError Unit) : Prop where
  ok_iff : result = .ok () ↔ acceptedBy made = data
  error_iff : ∀ e, result = .error e ↔ ∃ call ∈ made, call.BreaksWith e
  /-- A call that failed in passing is not the last. -/
  goes : ∀ earlier call, made = earlier ++ [call] → call.isTransient = false
  length_le : made.length ≤ data.length + made.countP SinkCall.isTransient + 1
  empty : data = [] → made = []

namespace SentInOrder

theorem nil (chunk : Nat) (data : Bytes) : SentInOrder chunk data [] := by
  refine ⟨fun earlier hearlier => ?_, ?_, ?_, ?_⟩
  · rw [List.prefix_nil.mp hearlier]
    exact List.nil_prefix
  · intro earlier call later h
    simp at h
  · intro earlier call again later h
    simp at h
  · intro earlier call later h
    simp at h

/-- Of the calls that end with a certain one, each is that one or comes before it. -/
theorem eq_or_exists_of_concat_eq {call last : SinkCall} {earlier later : List SinkCall}
    (h : made ++ [last] = earlier ++ call :: later) :
    (earlier = made ∧ call = last ∧ later = []) ∨
      ∃ later', later = later' ++ [last] ∧ made = earlier ++ call :: later' := by
  rcases List.eq_nil_or_concat later with rfl | ⟨later', last', rfl⟩
  · obtain ⟨rfl, rfl⟩ := List.append_singleton_inj.mp h
    exact Or.inl ⟨rfl, rfl, rfl⟩
  · rw [List.concat_eq_append, ← List.cons_append, ← List.append_assoc] at h
    obtain ⟨rfl, rfl⟩ := List.append_singleton_inj.mp h
    exact Or.inr ⟨later', List.concat_eq_append, rfl⟩

/-- One more call, which offers what the calls before it left. -/
theorem concat {call : SinkCall} (h : SentInOrder chunk data made) (hunbroken : Unbroken made)
    (hnext : OffersNext chunk data made call) : SentInOrder chunk data (made ++ [call]) := by
  have hoffers : ∀ earlier next later, made ++ [call] = earlier ++ next :: later →
      OffersNext chunk data earlier next := by
    intro earlier next later hmade
    rcases eq_or_exists_of_concat_eq hmade with ⟨rfl, rfl, -⟩ | ⟨later', -, hmade'⟩
    · exact hnext
    · exact h.next earlier next later' hmade'
  refine ⟨?_, hoffers, ?_, ?_⟩
  · intro earlier hearlier
    rcases List.prefix_concat_iff.mp hearlier with rfl | hearlier'
    · exact hnext.starts_concat
    · exact h.starts earlier hearlier'
  · intro earlier first again later hmade htransient
    have hfirst := hoffers earlier first (again :: later) hmade
    have hagain := hoffers (earlier ++ [first]) again later (by rw [hmade]; simp)
    -- nothing was taken in between, so the next piece is the same
    rw [hagain.offered, acceptedBy_concat, SinkCall.accepted_of_isTransient htransient,
      List.append_nil, hfirst.offered]
  · intro earlier next later hmade hbreaks
    rcases eq_or_exists_of_concat_eq hmade with ⟨-, -, rfl⟩ | ⟨later', -, hmade'⟩
    · rfl
    · exact absurd hbreaks (hunbroken next (by simp [hmade']))

end SentInOrder

theorem Sending.sentInOrder (h : Sending chunk data made rest) : SentInOrder chunk data made := by
  induction h with
  | start => exact .nil chunk data
  | took before pending positive within ih =>
    exact ih.concat before.unbroken (before.offersNext pending rfl)
  | again before pending transient ih =>
    exact ih.concat before.unbroken (before.offersNext pending rfl)

namespace Sent

theorem sentInOrder (h : Sent chunk data made result) : SentInOrder chunk data made := by
  cases h with
  | whole before => exact before.sentInOrder
  | broken before pending offers breaks =>
    exact before.sentInOrder.concat before.unbroken (before.offersNext pending offers)

theorem endsAs_of_whole (h : Sending chunk data made []) : EndsAs data made (.ok ()) := by
  have hsplit := h.split
  rw [List.append_nil] at hsplit
  refine ⟨by simp [hsplit.symm], fun e => ?_, ?_, ?_, h.eq_nil_of_data_eq_nil⟩
  · constructor
    · intro he
      cases he
    · rintro ⟨call, hcall, hbreaks⟩
      exact absurd hbreaks.breaks (h.unbroken call hcall)
  · rintro earlier call rfl
    refine Bool.eq_false_iff.mpr fun htransient => ?_
    exact h.rest_ne_nil htransient rfl
  · have hlength := h.length_le
    rw [← hsplit] at hlength
    omega

theorem endsAs_of_broken {call : SinkCall} {e : IoError} (h : Sending chunk data made rest)
    (hpending : rest ≠ []) (hbreaks : call.BreaksWith e) :
    EndsAs data (made ++ [call]) (.error e) := by
  have hsplit := congrArg List.length h.split
  rw [List.length_append] at hsplit
  have hpos := List.length_pos_iff.mpr hpending
  refine ⟨?_, fun e' => ?_, ?_, ?_, ?_⟩
  · refine iff_of_false (by simp) fun haccepted => ?_
    -- the last call took nothing, so the bytes that were left are left
    rw [acceptedBy_concat, hbreaks.breaks.accepted_eq_nil, List.append_nil] at haccepted
    rw [haccepted] at hsplit
    omega
  · constructor
    · intro he
      obtain rfl := Except.error.inj he
      exact ⟨call, by simp, hbreaks⟩
    · rintro ⟨other, hother, hbreaks'⟩
      rcases List.mem_append.mp hother with hearlier | hlast
      · exact absurd hbreaks'.breaks (h.unbroken other hearlier)
      · rw [List.mem_singleton.mp hlast] at hbreaks'
        rw [hbreaks.unique hbreaks']
  · intro earlier last hmade
    obtain ⟨rfl, rfl⟩ := List.append_singleton_inj.mp hmade
    refine Bool.eq_false_iff.mpr fun htransient => ?_
    exact SinkCall.not_breaks_of_isTransient htransient hbreaks.breaks
  · have hlength := h.length_le
    rw [List.length_append, List.length_singleton, List.countP_append]
    omega
  · rintro rfl
    rw [List.length_nil] at hsplit
    omega

theorem endsAs (h : Sent chunk data made result) : EndsAs data made result := by
  cases h with
  | whole before => exact endsAs_of_whole before
  | broken before pending offers breaks => exact endsAs_of_broken before pending breaks

end Sent

/-! ## Writers known to their last answer -/

/-- From every state the loop comes to one of its ends. -/
theorem Sending.sendAll (h : Sending chunk data made rest) (sink : Sink) :
    ∃ later, (sink.sendAll chunk rest).2.calls = sink.calls ++ later ∧
      Sent chunk data (made ++ later) (sink.sendAll chunk rest).1 := by
  fun_induction Sink.sendAll chunk rest sink generalizing made with
  | case1 sink => exact ⟨[], by simp, by simpa using Sent.whole h⟩
  | case2 sink b bs sink' hwrite =>
    obtain ⟨hcalls, -⟩ := calls_of_write_ok hwrite
    exact ⟨_, hcalls, .broken h (by simp) rfl ⟨rfl, rfl⟩⟩
  | case3 sink b bs n sink' hwrite ih =>
    obtain ⟨hcalls, hcount⟩ := calls_of_write_ok hwrite
    obtain ⟨later, hlater, hsent⟩ := ih (h.took (by simp) (Nat.succ_pos n) hcount)
    exact ⟨.write (piece chunk (b :: bs)) (n + 1) :: later, by simp [hlater, hcalls, piece],
      by simpa using hsent⟩
  | case4 sink b bs e sink' hwrite he ih =>
    have hcalls := calls_of_write_error hwrite
    obtain ⟨later, hlater, hsent⟩ := ih (h.again (by simp) he)
    exact ⟨.failure (piece chunk (b :: bs)) e :: later, by simp [hlater, hcalls, piece],
      by simpa using hsent⟩
  | case5 sink b bs e sink' hwrite he =>
    have hcalls := calls_of_write_error hwrite
    exact ⟨_, hcalls, .broken h (by simp) rfl ⟨by simpa using he, rfl⟩⟩

/-! ## Writers that go on for ever

What a writer answers may depend on all that it was offered. To the loop it is the answers that it
gives in turn, and of those at every time only the first ones. -/

/-- The first answers of a writer. -/
def firstAnswers (answers : Nat → WriteAnswer) (count : Nat) : List WriteAnswer :=
  (List.range count).map answers

/-- Sending comes to its end within some answers, whatever would be answered next. -/
structure EndsWithin (chunk : Nat) (data : Bytes) (answers : List WriteAnswer)
    (made : List SinkCall) (result : Except IoError Unit) : Prop where
  /-- The calls are answered in turn, and there is an answer for each. -/
  answered : made = List.zipWith WriteAnswer.call answers (made.map SinkCall.offered)
  ends : ∀ more ceiling calls, Sink.sendAll chunk data ⟨answers ++ more, ceiling, calls⟩ =
    (result, ⟨answers.drop made.length ++ more, ceiling, calls ++ made⟩)

/-- After some answers there are bytes left, and the sending goes on with them. -/
structure GoesOn (chunk : Nat) (data : Bytes) (answers : List WriteAnswer) (made : List SinkCall)
    (rest : Bytes) : Prop where
  answered : made = List.zipWith WriteAnswer.call answers (made.map SinkCall.offered)
  used : made.length = answers.length
  pending : rest ≠ []
  goes : ∀ more ceiling calls, Sink.sendAll chunk data ⟨answers ++ more, ceiling, calls⟩ =
    Sink.sendAll chunk rest ⟨more, ceiling, calls ++ made⟩

section Answer

variable {answer : WriteAnswer} (script : List WriteAnswer) (ceiling : Option Nat)
  (calls : List SinkCall)

/-- One round of the loop, by the answer to its call. -/
theorem sendAll_cons (b : UInt8) (bs : Bytes) (sink : Sink) :
    Sink.sendAll chunk (b :: bs) sink =
      match sink.write (piece chunk (b :: bs)) with
      | (.ok 0, sink') => (.error .writeZero, sink')
      | (.ok (n + 1), sink') => Sink.sendAll chunk (bs.drop n) sink'
      | (.error e, sink') =>
        if e.isTransient then Sink.sendAll chunk (b :: bs) sink' else (.error e, sink') := by
  rw [Sink.sendAll]
  split <;> next hwrite => simp [piece, hwrite]

theorem write_accept (limit : Option Nat) (bytes : Bytes) :
    (⟨.accept limit :: script, ceiling, calls⟩ : Sink).write bytes =
      (.ok (takenOf limit bytes.length),
        ⟨script, ceiling, calls ++ [(WriteAnswer.accept limit).call bytes]⟩) := rfl

theorem write_failure (e : IoError) (bytes : Bytes) :
    (⟨.failure e :: script, ceiling, calls⟩ : Sink).write bytes =
      (.error e, ⟨script, ceiling, calls ++ [(WriteAnswer.failure e).call bytes]⟩) := rfl

/-- An answer that breaks off ends the sending. -/
theorem sendAll_of_breaksWith (hpending : rest ≠ []) {e : IoError}
    (hbreaks : (answer.call (piece chunk rest)).BreaksWith e) :
    Sink.sendAll chunk rest ⟨answer :: script, ceiling, calls⟩ =
      (.error e, ⟨script, ceiling, calls ++ [answer.call (piece chunk rest)]⟩) := by
  obtain ⟨b, bs, rfl⟩ := List.exists_cons_of_ne_nil hpending
  cases answer with
  | accept limit =>
    obtain ⟨hrefused, rfl⟩ := hbreaks
    rw [sendAll_cons, write_accept, hrefused]
  | failure error =>
    obtain ⟨hhard, rfl⟩ := hbreaks
    rw [sendAll_cons, write_failure]
    simp [hhard]

/-- An answer that does not leads on to what is left behind it. -/
theorem sendAll_of_not_breaks (hpending : rest ≠ [])
    (hgoes : ¬ (answer.call (piece chunk rest)).Breaks) :
    Sink.sendAll chunk rest ⟨answer :: script, ceiling, calls⟩ =
      Sink.sendAll chunk (rest.drop (answer.call (piece chunk rest)).accepted.length)
        ⟨script, ceiling, calls ++ [answer.call (piece chunk rest)]⟩ := by
  obtain ⟨b, bs, rfl⟩ := List.exists_cons_of_ne_nil hpending
  cases answer with
  | accept limit =>
    obtain ⟨n, htaken⟩ := Nat.exists_eq_succ_of_ne_zero hgoes
    rw [sendAll_cons, write_accept, WriteAnswer.length_accepted_accept, htaken]
    rfl
  | failure error =>
    have htransient : error.isTransient = true := by
      simpa [WriteAnswer.call, SinkCall.Breaks] using hgoes
    rw [sendAll_cons, write_failure]
    simp [htransient, WriteAnswer.call, SinkCall.accepted]

end Answer

variable {answer : WriteAnswer} {answers : List WriteAnswer} {later : List SinkCall}

theorem EndsWithin.nil : EndsWithin chunk [] answers [] (.ok ()) := by
  refine ⟨by simp, fun more ceiling calls => ?_⟩
  rw [Sink.sendAll]
  simp

/-- An answer that breaks off is the last that is asked for. -/
theorem EndsWithin.single (hpending : rest ≠ []) {e : IoError}
    (hbreaks : (answer.call (piece chunk rest)).BreaksWith e) :
    EndsWithin chunk rest (answer :: answers) [answer.call (piece chunk rest)] (.error e) := by
  refine ⟨by simp, fun more ceiling calls => ?_⟩
  exact sendAll_of_breaksWith (answers ++ more) ceiling calls hpending hbreaks

theorem EndsWithin.cons (hpending : rest ≠ [])
    (hgoes : ¬ (answer.call (piece chunk rest)).Breaks)
    (h : EndsWithin chunk (rest.drop (answer.call (piece chunk rest)).accepted.length) answers later
      result) :
    EndsWithin chunk rest (answer :: answers) (answer.call (piece chunk rest) :: later) result := by
  refine ⟨?_, fun more ceiling calls => ?_⟩
  · rw [List.map_cons, List.zipWith_cons_cons, WriteAnswer.offered_call, ← h.answered]
  · rw [List.cons_append, sendAll_of_not_breaks _ ceiling calls hpending hgoes, h.ends]
    simp

theorem GoesOn.nil (hpending : rest ≠ []) : GoesOn chunk rest [] [] rest := by
  refine ⟨rfl, rfl, hpending, fun more ceiling calls => ?_⟩
  rw [List.nil_append, List.append_nil]

theorem GoesOn.cons {left : Bytes} (hpending : rest ≠ [])
    (hgoes : ¬ (answer.call (piece chunk rest)).Breaks)
    (h : GoesOn chunk (rest.drop (answer.call (piece chunk rest)).accepted.length) answers later
      left) :
    GoesOn chunk rest (answer :: answers) (answer.call (piece chunk rest) :: later) left := by
  refine ⟨?_, by simp [h.used], h.pending, fun more ceiling calls => ?_⟩
  · rw [List.map_cons, List.zipWith_cons_cons, WriteAnswer.offered_call, ← h.answered]
  · rw [List.cons_append, sendAll_of_not_breaks _ ceiling calls hpending hgoes, h.goes]
    simp

/-- From every state some answers lead to an end or leave bytes to send. -/
theorem Sending.answered (h : Sending chunk data made rest) (answers : List WriteAnswer) :
    (∃ later result, Sent chunk data (made ++ later) result ∧
      EndsWithin chunk rest answers later result) ∨
    ∃ later left, Sending chunk data (made ++ later) left ∧
      GoesOn chunk rest answers later left := by
  induction answers generalizing made rest with
  | nil =>
    by_cases hpending : rest = []
    · subst hpending
      exact Or.inl ⟨[], .ok (), by simpa using Sent.whole h, .nil⟩
    · exact Or.inr ⟨[], rest, by simpa using h, .nil hpending⟩
  | cons answer answers ih =>
    by_cases hpending : rest = []
    · subst hpending
      exact Or.inl ⟨[], .ok (), by simpa using Sent.whole h, .nil⟩
    · by_cases hbreaks : (answer.call (piece chunk rest)).Breaks
      · obtain ⟨e, hbreaksWith⟩ := hbreaks.exists_breaksWith
        have hsent := Sent.broken h hpending (answer.offered_call _) hbreaksWith
        exact Or.inl ⟨_, .error e, hsent, .single hpending hbreaksWith⟩
      · rcases ih (h.next hpending hbreaks) with ⟨later, result, hsent, hends⟩ |
          ⟨later, left, hsending, hgoes⟩
        · exact Or.inl ⟨_, result, by simpa using hsent, hends.cons hpending hbreaks⟩
        · exact Or.inr ⟨_, left, by simpa using hsending, hgoes.cons hpending hbreaks⟩

/-- As many calls fail in passing as answers are failures in passing. -/
theorem GoesOn.countP_isTransient {left : Bytes} (h : GoesOn chunk rest answers later left) :
    later.countP SinkCall.isTransient = answers.countP WriteAnswer.isTransient := by
  have hzip : ∀ (answers : List WriteAnswer) (offers : List Bytes), offers.length = answers.length →
      (List.zipWith WriteAnswer.call answers offers).countP SinkCall.isTransient =
        answers.countP WriteAnswer.isTransient := by
    intro answers
    induction answers with
    | nil => simp
    | cons answer answers ih =>
      intro offers hlength
      cases offers with
      | nil => cases hlength
      | cons offer offers =>
        have hrest := ih offers (Nat.succ.inj hlength)
        simp [List.countP_cons, hrest]
  rw [h.answered]
  exact hzip answers _ (by rw [List.length_map, h.used])

/-- Sending goes on no longer than there are bytes to take and failures to pass. -/
theorem GoesOn.length_lt (h : Sending chunk data later rest)
    (hgoes : GoesOn chunk data answers later rest) :
    answers.length < data.length + answers.countP WriteAnswer.isTransient := by
  have hcalls := h.length_le
  rw [hgoes.used, hgoes.countP_isTransient] at hcalls
  have hlength := congrArg List.length h.split
  rw [List.length_append] at hlength
  have hpos := List.length_pos_iff.mpr hgoes.pending
  omega

theorem length_firstAnswers (answers : Nat → WriteAnswer) (count : Nat) :
    (firstAnswers answers count).length = count := by
  simp [firstAnswers]

/-- A buffer is sent in order, without a byte lost or repeated, and the calls tell how this ended.
    So it is with a writer that goes on for ever, after each of its answers; and where only so many
    of these are failures in passing, the sending comes to its end. -/
theorem sendAll_in_order (chunk : Nat) (data : Bytes) :
    (∀ sink : Sink, ∃ made, (sink.sendAll chunk data).2.calls = sink.calls ++ made ∧
      SentInOrder chunk data made ∧ EndsAs data made (sink.sendAll chunk data).1) ∧
    ∀ answers : Nat → WriteAnswer,
      (∀ count,
        (∃ made result, EndsWithin chunk data (firstAnswers answers count) made result ∧
          SentInOrder chunk data made ∧ EndsAs data made result) ∨
        ∃ made rest, GoesOn chunk data (firstAnswers answers count) made rest ∧
          SentInOrder chunk data made ∧ Unbroken made ∧ acceptedBy made ++ rest = data) ∧
      ∀ transient, (∀ count,
          (firstAnswers answers count).countP WriteAnswer.isTransient ≤ transient) →
        ∃ made result,
          EndsWithin chunk data (firstAnswers answers (data.length + transient + 1)) made result ∧
            SentInOrder chunk data made ∧ EndsAs data made result := by
  refine ⟨fun sink => ?_, fun answers => ⟨fun count => ?_, fun transient hcount => ?_⟩⟩
  · obtain ⟨made, hcalls, hsent⟩ := Sending.start.sendAll sink
    exact ⟨made, hcalls, hsent.sentInOrder, hsent.endsAs⟩
  · rcases Sending.start.answered (firstAnswers answers count) with ⟨made, result, hsent, hends⟩ |
      ⟨made, rest, hsending, hgoes⟩
    · exact Or.inl ⟨made, result, hends, hsent.sentInOrder, hsent.endsAs⟩
    · exact Or.inr ⟨made, rest, hgoes, hsending.sentInOrder, hsending.unbroken,
        hsending.split.symm⟩
  · rcases Sending.start.answered (firstAnswers answers (data.length + transient + 1)) with
      ⟨made, result, hsent, hends⟩ | ⟨made, rest, hsending, hgoes⟩
    · exact ⟨made, result, hends, hsent.sentInOrder, hsent.endsAs⟩
    · have hlength := hgoes.length_lt hsending
      have hfew := hcount (data.length + transient + 1)
      rw [length_firstAnswers] at hlength
      omega

/-- A writer that is interrupted once and then takes byte after byte. -/
def interruptedOnce : Nat → WriteAnswer
  | 0 => .failure .interrupted
  | _ + 1 => .accept (some 1)

theorem sendAll_in_order_interruptedOnce :
    (∀ count, (firstAnswers interruptedOnce count).countP WriteAnswer.isTransient ≤ 1) ∧
      ∃ made result, EndsWithin 0 [104, 105] (firstAnswers interruptedOnce 4) made result ∧
        SentInOrder 0 [104, 105] made ∧ EndsAs [104, 105] made result := by
  have hcount : ∀ count,
      (firstAnswers interruptedOnce count).countP WriteAnswer.isTransient ≤ 1 := by
    intro count
    cases count with
    | zero => decide
    | succ count =>
      have htail : ((List.range count).map (interruptedOnce ∘ Nat.succ)).countP
          WriteAnswer.isTransient = 0 := by
        simp [List.countP_eq_zero, interruptedOnce, WriteAnswer.isTransient]
      rw [firstAnswers, List.range_succ_eq_map, List.map_cons, List.map_map, List.countP_cons,
        htail]
      decide
  exact ⟨hcount, ((sendAll_in_order 0 [104, 105]).2 interruptedOnce).2 1 hcount⟩

end Sink

end Provision
