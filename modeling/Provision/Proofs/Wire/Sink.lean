/-
  Provision.Proofs.Wire.Sink

  What becomes of data that is sent. `Transmits` relates data to the calls made to send
  it: the bytes they put on the wire are a prefix of the data, all of it unless a call
  broke off, and no byte is offered after such a call. `sendAll` sends so, and data sent
  one after the other is sent as a whole.
-/
import Provision.Wire.Sink

namespace Provision

namespace SinkCall

/-- A call after which nothing more is sent: it failed for good, or it took no byte. -/
def Breaks : SinkCall → Prop
  | write _ taken => taken = 0
  | failure _ e => e.isTransient = false
  | shutdown => False

theorem Breaks.accepted_eq_nil {call : SinkCall} (h : call.Breaks) : call.accepted = [] := by
  cases call with
  | write offered taken =>
    have htaken : taken = 0 := h
    simp [accepted, htaken]
  | failure offered e => rfl
  | shutdown => exact h.elim

end SinkCall

/-- No call broke off. -/
def Unbroken (made : List SinkCall) : Prop := ∀ call ∈ made, ¬ call.Breaks

/-- The calls send the data: all of it, or a prefix if one of them broke off. -/
structure Transmits (data : Bytes) (made : List SinkCall) : Prop where
  /-- What was taken is a prefix of the data. -/
  starts : made.flatMap SinkCall.accepted <+: data
  /-- It is the whole of it if no call broke off. -/
  whole : Unbroken made → made.flatMap SinkCall.accepted = data
  /-- Nothing is offered after a call that broke off. -/
  last : made.Pairwise fun call later => call.Breaks → later.offer? = none

/-! ## Sending data in parts -/

theorem unbroken_append {made more : List SinkCall} :
    Unbroken (made ++ more) ↔ Unbroken made ∧ Unbroken more := List.forall_mem_append

theorem unbroken_nil : Unbroken [] := by simp [Unbroken]

theorem unbroken_singleton {call : SinkCall} : Unbroken [call] ↔ ¬ call.Breaks :=
  List.forall_mem_singleton

namespace Transmits

theorem nil : Transmits [] [] := ⟨List.prefix_rfl, fun _ => rfl, List.Pairwise.nil⟩

theorem single (call : SinkCall) : Transmits call.accepted [call] := by
  refine ⟨?_, fun _ => ?_, List.pairwise_singleton _ _⟩
  · simp
  · simp

/-- Data that was sent goes before data sent next. -/
theorem append {data more : Bytes} {made later : List SinkCall} (h : Transmits data made)
    (hwhole : Unbroken made) (h' : Transmits more later) :
    Transmits (data ++ more) (made ++ later) := by
  refine ⟨?_, fun hno => ?_, ?_⟩
  · rw [List.flatMap_append, h.whole hwhole, List.prefix_append_right_inj]
    exact h'.starts
  · rw [List.flatMap_append, h.whole hwhole, h'.whole (unbroken_append.mp hno).2]
  · rw [List.pairwise_append]
    -- no call before the later ones broke off, so there is nothing to ask of those
    exact ⟨h.last, h'.last, fun call hcall _ _ hbreaks => absurd hbreaks (hwhole call hcall)⟩

/-- Data that was broken off may have gone on. -/
theorem stop {data : Bytes} {made : List SinkCall} (h : Transmits data made)
    (hbroken : ¬ Unbroken made) (more : Bytes) : Transmits (data ++ more) made := by
  refine ⟨?_, fun hno => absurd hno hbroken, h.last⟩
  exact h.starts.trans (List.prefix_append data more)

/-- A call that breaks off leaves all of the data unsent. -/
theorem broken {call : SinkCall} (h : call.Breaks) (data : Bytes) : Transmits data [call] := by
  have hstop := (single call).stop (fun hno => unbroken_singleton.mp hno h) data
  rwa [h.accepted_eq_nil, List.nil_append] at hstop

/-- Shutting the stream down sends nothing. -/
theorem shutdown {data : Bytes} {made : List SinkCall} (h : Transmits data made) :
    Transmits data (made ++ [.shutdown]) := by
  have haccepted : (made ++ [SinkCall.shutdown]).flatMap SinkCall.accepted =
      made.flatMap SinkCall.accepted := by
    simp [SinkCall.accepted]
  refine ⟨?_, fun hno => ?_, ?_⟩
  · rw [haccepted]
    exact h.starts
  · rw [haccepted]
    exact h.whole (unbroken_append.mp hno).1
  · rw [List.pairwise_append]
    refine ⟨h.last, List.pairwise_singleton _ _, ?_⟩
    intro call _ later hlater _
    rw [List.mem_singleton.mp hlater]
    rfl

end Transmits

/-! ## Sending all of a buffer -/

namespace Sink

theorem calls_of_write_ok {sink sink' : Sink} {bytes : Bytes} {count : Nat}
    (h : sink.write bytes = (.ok count, sink')) :
    sink'.calls = sink.calls ++ [.write bytes count] ∧ count ≤ bytes.length := by
  have htaken : ∀ limit, takenOf limit bytes.length ≤ bytes.length := by
    intro limit
    cases limit with
    | none => exact Nat.le_refl _
    | some most => exact Nat.min_le_right most bytes.length
  unfold write at h
  split at h
  · obtain ⟨hcount, rfl⟩ := Prod.mk.inj h
    obtain rfl := Except.ok.inj hcount
    exact ⟨rfl, htaken _⟩
  · obtain ⟨hcount, rfl⟩ := Prod.mk.inj h
    obtain rfl := Except.ok.inj hcount
    exact ⟨rfl, htaken _⟩
  · cases h

theorem calls_of_write_error {sink sink' : Sink} {bytes : Bytes} {e : IoError}
    (h : sink.write bytes = (.error e, sink')) :
    sink'.calls = sink.calls ++ [.failure bytes e] := by
  unfold write at h
  split at h
  · cases h
  · cases h
  · obtain ⟨he, rfl⟩ := Prod.mk.inj h
    obtain rfl := Except.error.inj he
    rfl

/-- What was done to one sink to get the other sends the data, to its end if `complete`. -/
def Sends (before : Sink) (data : Bytes) (after : Sink) (complete : Prop) : Prop :=
  ∃ made, after.calls = before.calls ++ made ∧ Transmits data made ∧ (complete ↔ Unbroken made)

theorem Sends.refl (sink : Sink) {complete : Prop} (h : complete) : Sends sink [] sink complete :=
  ⟨[], by simp, .nil, by simp [unbroken_nil, h]⟩

/-- One call more, after which the sending goes on. -/
theorem sends_single {before after : Sink} {call : SinkCall} {complete : Prop}
    (hcalls : after.calls = before.calls ++ [call]) (hgoes : ¬ call.Breaks) (h : complete) :
    Sends before call.accepted after complete := by
  refine ⟨[call], hcalls, .single call, ?_⟩
  rw [unbroken_singleton]
  exact ⟨fun _ => hgoes, fun _ => h⟩

/-- One call more, which breaks off. -/
theorem sends_broken {before after : Sink} {call : SinkCall} {complete : Prop}
    (hcalls : after.calls = before.calls ++ [call]) (hbreaks : call.Breaks) (h : ¬ complete)
    (data : Bytes) : Sends before data after complete := by
  refine ⟨[call], hcalls, .broken hbreaks data, ?_⟩
  rw [unbroken_singleton]
  exact ⟨fun hcomplete => absurd hcomplete h, fun hno => absurd hbreaks hno⟩

theorem Sends.append {before between after : Sink} {data more : Bytes} {sent complete : Prop}
    (h : Sends before data between sent) (hsent : sent)
    (h' : Sends between more after complete) : Sends before (data ++ more) after complete := by
  obtain ⟨made, hmade, htransmits, hresult⟩ := h
  obtain ⟨later, hlater, htransmits', hresult'⟩ := h'
  have hwhole := hresult.mp hsent
  refine ⟨made ++ later, ?_, htransmits.append hwhole htransmits', ?_⟩
  · rw [hlater, hmade, List.append_assoc]
  · rw [hresult', unbroken_append]
    exact ⟨fun hmore => ⟨hwhole, hmore⟩, And.right⟩

theorem Sends.stop {before after : Sink} {data : Bytes} {sent complete : Prop}
    (h : Sends before data after sent) (hsent : ¬ sent) (hcomplete : ¬ complete) (more : Bytes) :
    Sends before (data ++ more) after complete := by
  obtain ⟨made, hmade, htransmits, hresult⟩ := h
  have hbroken : ¬ Unbroken made := fun hno => hsent (hresult.mpr hno)
  refine ⟨made, hmade, htransmits.stop hbroken more, ?_⟩
  exact ⟨fun h => absurd h hcomplete, fun h => absurd h hbroken⟩

theorem Sends.shutdown {before after : Sink} {data : Bytes} {complete : Prop}
    (h : Sends before data after complete) : Sends before data after.shutdown complete := by
  obtain ⟨made, hmade, htransmits, hresult⟩ := h
  refine ⟨made ++ [.shutdown], ?_, htransmits.shutdown, ?_⟩
  · rw [Sink.shutdown, record, hmade, List.append_assoc]
  · rw [hresult, unbroken_append, unbroken_singleton]
    exact ⟨fun hno => ⟨hno, id⟩, And.left⟩

/-- `sendAll` sends the data, and succeeds exactly if it comes to its end. -/
theorem sendAll_spec (chunk : Nat) (data : Bytes) (sink : Sink) :
    Sends sink data (sink.sendAll chunk data).2 ((sink.sendAll chunk data).1 = .ok ()) := by
  fun_induction sendAll chunk data sink with
  | case1 sink => exact .refl sink rfl
  | case2 sink b bs sink' hwrite =>
    obtain ⟨hcalls, -⟩ := calls_of_write_ok hwrite
    exact sends_broken hcalls rfl (by simp) _
  | case3 sink b bs n sink' hwrite ih =>
    obtain ⟨hcalls, hcount⟩ := calls_of_write_ok hwrite
    -- what the call took is the front of the data, also where only a piece was offered
    have haccepted : ((b :: bs).take (max chunk 1)).take (n + 1) ++ bs.drop n = b :: bs := by
      rw [List.length_take] at hcount
      rw [List.take_take, Nat.min_eq_left (by omega), List.take_succ_cons, List.cons_append,
        List.take_append_drop]
    have hnext := (sends_single hcalls (Nat.succ_ne_zero n) trivial).append trivial ih
    rwa [SinkCall.accepted, haccepted] at hnext
  | case4 sink b bs e sink' hwrite he ih =>
    have hcalls := calls_of_write_error hwrite
    -- a transient failure takes nothing, and the same bytes are offered again
    have hgoes : ¬ (SinkCall.failure ((b :: bs).take (max chunk 1)) e).Breaks := by
      simp [SinkCall.Breaks, he]
    exact (sends_single hcalls hgoes trivial).append trivial ih
  | case5 sink b bs e sink' hwrite he =>
    have hcalls := calls_of_write_error hwrite
    have hbreaks : (SinkCall.failure ((b :: bs).take (max chunk 1)) e).Breaks := by
      simpa [SinkCall.Breaks] using he
    exact sends_broken hcalls hbreaks (by simp) _

end Sink

end Provision
