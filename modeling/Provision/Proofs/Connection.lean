/-
  Provision.Proofs.Connection

  The end of a connection, whatever its pages do. Answering a request only writes, so a
  connection on which a request was answered or refused is shut down once, by its last call;
  one on which bytes of the header are missing is left alone and not even shut down
  (`Site.serve_closes`). A shutdown that fails changes nothing else (`Site.run_serve_withFault`).
-/
import Provision.Proofs.Page.Sent
import Provision.Proofs.Page.Unseen
import Provision.Proofs.Wire.Sink

namespace Provision

open Http

/-! ## Calls that write -/

namespace Sink

/-- Nothing but writes was done to one sink to get the other. -/
def WritesOnly (before after : Sink) : Prop :=
  ∃ writes, after.calls = before.calls ++ writes ∧ SinkCall.shutdown ∉ writes

theorem WritesOnly.refl (sink : Sink) : WritesOnly sink sink := ⟨[], by simp, by simp⟩

theorem WritesOnly.trans {before between after : Sink} (h : WritesOnly before between)
    (h' : WritesOnly between after) : WritesOnly before after := by
  obtain ⟨writes, hwrites, hno⟩ := h
  obtain ⟨more, hmore, hno'⟩ := h'
  refine ⟨writes ++ more, ?_, ?_⟩
  · rw [hmore, hwrites, List.append_assoc]
  · rw [List.mem_append, not_or]
    exact ⟨hno, hno'⟩

theorem writesOnly_of_write {before after : Sink} {bytes : Bytes} {result : Except IoError Nat}
    (h : before.write bytes = (result, after)) : WritesOnly before after := by
  cases result with
  | ok count => exact ⟨[.write bytes count], (calls_of_write_ok h).1, by simp⟩
  | error e => exact ⟨[.failure bytes e], calls_of_write_error h, by simp⟩

theorem writesOnly_sendAll (chunk : Nat) (data : Bytes) (sink : Sink) :
    WritesOnly sink (sink.sendAll chunk data).2 := by
  fun_induction sendAll chunk data sink with
  | case1 sink => exact .refl sink
  | case2 sink b bs sink' hwrite => exact writesOnly_of_write hwrite
  | case3 sink b bs n sink' hwrite ih => exact (writesOnly_of_write hwrite).trans ih
  | case4 sink b bs e sink' hwrite he ih => exact (writesOnly_of_write hwrite).trans ih
  | case5 sink b bs e sink' hwrite he => exact writesOnly_of_write hwrite

theorem writesOnly_sendEach (chunk : Nat) (pieces : List Bytes) (sink : Sink) :
    WritesOnly sink (sink.sendEach chunk pieces) := by
  induction pieces generalizing sink with
  | nil => exact .refl sink
  | cons piece pieces ih => exact (writesOnly_sendAll chunk piece sink).trans (ih _)

end Sink

/-! ## Answering only writes -/

/-- No answer was due: the peer sent no whole header. -/
def Disposition.Unanswered (disposition : Disposition) : Prop :=
  disposition = .peerClosed ∨ disposition = .failed

namespace Site

variable (site : Site)

/-- A request has come to its end: with an answer, for which only writes were made. -/
structure Answers (before : Sink) (ended : Disposition × Visit) : Prop where
  answered : ¬ ended.1.Unanswered
  writes : before.WritesOnly ended.2.transport.sink

theorem answers_sendFixed {disposition : Disposition} (h : ¬ disposition.Unanswered)
    (status : Status) (visit : Visit) :
    Answers visit.transport.sink (disposition, visit.sendFixed site.limits status) :=
  ⟨h, Sink.writesOnly_sendAll _ _ _⟩

theorem answers_conclude {before : Sink} {visit : Visit}
    (h : before.WritesOnly visit.transport.sink) (result : Except HandlerError Unit) :
    Answers before (site.conclude result visit) := by
  unfold conclude
  split
  · exact ⟨by simp [Disposition.Unanswered], h⟩
  · refine ⟨by simp [Disposition.Unanswered], ?_⟩
    split_ifs
    · exact h
    · exact h.trans (Sink.writesOnly_sendAll _ _ _)

theorem answers_answerWith {depth : Nat} {request : Request} {page : Option Page}
    {device device' : Device} {visit : Visit} {ended : Disposition × Visit}
    (h : device.run (site.answerWith depth request page visit) = (some ended, device')) :
    Answers visit.transport.sink ended := by
  rw [run_answerWith] at h
  split at h
  · obtain ⟨hended, -⟩ := Prod.mk.inj h
    rw [← Option.some.inj hended]
    exact site.answers_sendFixed (by simp [Disposition.Unanswered]) _ visit
  · rename_i page _
    rcases hrun : device.run (site.visitPage depth request page visit) with
      ⟨_ | ⟨result, after⟩, device₁⟩
    · rw [hrun] at h
      cases (Prod.mk.inj h).1
    · rw [hrun] at h
      obtain ⟨hended, -⟩ := Prod.mk.inj h
      -- what the handler has sent, nested pages included, and then the answer to its failure
      obtain ⟨pieces, hruns⟩ : ∃ pieces, Handler.Runs site request page
          (page.handler request.method) visit device pieces ((result, after), device₁) :=
        Handler.exists_runs_iff.mpr ⟨depth, hrun⟩
      have hwrites := Sink.writesOnly_sendEach site.limits.sendChunk pieces visit.transport.sink
      rw [← hruns.hasSent.sink] at hwrites
      rw [← Option.some.inj hended]
      exact site.answers_conclude hwrites result

theorem answers_dispatch {depth : Nat} {request : Request} {device device' : Device}
    {visit : Visit} {ended : Disposition × Visit}
    (h : device.run (site.dispatch depth request visit) = (some ended, device')) :
    Answers visit.transport.sink ended := by
  unfold dispatch at h
  split at h
  · obtain ⟨hended, -⟩ := Prod.mk.inj h
    rw [← Option.some.inj hended]
    exact site.answers_sendFixed (by simp [Disposition.Unanswered]) _ visit
  · split at h
    · exact site.answers_answerWith h
    · exact site.answers_answerWith h
  · exact site.answers_answerWith h

end Site

/-! ## A shutdown that fails -/

/-- The connection with another failure that a shutdown will report, or none. -/
def Transport.withFault (transport : Transport) (fault : Option IoError) : Transport :=
  { transport with shutdownFault := fault }

/-- The visit with another failure of the shutdown to come. -/
def Visit.withFault (visit : Visit) (fault : Option IoError) : Visit :=
  { visit with transport := visit.transport.withFault fault }

/-- Nothing before the shutdown sees how that will end. -/
theorem Visit.unseen_withFault (fault : Option IoError) :
    Unseen fun visit => visit.withFault fault :=
  ⟨fun _ => rfl, fun _ _ _ => rfl, fun _ _ _ => rfl⟩

/-- The outcome with another failure that the shutdown has reported. -/
def Outcome.withFault (outcome : Outcome) (fault : Option IoError) : Outcome :=
  { outcome with transport := outcome.transport.withFault fault }

variable (fault : Option IoError)

/-- A handler does not see how the shutdown will end, as long as the home page does not. -/
theorem Handler.perform_withFault (site : Site) (request : Request) (page : Page)
    {showHome : Visit → VisitProgram}
    (hhome : ∀ visit, showHome (visit.withFault fault) =
      (showHome visit).changed (·.withFault fault)) (handler : Handler) (visit : Visit) :
    handler.perform site request page showHome (visit.withFault fault) =
      (handler.perform site request page showHome visit).changed (·.withFault fault) :=
  perform_of_unseen site request page (Visit.unseen_withFault fault) (fun _ _ _ => rfl)
    (fun _ => hhome) (Program.onlyAsks_anything handler) visit

namespace Site

variable (site : Site)

theorem showHome_withFault (request : Request) (depth : Nat) (visit : Visit) :
    site.showHome request depth (visit.withFault fault) =
      (site.showHome request depth visit).changed (·.withFault fault) := by
  induction depth generalizing visit with
  | zero => rfl
  | succ depth ih =>
    have hrefuse := (Visit.unseen_withFault fault).refuseHome site.limits visit
    unfold showHome
    split
    · rw [hrefuse]
      rfl
    · split_ifs
      · exact Handler.perform_withFault fault site request _ ih _ visit
      · rw [hrefuse]
        rfl

theorem answerWith_withFault (depth : Nat) (request : Request) (page : Option Page)
    (visit : Visit) :
    site.answerWith depth request page (visit.withFault fault) =
      (site.answerWith depth request page visit).changed (·.withFault fault) := by
  unfold answerWith
  split
  · rfl
  · rename_i page _
    have hvisit := Handler.perform_withFault fault site request page
      (site.showHome_withFault fault request depth) (page.handler request.method) visit
    rw [visitPage, visitPage, hvisit]
    simp only [DeviceProgram.changed, Program.bindSome_assoc, Program.bindSome_done_some,
      site.conclude_of_unseen (Visit.unseen_withFault fault)]

theorem dispatch_withFault (depth : Nat) (request : Request) (visit : Visit) :
    site.dispatch depth request (visit.withFault fault) =
      (site.dispatch depth request visit).changed (·.withFault fault) := by
  unfold dispatch
  split
  · rfl
  · split
    · simp only [answerWith_withFault, DeviceProgram.changed, Program.bindSome_ask]
    · exact site.answerWith_withFault fault depth request _ visit
  · exact site.answerWith_withFault fault depth request _ visit

theorem reject_withFault (e : ParseError) (transport : Transport) :
    site.reject e (transport.withFault fault) = (site.reject e transport).withFault fault := by
  cases e <;> rfl

/-- How the shutdown ends makes no difference to anything else on the connection. -/
theorem run_serve_withFault (device : Device) (depth : Nat) (transport : Transport) :
    device.run (site.serve depth (transport.withFault fault)) =
      let (ended, device') := device.run (site.serve depth transport)
      (ended.map fun outcome => outcome.withFault fault, device') := by
  rw [run_serve, run_serve]
  rw [show (transport.withFault fault).source = transport.source from rfl]
  rcases readRequest site.limits transport.source with ⟨e | request, rest⟩
  · exact congrArg (some ·, device) (site.reject_withFault fault e { transport with source := rest })
  · have hdispatch := site.dispatch_withFault fault depth request
      (.start { transport with source := rest })
    have hvisit : Visit.start { transport.withFault fault with source := rest } =
        (Visit.start { transport with source := rest }).withFault fault := rfl
    simp only [hvisit, hdispatch, DeviceProgram.run_changed]
    rcases device.run (site.dispatch depth request (.start { transport with source := rest }))
      with ⟨_ | _, _⟩ <;> rfl

end Site

/-! ## The last call -/

/-- The calls made on a connection that ended with a disposition: writes and then one
    shutdown, or no call at all where no answer was due. -/
def Disposition.Closes (disposition : Disposition) (made : List SinkCall) : Prop :=
  match disposition with
  | .peerClosed | .failed => made = []
  | _ => ∃ writes, SinkCall.shutdown ∉ writes ∧ made = writes ++ [.shutdown]

namespace Site

variable (site : Site)

/-- A connection is left unanswered where bytes are missing, not where they are refused. -/
theorem unanswered_reject_iff (e : ParseError) (transport : Transport) :
    (site.reject e transport).disposition.Unanswered ↔ e.isMalformed = false := by
  cases e <;> simp [reject, close, ParseError.isMalformed, Disposition.Unanswered]

theorem Answers.closes {before : Sink} {disposition : Disposition} {visit : Visit}
    (h : Answers before (disposition, visit)) :
    ∃ made, (close disposition visit).transport.sink.calls = before.calls ++ made ∧
      disposition.Closes made := by
  obtain ⟨hanswered, writes, hwrites, hno⟩ := h
  refine ⟨writes ++ [.shutdown], ?_, ?_⟩
  · rw [← List.append_assoc, ← hwrites]
    rfl
  · cases disposition with
    | peerClosed => exact absurd (Or.inl rfl) hanswered
    | failed => exact absurd (Or.inr rfl) hanswered
    | _ => exact ⟨writes, hno, rfl⟩

theorem closes_reject (e : ParseError) (transport : Transport) :
    ∃ made, (site.reject e transport).transport.sink.calls = transport.sink.calls ++ made ∧
      (site.reject e transport).disposition.Closes made := by
  have hdue : ¬ Disposition.badRequest.Unanswered := by simp [Disposition.Unanswered]
  have hrefused := (site.answers_sendFixed hdue .badRequest (.start transport)).closes
  cases e with
  | peerClosed => exact ⟨[], by simp [reject], rfl⟩
  | io error => exact ⟨[], by simp [reject, ParseError.isMalformed], rfl⟩
  | incomplete => exact ⟨[], by simp [reject, ParseError.isMalformed], rfl⟩
  | _ => exact hrefused

/-- A connection is shut down once, by its last call, whether that fails or not, unless
    bytes of the header are missing: then no call is made on it at all. -/
theorem serve_closes (device : Device) (depth : Nat) (transport : Transport) :
    let (ended, after) := device.run (site.serve depth transport)
    (∀ outcome, ended = some outcome →
      (∃ made, outcome.transport.sink.calls = transport.sink.calls ++ made ∧
        outcome.disposition.Closes made) ∧
      (outcome.disposition.Unanswered ↔
        ∃ e, (readRequest site.limits transport.source).1 = .error e ∧ e.isMalformed = false)) ∧
    ((∃ e, (readRequest site.limits transport.source).1 = .error e) → ended.isSome = true) ∧
    ∀ fault, device.run (site.serve depth (transport.withFault fault)) =
      (ended.map fun outcome => outcome.withFault fault, after) := by
  have hfault := fun fault => site.run_serve_withFault fault device depth transport
  revert hfault
  rw [run_serve]
  rcases readRequest site.limits transport.source with ⟨e | request, rest⟩
  · intro hfault
    have hunanswered := site.unanswered_reject_iff e { transport with source := rest }
    refine ⟨?_, fun _ => rfl, hfault⟩
    rintro outcome hended
    rw [← Option.some.inj hended]
    exact ⟨site.closes_reject e { transport with source := rest }, by simpa using hunanswered⟩
  · intro hfault
    refine ⟨?_, fun hread => by simp at hread, hfault⟩
    intro outcome hended
    obtain ⟨⟨disposition, visit⟩, hdispatch, rfl⟩ := Option.map_eq_some_iff.mp hended
    have hanswers := site.answers_dispatch (Prod.ext hdispatch rfl)
    -- a request came, so there is an answer to it
    exact ⟨hanswers.closes, iff_of_false hanswers.answered (by simp)⟩

/-- A connection is not shut down when the peer ends it at once, nor when it breaks inside the
    header. -/
theorem serve_not_closed :
    let site : Site := ⟨.empty "Setup" 2, .standard⟩
    let device : Device := ⟨.withWifiDomain, ⟨[], none, true, false⟩, .initial⟩
    let ended := (device.run (site.serve 0 (.ofBytes []))).1
    let broken := (device.run (site.serve 0
      ⟨[.data (utf8 "GET / HT"), .failure .connectionReset], .unlimited, none⟩)).1
    let shutdowns (outcome : Outcome) := (outcome.disposition, outcome.transport.sink.shutdowns)
    ended.map shutdowns = some (.peerClosed, 0) ∧ broken.map shutdowns = some (.failed, 0) := by
  decide +kernel

end Site

end Provision
