/-
  Provision.Proofs.Http.FormArrival

  Forms that arrive on a connection and update fields in place. While a body is read, four things
  can end it: a byte that is refused, the end of the stream, its failure, and the last byte of the
  body. The first of them decides (`Form.updateFrom_agrees`): if the whole body is delivered the
  fields become what the body in memory makes of them, and if it is cut short they stay as they are,
  even where the part that came is a good body of its own.
-/
import Provision.Proofs.Http.Form
import Provision.Proofs.Http.Stream

namespace Provision.Http

/-! ## The byte that is refused -/

namespace FormReader

variable {fields : List Field} {reader : FormReader}

/-- All bytes before this place are taken, and the one at it is refused for this reason. -/
def RefusesAt (fields : List Field) (reader : FormReader) (bytes : Bytes) (index : Nat)
    (e : FormError) : Prop :=
  ∃ reader' b, reader.pushAll fields (bytes.take index) = .ok reader' ∧
    bytes[index]? = some b ∧ reader'.push fields b = .error e

theorem not_refusesAt_nil (index : Nat) (e : FormError) :
    ¬ reader.RefusesAt fields [] index e := by
  rintro ⟨_, _, _, hbyte, _⟩
  cases hbyte

theorem refusesAt_zero_iff {b : UInt8} {bytes : Bytes} {e : FormError} :
    reader.RefusesAt fields (b :: bytes) 0 e ↔ reader.push fields b = .error e := by
  constructor
  · rintro ⟨reader', b', hall, hbyte, hpush⟩
    cases hall
    cases hbyte
    exact hpush
  · intro hpush
    exact ⟨reader, b, rfl, rfl, hpush⟩

theorem refusesAt_succ_iff {b : UInt8} {bytes : Bytes} {index : Nat} {e : FormError} :
    reader.RefusesAt fields (b :: bytes) (index + 1) e ↔
      ∃ next, reader.push fields b = .ok next ∧ next.RefusesAt fields bytes index e := by
  unfold RefusesAt
  rw [List.take_succ_cons, List.getElem?_cons_succ, pushAll]
  cases reader.push fields b with
  | error e' => simp
  | ok next => simp

/-- Either all bytes are taken, or those up to the one that is refused. -/
theorem pushAll_cases (fields : List Field) (reader : FormReader) (bytes : Bytes) :
    (∃ reader', reader.pushAll fields bytes = .ok reader' ∧ reader.taken fields bytes = bytes ∧
        ∀ index e, ¬ reader.RefusesAt fields bytes index e) ∨
      ∃ index e, reader.pushAll fields bytes = .error e ∧
        reader.taken fields bytes = bytes.take (index + 1) ∧
        ∀ index' e', reader.RefusesAt fields bytes index' e' ↔ index' = index ∧ e' = e := by
  -- the bytes are given one by one, and the place of a refusal is counted from where they start
  induction bytes generalizing reader with
  | nil => exact Or.inl ⟨reader, rfl, rfl, not_refusesAt_nil⟩
  | cons b bytes ih =>
    unfold pushAll taken
    cases hpush : reader.push fields b with
    | error e =>
      refine Or.inr ⟨0, e, rfl, rfl, fun index' e' => ?_⟩
      cases index' with
      | zero => simp [refusesAt_zero_iff, hpush, eq_comm]
      | succ before => simp [refusesAt_succ_iff, hpush]
    | ok next =>
      -- what is refused later is refused by the next reader
      have hzero : ∀ e', ¬ reader.RefusesAt fields (b :: bytes) 0 e' := by
        simp [refusesAt_zero_iff, hpush]
      have hsucc : ∀ before e', reader.RefusesAt fields (b :: bytes) (before + 1) e' ↔
          next.RefusesAt fields bytes before e' := by
        simp [refusesAt_succ_iff, hpush]
      rcases ih next with ⟨reader', hall, htaken, hnone⟩ | ⟨index, e, hall, htaken, honly⟩
      · refine Or.inl ⟨reader', hall, congrArg _ htaken, fun index' e' => ?_⟩
        cases index' with
        | zero => exact hzero e'
        | succ before => exact fun h => hnone before e' ((hsucc before e').mp h)
      · refine Or.inr ⟨index + 1, e, hall, congrArg _ htaken, fun index' e' => ?_⟩
        cases index' with
        | zero => simp [hzero]
        | succ before => rw [hsucc, honly, Nat.add_right_cancel_iff]

theorem not_refusesAt_of_pushAll_eq_ok {reader' : FormReader} {bytes : Bytes}
    (h : reader.pushAll fields bytes = .ok reader') (index : Nat) (e : FormError) :
    ¬ reader.RefusesAt fields bytes index e := by
  rcases pushAll_cases fields reader bytes with ⟨-, -, -, hnone⟩ | ⟨-, e', hall, -⟩
  · exact hnone index e
  · rw [h] at hall
    cases hall

end FormReader

/-! ## Updating from a connection -/

namespace Form

/-- The byte of a body at this place is the first that is refused, for this reason. -/
def RefusedAt (fields : List Field) (body : Bytes) (index : Nat) (e : FormError) : Prop :=
  (FormReader.initial fields).RefusesAt fields body index e

/-- Reads a body of `count` bytes from a connection into fields that are updated in place. A step
    that fails ends the update with the fields as that step left them. -/
def updateFrom (count : Nat) : EStateM FormError (List Field × Source) Unit := do
  let (fields, source) ← get
  let (found, rest) := (FormReader.initial fields).read fields count source
  set (fields, rest)
  let found ← liftExcept found
  set (commit found fields, rest)

/-- Only the last step of an update changes the fields, and it does not fail. -/
theorem run_updateFrom (fields : List Field) (count : Nat) (source : Source) :
    (updateFrom count).run (fields, source) =
      match read fields count source with
      | (.error e, rest) => .error e (fields, rest)
      | (.ok filled, rest) => .ok () (filled, rest) := by
  unfold updateFrom read
  simp only [EStateM.run_bind, EStateM.run_get]
  rcases (FormReader.initial fields).read fields count source with ⟨_ | found, rest⟩
  · rfl
  · rfl

variable {fields : List Field} {count : Nat} {source : Source}

/-- A body that is delivered is read as it is parsed. -/
theorem exists_read_of_delivered (h : count ≤ source.delivered.length) :
    ∃ rest, read fields count source = (parse fields (source.delivered.take count), rest) ∧
      source.Yields ((FormReader.initial fields).taken fields (source.delivered.take count))
        rest := by
  obtain ⟨rest, hread, -, hyields⟩ := (FormReader.initial fields).read_spec fields count source
  refine ⟨rest, ?_, hyields (Or.inl h)⟩
  unfold read parse
  rw [hread]
  cases (FormReader.initial fields).pushAll fields (source.delivered.take count) with
  | error e => rfl
  | ok reader =>
    simp only [FormReader.verdict, if_pos h]
    cases reader.finish fields with
    | error e => rfl
    | ok found => rfl

/-- A byte that is refused decides, whether or not the rest of the body is delivered. -/
theorem exists_read_of_refused {e : FormError}
    (h : (FormReader.initial fields).pushAll fields (source.delivered.take count) = .error e) :
    ∃ rest, read fields count source = (.error e, rest) ∧
      source.Yields ((FormReader.initial fields).taken fields (source.delivered.take count))
        rest := by
  obtain ⟨rest, hread, -, hyields⟩ := (FormReader.initial fields).read_spec fields count source
  refine ⟨rest, ?_, hyields (Or.inr ⟨e, h⟩)⟩
  unfold read
  rw [hread, h]
  rfl

/-- A body that is cut short is not ended, whatever the part that came. -/
theorem exists_read_of_short {reader : FormReader} (hshort : source.delivered.length < count)
    (h : (FormReader.initial fields).pushAll fields (source.delivered.take count) = .ok reader) :
    ∃ rest, read fields count source = (.error (source.ending.elim .peerClosed .io), rest) ∧
      source.unread =
        (FormReader.initial fields).taken fields (source.delivered.take count) ++ rest.unread := by
  obtain ⟨rest, hread, hunread, -⟩ := (FormReader.initial fields).read_spec fields count source
  refine ⟨rest, ?_, hunread⟩
  unfold read
  rw [hread, h]
  simp only [FormReader.verdict, if_neg (Nat.not_le_of_lt hshort)]

/-- A body that is delivered updates the fields as the one in memory does. -/
theorem updateFrom_of_delivered (fields : List Field) (h : count ≤ source.delivered.length) :
    let body := source.delivered.take count
    ∃ rest,
      (updateFrom count).run (fields, source) =
        (match (update body).run fields with
          | .ok () filled => .ok () (filled, rest)
          | .error e kept => .error e (kept, rest)) ∧
      ((∃ filled, (update body).run fields = .ok () filled) → source.Yields body rest) ∧
      ((∀ index e, ¬ RefusedAt fields body index e) → source.Yields body rest) ∧
      ∀ index e, RefusedAt fields body index e → source.Yields (body.take (index + 1)) rest := by
  intro body
  obtain ⟨rest, hread, hyields⟩ :
      ∃ rest, read fields count source = (parse fields body, rest) ∧
        source.Yields ((FormReader.initial fields).taken fields body) rest :=
    exists_read_of_delivered h
  rw [run_updateFrom, run_update, hread]
  refine ⟨rest, ?_, ?_⟩
  · cases parse fields body with
    | error e => rfl
    | ok filled => rfl
  · rcases FormReader.pushAll_cases fields (FormReader.initial fields) body with
      ⟨reader, hall, htaken, hnone⟩ | ⟨index, e, hall, htaken, honly⟩
    · replace hyields : source.Yields body rest := htaken ▸ hyields
      exact ⟨fun _ => hyields, fun _ => hyields, fun index e h => absurd h (hnone index e)⟩
    · replace hyields : source.Yields (body.take (index + 1)) rest := htaken ▸ hyields
      have hparse : parse fields body = .error e := by
        unfold parse
        rw [hall]
      rw [hparse]
      refine ⟨?_, fun hnone => ?_, fun index' e' hrefused => ?_⟩
      · rintro ⟨filled, hfilled⟩
        cases hfilled
      · exact absurd ((honly index e).mpr ⟨rfl, rfl⟩) (hnone index e)
      · obtain ⟨rfl, rfl⟩ := (honly index' e').mp hrefused
        exact hyields

/-- A body that is cut short leaves the fields as they are. -/
theorem updateFrom_of_short (fields : List Field) (h : source.delivered.length < count) :
    ∃ rest,
      (∀ index e, RefusedAt fields source.delivered index e →
        (updateFrom count).run (fields, source) = .error e (fields, rest) ∧
        source.Yields (source.delivered.take (index + 1)) rest) ∧
      ((∀ index e, ¬ RefusedAt fields source.delivered index e) →
        (updateFrom count).run (fields, source) =
          .error (source.ending.elim .peerClosed .io) (fields, rest) ∧
        source.unread = source.delivered ++ rest.unread) := by
  have hbody : source.delivered.take count = source.delivered :=
    List.take_of_length_le (Nat.le_of_lt h)
  rcases FormReader.pushAll_cases fields (FormReader.initial fields) source.delivered with
    ⟨reader, hall, htaken, hnone⟩ | ⟨index, e, hall, htaken, honly⟩
  · -- whether these bytes would be a body of their own is not asked
    obtain ⟨rest, hread, hunread⟩ := exists_read_of_short h (hbody.symm ▸ hall)
    rw [hbody, htaken] at hunread
    refine ⟨rest, fun index e hrefused => absurd hrefused (hnone index e), fun _ => ?_⟩
    rw [run_updateFrom, hread]
    exact ⟨rfl, hunread⟩
  · obtain ⟨rest, hread, hyields⟩ := exists_read_of_refused (hbody.symm ▸ hall)
    rw [hbody, htaken] at hyields
    refine ⟨rest, fun index' e' hrefused => ?_, fun hnone => ?_⟩
    · obtain ⟨rfl, rfl⟩ := (honly index' e').mp hrefused
      rw [run_updateFrom, hread]
      exact ⟨rfl, hyields⟩
    · exact absurd ((honly index e).mpr ⟨rfl, rfl⟩) (hnone index e)

/-- Fields are updated from a connection as they are from the bytes that it delivers. A body that is
    delivered as a whole is taken up to its end, unless one of its bytes is refused, which then is
    the last that is taken. One that is cut short leaves the fields as they are, and what is
    reported is the first byte that is refused, or else the ending of the connection. -/
theorem updateFrom_agrees (fields : List Field) (count : Nat) (source : Source) :
    let body := source.delivered.take count
    (count ≤ source.delivered.length →
      ∃ rest,
        (updateFrom count).run (fields, source) =
          (match (update body).run fields with
            | .ok () filled => .ok () (filled, rest)
            | .error e kept => .error e (kept, rest)) ∧
        ((∃ filled, (update body).run fields = .ok () filled) → source.Yields body rest) ∧
        ((∀ index e, ¬ RefusedAt fields body index e) → source.Yields body rest) ∧
        ∀ index e, RefusedAt fields body index e →
          source.Yields (body.take (index + 1)) rest) ∧
    (source.delivered.length < count →
      ∃ rest,
        (∀ index e, RefusedAt fields source.delivered index e →
          (updateFrom count).run (fields, source) = .error e (fields, rest) ∧
          source.Yields (source.delivered.take (index + 1)) rest) ∧
        ((∀ index e, ¬ RefusedAt fields source.delivered index e) →
          (updateFrom count).run (fields, source) =
            .error (source.ending.elim .peerClosed .io) (fields, rest) ∧
          source.unread = source.delivered ++ rest.unread)) :=
  ⟨updateFrom_of_delivered fields, updateFrom_of_short fields⟩

/-- The form of a browser in two pieces and with other bytes behind it, its first line alone, which
    is a good body of its own, and a form with a name that no field has. -/
theorem updateFrom_agrees_browser :
    let fields : List Field := [⟨"ssid", 4, ""⟩, ⟨"password", 8, ""⟩]
    let filled : List Field := [⟨"ssid", 4, "home"⟩, ⟨"password", 8, "12345678"⟩]
    let source : Source := [.data (utf8 "ssid=home\r\npass"), .failure .interrupted,
      .data (utf8 "word=12345678GET ")]
    let short : Source := [.data (utf8 "ssid=home\r\n"), .failure .wouldBlock]
    let wrong : Source := [.data (utf8 "ssid=home\r\nname=x")]
    28 ≤ source.delivered.length ∧
    (update (source.delivered.take 28)).run fields = .ok () filled ∧
    (∃ rest, (updateFrom 28).run (fields, source) = .ok () (filled, rest) ∧
      source.Yields (source.delivered.take 28) rest) ∧
    short.delivered.length < 28 ∧
    (∃ read, (update short.delivered).run fields = .ok () read) ∧
    (∀ index e, ¬ RefusedAt fields short.delivered index e) ∧
    (∃ rest, (updateFrom 28).run (fields, short) = .error .peerClosed (fields, rest) ∧
      short.unread = short.delivered ++ rest.unread) ∧
    wrong.delivered.length < 28 ∧
    RefusedAt fields wrong.delivered 15 (.unknownField "name") ∧
    ∃ rest, (updateFrom 28).run (fields, wrong) =
        .error (.unknownField "name") (fields, rest) ∧
      wrong.Yields (wrong.delivered.take 16) rest := by
  intro fields filled source short wrong
  have hlong : 28 ≤ source.delivered.length := by decide +kernel
  have hshort : short.delivered.length < 28 := by decide +kernel
  have hwrong : wrong.delivered.length < 28 := by decide +kernel
  have hupdate : (update (source.delivered.take 28)).run fields = .ok () filled := by
    rw [run_update, show parse fields (source.delivered.take 28) = .ok filled by decide +kernel]
  have hfirst : (FormReader.initial fields).pushAll fields short.delivered =
      .ok ⟨.name [], [some (utf8 "home"), none]⟩ := by decide +kernel
  have hgood := FormReader.not_refusesAt_of_pushAll_eq_ok hfirst
  have hrefused : RefusedAt fields wrong.delivered 15 (.unknownField "name") :=
    ⟨⟨.name (utf8 "name"), [some (utf8 "home"), none]⟩, Byte.equals, by decide +kernel,
      by decide +kernel, by decide +kernel⟩
  obtain ⟨rest, hrun, hyields, -⟩ := (updateFrom_agrees fields 28 source).1 hlong
  obtain ⟨cut, -, hpeer⟩ := (updateFrom_agrees fields 28 short).2 hshort
  obtain ⟨left, hreason, -⟩ := (updateFrom_agrees fields 28 wrong).2 hwrong
  refine ⟨hlong, hupdate, ⟨rest, ?_, hyields ⟨filled, hupdate⟩⟩, hshort, ?_, hgood,
    ⟨cut, hpeer hgood⟩, hwrong, hrefused, left, hreason _ _ hrefused⟩
  · rw [hrun, hupdate]
  · refine ⟨[⟨"ssid", 4, "home"⟩, ⟨"password", 8, ""⟩], ?_⟩
    rw [run_update, show parse fields short.delivered =
      .ok [⟨"ssid", 4, "home"⟩, ⟨"password", 8, ""⟩] by decide +kernel]

end Form

end Provision.Http
