/-
  Provision.Proofs.Http.Stream

  Requests and forms that arrive on a connection. Reading them byte by byte gives what
  the readers of whole buffers make of the delivered bytes: a header is read from a
  source exactly if it stands at the front of what the source delivers, and a form
  exactly if enough bytes are delivered and they are a good body. Where bytes are missing,
  the ending of the source is reported. Either way the bytes that are taken depend on
  those delivered and on nothing else (`HeaderReader.read_spec`, `FormReader.read_spec`).
-/
import Provision.Proofs.Http.Header
import Provision.Proofs.Wire.Source
import Provision.Http.Form

namespace Provision.Http

/-! ## Headers -/

namespace HeaderReader

variable {limits : Limits}

/-- The bytes that a reader takes: those up to the one that ends the header or is refused. -/
def taken (limits : Limits) (reader : HeaderReader) : Bytes → Bytes
  | [] => []
  | b :: bytes =>
    match reader.push limits b with
    | .ok (false, reader') => b :: reader'.taken limits bytes
    | _ => [b]

theorem taken_prefix (reader : HeaderReader) (bytes : Bytes) :
    reader.taken limits bytes <+: bytes := by
  induction bytes generalizing reader with
  | nil => exact List.prefix_rfl
  | cons b bytes ih =>
    unfold taken
    split
    · exact (List.cons_prefix_cons).mpr ⟨rfl, ih _⟩
    · exact ⟨bytes, rfl⟩

/-- What a reader on a connection answers, where the delivered bytes are parsed so. -/
def verdict (ending : Option IoError) :
    Except ParseError (Request × Nat) → Except ParseError Request
  | .ok (request, _) => .ok request
  | .error .incomplete => .error (ending.elim .peerClosed .io)
  | .error e => .error e

/-- A byte is refused as malformed, never because bytes are missing. -/
theorem isMalformed_of_push_eq_error {reader : HeaderReader} {b : UInt8} {e : ParseError}
    (h : reader.push limits b = .error e) : e.isMalformed = true := by
  have htarget : ∀ method path e, RequestLine.pushTarget method path b = .error e →
      e.isMalformed = true := by
    intro method path e he
    unfold RequestLine.pushTarget at he
    split_ifs at he <;> cases he <;> rfl
  have hline : ∀ e, reader.line.push b = .error e → e.isMalformed = true := by
    intro e he
    unfold RequestLine.push at he
    split at he
    · split_ifs at he
      · exact htarget _ _ _ he
      · exact htarget _ _ _ he
    · exact htarget _ _ _ he
    · cases he
    · cases he
  have hlength : ∀ e, reader.length.push limits.maxBodyBytes b = .error e →
      e.isMalformed = true := by
    intro e he
    unfold LengthField.push DeclaredLength.push at he
    grind [ParseError.isMalformed]
  -- the bound is checked first, then the request line, then the length of the body
  unfold push at h
  split_ifs at h
  · cases h
    rfl
  · split at h
    · cases h
      exact hline _ ‹_›
    · split at h
      · cases h
        exact hlength _ ‹_›
      · cases h

theorem isMalformed_of_finish_eq_error {reader : HeaderReader} {e : ParseError}
    (h : reader.finish = .error e) : e.isMalformed = true := by
  unfold finish RequestLine.settle at h
  grind [ParseError.isMalformed]

theorem verdict_of_isMalformed (ending : Option IoError) {e : ParseError}
    (h : e.isMalformed = true) : verdict ending (.error e) = .error e := by
  cases e <;> first | rfl | cases h

theorem read_of_receive_some {source rest : Source} {b : UInt8} (reader : HeaderReader)
    (h : source.receive = (.ok (some b), rest)) :
    reader.read limits source =
      match reader.push limits b with
      | .error e => (.error e, rest)
      | .ok (false, reader') => reader'.read limits rest
      | .ok (true, reader') => (reader'.finish, rest) := by
  rw [read]
  split
  · simp_all
  · simp_all
  · rename_i b' rest' h'
    rw [h] at h'
    obtain ⟨hb, rfl⟩ := Prod.mk.inj h'
    cases hb
    rfl

/-- Where no byte is left, the ending of the source is reported. -/
theorem exists_read_of_delivered_nil (limits : Limits) {source : Source} (reader : HeaderReader)
    (h : source.delivered = []) :
    ∃ rest : Source, reader.read limits source =
      (.error (source.ending.elim .peerClosed .io), rest) ∧ source.unread = rest.unread := by
  obtain ⟨rest, hreceive, hunread⟩ := Source.exists_receive_of_delivered_nil h
  refine ⟨rest, ?_, hunread⟩
  rw [read]
  cases hending : source.ending <;> rw [hending] at hreceive <;> split <;> simp_all

/-- A header that arrives is read as the delivered bytes are parsed, and no byte is taken
    after the one that decides. -/
theorem read_spec (limits : Limits) (reader : HeaderReader) (source : Source) :
    ∃ rest : Source,
      reader.read limits source =
        (verdict source.ending (reader.parse limits source.delivered), rest) ∧
      source.unread = reader.taken limits source.delivered ++ rest.unread ∧
      (reader.parse limits source.delivered ≠ .error .incomplete →
        source.Yields (reader.taken limits source.delivered) rest) := by
  generalize hbytes : source.delivered = bytes
  induction bytes generalizing reader source with
  | nil =>
    obtain ⟨rest, hread, hunread⟩ := exists_read_of_delivered_nil limits reader hbytes
    exact ⟨rest, hread, hunread, fun hcomplete => absurd rfl hcomplete⟩
  | cons b bytes ih =>
    obtain ⟨rest, hreceive, hrest, hyields⟩ := Source.exists_receive_of_delivered_cons hbytes
    rw [read_of_receive_some reader hreceive]
    unfold parse taken
    cases hpush : reader.push limits b with
    | error e =>
      have hverdict := verdict_of_isMalformed source.ending (isMalformed_of_push_eq_error hpush)
      exact ⟨rest, by rw [hverdict], hyields.unread, fun _ => hyields⟩
    | ok pushed =>
      obtain ⟨ended, next⟩ := pushed
      cases ended with
      | false =>
        -- this byte belongs to the header, and the rest of the header to the next reader
        obtain ⟨after, hread, hunread, hgoes⟩ := ih next rest hrest
        refine ⟨after, by rw [hyields.ending]; exact hread, ?_, fun hcomplete => ?_⟩
        · rw [hyields.unread, hunread]
          rfl
        · exact hyields.trans (hgoes hcomplete)
      | true =>
        refine ⟨rest, ?_, hyields.unread, fun _ => hyields⟩
        dsimp only
        cases hfinish : next.finish with
        | error e => rw [verdict_of_isMalformed _ (isMalformed_of_finish_eq_error hfinish)]
        | ok request => rfl

/-- The bytes taken for a whole header are those before its end. -/
theorem length_taken_of_parse_eq_ok {reader : HeaderReader} {bytes : Bytes} {request : Request}
    {n : Nat} (h : reader.parse limits bytes = .ok (request, n)) :
    reader.consumed + (reader.taken limits bytes).length = n := by
  induction bytes generalizing reader with
  | nil => cases h
  | cons b bytes ih =>
    unfold parse at h
    unfold taken
    cases hpush : reader.push limits b with
    | error e => simp [hpush] at h
    | ok pushed =>
      obtain ⟨ended, next⟩ := pushed
      have hconsumed := (push_eq_ok_iff.mp hpush).2.1
      cases ended with
      | false =>
        -- the reader counts this byte as it takes it
        simp only [hpush] at h ⊢
        have hlength := ih h
        rw [List.length_cons]
        omega
      | true =>
        cases hfinish : next.finish with
        | error e => simp [hpush, hfinish] at h
        | ok request' =>
          simp only [hpush, hfinish, Except.ok.injEq, Prod.mk.injEq] at h ⊢
          rw [List.length_singleton]
          omega

end HeaderReader

/-- A request is read from a source exactly if it heads the delivered bytes. -/
theorem readRequest_eq_ok_iff {limits : Limits} {source : Source} {request : Request} :
    (readRequest limits source).1 = .ok request ↔
      ∃ n, parseHeader limits source.delivered = .ok (request, n) := by
  obtain ⟨rest, hread, -⟩ := HeaderReader.initial.read_spec limits source
  unfold readRequest parseHeader
  rw [hread]
  cases HeaderReader.initial.parse limits source.delivered with
  | error e => cases e <;> simp [HeaderReader.verdict]
  | ok parsed => simp [HeaderReader.verdict, Prod.ext_iff]

theorem taken_eq_take_of_parseHeader {limits : Limits} {bytes : Bytes} {request : Request} {n : Nat}
    (h : parseHeader limits bytes = .ok (request, n)) :
    HeaderReader.initial.taken limits bytes = bytes.take n := by
  have hlength := HeaderReader.length_taken_of_parse_eq_ok h
  rw [HeaderReader.initial, Nat.zero_add] at hlength
  rw [← hlength]
  exact List.prefix_iff_eq_take.mp (HeaderReader.taken_prefix _ _)

/-- The header at the front of some bytes is at the front of any that begin so. -/
theorem parseHeader_of_take_eq {limits : Limits} {bytes bytes' : Bytes} {request : Request}
    {n : Nat} (h : parseHeader limits bytes = .ok (request, n)) (heq : bytes'.take n = bytes.take n) :
    parseHeader limits bytes' = .ok (request, n) := by
  unfold parseHeader at h ⊢
  rw [HeaderReader.parse_eq_ok_iff .start, List.nil_append] at h ⊢
  -- only the bytes of the header itself were read, so others may follow it
  obtain ⟨header, rest, reader, rfl, hpos, hreads, hfinish, rfl⟩ := h
  refine ⟨header, bytes'.drop header.length, reader, ?_, hpos, hreads, hfinish, rfl⟩
  rw [List.take_left] at heq
  have hsplit := List.take_append_drop header.length bytes'
  rw [heq] at hsplit
  exact hsplit.symm

theorem le_length_of_parseHeader {limits : Limits} {bytes : Bytes} {request : Request} {n : Nat}
    (h : parseHeader limits bytes = .ok (request, n)) : n ≤ bytes.length := by
  have hlength := HeaderReader.length_taken_of_parse_eq_ok h
  rw [HeaderReader.initial, Nat.zero_add] at hlength
  rw [← hlength]
  exact (HeaderReader.taken_prefix _ _).length_le

/-- Behind the header, the source goes on with what follows it. -/
theorem yields_readRequest {limits : Limits} {source : Source} {request : Request} {n : Nat}
    (h : parseHeader limits source.delivered = .ok (request, n)) :
    source.Yields (source.delivered.take n) (readRequest limits source).2 := by
  obtain ⟨rest, hread, -, hgoes⟩ := HeaderReader.initial.read_spec limits source
  rw [taken_eq_take_of_parseHeader h] at hgoes
  unfold readRequest
  rw [hread]
  exact hgoes (by rw [← parseHeader, h]; simp)

theorem delivered_readRequest {limits : Limits} {source : Source} {request : Request} {n : Nat}
    (h : parseHeader limits source.delivered = .ok (request, n)) :
    Source.delivered (readRequest limits source).2 = source.delivered.drop n :=
  (yields_readRequest h).delivered_eq_drop

/-- Whether a request is read, and which, is the same where the same arrives. -/
theorem readRequest_eq_of_agrees {limits : Limits} {a b : Source} (h : a.Agrees b) :
    (readRequest limits a).1 = (readRequest limits b).1 := by
  obtain ⟨after, hread, -⟩ := HeaderReader.initial.read_spec limits a
  obtain ⟨after', hread', -⟩ := HeaderReader.initial.read_spec limits b
  unfold readRequest
  rw [hread, hread', h.delivered, h.ending]

/-- What reading a header takes off a source. -/
theorem unread_readRequest (limits : Limits) (source : Source) :
    source.unread = HeaderReader.initial.taken limits source.delivered ++
      (readRequest limits source).2.unread := by
  obtain ⟨rest, hread, hunread, -⟩ := HeaderReader.initial.read_spec limits source
  unfold readRequest
  rw [hread]
  exact hunread

/-! ## Forms -/

namespace FormReader

variable {fields : List Field}

/-- The bytes of a body that a reader takes: those up to the one that is refused. -/
def taken (fields : List Field) (reader : FormReader) : Bytes → Bytes
  | [] => []
  | b :: bytes =>
    match reader.push fields b with
    | .ok reader' => b :: reader'.taken fields bytes
    | .error _ => [b]

theorem taken_prefix (reader : FormReader) (bytes : Bytes) :
    reader.taken fields bytes <+: bytes := by
  induction bytes generalizing reader with
  | nil => exact List.prefix_rfl
  | cons b bytes ih =>
    unfold taken
    split
    · exact (List.cons_prefix_cons).mpr ⟨rfl, ih _⟩
    · exact ⟨bytes, rfl⟩

/-- What a reader on a connection answers, where the delivered part of a body is read so. -/
def verdict (fields : List Field) (ending : Option IoError) (whole : Prop) [Decidable whole] :
    Except FormError FormReader → Except FormError (List (Option String))
  | .error e => .error e
  | .ok reader => if whole then reader.finish fields else .error (ending.elim .peerClosed .io)

/-- A form that arrives is read as the bytes of its body that are delivered, and ended only
    if all of them are. -/
theorem read_spec (fields : List Field) (reader : FormReader) (count : Nat) (source : Source) :
    ∃ rest : Source,
      reader.read fields count source =
        (verdict fields source.ending (count ≤ source.delivered.length)
          (reader.pushAll fields (source.delivered.take count)), rest) ∧
      source.unread = reader.taken fields (source.delivered.take count) ++ rest.unread ∧
      (count ≤ source.delivered.length ∨
          (∃ e, reader.pushAll fields (source.delivered.take count) = .error e) →
        source.Yields (reader.taken fields (source.delivered.take count)) rest) := by
  induction count generalizing reader source with
  | zero =>
    exact ⟨source, by simp [read, pushAll, verdict], by simp [taken],
      fun _ => ⟨by simp [taken], by simp [taken], rfl⟩⟩
  | succ count ih =>
    cases hbytes : source.delivered with
    | nil =>
      obtain ⟨rest, hreceive, hunread⟩ := Source.exists_receive_of_delivered_nil hbytes
      refine ⟨rest, ?_, hunread, ?_⟩
      · rw [read, hreceive]
        cases source.ending <;> rfl
      · rintro (hlong | ⟨e, he⟩)
        · cases hlong
        · cases he
    | cons b bytes =>
      obtain ⟨rest, hreceive, rfl, hyields⟩ := Source.exists_receive_of_delivered_cons hbytes
      simp only [read, hreceive, List.take_succ_cons, pushAll, taken, List.length_cons,
        Nat.add_le_add_iff_right]
      cases reader.push fields b with
      | error e => exact ⟨rest, rfl, hyields.unread, fun _ => hyields⟩
      | ok next =>
        obtain ⟨after, hread, hunread, hgoes⟩ := ih next rest
        refine ⟨after, by rw [hyields.ending]; exact hread, ?_, fun h => hyields.trans (hgoes h)⟩
        rw [hyields.unread, hunread]
        rfl

theorem read_eq_ok_iff {reader : FormReader} {count : Nat} {source : Source}
    {found : List (Option String)} :
    (reader.read fields count source).1 = .ok found ↔
      count ≤ source.delivered.length ∧
      ∃ reader', reader.pushAll fields (source.delivered.take count) = .ok reader' ∧
        reader'.finish fields = .ok found := by
  obtain ⟨rest, hread, -⟩ := reader.read_spec fields count source
  rw [hread]
  cases reader.pushAll fields (source.delivered.take count) with
  | error e => simp [verdict]
  | ok reader' => by_cases hwhole : count ≤ source.delivered.length <;> simp [verdict, hwhole]

theorem read_eq_of_agreesTo {reader : FormReader} {count : Nat} {a b : Source}
    (h : a.AgreesTo count b) :
    (reader.read fields count a).1 = (reader.read fields count b).1 := by
  obtain ⟨after, hread, -⟩ := reader.read_spec fields count a
  obtain ⟨after', hread', -⟩ := reader.read_spec fields count b
  rw [hread, hread', ← h.take]
  cases reader.pushAll fields (a.delivered.take count) with
  | error e => rfl
  | ok reader' =>
    by_cases hwhole : count ≤ a.delivered.length
    · simp [verdict, hwhole, h.le_length_iff.mp hwhole]
    · have hwhole' := mt h.le_length_iff.mpr hwhole
      simp [verdict, hwhole, hwhole', h.ending (Nat.lt_of_not_le hwhole)]

end FormReader

/-- What reading a form takes off a source. -/
theorem Form.unread_read (fields : List Field) (count : Nat) (source : Source) :
    source.unread = (FormReader.initial fields).taken fields (source.delivered.take count) ++
      (Form.read fields count source).2.unread := by
  obtain ⟨rest, hread, hunread, -⟩ := (FormReader.initial fields).read_spec fields count source
  have hrest : (Form.read fields count source).2 = rest := by
    unfold Form.read
    rw [hread]
    split <;> simp_all
  rw [hrest]
  exact hunread

/-- A form is read alike where the bytes of its body are the same. -/
theorem Form.read_eq_of_agreesTo {fields : List Field} {count : Nat} {a b : Source}
    (h : a.AgreesTo count b) :
    (Form.read fields count a).1 = (Form.read fields count b).1 := by
  have hfst : ∀ source, (Form.read fields count source).1 =
      ((FormReader.initial fields).read fields count source).1.map (commit · fields) := by
    intro source
    unfold Form.read
    rcases (FormReader.initial fields).read fields count source with ⟨_ | _, _⟩ <;> rfl
  rw [hfst, hfst, FormReader.read_eq_of_agreesTo h]

/-- A form is read from a source exactly if its bytes are delivered and are a good body. -/
theorem Form.read_eq_ok_iff {fields read : List Field} {count : Nat} {source : Source} :
    (Form.read fields count source).1 = .ok read ↔
      count ≤ source.delivered.length ∧
        Form.parse fields (source.delivered.take count) = .ok read := by
  have hread : (Form.read fields count source).1 = .ok read ↔
      ∃ found, ((FormReader.initial fields).read fields count source).1 = .ok found ∧
        commit found fields = read := by
    unfold Form.read
    cases (FormReader.initial fields).read fields count source with
    | mk result rest => cases result <;> simp
  have hparse : ∀ body, Form.parse fields body = .ok read ↔
      ∃ found reader, (FormReader.initial fields).pushAll fields body = .ok reader ∧
        reader.finish fields = .ok found ∧ commit found fields = read := by
    intro body
    unfold Form.parse
    cases (FormReader.initial fields).pushAll fields body with
    | error e => simp
    | ok reader => cases hfinish : reader.finish fields <;> simp [hfinish]
  rw [hread, hparse]
  simp only [FormReader.read_eq_ok_iff]
  refine ⟨?_, ?_⟩
  · rintro ⟨found, ⟨hcount, reader, hpush, hfinish⟩, hcommit⟩
    exact ⟨hcount, found, reader, hpush, hfinish, hcommit⟩
  · rintro ⟨hcount, found, reader, hpush, hfinish, hcommit⟩
    exact ⟨found, ⟨hcount, reader, hpush, hfinish⟩, hcommit⟩

end Provision.Http
