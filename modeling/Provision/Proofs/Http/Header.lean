/-
  Provision.Proofs.Http.Header

  The request header on whole buffers. `HeaderGrammar` says, without a machine, when a
  buffer holds a request at its front: where its header ends, which method and target
  it names and which body length it declares. `parseHeader_eq_ok_iff` is the theorem
  that the parser accepts exactly this.

  A reader that has taken in some bytes (`Reads`) is described by the three rules of
  its parts at once, and whatever the parts describe was read (`exists_reads`).
-/
import Provision.Http.Header
import Provision.Proofs.Http.BlankLine
import Provision.Proofs.Http.LengthField
import Provision.Proofs.Http.RequestLine

namespace Provision.Http

/-! ## The grammar -/

/-- The request whose header ends at offset `n` of the bytes. -/
structure HeaderGrammar (limits : Limits) (bytes : Bytes) (request : Request) (n : Nat) :
    Prop where
  /-- The first blank line ends there. -/
  ends : HeaderEndsAt bytes n
  /-- The header keeps its bound. -/
  fits : n ≤ limits.maxHeaderBytes
  /-- Method and target are those that the bytes name. -/
  line : RequestLine.Names bytes request.method request.path
  /-- The body length is the one that the header declares. -/
  length : LengthField.Declares limits.maxBodyBytes (bytes.take n) request.contentLength

namespace HeaderReader

variable {limits : Limits}

/-! ## Reading bytes -/

/-- A reader takes bytes in one by one, up to the one that ends the header. -/
inductive Reads (limits : Limits) : Bytes → Bool → HeaderReader → Prop
  | start : Reads limits [] false initial
  | push {seen : Bytes} {b : UInt8} {ended : Bool} {reader reader' : HeaderReader}
      (before : Reads limits seen false reader)
      (step : reader.push limits b = .ok (ended, reader')) :
      Reads limits (seen ++ [b]) ended reader'

theorem reads_concat_iff {seen : Bytes} {b : UInt8} {ended : Bool} {reader' : HeaderReader} :
    Reads limits (seen ++ [b]) ended reader' ↔
      ∃ reader, Reads limits seen false reader ∧ reader.push limits b = .ok (ended, reader') := by
  refine ⟨?_, ?_⟩
  · intro h
    generalize hfull : seen ++ [b] = full at h
    cases h with
    | start => simp at hfull
    | push before step =>
      obtain ⟨rfl, rfl⟩ := List.append_singleton_inj.mp hfull
      exact ⟨_, before, step⟩
  · rintro ⟨reader, before, step⟩
    exact .push before step

theorem Reads.deterministic {seen : Bytes} {ended ended' : Bool} {reader reader' : HeaderReader}
    (h : Reads limits seen ended reader) (h' : Reads limits seen ended' reader') :
    ended = ended' ∧ reader = reader' := by
  induction h generalizing ended' reader' with
  | start =>
    generalize hnil : ([] : Bytes) = seen at h'
    cases h' with
    | start => exact ⟨rfl, rfl⟩
    | push => simp at hnil
  | push before step ih =>
    obtain ⟨other, hother, hstep⟩ := reads_concat_iff.mp h'
    obtain ⟨-, rfl⟩ := ih hother
    rw [step] at hstep
    obtain ⟨rfl, rfl⟩ := Prod.mk.inj (Except.ok.inj hstep)
    exact ⟨rfl, rfl⟩

/-- Every byte but the last leaves the header open. -/
theorem Reads.of_append {seen more : Bytes} {ended : Bool} {reader : HeaderReader}
    (h : Reads limits (seen ++ more) ended reader) (hmore : more ≠ []) :
    ∃ reader', Reads limits seen false reader' := by
  induction more using List.reverseRecOn generalizing ended reader with
  | nil => exact absurd rfl hmore
  | append_singleton more b ih =>
    rw [← List.append_assoc] at h
    obtain ⟨before, hbefore, -⟩ := reads_concat_iff.mp h
    by_cases hnil : more = []
    · subst hnil
      rw [List.append_nil] at hbefore
      exact ⟨before, hbefore⟩
    · exact ih hbefore hnil

theorem push_eq_ok_iff {reader reader' : HeaderReader} {b : UInt8} {ended : Bool} :
    reader.push limits b = .ok (ended, reader') ↔
      reader.consumed < limits.maxHeaderBytes ∧ reader.consumed + 1 = reader'.consumed ∧
      reader.line.push b = .ok reader'.line ∧
      reader.length.push limits.maxBodyBytes b = .ok reader'.length ∧
      reader.blank.push b = (ended, reader'.blank) := by
  obtain ⟨consumed', line', length', blank'⟩ := reader'
  unfold push
  by_cases hfull : limits.maxHeaderBytes ≤ reader.consumed
  · simp [hfull, Nat.not_lt_of_ge hfull]
  · rw [if_neg hfull]
    cases reader.line.push b with
    | error e => simp
    | ok line =>
      cases reader.length.push limits.maxBodyBytes b with
      | error e => simp
      | ok length =>
        simp [Prod.ext_iff, Nat.lt_of_not_ge hfull]
        tauto

/-! ## What the reader knows -/

/-- What a reader says of the bytes it took in. -/
structure Describes (limits : Limits) (seen : Bytes) (reader : HeaderReader) : Prop where
  consumed : reader.consumed = seen.length
  fits : seen.length ≤ limits.maxHeaderBytes
  line : RequestLine.Describes seen reader.line
  declared : LengthField.Describes limits.maxBodyBytes seen reader.length.declared
  matched : LengthField.Matches seen reader.length.matched

theorem describes_initial : Describes limits [] initial :=
  ⟨rfl, Nat.zero_le _, RequestLine.describes_nil, LengthField.describes_nil _,
    LengthField.matches_nil⟩

theorem Describes.push {seen : Bytes} {b : UInt8} {ended : Bool} {reader reader' : HeaderReader}
    (h : Describes limits seen reader) (hpush : reader.push limits b = .ok (ended, reader')) :
    Describes limits (seen ++ [b]) reader' := by
  obtain ⟨hroom, hconsumed, hline, hlength, -⟩ := push_eq_ok_iff.mp hpush
  obtain ⟨hdeclared, hmatched⟩ := LengthField.describes_push h.declared h.matched hlength
  have hlen : (seen ++ [b]).length = seen.length + 1 := by simp
  have := h.consumed
  exact ⟨by omega, by omega, RequestLine.describes_push h.line hline, hdeclared, hmatched⟩

/-- The bytes of a reader that goes on hold no blank line. -/
theorem Reads.describes {seen : Bytes} {ended : Bool} {reader : HeaderReader}
    (h : Reads limits seen ended reader) :
    Describes limits seen reader ∧ (∀ m < seen.length, ¬ EndsInBlankLine (seen.take m)) ∧
      (ended = true ↔ EndsInBlankLine seen) ∧ (ended = false → reader.blank.Describes seen) := by
  induction h with
  | start =>
    refine ⟨describes_initial, by simp, ?_, fun _ => BlankLine.describes_nothing⟩
    simp [not_endsInBlankLine_nil]
  | @push seen b ended reader reader' before step ih =>
    obtain ⟨hdescribes, hfirst, hopen, hblank⟩ := ih
    obtain ⟨-, -, -, -, hstep⟩ := push_eq_ok_iff.mp step
    have hends := BlankLine.push_ended_iff (hblank rfl) b
    rw [hstep] at hends
    refine ⟨hdescribes.push step, ?_, hends, fun hgoes => ?_⟩
    · intro m hm
      rw [List.length_append, List.length_singleton] at hm
      rw [List.take_append_of_le_length (by omega)]
      by_cases hlt : m < seen.length
      · exact hfirst m hlt
      · obtain rfl : m = seen.length := by omega
        rw [List.take_length, ← hopen]
        exact Bool.false_ne_true
    · have hnext := BlankLine.describes_push (b := b) (hblank rfl) (by rw [hstep]; exact hgoes)
      rwa [hstep] at hnext

/-- Bytes without a blank line before their end are read whenever the request line and the
    declared length allow for them. -/
theorem exists_reads {seen : Bytes} {line : RequestLine} {declared : DeclaredLength}
    (hline : RequestLine.Describes seen line)
    (hdeclared : LengthField.Describes limits.maxBodyBytes seen declared)
    (hfits : seen.length ≤ limits.maxHeaderBytes)
    (hfirst : ∀ m < seen.length, ¬ EndsInBlankLine (seen.take m)) :
    ∃ ended reader, Reads limits seen ended reader ∧ reader.line = line ∧
      reader.length.declared = declared := by
  -- each part takes the last byte off by itself, and the reader puts it back
  induction seen using List.reverseRecOn generalizing line declared with
  | nil =>
    obtain rfl := RequestLine.eq_opening_of_describes_nil hline
    obtain rfl := LengthField.eq_absent_of_describes_nil hdeclared
    exact ⟨false, initial, .start, rfl, rfl⟩
  | append_singleton seen b ih =>
    have hlen : (seen ++ [b]).length = seen.length + 1 := by simp
    have hbefore : ∀ m ≤ seen.length, ¬ EndsInBlankLine (seen.take m) := by
      intro m hm
      have hno := hfirst m (by omega)
      rwa [List.take_append_of_le_length hm] at hno
    obtain ⟨line₀, hline₀, hpushLine⟩ := RequestLine.exists_push_of_describes hline
    obtain ⟨matched, hmatches⟩ := LengthField.exists_matches seen
    obtain ⟨declared₀, hdeclared₀, hpushLength⟩ :=
      LengthField.exists_push_of_describes hdeclared hmatches
    obtain ⟨ended, reader, hreads, rfl, rfl⟩ :=
      ih hline₀ hdeclared₀ (by omega) (fun m hm => hbefore m (by omega))
    obtain ⟨hdescribes, -, hended, -⟩ := hreads.describes
    -- no blank line ended before this byte, so the reader had gone on
    obtain rfl : ended = false := by
      have hno := hbefore seen.length (Nat.le_refl _)
      rw [List.take_length, ← hended] at hno
      exact Bool.eq_false_of_not_eq_true hno
    obtain rfl := hmatches.unique hdescribes.matched
    have hconsumed := hdescribes.consumed
    refine ⟨(reader.blank.push b).1, ⟨reader.consumed + 1, line,
      ⟨LengthField.advance reader.length.matched b, declared⟩, (reader.blank.push b).2⟩, ?_,
      rfl, rfl⟩
    exact .push hreads (push_eq_ok_iff.mpr ⟨by omega, rfl, hpushLine, hpushLength, rfl⟩)

/-! ## Whole headers -/

theorem finish_eq_ok_iff {reader : HeaderReader} {request : Request} :
    reader.finish = .ok request ↔
      reader.line.settle = .ok (request.method, utf8 request.path) ∧
      reader.length.declared.value = request.contentLength := by
  obtain ⟨method, path, contentLength⟩ := request
  unfold finish
  cases reader.line.settle with
  | error e => simp
  | ok settled =>
    obtain ⟨method', bytes⟩ := settled
    cases hdecode : Utf8.decode? bytes with
    | none =>
      have hbytes : bytes ≠ utf8 path := by
        rintro rfl
        rw [Utf8.decode?_utf8] at hdecode
        cases hdecode
      simp [hdecode, hbytes]
    | some text =>
      obtain rfl := Utf8.decode?_eq_some_iff.mp hdecode
      simp [hdecode, utf8_inj, and_assoc]

/-- A header that goes on after some bytes was read over the next of them, and ended there
    or went on. -/
theorem Reads.next {seen bytes header rest : Bytes} {b : UInt8} {reader : HeaderReader}
    (h : Reads limits header true reader) (heq : seen ++ b :: bytes = header ++ rest)
    (hlt : seen.length < header.length) :
    (header = seen ++ [b] ∧ Reads limits (seen ++ [b]) true reader) ∨
      (seen.length + 1 < header.length ∧ ∃ reader', Reads limits (seen ++ [b]) false reader') := by
  have hlen : (seen ++ [b]).length = seen.length + 1 := by simp
  have hread : seen ++ [b] <+: seen ++ b :: bytes := ⟨bytes, by simp⟩
  have hstarts : header <+: seen ++ b :: bytes := heq ▸ List.prefix_append header rest
  obtain ⟨more, rfl⟩ := List.prefix_of_prefix_length_le hread hstarts (by omega)
  by_cases hmore : more = []
  · subst hmore
    rw [List.append_nil] at h ⊢
    exact Or.inl ⟨rfl, h⟩
  · right
    have := List.length_pos_iff.mpr hmore
    exact ⟨by rw [List.length_append]; omega, h.of_append hmore⟩

/-- A reader goes on over the bytes to the first that end the header. -/
theorem parse_eq_ok_iff {seen bytes : Bytes} {reader : HeaderReader} {request : Request} {n : Nat}
    (h : Reads limits seen false reader) :
    reader.parse limits bytes = .ok (request, n) ↔
      ∃ header rest reader', seen ++ bytes = header ++ rest ∧ seen.length < header.length ∧
        Reads limits header true reader' ∧ reader'.finish = .ok request ∧ header.length = n := by
  -- the induction is on the bytes to come; those that were read move over to `seen`
  induction bytes generalizing seen reader with
  | nil =>
    simp only [parse, reduceCtorEq, false_iff, not_exists]
    rintro header rest reader' ⟨heq, hlt, -⟩
    have hlen := congrArg List.length heq
    rw [List.append_nil, List.length_append] at hlen
    omega
  | cons b bytes ih =>
    have hsplit : seen ++ b :: bytes = seen ++ [b] ++ bytes := by simp
    have hlen : (seen ++ [b]).length = seen.length + 1 := by simp
    unfold parse
    cases hpush : reader.push limits b with
    | error e =>
      -- no header goes on past a byte that is refused
      simp only [reduceCtorEq, false_iff, not_exists]
      rintro header rest reader' ⟨heq, hlt, hreads, -⟩
      have hnext : ∃ ended next, Reads limits (seen ++ [b]) ended next := by
        rcases hreads.next heq hlt with ⟨-, hread⟩ | ⟨-, next, hread⟩
        · exact ⟨true, reader', hread⟩
        · exact ⟨false, next, hread⟩
      obtain ⟨ended, next, hread⟩ := hnext
      obtain ⟨before, hbefore, hstep⟩ := reads_concat_iff.mp hread
      obtain ⟨-, rfl⟩ := h.deterministic hbefore
      rw [hpush] at hstep
      cases hstep
    | ok pushed =>
      obtain ⟨ended, next⟩ := pushed
      have hread : Reads limits (seen ++ [b]) ended next := .push h hpush
      cases ended with
      | false =>
        -- a header that ends behind the bytes read ends behind one byte more
        rw [hsplit]
        refine (ih hread).trans ⟨?_, ?_⟩
        · rintro ⟨header, rest, reader', heq, hlt, hrest⟩
          exact ⟨header, rest, reader', heq, by omega, hrest⟩
        · rintro ⟨header, rest, reader', heq, hlt, hreads, hrest⟩
          rw [← hsplit] at heq
          rcases hreads.next heq hlt with ⟨-, hended⟩ | ⟨hlong, -⟩
          · exact absurd (hread.deterministic hended).1 Bool.false_ne_true
          · exact ⟨header, rest, reader', by rw [← heq, hsplit], by omega, hreads, hrest⟩
      | true =>
        -- the header ends with this byte, and by determinism with no other
        have hconsumed := hread.describes.1.consumed
        refine ⟨?_, ?_⟩
        · intro hparse
          refine ⟨seen ++ [b], bytes, next, hsplit, by omega, hread, ?_⟩
          cases hfinish : next.finish with
          | error e => simp [hfinish] at hparse
          | ok request' =>
            simp only [hfinish, Except.ok.injEq, Prod.mk.injEq] at hparse
            exact ⟨congrArg Except.ok hparse.1, by omega⟩
        · rintro ⟨header, rest, reader', heq, hlt, hreads, hfinish, rfl⟩
          rcases hreads.next heq hlt with ⟨rfl, hended⟩ | ⟨-, other, hother⟩
          · obtain ⟨-, rfl⟩ := hread.deterministic hended
            simp only [hfinish, hconsumed]
          · exact absurd (hread.deterministic hother).1.symm Bool.false_ne_true

end HeaderReader

/-! ## The parser accepts its grammar -/

/-- A header is parsed from the front of a buffer exactly if the grammar finds one there. -/
theorem parseHeader_eq_ok_iff (limits : Limits) (bytes : Bytes) (request : Request) (n : Nat) :
    parseHeader limits bytes = .ok (request, n) ↔ HeaderGrammar limits bytes request n := by
  unfold parseHeader
  rw [HeaderReader.parse_eq_ok_iff .start, List.nil_append]
  refine ⟨?_, ?_⟩
  · rintro ⟨header, rest, reader, rfl, -, hreads, hfinish, rfl⟩
    obtain ⟨hdescribes, hfirst, hended, -⟩ := hreads.describes
    have hblank := hended.mp rfl
    obtain ⟨hsettle, hlength⟩ := HeaderReader.finish_eq_ok_iff.mp hfinish
    refine ⟨⟨by simp, by simpa using hblank, fun m hm => ?_⟩, hdescribes.fits, ?_, ?_⟩
    · rw [List.take_append_of_le_length (by omega)]
      exact hfirst m hm
    · exact RequestLine.names_of_settle hdescribes.line hblank.getLast? hsettle
    · rw [List.take_left]
      exact (LengthField.declares_iff_describes hblank.getLast?).mpr
        ⟨_, hdescribes.declared, hlength⟩
  · rintro ⟨⟨hwithin, hblank, hfirst⟩, hfits, hline, hlength⟩
    obtain ⟨header, rest, rfl, rfl⟩ : ∃ header rest, header ++ rest = bytes ∧ header.length = n :=
      ⟨bytes.take n, bytes.drop n, List.take_append_drop n bytes, List.length_take_of_le hwithin⟩
    rw [List.take_left] at hblank hlength
    obtain ⟨line, hdescribes, hsettle⟩ :=
      RequestLine.exists_describes_of_names hline hblank.getLast?
    obtain ⟨declared, hdeclared, hvalue⟩ :=
      (LengthField.declares_iff_describes hblank.getLast?).mp hlength
    -- the grammar's parts, cut down to the header, are what a reader of it would know
    have hopen : ∀ m < header.length, ¬ EndsInBlankLine (header.take m) := by
      intro m hm
      have hno := hfirst m hm
      rwa [List.take_append_of_le_length (by omega)] at hno
    obtain ⟨ended, reader, hreads, rfl, rfl⟩ :=
      HeaderReader.exists_reads hdescribes hdeclared hfits hopen
    obtain rfl : ended = true := hreads.describes.2.2.1.mpr hblank
    refine ⟨header, rest, reader, rfl, ?_, hreads, ?_, rfl⟩
    · have := List.length_pos_of_mem (List.mem_of_getLast? hblank.getLast?)
      exact this
    · exact HeaderReader.finish_eq_ok_iff.mpr ⟨hsettle, hvalue⟩

end Provision.Http
