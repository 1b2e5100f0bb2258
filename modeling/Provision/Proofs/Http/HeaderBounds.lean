/-
  Provision.Proofs.Http.HeaderBounds

  The bounds of a header that is being read. Whatever bytes were taken, the reader keeps what it
  collects and counts within its bounds, and the search for the length field stands where the
  bytes say (`HeaderReader.Bounded`). A header ends in a line feed, which stands in no number and
  no target. So where it has ended neither of them is open, and the request that it makes can be
  refused for one reason only, a target that is no text (`HeaderReader.Concluded`).
-/
import Provision.Proofs.Http.Header

namespace Provision.Http

/-! ## The target -/

namespace RequestLine

variable {seen : Bytes} {line : RequestLine}

/-- The bytes of the target so far. -/
def path : RequestLine → Bytes
  | opening _ => []
  | target _ seen => seen
  | complete _ path => path
  | other => []

theorem Describes.isTarget_path (h : Describes seen line) : IsTarget line.path := by
  cases h with
  | opening short unsettled => exact isTarget_nil
  | target opens target nonempty => exact target
  | complete rest opens target => exact target
  | other long none => exact isTarget_nil

/-- A header that ends in a line feed does not end inside a target. -/
theorem Describes.exists_settle (h : Describes seen line) (hlast : seen.getLast? = some Byte.lf) :
    ∃ method, line.settle = .ok (method, line.path) := by
  cases h with
  | opening short unsettled => exact ⟨.unknown, rfl⟩
  | target opens target nonempty =>
    refine absurd ?_ (lf_notMem_opened opens target)
    exact List.mem_append_left _ (List.mem_of_getLast? hlast)
  | @complete method start path rest opens target => exact ⟨method, rfl⟩
  | other long none => exact ⟨.unknown, rfl⟩

end RequestLine

/-! ## The length field -/

namespace LengthField

variable {maxBody matched : Nat} {seen : Bytes} {declared : DeclaredLength}

/-- Right behind the whole beginning of the line the search stands at its start. -/
theorem Matches.eq_zero (h : Matches seen matched) (hends : EndsInOpening seen) : matched = 0 := by
  obtain ⟨⟨hlt, hsuffix⟩, -⟩ := h
  refine eq_zero_of_suffix_of_suffix hlt (Nat.le_refl _) hsuffix ?_
  rwa [List.take_length]

/-- Anywhere else no longer part of the beginning was seen, the whole of it included. -/
theorem Matches.isGreatest (h : Matches seen matched) (hno : ¬ EndsInOpening seen) :
    IsGreatest {k | k ≤ opening.length ∧ opening.take k <:+ seen.map Byte.lower} matched := by
  obtain ⟨⟨hlt, hsuffix⟩, hgreatest⟩ := h
  refine ⟨⟨hlt.le, hsuffix⟩, ?_⟩
  rintro k ⟨hk, htake⟩
  rcases Nat.lt_or_eq_of_le hk with hshort | rfl
  · exact hgreatest ⟨hshort, htake⟩
  · rw [List.take_length] at htake
    exact absurd htake hno

/-- The digits of the number, as many of them as were read. -/
structure DigitsRead (maxBody : Nat) (seen : Bytes) (declared : DeclaredLength) (digits : Bytes) :
    Prop where
  /-- They stand among the bytes that were read. -/
  within : digits <:+: seen
  decimal : ∀ b ∈ digits, Byte.isDigit b = true
  value : decimalValue digits = declared.value
  bounded : declared.value ≤ maxBody
  /-- A number that is being read knows how many they are. -/
  count : ∀ n value trailing, declared = .reading n value trailing → n = digits.length

theorem Describes.exists_digitsRead (h : Describes maxBody seen declared) :
    ∃ digits, DigitsRead maxBody seen declared digits := by
  cases h with
  | absent none =>
    exact ⟨[], List.nil_infix, by simp, rfl, Nat.zero_le _, nofun⟩
  | @reading offset lead digits trail only text length order =>
    have hdigits : digits <:+: seen.drop offset := ⟨lead, trail, text.symm⟩
    refine ⟨digits, hdigits.trans (List.drop_suffix _ _).isInfix, length.digits_digit, rfl,
      length.bounded, ?_⟩
    rintro n value trailing heq
    cases heq
    rfl
  | @known offset lead digits trail rest only text length nonempty =>
    have hdigits : digits <:+: seen.drop offset :=
      ⟨lead, trail ++ Byte.cr :: rest, by simp [text]⟩
    exact ⟨digits, hdigits.trans (List.drop_suffix _ _).isInfix, length.digits_digit, rfl,
      length.bounded, nofun⟩

end LengthField

/-! ## The reader -/

namespace HeaderReader

variable {limits : Limits} {seen : Bytes} {ended : Bool} {reader : HeaderReader}

/-- The bounds that a reader keeps over the bytes that it took. -/
structure Bounded (limits : Limits) (seen : Bytes) (reader : HeaderReader) : Prop where
  consumed : reader.consumed = seen.length
  consumed_le : reader.consumed ≤ limits.maxHeaderBytes
  /-- The target is one word within its bound. -/
  path : IsTarget reader.line.path
  matched_lt : reader.length.matched < LengthField.opening.length
  /-- As much of the line's beginning is matched as the bytes end in. -/
  matched : ¬ LengthField.EndsInOpening seen →
    IsGreatest {k | k ≤ LengthField.opening.length ∧
      LengthField.opening.take k <:+ seen.map Byte.lower} reader.length.matched
  matched_whole : LengthField.EndsInOpening seen → reader.length.matched = 0
  /-- The digits of the length are no more than the bytes of the header. -/
  number : ∃ digits,
    LengthField.DigitsRead limits.maxBodyBytes seen reader.length.declared digits ∧
      digits.length ≤ limits.maxHeaderBytes

/-- What is left open where the header has ended: only whether the target is text. -/
structure Concluded (reader : HeaderReader) : Prop where
  /-- No number is being read. -/
  number : ∀ digits value trailing, reader.length.declared ≠ .reading digits value trailing
  /-- No target is being read. -/
  line : ∃ method, reader.line.settle = .ok (method, reader.line.path)
  finish : ∀ e, reader.finish = .error e ↔
    e = .malformedRequestLine ∧ ∀ text, utf8 text ≠ reader.line.path

theorem Describes.bounded (h : Describes limits seen reader) : Bounded limits seen reader := by
  have hle := h.fits
  obtain ⟨digits, hdigits⟩ := h.declared.exists_digitsRead
  have hlen := hdigits.within.length_le
  exact {
    consumed := h.consumed
    consumed_le := h.consumed.le.trans hle
    path := h.line.isTarget_path
    matched_lt := h.matched.1.1
    matched := h.matched.isGreatest
    matched_whole := h.matched.eq_zero
    number := ⟨digits, hdigits, hlen.trans hle⟩ }

theorem finish_eq_error_iff_of_settle {method : Method} {path : Bytes} {e : ParseError}
    (h : reader.line.settle = .ok (method, path)) :
    reader.finish = .error e ↔ e = .malformedRequestLine ∧ ∀ text, utf8 text ≠ path := by
  rw [finish, h]
  cases hdecode : Utf8.decode? path with
  | none =>
    have hno : ∀ text, utf8 text ≠ path := by
      rintro text rfl
      rw [Utf8.decode?_utf8] at hdecode
      cases hdecode
    simp [hdecode, hno, eq_comm]
  | some text =>
    obtain rfl := Utf8.decode?_eq_some_iff.mp hdecode
    simp [hdecode]

theorem Describes.concluded (h : Describes limits seen reader)
    (hlast : seen.getLast? = some Byte.lf) : Concluded reader := by
  obtain ⟨method, hsettle⟩ := h.line.exists_settle hlast
  refine ⟨fun digits value trailing hreading => ?_, ⟨method, hsettle⟩,
    fun e => finish_eq_error_iff_of_settle hsettle⟩
  exact LengthField.not_describes_reading hlast (hreading ▸ h.declared)

/-- A reader keeps its bounds as long as it takes bytes, and once the blank line was seen nothing
    but a target that is no text is refused. -/
theorem bounded_of_reads (h : Reads limits seen ended reader) :
    Bounded limits seen reader ∧ (ended = true → Concluded reader) := by
  obtain ⟨hdescribes, -, hended, -⟩ := h.describes
  refine ⟨hdescribes.bounded, fun htrue => ?_⟩
  exact hdescribes.concluded (hended.mp htrue).getLast?

/-- The header of a form that a browser posts. -/
theorem bounded_of_reads_browser :
    let header := utf8 "POST /setwifi.html HTTP/1.1\r\nContent-Length: 6\r\n\r\n"
    ∃ reader, Reads .standard header true reader ∧
      reader.finish = .ok ⟨.post, "/setwifi.html", 6⟩ ∧
      Bounded .standard header reader ∧ Concluded reader := by
  intro header
  have hparse : initial.parse .standard header = .ok (⟨.post, "/setwifi.html", 6⟩, 50) := by
    decide +kernel
  obtain ⟨taken, rest, reader, heq, -, hreads, hfinish, hlength⟩ :=
    (parse_eq_ok_iff .start).mp hparse
  -- the header is all that there is
  have hwhole : header.length = 50 := by decide +kernel
  obtain rfl : taken = header := by
    refine (List.IsPrefix.eq_of_length ⟨rest, heq.symm⟩ ?_)
    rw [hlength, hwhole]
  obtain ⟨hbounded, hconcluded⟩ := bounded_of_reads hreads
  exact ⟨reader, hreads, hfinish, hbounded, hconcluded rfl⟩

end HeaderReader

end Provision.Http
