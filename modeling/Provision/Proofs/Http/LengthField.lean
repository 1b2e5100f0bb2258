/-
  Provision.Proofs.Http.LengthField

  The declared body length on whole buffers. `LengthField.Declares` is the rule: the
  line that declares a length begins at most once, and what follows it up to the next
  carriage return is one decimal number with blanks around it. `LengthField.Describes`
  is what is known after some bytes of a header, inside the number included;
  `describes_push` carries it over a byte, and `exists_push_of_describes` takes the
  last byte off again.
-/
import Mathlib.Data.Nat.Digits.Defs
import Provision.Proofs.Http.LengthOpening

namespace Provision.Http

/-! ## Decimal numbers -/

/-- The value of a run of decimal digits, most significant digit first. -/
def decimalValue (digits : Bytes) : Nat := Nat.ofDigits 10 (digits.reverse.map Byte.digitValue)

@[simp] theorem decimalValue_nil : decimalValue [] = 0 := rfl

theorem decimalValue_concat (digits : Bytes) (b : UInt8) :
    decimalValue (digits ++ [b]) = decimalValue digits * 10 + Byte.digitValue b := by
  simp only [decimalValue, List.reverse_append, List.reverse_singleton, List.singleton_append,
    List.map_cons, Nat.ofDigits_cons]
  exact (Nat.add_comm _ _).trans (congrArg (· + _) (Nat.mul_comm _ _))

/-! ## Bytes of a number -/

theorem Byte.isDigit_of_isBlank {b : UInt8} (h : Byte.isBlank b = true) :
    Byte.isDigit b = false := by
  simp only [Byte.isBlank, Bool.or_eq_true, beq_iff_eq] at h
  rcases h with rfl | rfl <;> decide

/-- What can come of a byte inside a number that is no error. -/
theorem DeclaredLength.push_reading_eq_ok_iff {maxBody digits value : Nat} {trailing : Bool}
    {b : UInt8} {declared : DeclaredLength} :
    (reading digits value trailing).push maxBody b = .ok declared ↔
      (b = Byte.cr ∧ digits ≠ 0 ∧ declared = .known value) ∨
      (Byte.isDigit b = true ∧ trailing = false ∧
        value * 10 + Byte.digitValue b < representable ∧
        value * 10 + Byte.digitValue b ≤ maxBody ∧
        declared = .reading (digits + 1) (value * 10 + Byte.digitValue b) false) ∨
      (Byte.isBlank b = true ∧ declared = .reading digits value (decide (0 < digits))) := by
  by_cases hcr : b = Byte.cr
  · subst hcr
    by_cases hdigits : digits = 0
    · simp [push, hdigits, Byte.isDigit, Byte.isBlank, Byte.cr, Byte.space, Byte.tab]
    · simp [push, hdigits, Byte.isDigit, Byte.isBlank, Byte.cr, Byte.space, Byte.tab,
        @eq_comm _ declared]
  · by_cases hdigit : Byte.isDigit b = true
    · -- a digit is no blank, so only one of the last two cases can apply
      have hblank : Byte.isBlank b = false := by
        by_contra hblank
        rw [Byte.isDigit_of_isBlank (by simpa using hblank)] at hdigit
        cases hdigit
      cases trailing with
      | true => simp [push, hcr, hdigit, hblank]
      | false =>
        by_cases hword : value * 10 + Byte.digitValue b < representable
        · by_cases hbody : value * 10 + Byte.digitValue b ≤ maxBody
          · simp [push, hcr, hdigit, hblank, hword, hbody, Nat.not_le_of_gt hword,
              Nat.not_lt_of_ge hbody, @eq_comm _ declared]
          · simp [push, hcr, hdigit, hblank, hbody, Nat.not_le_of_gt hword, Nat.lt_of_not_ge hbody]
        · simp [push, hcr, hdigit, hblank, hword, Nat.le_of_not_gt hword]
    · by_cases hblank : Byte.isBlank b = true
      · simp [push, hcr, hdigit, hblank, @eq_comm _ declared]
      · simp [push, hcr, hdigit, hblank]

namespace LengthField

/-! ## The rule -/

/-- The beginning of the line that declares the length ends at an offset. -/
def OpeningEndsAt (bytes : Bytes) (offset : Nat) : Prop :=
  offset ≤ bytes.length ∧ EndsInOpening (bytes.take offset)

/-- It ends there and nowhere else. -/
def OpeningEndsOnlyAt (bytes : Bytes) (offset : Nat) : Prop :=
  OpeningEndsAt bytes offset ∧ ∀ other, OpeningEndsAt bytes other → other = offset

/-- A number with blanks around it that is a length within its bounds. The second bound
    is that of eight bytes: it says nothing where lengths are bounded by such a number. -/
structure IsLength (maxBody : Nat) (lead digits trail : Bytes) : Prop where
  /-- Blanks stand before the digits. -/
  lead_blank : ∀ b ∈ lead, Byte.isBlank b = true
  /-- The number is decimal. -/
  digits_digit : ∀ b ∈ digits, Byte.isDigit b = true
  /-- Blanks stand after the digits. -/
  trail_blank : ∀ b ∈ trail, Byte.isBlank b = true
  /-- The length keeps its bound. -/
  bounded : decimalValue digits ≤ maxBody
  /-- The length fits into eight bytes. -/
  representable : decimalValue digits < DeclaredLength.representable

/-- The body length that a header declares. -/
inductive Declares (maxBody : Nat) (header : Bytes) : Nat → Prop
  /-- No line declares one. -/
  | absent (none : ∀ offset, ¬ OpeningEndsAt header offset) : Declares maxBody header 0
  /-- One line does, with a number up to the next carriage return. -/
  | declared {offset : Nat} {lead digits trail rest : Bytes}
      (only : OpeningEndsOnlyAt header offset)
      (text : header.drop offset = lead ++ digits ++ trail ++ Byte.cr :: rest)
      (length : IsLength maxBody lead digits trail) (nonempty : digits ≠ []) :
      Declares maxBody header (decimalValue digits)

theorem openingEndsAt_concat_iff {seen : Bytes} {b : UInt8} {offset : Nat} :
    OpeningEndsAt (seen ++ [b]) offset ↔
      OpeningEndsAt seen offset ∨ (offset = seen.length + 1 ∧ EndsInOpening (seen ++ [b])) := by
  have hlen : (seen ++ [b]).length = seen.length + 1 := by simp
  unfold OpeningEndsAt
  refine ⟨?_, ?_⟩
  · rintro ⟨hle, hends⟩
    by_cases hlast : offset = seen.length + 1
    · right
      rw [hlast, ← hlen, List.take_length] at hends
      exact ⟨hlast, hends⟩
    · left
      rw [List.take_append_of_le_length (by omega)] at hends
      exact ⟨by omega, hends⟩
  · rintro (⟨hle, hends⟩ | ⟨rfl, hends⟩)
    · exact ⟨by omega, by rwa [List.take_append_of_le_length hle]⟩
    · refine ⟨by omega, ?_⟩
      rw [← hlen, List.take_length]
      exact hends

theorem OpeningEndsOnlyAt.concat {seen : Bytes} {b : UInt8} {offset : Nat}
    (h : OpeningEndsOnlyAt seen offset) (hno : ¬ EndsInOpening (seen ++ [b])) :
    OpeningEndsOnlyAt (seen ++ [b]) offset := by
  refine ⟨openingEndsAt_concat_iff.mpr (Or.inl h.1), fun other hother => ?_⟩
  rcases openingEndsAt_concat_iff.mp hother with hother | ⟨-, hends⟩
  · exact h.2 other hother
  · exact absurd hends hno

/-- Bytes after the number do not end in the beginning of the line again. -/
theorem OpeningEndsOnlyAt.of_concat {seen : Bytes} {b : UInt8} {offset : Nat}
    (h : OpeningEndsOnlyAt (seen ++ [b]) offset) (hle : offset ≤ seen.length) :
    OpeningEndsOnlyAt seen offset ∧ ¬ EndsInOpening (seen ++ [b]) := by
  have hno : ¬ EndsInOpening (seen ++ [b]) := by
    intro hends
    have := h.2 _ (openingEndsAt_concat_iff.mpr (Or.inr ⟨rfl, hends⟩))
    omega
  refine ⟨⟨?_, fun other hother => ?_⟩, hno⟩
  · rcases openingEndsAt_concat_iff.mp h.1 with hseen | ⟨heq, -⟩
    · exact hseen
    · omega
  · exact h.2 other (openingEndsAt_concat_iff.mpr (Or.inl hother))

/-! ## What the reader knows -/

/-- What is known of the length after some bytes of a header. -/
inductive Describes (maxBody : Nat) (seen : Bytes) : DeclaredLength → Prop
  | absent (none : ∀ offset, ¬ OpeningEndsAt seen offset) : Describes maxBody seen .absent
  | reading {offset : Nat} {lead digits trail : Bytes} (only : OpeningEndsOnlyAt seen offset)
      (text : seen.drop offset = lead ++ digits ++ trail)
      (length : IsLength maxBody lead digits trail) (order : digits = [] → trail = []) :
      Describes maxBody seen (.reading digits.length (decimalValue digits) (decide (trail ≠ [])))
  | known {offset : Nat} {lead digits trail rest : Bytes} (only : OpeningEndsOnlyAt seen offset)
      (text : seen.drop offset = lead ++ digits ++ trail ++ Byte.cr :: rest)
      (length : IsLength maxBody lead digits trail) (nonempty : digits ≠ []) :
      Describes maxBody seen (.known (decimalValue digits))

theorem not_openingEndsAt_nil (offset : Nat) : ¬ OpeningEndsAt [] offset := by
  rintro ⟨-, hsuffix⟩
  rw [List.take_nil] at hsuffix
  exact absurd hsuffix.length_le (by decide)

theorem describes_nil (maxBody : Nat) : Describes maxBody [] .absent :=
  .absent not_openingEndsAt_nil

theorem eq_absent_of_describes_nil {maxBody : Nat} {declared : DeclaredLength}
    (h : Describes maxBody [] declared) : declared = .absent := by
  cases h with
  | absent => rfl
  | reading only => exact absurd only.1 (not_openingEndsAt_nil _)
  | known only => exact absurd only.1 (not_openingEndsAt_nil _)

theorem isLength_nil (maxBody : Nat) : IsLength maxBody [] [] [] := by
  refine ⟨by simp, by simp, by simp, Nat.zero_le _, by decide⟩

/-- A push is one of the number and one of the search. -/
theorem push_eq_ok_iff {maxBody matched matched' : Nat} {declared declared' : DeclaredLength}
    {seen : Bytes} {b : UInt8} (h : Matches seen matched) :
    push maxBody ⟨matched, declared⟩ b = .ok ⟨matched', declared'⟩ ↔
      advance matched b = matched' ∧
      ((EndsInOpening (seen ++ [b]) ∧ declared.push maxBody b = .ok .absent ∧
          .reading 0 0 false = declared') ∨
        (¬ EndsInOpening (seen ++ [b]) ∧ declared.push maxBody b = .ok declared')) := by
  rw [endsInOpening_concat_iff h b]
  unfold push advance
  cases declared.push maxBody b with
  | error e => simp
  | ok pushed =>
    by_cases hbyte : opening[matched]? = some (Byte.lower b)
    · by_cases hroom : matched + 1 < opening.length
      · simp [hbyte, hroom]
      · by_cases habsent : pushed = .absent
        · simp [hbyte, hroom, habsent]
        · simp [hbyte, hroom, habsent]
    · simp [hbyte]

/-! ## One byte more, one byte less -/

theorem isLength_concat_digit {maxBody : Nat} {lead digits : Bytes} {b : UInt8} :
    IsLength maxBody lead (digits ++ [b]) [] ↔
      IsLength maxBody lead digits [] ∧ Byte.isDigit b = true ∧
        decimalValue digits * 10 + Byte.digitValue b < DeclaredLength.representable ∧
        decimalValue digits * 10 + Byte.digitValue b ≤ maxBody := by
  refine ⟨?_, ?_⟩
  · rintro ⟨hlead, hdigits, htrail, hbound, hword⟩
    rw [List.forall_mem_append, List.forall_mem_singleton] at hdigits
    rw [decimalValue_concat] at hbound hword
    exact ⟨⟨hlead, hdigits.1, htrail, by omega, by omega⟩, hdigits.2, hword, hbound⟩
  · rintro ⟨⟨hlead, hdigits, htrail, -, -⟩, hb, hword, hbound⟩
    rw [← decimalValue_concat] at hword hbound
    exact ⟨hlead, List.forall_mem_append.mpr ⟨hdigits, List.forall_mem_singleton.mpr hb⟩, htrail,
      hbound, hword⟩

theorem isLength_concat_trail {maxBody : Nat} {lead digits trail : Bytes} {b : UInt8} :
    IsLength maxBody lead digits (trail ++ [b]) ↔
      IsLength maxBody lead digits trail ∧ Byte.isBlank b = true := by
  refine ⟨?_, ?_⟩
  · rintro ⟨hlead, hdigits, htrail, hbound, hword⟩
    rw [List.forall_mem_append, List.forall_mem_singleton] at htrail
    exact ⟨⟨hlead, hdigits, htrail.1, hbound, hword⟩, htrail.2⟩
  · rintro ⟨⟨hlead, hdigits, htrail, hbound, hword⟩, hb⟩
    exact ⟨hlead, hdigits, List.forall_mem_append.mpr ⟨htrail, List.forall_mem_singleton.mpr hb⟩,
      hbound, hword⟩

theorem isLength_concat_lead {maxBody : Nat} {lead : Bytes} {b : UInt8} :
    IsLength maxBody (lead ++ [b]) [] [] ↔
      IsLength maxBody lead [] [] ∧ Byte.isBlank b = true := by
  refine ⟨?_, ?_⟩
  · rintro ⟨hlead, hdigits, htrail, hbound, hword⟩
    rw [List.forall_mem_append, List.forall_mem_singleton] at hlead
    exact ⟨⟨hlead.1, hdigits, htrail, hbound, hword⟩, hlead.2⟩
  · rintro ⟨⟨hlead, hdigits, htrail, hbound, hword⟩, hb⟩
    exact ⟨List.forall_mem_append.mpr ⟨hlead, List.forall_mem_singleton.mpr hb⟩, hdigits, htrail,
      hbound, hword⟩

/-- A byte inside the number leaves a number behind, or ends it. -/
theorem describes_push_reading {maxBody offset : Nat} {seen lead digits trail : Bytes} {b : UInt8}
    {declared : DeclaredLength} (only : OpeningEndsOnlyAt (seen ++ [b]) offset)
    (text : (seen ++ [b]).drop offset = lead ++ digits ++ trail ++ [b])
    (length : IsLength maxBody lead digits trail) (order : digits = [] → trail = [])
    (hpush : (DeclaredLength.reading digits.length (decimalValue digits)
      (decide (trail ≠ []))).push maxBody b = .ok declared) :
    Describes maxBody (seen ++ [b]) declared := by
  rcases DeclaredLength.push_reading_eq_ok_iff.mp hpush with
    ⟨rfl, hdigits, rfl⟩ | ⟨hb, htrail, hword, hbound, rfl⟩ | ⟨hb, rfl⟩
  · exact .known only text length (fun hnil => hdigits (by rw [hnil, List.length_nil]))
  · obtain rfl : trail = [] := by simpa using htrail
    have htext : (seen ++ [b]).drop offset = lead ++ (digits ++ [b]) ++ [] := by simpa using text
    have hlength := isLength_concat_digit.mpr ⟨length, hb, hword, hbound⟩
    have hreading := Describes.reading only htext hlength (fun _ => rfl)
    simpa [decimalValue_concat] using hreading
  · by_cases hnil : digits = []
    · obtain rfl := order hnil
      subst hnil
      have htext : (seen ++ [b]).drop offset = lead ++ [b] ++ [] ++ [] := by simpa using text
      have hlength := isLength_concat_lead.mpr ⟨length, hb⟩
      simpa using Describes.reading only htext hlength (fun _ => rfl)
    · have htext : (seen ++ [b]).drop offset = lead ++ digits ++ (trail ++ [b]) := by
        simpa using text
      have hlength := isLength_concat_trail.mpr ⟨length, hb⟩
      have hreading := Describes.reading only htext hlength (fun h => absurd h hnil)
      simpa [List.length_pos_iff.mpr hnil] using hreading

theorem describes_push {maxBody matched matched' : Nat} {declared declared' : DeclaredLength}
    {seen : Bytes} {b : UInt8} (h : Describes maxBody seen declared)
    (hmatches : Matches seen matched)
    (hpush : push maxBody ⟨matched, declared⟩ b = .ok ⟨matched', declared'⟩) :
    Describes maxBody (seen ++ [b]) declared' ∧ Matches (seen ++ [b]) matched' := by
  obtain ⟨rfl, hcases⟩ := (push_eq_ok_iff hmatches).mp hpush
  refine ⟨?_, matches_advance hmatches b⟩
  cases h with
  | absent none =>
    rcases hcases with ⟨hends, -, rfl⟩ | ⟨hno, hdeclared⟩
    · -- the number starts with the next byte
      have honly : OpeningEndsOnlyAt (seen ++ [b]) (seen.length + 1) := by
        refine ⟨openingEndsAt_concat_iff.mpr (Or.inr ⟨rfl, hends⟩), fun other hother => ?_⟩
        rcases openingEndsAt_concat_iff.mp hother with hother | ⟨rfl, -⟩
        · exact absurd hother (none other)
        · rfl
      have htext : (seen ++ [b]).drop (seen.length + 1) = [] ++ [] ++ [] := by simp
      simpa using Describes.reading honly htext (isLength_nil maxBody) (fun _ => rfl)
    · obtain rfl := Except.ok.inj hdeclared
      refine .absent (fun offset hoffset => ?_)
      rcases openingEndsAt_concat_iff.mp hoffset with hoffset | ⟨-, hends⟩
      · exact none offset hoffset
      · exact hno hends
  | reading only text length order =>
    rcases hcases with ⟨-, hdeclared, -⟩ | ⟨hno, hdeclared⟩
    · rcases DeclaredLength.push_reading_eq_ok_iff.mp hdeclared with
        ⟨-, -, heq⟩ | ⟨-, -, -, -, heq⟩ | ⟨-, heq⟩ <;> cases heq
    · refine describes_push_reading (only.concat hno) ?_ length order hdeclared
      rw [List.drop_append_of_le_length only.1.1, text]
  | @known offset lead digits trail rest only text length nonempty =>
    rcases hcases with ⟨-, hdeclared, -⟩ | ⟨hno, hdeclared⟩
    · cases hdeclared
    · obtain rfl := Except.ok.inj hdeclared
      have htext : (seen ++ [b]).drop offset
          = lead ++ digits ++ trail ++ Byte.cr :: (rest ++ [b]) := by
        rw [List.drop_append_of_le_length only.1.1, text]
        simp
      exact .known (only.concat hno) htext length nonempty

/-- A number that is being read and has a last byte was a number before that byte. -/
theorem exists_push_reading {maxBody offset : Nat} {seen lead digits trail : Bytes} {b : UInt8}
    (only : OpeningEndsOnlyAt seen offset)
    (text : seen.drop offset ++ [b] = lead ++ digits ++ trail)
    (length : IsLength maxBody lead digits trail) (order : digits = [] → trail = []) :
    ∃ declared, Describes maxBody seen declared ∧
      declared.push maxBody b =
        .ok (.reading digits.length (decimalValue digits) (decide (trail ≠ []))) := by
  -- the last byte is the last of the rearmost part that is not empty
  rcases List.eq_nil_or_concat trail with rfl | ⟨trail, c, rfl⟩
  · rcases List.eq_nil_or_concat digits with rfl | ⟨digits, c, rfl⟩
    · rcases List.eq_nil_or_concat lead with rfl | ⟨lead, c, rfl⟩
      · simp at text
      · rw [List.concat_eq_append, List.append_nil, List.append_nil] at text
        obtain ⟨htext, rfl⟩ := List.append_singleton_inj.mp text
        rw [List.concat_eq_append, isLength_concat_lead] at length
        have htext' : seen.drop offset = lead ++ [] ++ [] := by simpa using htext
        refine ⟨_, .reading only htext' length.1 (fun _ => rfl), ?_⟩
        exact DeclaredLength.push_reading_eq_ok_iff.mpr (Or.inr (Or.inr ⟨length.2, rfl⟩))
    · rw [List.concat_eq_append, List.append_nil, ← List.append_assoc] at text
      obtain ⟨htext, rfl⟩ := List.append_singleton_inj.mp text
      rw [List.concat_eq_append, isLength_concat_digit] at length
      obtain ⟨hlength, hb, hword, hbound⟩ := length
      have htext' : seen.drop offset = lead ++ digits ++ [] := by simpa using htext
      refine ⟨_, .reading only htext' hlength (fun _ => rfl), ?_⟩
      refine DeclaredLength.push_reading_eq_ok_iff.mpr
        (Or.inr (Or.inl ⟨hb, by simp, hword, hbound, ?_⟩))
      simp [decimalValue_concat]
  · rw [List.concat_eq_append, ← List.append_assoc] at text
    obtain ⟨htext, rfl⟩ := List.append_singleton_inj.mp text
    rw [List.concat_eq_append, isLength_concat_trail] at length
    have hdigits : digits ≠ [] := fun hnil => by simpa using order hnil
    refine ⟨_, .reading only htext length.1 (fun hnil => absurd hnil hdigits), ?_⟩
    refine DeclaredLength.push_reading_eq_ok_iff.mpr (Or.inr (Or.inr ⟨length.2, ?_⟩))
    simp [List.length_pos_iff.mpr hdigits]

theorem exists_push_of_describes {maxBody matched : Nat} {seen : Bytes} {b : UInt8}
    {declared' : DeclaredLength} (h : Describes maxBody (seen ++ [b]) declared')
    (hmatches : Matches seen matched) :
    ∃ declared, Describes maxBody seen declared ∧
      push maxBody ⟨matched, declared⟩ b = .ok ⟨advance matched b, declared'⟩ := by
  have hlen : (seen ++ [b]).length = seen.length + 1 := by simp
  -- where the search finds nothing at this byte, the push is one of the number alone
  have hgoes : ∀ declared, ¬ EndsInOpening (seen ++ [b]) → Describes maxBody seen declared →
      declared.push maxBody b = .ok declared' →
      ∃ declared, Describes maxBody seen declared ∧
        push maxBody ⟨matched, declared⟩ b = .ok ⟨advance matched b, declared'⟩ := by
    intro declared hno hdescribes hpush
    exact ⟨declared, hdescribes, (push_eq_ok_iff hmatches).mpr ⟨rfl, Or.inr ⟨hno, hpush⟩⟩⟩
  cases h with
  | absent none =>
    refine hgoes .absent (fun hends => ?_) (.absent (fun offset hoffset => ?_)) rfl
    · exact none _ (openingEndsAt_concat_iff.mpr (Or.inr ⟨rfl, hends⟩))
    · exact none offset (openingEndsAt_concat_iff.mpr (Or.inl hoffset))
  | @reading offset lead digits trail only text length order =>
    -- the number began before this byte, or begins right after it
    by_cases hle : offset ≤ seen.length
    · obtain ⟨honly, hno⟩ := only.of_concat hle
      rw [List.drop_append_of_le_length hle] at text
      obtain ⟨declared, hdescribes, hpush⟩ := exists_push_reading honly text length order
      exact hgoes declared hno hdescribes hpush
    · have hend : offset = seen.length + 1 := by
        have := only.1.1
        omega
      subst hend
      have hnil : lead = [] ∧ digits = [] ∧ trail = [] := by
        rw [List.drop_of_length_le (by omega)] at text
        simpa [eq_comm] using text
      obtain ⟨rfl, rfl, rfl⟩ := hnil
      have hends : EndsInOpening (seen ++ [b]) := by
        rcases openingEndsAt_concat_iff.mp only.1 with hseen | ⟨-, hends⟩
        · exact absurd hseen.1 hle
        · exact hends
      refine ⟨.absent, .absent (fun other hother => ?_), ?_⟩
      · have := only.2 other (openingEndsAt_concat_iff.mpr (Or.inl hother))
        have := hother.1
        omega
      · exact (push_eq_ok_iff hmatches).mpr ⟨rfl, Or.inl ⟨hends, rfl, by simp⟩⟩
  | @known offset lead digits trail rest only text length nonempty =>
    -- a number that has ended began before this byte
    have hle : offset ≤ seen.length := by
      by_contra hgt
      rw [List.drop_of_length_le (by omega)] at text
      simp at text
    obtain ⟨honly, hno⟩ := only.of_concat hle
    rw [List.drop_append_of_le_length hle] at text
    rcases List.eq_nil_or_concat rest with rfl | ⟨before, c, rfl⟩
    · obtain ⟨htext, rfl⟩ := List.append_singleton_inj.mp text
      refine hgoes _ hno (.reading honly htext length (fun hnil => absurd hnil nonempty)) ?_
      refine DeclaredLength.push_reading_eq_ok_iff.mpr (Or.inl ⟨rfl, ?_, rfl⟩)
      exact fun hzero => nonempty (List.length_eq_zero_iff.mp hzero)
    · have hsnoc : lead ++ digits ++ trail ++ Byte.cr :: before.concat c
          = (lead ++ digits ++ trail ++ Byte.cr :: before) ++ [c] := by simp
      rw [hsnoc] at text
      obtain ⟨htext, rfl⟩ := List.append_singleton_inj.mp text
      exact hgoes _ hno (.known honly htext length nonempty) rfl

/-! ## The end of the header -/

theorem IsLength.lf_notMem {maxBody : Nat} {lead digits trail : Bytes}
    (h : IsLength maxBody lead digits trail) : Byte.lf ∉ lead ++ digits ++ trail := by
  intro hmem
  simp only [List.mem_append] at hmem
  rcases hmem with (hmem | hmem) | hmem
  · exact absurd (h.lead_blank _ hmem) (by decide)
  · exact absurd (h.digits_digit _ hmem) (by decide)
  · exact absurd (h.trail_blank _ hmem) (by decide)

theorem EndsInOpening.getLast?_ne_lf {bytes : Bytes} (h : EndsInOpening bytes) :
    bytes.getLast? ≠ some Byte.lf := by
  intro hlast
  obtain ⟨before, hbefore⟩ := h
  have hspace : opening.getLast? = some Byte.space := rfl
  have hlower := congrArg List.getLast? hbefore
  rw [List.getLast?_map, hlast, List.getLast?_append, hspace, Option.some_or] at hlower
  exact absurd hlower (by decide)

/-- A header that ends in a line feed does not end inside a number. -/
theorem not_describes_reading {maxBody digits value : Nat} {trailing : Bool} {header : Bytes}
    (hlast : header.getLast? = some Byte.lf) :
    ¬ Describes maxBody header (.reading digits value trailing) := by
  intro h
  generalize hstate : DeclaredLength.reading digits value trailing = declared at h
  cases h with
  | absent => cases hstate
  | known => cases hstate
  | @reading offset lead digits trail only text length order =>
    -- an empty number stands right behind a blank, any other ends in one of its own bytes
    by_cases hend : offset = header.length
    · have hends := only.1.2
      rw [hend, List.take_length] at hends
      exact hends.getLast?_ne_lf hlast
    · have hlt : ¬ header.length ≤ offset := by
        have := only.1.1
        omega
      have htail : (header.drop offset).getLast? = some Byte.lf := by
        rw [List.getLast?_drop, if_neg hlt, hlast]
      rw [text] at htail
      exact length.lf_notMem (List.mem_of_getLast? htail)

theorem declares_iff_describes {maxBody value : Nat} {header : Bytes}
    (hlast : header.getLast? = some Byte.lf) :
    Declares maxBody header value ↔
      ∃ declared, Describes maxBody header declared ∧ declared.value = value := by
  refine ⟨?_, ?_⟩
  · rintro (none | ⟨only, text, length, nonempty⟩)
    · exact ⟨.absent, .absent none, rfl⟩
    · exact ⟨_, .known only text length nonempty, rfl⟩
  · rintro ⟨declared, hdescribes, rfl⟩
    cases hdescribes with
    | absent none => exact .absent none
    | known only text length nonempty => exact .declared only text length nonempty
    | reading only text length order =>
      exact absurd (Describes.reading only text length order) (not_describes_reading hlast)

end LengthField

end Provision.Http
