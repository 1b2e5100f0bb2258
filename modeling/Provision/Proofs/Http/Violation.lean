/-
  Provision.Proofs.Http.Violation

  The rules of a header, and the byte that breaks one first. `RequestLine.Violation` and
  `LengthField.Violation` say on whole buffers, without a machine, when the last byte breaks a rule
  for the target or for the declared length; `HeaderViolation` adds the bound of the header and the
  encoding of the target. A header is rejected by the first byte that breaks a rule, for that rule
  and no other (`parseHeader_verdict`).
-/
import Provision.Proofs.Http.DecidingByte

namespace Provision

theorem Byte.isBlank_of_lower_eq_space {b : UInt8} (h : Byte.lower b = Byte.space) :
    Byte.isBlank b = true := by
  unfold Byte.lower at h
  split at h
  · rename_i hcapital
    simp only [Bool.and_eq_true, decide_eq_true_eq, UInt8.le_iff_toNat_le, UInt8.reduceToNat]
      at hcapital
    simp only [Byte.space, ← UInt8.toNat_inj, UInt8.toNat_add, UInt8.reduceToNat] at h
    omega
  · rw [h]
    rfl

namespace Http

/-! ## The target -/

namespace RequestLine

/-- The last byte breaks a rule for the target of a known method. -/
inductive Violation : Bytes → ParseError → Prop
  /-- A line break stands inside the target. -/
  | lineBreak {method : Method} {start path : Bytes} {b : UInt8} (opens : Opens method start)
      (target : IsTarget path) (breaks : Byte.isBreak b = true) :
      Violation (start ++ path ++ [b]) .malformedRequestLine
  /-- The target has one byte more than it may have. -/
  | tooLong {method : Method} {start path : Bytes} {b : UInt8} (opens : Opens method start)
      (target : IsTarget path) (full : path.length = maxPathLength) (goes : b ≠ Byte.space)
      (word : Byte.isBreak b = false) : Violation (start ++ path ++ [b]) .pathTooLong

theorem Describes.unique {seen : Bytes} {line line' : RequestLine} (h : Describes seen line)
    (h' : Describes seen line') : line = line' := by
  induction seen using List.reverseRecOn generalizing line line' with
  | nil => rw [eq_opening_of_describes_nil h, eq_opening_of_describes_nil h']
  | append_singleton seen b ih =>
    -- both states come from one state before the last byte, by the same push
    obtain ⟨before, hbefore, hpush⟩ := exists_push_of_describes h
    obtain ⟨before', hbefore', hpush'⟩ := exists_push_of_describes h'
    obtain rfl := ih hbefore hbefore'
    exact Except.ok.inj (hpush.symm.trans hpush')

theorem pushTarget_eq_error_iff {method : Method} {path : Bytes} {b : UInt8} {e : ParseError} :
    pushTarget method path b = .error e ↔
      (Byte.isBreak b = true ∧ e = .malformedRequestLine) ∨
      (path.length = maxPathLength ∧ b ≠ Byte.space ∧ Byte.isBreak b = false ∧
        e = .pathTooLong) := by
  by_cases hspace : b = Byte.space
  · subst hspace
    have hword : Byte.isBreak Byte.space = false := rfl
    simp [pushTarget, hword]
  · by_cases hbreak : Byte.isBreak b = true
    · simp [pushTarget, hspace, hbreak, @eq_comm _ e]
    · by_cases hfull : path.length = maxPathLength
      · simp [pushTarget, hspace, hbreak, hfull, @eq_comm _ e]
      · simp [pushTarget, hspace, hbreak, hfull]

theorem violation_of_pushTarget {method : Method} {start path : Bytes} {b : UInt8} {e : ParseError}
    (hopens : Opens method start) (htarget : IsTarget path)
    (hpush : pushTarget method path b = .error e) : Violation (start ++ path ++ [b]) e := by
  rcases pushTarget_eq_error_iff.mp hpush with ⟨hbreak, rfl⟩ | ⟨hfull, hspace, hword, rfl⟩
  · exact .lineBreak hopens htarget hbreak
  · exact .tooLong hopens htarget hfull hspace hword

/-- A byte is refused exactly if it breaks a rule for the target. -/
theorem push_eq_error_iff {seen : Bytes} {line : RequestLine} {b : UInt8} {e : ParseError}
    (h : Describes seen line) : line.push b = .error e ↔ Violation (seen ++ [b]) e := by
  constructor
  · intro hpush
    cases h with
    | opening short unsettled =>
      by_cases hopens : ∃ method, Opens method seen
      · obtain ⟨method, hopens⟩ := hopens
        have hwithin := push_within hopens [] b
        rw [within, if_pos rfl, hpush] at hwithin
        simpa using violation_of_pushTarget hopens isTarget_nil hwithin.symm
      · rw [push_opening fun method hseen => hopens ⟨method, hseen⟩] at hpush
        cases hpush
    | target opens target nonempty => exact violation_of_pushTarget opens target hpush
    | complete rest opens target => cases hpush
    | other long none => cases hpush
  · intro hviolation
    generalize htext : seen ++ [b] = text at hviolation
    -- inside a target there is one state only, and it goes on by the rule for targets
    have hinside : ∀ {method : Method} {start path : Bytes} {c : UInt8}, Opens method start →
        IsTarget path → seen ++ [b] = start ++ path ++ [c] →
        line.push b = pushTarget method path c := by
      intro method start path c hopens htarget hsplit
      obtain ⟨rfl, rfl⟩ := List.append_singleton_inj.mp hsplit
      rw [h.unique (describes_within hopens htarget), push_within hopens]
    cases hviolation with
    | lineBreak opens target breaks =>
      rw [hinside opens target htext, pushTarget_eq_error_iff]
      exact Or.inl ⟨breaks, rfl⟩
    | tooLong opens target full goes word =>
      rw [hinside opens target htext, pushTarget_eq_error_iff]
      exact Or.inr ⟨full, goes, word, rfl⟩

end RequestLine

/-! ## The declared length -/

/-- What can come of a byte inside a number that is an error. -/
theorem DeclaredLength.push_reading_eq_error_iff {maxBody digits value : Nat} {trailing : Bool}
    {b : UInt8} {e : ParseError} :
    (reading digits value trailing).push maxBody b = .error e ↔
      (b = Byte.cr ∧ digits = 0 ∧ e = .invalidContentLength) ∨
      (Byte.isDigit b = true ∧ trailing = true ∧ e = .invalidContentLength) ∨
      (Byte.isDigit b = true ∧ trailing = false ∧
        representable ≤ value * 10 + Byte.digitValue b ∧ e = .invalidContentLength) ∨
      (Byte.isDigit b = true ∧ trailing = false ∧
        value * 10 + Byte.digitValue b < representable ∧
        maxBody < value * 10 + Byte.digitValue b ∧ e = .bodyTooLarge maxBody) ∨
      (b ≠ Byte.cr ∧ Byte.isDigit b = false ∧ Byte.isBlank b = false ∧
        e = .invalidContentLength) := by
  by_cases hcr : b = Byte.cr
  · subst hcr
    have hdigit : Byte.isDigit Byte.cr = false := rfl
    by_cases hdigits : digits = 0
    · simp [push, hdigits, hdigit, @eq_comm _ e]
    · simp [push, hdigits, hdigit]
  · by_cases hdigit : Byte.isDigit b = true
    · cases trailing with
      | true => simp [push, hcr, hdigit, @eq_comm _ e]
      | false =>
        by_cases hword : representable ≤ value * 10 + Byte.digitValue b
        · simp [push, hcr, hdigit, hword, Nat.not_lt_of_le hword, @eq_comm _ e]
        · by_cases hbody : maxBody < value * 10 + Byte.digitValue b
          · simp [push, hcr, hdigit, hword, Nat.lt_of_not_le hword, hbody, @eq_comm _ e]
          · simp [push, hcr, hdigit, hword, hbody]
    · by_cases hblank : Byte.isBlank b = true
      · simp [push, hcr, hdigit, hblank]
      · simp [push, hcr, hdigit, hblank, @eq_comm _ e]

namespace LengthField

/-- Digits with blanks around them. -/
structure IsNumber (lead digits trail : Bytes) : Prop where
  lead_blank : ∀ b ∈ lead, Byte.isBlank b = true
  digits_digit : ∀ b ∈ digits, Byte.isDigit b = true
  trail_blank : ∀ b ∈ trail, Byte.isBlank b = true

/-- The bytes end inside the number that declares a length. -/
structure InNumber (seen lead digits trail : Bytes) : Prop where
  number : IsNumber lead digits trail
  /-- All of it stands behind the beginning of the line. -/
  opened : ∃ offset, OpeningEndsAt seen offset ∧ seen.drop offset = lead ++ digits ++ trail

/-- The last byte breaks a rule for the declared length. -/
inductive Violation (maxBody : Nat) : Bytes → ParseError → Prop
  /-- The line that declares a length begins a second time. -/
  | repeated {text : Bytes} {offset : Nat} (first : OpeningEndsAt text offset)
      (earlier : offset < text.length) (again : EndsInOpening text) :
      Violation maxBody text .invalidContentLength
  /-- A byte stands in the number that no number holds. -/
  | strayByte {seen lead digits trail : Bytes} {b : UInt8}
      (inside : InNumber seen lead digits trail) (goes : b ≠ Byte.cr)
      (nodigit : Byte.isDigit b = false) (noblank : Byte.isBlank b = false) :
      Violation maxBody (seen ++ [b]) .invalidContentLength
  /-- A digit stands behind the blanks that ended the digits. -/
  | lateDigit {seen lead digits trail : Bytes} {b : UInt8}
      (inside : InNumber seen lead digits trail) (nonempty : digits ≠ [])
      (ended : trail ≠ []) (digit : Byte.isDigit b = true) :
      Violation maxBody (seen ++ [b]) .invalidContentLength
  /-- The number ends before its first digit. -/
  | noDigit {seen lead : Bytes} (inside : InNumber seen lead [] []) :
      Violation maxBody (seen ++ [Byte.cr]) .invalidContentLength
  /-- With this digit the number does not fit into eight bytes. -/
  | unrepresentable {seen lead digits : Bytes} {b : UInt8} (inside : InNumber seen lead digits [])
      (digit : Byte.isDigit b = true)
      (large : DeclaredLength.representable ≤ decimalValue (digits ++ [b])) :
      Violation maxBody (seen ++ [b]) .invalidContentLength
  /-- With this digit the number exceeds its bound. -/
  | tooLarge {seen lead digits : Bytes} {b : UInt8} (inside : InNumber seen lead digits [])
      (digit : Byte.isDigit b = true)
      (fits : decimalValue (digits ++ [b]) < DeclaredLength.representable)
      (large : maxBody < decimalValue (digits ++ [b])) :
      Violation maxBody (seen ++ [b]) (.bodyTooLarge maxBody)

/-! ### Inside the number -/

theorem IsLength.isNumber {maxBody : Nat} {lead digits trail : Bytes}
    (h : IsLength maxBody lead digits trail) : IsNumber lead digits trail :=
  ⟨h.lead_blank, h.digits_digit, h.trail_blank⟩

namespace IsNumber

variable {lead digits trail : Bytes}

theorem cr_notMem (h : IsNumber lead digits trail) : Byte.cr ∉ lead ++ digits ++ trail := by
  intro hmem
  simp only [List.mem_append] at hmem
  rcases hmem with (hmem | hmem) | hmem
  · exact absurd (h.lead_blank _ hmem) (by decide)
  · exact absurd (h.digits_digit _ hmem) (by decide)
  · exact absurd (h.trail_blank _ hmem) (by decide)

/-- The digits are those of the whole text. -/
theorem filter_isDigit (h : IsNumber lead digits trail) :
    (lead ++ digits ++ trail).filter Byte.isDigit = digits := by
  have hblanks : ∀ blanks : Bytes, (∀ b ∈ blanks, Byte.isBlank b = true) →
      blanks.filter Byte.isDigit = [] := by
    intro blanks hblanks
    rw [List.filter_eq_nil_iff]
    intro b hb
    rw [Byte.isDigit_of_isBlank (hblanks b hb)]
    exact Bool.false_ne_true
  rw [List.filter_append, List.filter_append, hblanks lead h.lead_blank,
    hblanks trail h.trail_blank, List.filter_eq_self.mpr h.digits_digit, List.nil_append,
    List.append_nil]

/-- Whether blanks follow the digits shows in the last byte. -/
theorem trail_eq_nil_iff (h : IsNumber lead digits trail) (hdigits : digits ≠ []) :
    trail = [] ↔ ∃ b, (lead ++ digits ++ trail).getLast? = some b ∧ Byte.isDigit b = true := by
  rcases List.eq_nil_or_concat trail with rfl | ⟨blanks, b, rfl⟩
  · obtain ⟨before, b, rfl⟩ := (List.eq_nil_or_concat digits).resolve_left hdigits
    have hb : Byte.isDigit b = true := h.digits_digit b (by simp)
    simp [List.getLast?_append, hb]
  · have hb : Byte.isDigit b = false := Byte.isDigit_of_isBlank (h.trail_blank b (by simp))
    simp [List.getLast?_append, hb]

/-- A text is read as a number in one way, up to the blanks of one that has no digit. -/
theorem unique {lead' digits' trail' : Bytes} (h : IsNumber lead digits trail)
    (h' : IsNumber lead' digits' trail')
    (heq : lead ++ digits ++ trail = lead' ++ digits' ++ trail') :
    digits = digits' ∧ (digits ≠ [] → (trail = [] ↔ trail' = [])) := by
  have hdigits : digits = digits' := by rw [← h.filter_isDigit, heq, h'.filter_isDigit]
  refine ⟨hdigits, fun hsome => ?_⟩
  rw [h.trail_eq_nil_iff hsome, h'.trail_eq_nil_iff (hdigits ▸ hsome), heq]

end IsNumber

/-- Inside the number the reader knows its digits, and whether blanks follow them. -/
theorem Describes.eq_reading {maxBody : Nat} {seen lead digits trail : Bytes}
    {declared : DeclaredLength} (h : Describes maxBody seen declared)
    (hinside : InNumber seen lead digits trail) :
    ∃ trailing, declared = .reading digits.length (decimalValue digits) trailing ∧
      (trailing = true ↔ digits ≠ [] ∧ trail ≠ []) := by
  obtain ⟨hnumber, offset, hopens, htext⟩ := hinside
  cases h with
  | absent none => exact absurd hopens (none offset)
  | @reading offset' lead' digits' trail' only text length order =>
    obtain rfl := only.2 offset hopens
    rw [text] at htext
    obtain ⟨rfl, htrail⟩ := length.isNumber.unique hnumber htext
    refine ⟨_, rfl, ?_⟩
    by_cases hdigits : digits' = []
    · simp [hdigits, order hdigits]
    · simp [hdigits, htrail hdigits]
  | known only text length nonempty =>
    -- a carriage return has ended the number
    obtain rfl := only.2 offset hopens
    have hcr : Byte.cr ∈ seen.drop offset := by
      rw [text]
      simp
    rw [htext] at hcr
    exact absurd hcr hnumber.cr_notMem

/-- A push fails by the number, or because the line begins again. -/
theorem push_eq_error_cases {maxBody matched : Nat} {declared : DeclaredLength} {seen : Bytes}
    {b : UInt8} {e : ParseError} (h : Matches seen matched) :
    push maxBody ⟨matched, declared⟩ b = .error e ↔
      declared.push maxBody b = .error e ∨
      (EndsInOpening (seen ++ [b]) ∧ e = .invalidContentLength ∧
        ∃ pushed, declared.push maxBody b = .ok pushed ∧ pushed ≠ .absent) := by
  rw [endsInOpening_concat_iff h b]
  unfold push
  cases declared.push maxBody b with
  | error e' => simp
  | ok pushed =>
    by_cases hbyte : opening[matched]? = some (Byte.lower b)
    · by_cases hroom : matched + 1 < opening.length
      · simp [hbyte, hroom]
      · by_cases habsent : pushed = .absent
        · simp [hbyte, hroom, habsent]
        · simp [hbyte, hroom, habsent, @eq_comm _ e]
    · simp [hbyte]

theorem EndsInOpening.isBlank {seen : Bytes} {b : UInt8} (h : EndsInOpening (seen ++ [b])) :
    Byte.isBlank b = true := by
  obtain ⟨before, hbefore⟩ := h
  have hspace : opening.getLast? = some Byte.space := rfl
  have hlower := congrArg List.getLast? hbefore
  rw [List.getLast?_append, hspace, Option.some_or, List.getLast?_map, List.getLast?_concat,
    Option.map_some] at hlower
  exact Byte.isBlank_of_lower_eq_space (Option.some.inj hlower).symm

/-- A byte is refused inside the number exactly if it breaks a rule for it. -/
theorem violation_of_push_reading {maxBody : Nat} {seen lead digits trail : Bytes} {b : UInt8}
    {e : ParseError} (hinside : InNumber seen lead digits trail) (horder : digits = [] → trail = [])
    (hpush : (DeclaredLength.reading digits.length (decimalValue digits)
      (decide (trail ≠ []))).push maxBody b = .error e) : Violation maxBody (seen ++ [b]) e := by
  rcases DeclaredLength.push_reading_eq_error_iff.mp hpush with ⟨rfl, hnone, rfl⟩ |
    ⟨hdigit, htrail, rfl⟩ | ⟨hdigit, htrail, hlarge, rfl⟩ | ⟨hdigit, htrail, hfits, hlarge, rfl⟩ |
    ⟨hcr, hdigit, hblank, rfl⟩
  · obtain rfl := List.length_eq_zero_iff.mp hnone
    obtain rfl := horder rfl
    exact .noDigit hinside
  · have hended : trail ≠ [] := by simpa using htrail
    exact .lateDigit hinside (fun hnil => hended (horder hnil)) hended hdigit
  · obtain rfl : trail = [] := by simpa using htrail
    rw [← decimalValue_concat] at hlarge
    exact .unrepresentable hinside hdigit hlarge
  · obtain rfl : trail = [] := by simpa using htrail
    rw [← decimalValue_concat] at hfits hlarge
    exact .tooLarge hinside hdigit hfits hlarge
  · exact .strayByte hinside hcr hdigit hblank

/-- A byte that is refused breaks a rule for the declared length. -/
theorem violation_of_push_eq_error {maxBody matched : Nat} {seen : Bytes}
    {declared : DeclaredLength} {b : UInt8} {e : ParseError} (h : Describes maxBody seen declared)
    (hmatches : Matches seen matched) (hpush : push maxBody ⟨matched, declared⟩ b = .error e) :
    Violation maxBody (seen ++ [b]) e := by
  rcases (push_eq_error_cases hmatches).mp hpush with hnumber | ⟨hends, rfl, pushed, hpushed, hline⟩
  · cases h with
    | absent none => cases hnumber
    | known only text length nonempty => cases hnumber
    | reading only text length order =>
      exact violation_of_push_reading ⟨length.isNumber, _, only.1, text⟩ order hnumber
  · -- the line began before, or the number would not have been read
    have hfirst : ∃ offset, OpeningEndsAt seen offset := by
      cases h with
      | absent none => exact absurd (Except.ok.inj hpushed).symm hline
      | reading only text length order => exact ⟨_, only.1⟩
      | known only text length nonempty => exact ⟨_, only.1⟩
    obtain ⟨offset, hfirst⟩ := hfirst
    have hearlier : offset < (seen ++ [b]).length := by
      rw [List.length_append, List.length_singleton]
      exact Nat.lt_succ_of_le hfirst.1
    exact .repeated (openingEndsAt_concat_iff.mpr (Or.inl hfirst)) hearlier hends

/-- The next byte inside the number meets the number that was read so far. -/
theorem Describes.push_inside {maxBody : Nat} {seen before lead digits trail : Bytes}
    {declared : DeclaredLength} {b c : UInt8} (h : Describes maxBody seen declared)
    (hinside : InNumber before lead digits trail) (htext : seen ++ [b] = before ++ [c]) :
    ∃ trailing, (trailing = true ↔ digits ≠ [] ∧ trail ≠ []) ∧ declared.push maxBody b =
      (DeclaredLength.reading digits.length (decimalValue digits) trailing).push maxBody c := by
  obtain ⟨rfl, rfl⟩ := List.append_singleton_inj.mp htext
  obtain ⟨trailing, rfl, htrailing⟩ := h.eq_reading hinside
  exact ⟨trailing, htrailing, rfl⟩

/-- A line that begins a second time is refused, wherever the reader stands. -/
theorem Describes.exists_push_of_endsInOpening {maxBody offset : Nat} {seen : Bytes}
    {declared : DeclaredLength} {b : UInt8} (h : Describes maxBody seen declared)
    (hfirst : OpeningEndsAt seen offset) (hagain : EndsInOpening (seen ++ [b])) :
    ∃ pushed, declared.push maxBody b = .ok pushed ∧ pushed ≠ .absent := by
  cases h with
  | absent none => exact absurd hfirst (none offset)
  | reading only text length order =>
    -- the beginning ends in a blank, which no number refuses
    refine ⟨_, DeclaredLength.push_reading_eq_ok_iff.mpr (Or.inr (Or.inr ⟨?_, rfl⟩)), ?_⟩
    · exact hagain.isBlank
    · nofun
  | known only text length nonempty => exact ⟨_, rfl, nofun⟩

theorem push_eq_error_of_violation {maxBody matched : Nat} {seen : Bytes}
    {declared : DeclaredLength} {b : UInt8} {e : ParseError} (h : Describes maxBody seen declared)
    (hmatches : Matches seen matched) (hviolation : Violation maxBody (seen ++ [b]) e) :
    push maxBody ⟨matched, declared⟩ b = .error e := by
  rw [push_eq_error_cases hmatches]
  generalize htext : seen ++ [b] = text at hviolation
  cases hviolation with
  | @repeated _ offset first earlier again =>
    subst htext
    refine Or.inr ⟨again, rfl, ?_⟩
    rcases openingEndsAt_concat_iff.mp first with hseen | ⟨rfl, -⟩
    · exact h.exists_push_of_endsInOpening hseen again
    · rw [List.length_append, List.length_singleton] at earlier
      omega
  | strayByte inside goes nodigit noblank =>
    obtain ⟨trailing, -, hpush⟩ := h.push_inside inside htext
    rw [hpush, DeclaredLength.push_reading_eq_error_iff]
    exact Or.inl (Or.inr (Or.inr (Or.inr (Or.inr ⟨goes, nodigit, noblank, rfl⟩))))
  | lateDigit inside nonempty ended digit =>
    obtain ⟨trailing, htrailing, hpush⟩ := h.push_inside inside htext
    rw [hpush, DeclaredLength.push_reading_eq_error_iff]
    exact Or.inl (Or.inr (Or.inl ⟨digit, htrailing.mpr ⟨nonempty, ended⟩, rfl⟩))
  | noDigit inside =>
    obtain ⟨trailing, -, hpush⟩ := h.push_inside inside htext
    rw [hpush, DeclaredLength.push_reading_eq_error_iff]
    exact Or.inl (Or.inl ⟨rfl, rfl, rfl⟩)
  | unrepresentable inside digit large =>
    obtain ⟨trailing, htrailing, hpush⟩ := h.push_inside inside htext
    have hopen : trailing = false := by simpa using htrailing
    rw [decimalValue_concat] at large
    rw [hpush, DeclaredLength.push_reading_eq_error_iff]
    exact Or.inl (Or.inr (Or.inr (Or.inl ⟨digit, hopen, large, rfl⟩)))
  | tooLarge inside digit fits large =>
    obtain ⟨trailing, htrailing, hpush⟩ := h.push_inside inside htext
    have hopen : trailing = false := by simpa using htrailing
    rw [decimalValue_concat] at fits large
    rw [hpush, DeclaredLength.push_reading_eq_error_iff]
    exact Or.inl (Or.inr (Or.inr (Or.inr (Or.inl ⟨digit, hopen, fits, large, rfl⟩))))

/-- A byte is refused exactly if it breaks a rule for the declared length. -/
theorem push_eq_error_iff {maxBody matched : Nat} {seen : Bytes} {declared : DeclaredLength}
    {b : UInt8} {e : ParseError} (h : Describes maxBody seen declared)
    (hmatches : Matches seen matched) :
    push maxBody ⟨matched, declared⟩ b = .error e ↔ Violation maxBody (seen ++ [b]) e :=
  ⟨violation_of_push_eq_error h hmatches, push_eq_error_of_violation h hmatches⟩

/-! ### Where the number stands -/

theorem EndsInOpening.cr_mem {bytes : Bytes} (h : EndsInOpening bytes) : Byte.cr ∈ bytes := by
  have hmem : Byte.cr ∈ bytes.map Byte.lower := h.subset (by decide)
  obtain ⟨b, hb, hlower⟩ := List.mem_map.mp hmem
  exact Byte.lower_eq_cr_iff.mp hlower ▸ hb

theorem InNumber.cr_mem {seen lead digits trail : Bytes} (h : InNumber seen lead digits trail) :
    Byte.cr ∈ seen := by
  obtain ⟨offset, hopens, -⟩ := h.opened
  exact List.mem_of_mem_take hopens.2.cr_mem

/-- A number that goes on does not end in a carriage return. -/
theorem not_inNumber_concat_cr {seen lead digits trail : Bytes} :
    ¬ InNumber (seen ++ [Byte.cr]) lead digits trail := by
  intro h
  obtain ⟨offset, hopens, htext⟩ := h.opened
  rcases openingEndsAt_concat_iff.mp hopens with ⟨hle, -⟩ | ⟨-, hends⟩
  · rw [List.drop_append_of_le_length hle] at htext
    have hcr : Byte.cr ∈ lead ++ digits ++ trail := htext ▸ by simp
    exact h.number.cr_notMem hcr
  · exact absurd hends.isBlank (by decide)

/-- A rule for the declared length is broken behind a carriage return. -/
theorem Violation.cr_mem {maxBody : Nat} {seen : Bytes} {b : UInt8} {e : ParseError}
    (h : Violation maxBody (seen ++ [b]) e) : Byte.cr ∈ seen := by
  generalize htext : seen ++ [b] = text at h
  cases h with
  | repeated first earlier again =>
    subst htext
    rcases openingEndsAt_concat_iff.mp first with hseen | ⟨rfl, -⟩
    · exact List.mem_of_mem_take hseen.2.cr_mem
    · simp at earlier
  | strayByte inside | lateDigit inside | noDigit inside | unrepresentable inside
  | tooLarge inside =>
    obtain ⟨rfl, -⟩ := List.append_singleton_inj.mp htext
    exact inside.cr_mem

/-- The blank line that ends a header breaks no rule for the declared length. -/
theorem Violation.not_endsInBlankLine {maxBody : Nat} {text : Bytes} {e : ParseError}
    (h : Violation maxBody text e) : ¬ EndsInBlankLine text := by
  intro hblank
  cases h with
  | repeated first earlier again => exact again.getLast?_ne_lf hblank.getLast?
  | strayByte inside | lateDigit inside | noDigit inside | unrepresentable inside
  | tooLarge inside =>
    obtain ⟨-, line, rfl, -⟩ := endsInBlankLine_concat.mp hblank
    exact not_inNumber_concat_cr inside

end LengthField

/-! ## The header -/

namespace RequestLine

/-- A rule for the target is broken before any carriage return. -/
theorem Violation.cr_notMem {seen : Bytes} {b : UInt8} {e : ParseError}
    (h : Violation (seen ++ [b]) e) : Byte.cr ∉ seen := by
  have htarget : ∀ {method : Method} {start path : Bytes}, Opens method start → IsTarget path →
      Byte.cr ∉ start ++ path := by
    intro method start path hopens hpath hmem
    rcases List.mem_append.mp hmem with hmem | hmem
    · cases hopens <;> revert hmem <;> decide
    · exact absurd (hpath.plain _ hmem).2 (by decide)
  generalize htext : seen ++ [b] = text at h
  cases h with
  | lineBreak opens target | tooLong opens target =>
    obtain ⟨rfl, -⟩ := List.append_singleton_inj.mp htext
    exact htarget opens target

/-- A known method has a target that is no text. -/
def Undecodable (text : Bytes) : Prop :=
  ∃ method start path rest, Opens method start ∧ IsTarget path ∧
    text = start ++ path ++ Byte.space :: rest ∧ Utf8.decode? path = none

end RequestLine

/-- The last of some bytes breaks a rule of a header. -/
inductive HeaderViolation (limits : Limits) (text : Bytes) : ParseError → Prop
  /-- The header is longer than it may be. No other rule is looked at where this one is broken. -/
  | tooLarge (long : limits.maxHeaderBytes < text.length) :
      HeaderViolation limits text (.headerTooLarge limits.maxHeaderBytes)
  | line {e : ParseError} (fits : text.length ≤ limits.maxHeaderBytes)
      (breaks : RequestLine.Violation text e) : HeaderViolation limits text e
  | length {e : ParseError} (fits : text.length ≤ limits.maxHeaderBytes)
      (breaks : LengthField.Violation limits.maxBodyBytes text e) : HeaderViolation limits text e
  /-- The header ends, and only now its target is read as text. -/
  | undecodable (fits : text.length ≤ limits.maxHeaderBytes) (ends : EndsInBlankLine text)
      (target : RequestLine.Undecodable text) :
      HeaderViolation limits text .malformedRequestLine

/-- The first of some bytes that breaks a rule is the one before this offset. No header ends
    before. -/
structure FirstViolation (limits : Limits) (bytes : Bytes) (k : Nat) (e : ParseError) : Prop where
  breaks : HeaderViolation limits (bytes.take k) e
  unbroken : ∀ j < k, ∀ e', ¬ HeaderViolation limits (bytes.take j) e'
  unended : ∀ j < k, ¬ EndsInBlankLine (bytes.take j)

theorem not_headerViolation_nil {limits : Limits} {e : ParseError} :
    ¬ HeaderViolation limits [] e := by
  generalize htext : ([] : Bytes) = text
  intro h
  cases h with
  | tooLarge long => simp [← htext] at long
  | line fits breaks => cases breaks <;> simp at htext
  | length fits breaks =>
    cases breaks with
    | repeated first earlier again => simp [← htext] at earlier
    | _ => simp at htext
  | undecodable fits ends => exact not_endsInBlankLine_nil (htext ▸ ends)

namespace HeaderReader

variable {limits : Limits} {seen : Bytes} {reader : HeaderReader} {b : UInt8} {e : ParseError}

/-- What becomes of a buffer once some bytes of it were read. -/
theorem Reads.parseHeader_append (h : Reads limits seen false reader) (bytes : Bytes) :
    parseHeader limits (seen ++ bytes) = reader.parse limits bytes := by
  generalize hopen : false = ended at h
  induction h generalizing bytes with
  | start => rfl
  | push before step ih =>
    subst hopen
    rw [List.append_assoc, ih _ rfl, List.singleton_append, parse, step]

theorem push_eq_error_cases :
    reader.push limits b = .error e ↔
      (limits.maxHeaderBytes ≤ reader.consumed ∧ e = .headerTooLarge limits.maxHeaderBytes) ∨
      (reader.consumed < limits.maxHeaderBytes ∧
        (reader.line.push b = .error e ∨
          (∃ line, reader.line.push b = .ok line) ∧
            reader.length.push limits.maxBodyBytes b = .error e)) := by
  unfold push
  by_cases hfull : limits.maxHeaderBytes ≤ reader.consumed
  · simp [hfull, Nat.not_lt_of_le hfull, @eq_comm _ e]
  · rw [if_neg hfull]
    cases reader.line.push b with
    | error e' => simp [hfull, Nat.lt_of_not_le hfull]
    | ok line =>
      cases reader.length.push limits.maxBodyBytes b with
      | error e' => simp [hfull, Nat.lt_of_not_le hfull]
      | ok length => simp [hfull]

/-- A byte is refused exactly if it breaks a rule and does not end the header. -/
theorem Reads.push_eq_error_iff (h : Reads limits seen false reader) :
    reader.push limits b = .error e ↔
      (limits.maxHeaderBytes < (seen ++ [b]).length ∧ e = .headerTooLarge limits.maxHeaderBytes) ∨
      ((seen ++ [b]).length ≤ limits.maxHeaderBytes ∧
        (RequestLine.Violation (seen ++ [b]) e ∨
          LengthField.Violation limits.maxBodyBytes (seen ++ [b]) e)) := by
  obtain ⟨hdescribes, -⟩ := h.describes
  have hlen : (seen ++ [b]).length = reader.consumed + 1 := by
    rw [List.length_append, List.length_singleton, hdescribes.consumed]
  rw [push_eq_error_cases, RequestLine.push_eq_error_iff hdescribes.line,
    LengthField.push_eq_error_iff hdescribes.declared hdescribes.matched, hlen, Nat.lt_succ_iff,
    Nat.succ_le_iff]
  refine or_congr Iff.rfl (and_congr_right fun _ => or_congr Iff.rfl ?_)
  refine and_iff_right_of_imp fun hlength => ?_
  -- the target was read to its end before the line that declares a length began
  cases hline : reader.line.push b with
  | ok line => exact ⟨line, rfl⟩
  | error e' =>
    exact absurd hlength.cr_mem
      ((RequestLine.push_eq_error_iff hdescribes.line).mp hline).cr_notMem

/-- A reader that has taken a whole header rejects it only for its target. -/
theorem finish_eq_error_iff (h : RequestLine.Describes seen reader.line)
    (hlast : seen.getLast? = some Byte.lf) :
    reader.finish = .error e ↔ e = .malformedRequestLine ∧ RequestLine.Undecodable seen := by
  have hempty : Utf8.decode? [] = some "" := Utf8.decode?_utf8 ""
  unfold finish
  constructor
  · intro hfinish
    generalize hline : reader.line = line at h hfinish
    cases h with
    | opening short unsettled => simp [RequestLine.settle, hempty] at hfinish
    | other long none => simp [RequestLine.settle, hempty] at hfinish
    | @target method start path opens target nonempty =>
      -- a target that goes on does not end in a line feed
      refine absurd ?_ (RequestLine.lf_notMem_opened opens target)
      exact List.mem_append_left _ (List.mem_of_getLast? hlast)
    | @complete method start path rest opens target =>
      simp only [RequestLine.settle] at hfinish
      cases hdecode : Utf8.decode? path with
      | none =>
        rw [hdecode] at hfinish
        exact ⟨(Except.error.inj hfinish).symm, method, start, path, rest, opens, target, rfl,
          hdecode⟩
      | some text => simp [hdecode] at hfinish
  · rintro ⟨rfl, method, start, path, rest, hopens, htarget, rfl, hdecode⟩
    rw [h.unique (.complete rest hopens htarget)]
    simp only [RequestLine.settle, hdecode]

/-- What comes of one byte more. -/
theorem Reads.parseHeader_concat (h : Reads limits seen false reader) (b : UInt8) :
    parseHeader limits (seen ++ [b]) =
      match reader.push limits b with
      | .error e => .error e
      | .ok (false, _) => .error .incomplete
      | .ok (true, reader') =>
        match reader'.finish with
        | .error e => .error e
        | .ok request => .ok (request, reader'.consumed) := by
  rw [h.parseHeader_append]
  rfl

/-- A byte that ends a blank line is taken, whatever the target before it. -/
theorem Reads.exists_push_of_endsInBlankLine (h : Reads limits seen false reader)
    (hfits : (seen ++ [b]).length ≤ limits.maxHeaderBytes)
    (hblank : EndsInBlankLine (seen ++ [b])) : ∃ next, reader.push limits b = .ok (true, next) := by
  cases hpush : reader.push limits b with
  | error e =>
    rcases h.push_eq_error_iff.mp hpush with ⟨hlong, -⟩ | ⟨-, hline | hlength⟩
    · exact absurd hfits (Nat.not_le_of_lt hlong)
    · obtain ⟨-, line, rfl, -⟩ := endsInBlankLine_concat.mp hblank
      exact absurd (by simp) hline.cr_notMem
    · exact absurd hblank hlength.not_endsInBlankLine
  | ok pushed =>
    obtain ⟨ended, next⟩ := pushed
    obtain rfl := (Reads.push h hpush).describes.2.2.1.mpr hblank
    exact ⟨next, rfl⟩

/-- Bytes that are rejected with the last of them break a rule with it. -/
theorem Reads.violation_of_rejects (h : Reads limits seen false reader)
    (hparse : parseHeader limits (seen ++ [b]) = .error e) (hsettled : e ≠ .incomplete) :
    HeaderViolation limits (seen ++ [b]) e := by
  rw [h.parseHeader_concat] at hparse
  cases hpush : reader.push limits b with
  | error e' =>
    rw [hpush] at hparse
    obtain rfl := Except.error.inj hparse
    rcases h.push_eq_error_iff.mp hpush with ⟨hlong, rfl⟩ | ⟨hfits, hline | hlength⟩
    · exact .tooLarge hlong
    · exact .line hfits hline
    · exact .length hfits hlength
  | ok pushed =>
    obtain ⟨ended, next⟩ := pushed
    rw [hpush] at hparse
    cases ended with
    | false => exact absurd (Except.error.inj hparse).symm hsettled
    | true =>
      -- the header has ended, and all that can still be refused is its target
      obtain ⟨hdescribes, -, hended, -⟩ := (Reads.push h hpush).describes
      have hblank := hended.mp rfl
      cases hfinish : next.finish with
      | ok request => simp [hfinish] at hparse
      | error e' =>
        simp only [hfinish, Except.error.injEq] at hparse
        subst hparse
        obtain ⟨rfl, htarget⟩ := (finish_eq_error_iff hdescribes.line hblank.getLast?).mp hfinish
        exact .undecodable hdescribes.fits hblank htarget

theorem Reads.rejects_of_violation (h : Reads limits seen false reader)
    (hviolation : HeaderViolation limits (seen ++ [b]) e) :
    parseHeader limits (seen ++ [b]) = .error e ∧ e ≠ .incomplete := by
  rw [h.parseHeader_concat]
  have hrefused : ∀ e', reader.push limits b = .error e' → e' ≠ .incomplete := by
    rintro e' hpush rfl
    exact absurd (isMalformed_of_push_eq_error hpush) (by decide)
  cases hviolation with
  | tooLarge long =>
    have hpush := h.push_eq_error_iff.mpr (Or.inl ⟨long, rfl⟩)
    exact ⟨by rw [hpush], hrefused _ hpush⟩
  | line fits breaks =>
    have hpush := h.push_eq_error_iff.mpr (Or.inr ⟨fits, Or.inl breaks⟩)
    exact ⟨by rw [hpush], hrefused _ hpush⟩
  | length fits breaks =>
    have hpush := h.push_eq_error_iff.mpr (Or.inr ⟨fits, Or.inr breaks⟩)
    exact ⟨by rw [hpush], hrefused _ hpush⟩
  | undecodable fits ends target =>
    obtain ⟨next, hpush⟩ := h.exists_push_of_endsInBlankLine fits ends
    obtain ⟨hdescribes, -⟩ := (Reads.push h hpush).describes
    have hfinish := (finish_eq_error_iff hdescribes.line ends.getLast?).mpr ⟨rfl, target⟩
    exact ⟨by simp only [hpush, hfinish], nofun⟩

/-- Bytes are rejected with the last of them exactly if it breaks a rule. -/
theorem Reads.rejects_iff (h : Reads limits seen false reader) :
    parseHeader limits (seen ++ [b]) = .error e ∧ e ≠ .incomplete ↔
      HeaderViolation limits (seen ++ [b]) e :=
  ⟨fun hreject => h.violation_of_rejects hreject.1 hreject.2, h.rejects_of_violation⟩

/-- Bytes leave the header open with the last of them if it was taken and did not end it. -/
theorem Reads.incomplete_iff_push (h : Reads limits seen false reader) :
    parseHeader limits (seen ++ [b]) = .error .incomplete ↔
      ∃ next, reader.push limits b = .ok (false, next) := by
  rw [h.parseHeader_concat]
  cases hpush : reader.push limits b with
  | error e =>
    have hmalformed := isMalformed_of_push_eq_error hpush
    simp only [Except.error.injEq, reduceCtorEq, exists_false, iff_false]
    rintro rfl
    cases hmalformed
  | ok pushed =>
    obtain ⟨ended, next⟩ := pushed
    cases ended with
    | false => simp
    | true =>
      cases hfinish : next.finish with
      | ok request => simp [hfinish]
      | error e =>
        have hmalformed := isMalformed_of_finish_eq_error hfinish
        simp only [hfinish, Except.error.injEq, Except.ok.injEq, Prod.mk.injEq,
          Bool.true_eq_false, false_and, exists_false, iff_false]
        rintro rfl
        cases hmalformed

/-- That is, if it breaks no rule and ends no blank line. -/
theorem Reads.incomplete_iff (h : Reads limits seen false reader) :
    parseHeader limits (seen ++ [b]) = .error .incomplete ↔
      (∀ e, ¬ HeaderViolation limits (seen ++ [b]) e) ∧ ¬ EndsInBlankLine (seen ++ [b]) := by
  constructor
  · intro hopen
    refine ⟨fun e hviolation => ?_, fun hblank => ?_⟩
    · obtain ⟨hreject, hsettled⟩ := h.rejects_iff.mpr hviolation
      rw [hopen] at hreject
      exact hsettled (Except.error.inj hreject).symm
    · obtain ⟨next, hpush⟩ := h.incomplete_iff_push.mp hopen
      exact absurd ((Reads.push h hpush).describes.2.2.1.mpr hblank) Bool.false_ne_true
  · rintro ⟨hkept, hgoes⟩
    rw [h.incomplete_iff_push]
    cases hpush : reader.push limits b with
    | error e =>
      have hreject : parseHeader limits (seen ++ [b]) = .error e := by
        rw [h.parseHeader_concat, hpush]
      refine absurd (h.rejects_iff.mp ⟨hreject, ?_⟩) (hkept e)
      rintro rfl
      cases isMalformed_of_push_eq_error hpush
    | ok pushed =>
      obtain ⟨ended, next⟩ := pushed
      cases ended with
      | false => exact ⟨next, rfl⟩
      | true => exact absurd ((Reads.push h hpush).describes.2.2.1.mp rfl) hgoes

end HeaderReader

/-! ## The verdict -/

variable {limits : Limits} {bytes : Bytes}

theorem parseHeader_take_of_incomplete (h : parseHeader limits bytes = .error .incomplete)
    (m : Nat) : parseHeader limits (bytes.take m) = .error .incomplete := by
  unfold parseHeader at h ⊢
  rw [HeaderReader.parse_take]
  split
  · rfl
  · exact h

/-- Bytes that leave the header open were all taken. -/
theorem exists_reads_of_incomplete (h : parseHeader limits bytes = .error .incomplete) :
    ∃ reader, HeaderReader.Reads limits bytes false reader := by
  induction bytes using List.reverseRecOn with
  | nil => exact ⟨_, .start⟩
  | append_singleton seen b ih =>
    have hseen := parseHeader_take_of_incomplete h seen.length
    rw [List.take_left] at hseen
    obtain ⟨reader, hreads⟩ := ih hseen
    obtain ⟨next, hpush⟩ := hreads.incomplete_iff_push.mp h
    exact ⟨next, .push hreads hpush⟩

/-- A header is open as long as no byte breaks a rule and none ends a blank line. -/
theorem parseHeader_eq_incomplete_iff :
    parseHeader limits bytes = .error .incomplete ↔
      ∀ m, (∀ e, ¬ HeaderViolation limits (bytes.take m) e) ∧ ¬ EndsInBlankLine (bytes.take m) := by
  -- the last byte comes into the offsets behind all others, and only there
  induction bytes using List.reverseRecOn with
  | nil => simp [not_headerViolation_nil, not_endsInBlankLine_nil, parseHeader, HeaderReader.parse]
  | append_singleton seen b ih =>
    have hlast : ∀ m, seen.length < m → (seen ++ [b]).take m = seen ++ [b] := by
      intro m hm
      exact List.take_of_length_le (by rw [List.length_append, List.length_singleton]; omega)
    constructor
    · intro hopen m
      have hseen := parseHeader_take_of_incomplete hopen seen.length
      rw [List.take_left] at hseen
      by_cases hm : m ≤ seen.length
      · rw [List.take_append_of_le_length hm]
        exact ih.mp hseen m
      · obtain ⟨reader, hreads⟩ := exists_reads_of_incomplete hseen
        rw [hlast m (by omega)]
        exact hreads.incomplete_iff.mp hopen
    · intro hkept
      have hseen : parseHeader limits seen = .error .incomplete := by
        refine ih.mpr fun m => ?_
        have htake := hkept (min m seen.length)
        rwa [List.take_append_of_le_length (Nat.min_le_right _ _), ← List.take_take,
          List.take_length] at htake
      obtain ⟨reader, hreads⟩ := exists_reads_of_incomplete hseen
      have hwhole := hkept (seen.length + 1)
      rw [hlast _ (Nat.lt_succ_self _)] at hwhole
      exact hreads.incomplete_iff.mpr hwhole

/-- Only the first offset that does not leave the header open settles it. -/
theorem HeaderDecidedAt.eq_of_first {k n : Nat} (h : HeaderDecidedAt limits bytes k)
    (hsettled : parseHeader limits (bytes.take n) ≠ .error .incomplete)
    (hbefore : ∀ m < n, parseHeader limits (bytes.take m) = .error .incomplete) : n = k := by
  rcases Nat.lt_trichotomy n k with hlt | heq | hlt
  · exact absurd (h.before n hlt) hsettled
  · exact heq
  · exact absurd ((h.after k (Nat.le_refl k)).symm.trans (hbefore k hlt)) h.settled

theorem headerDecidedAt_iff {k : Nat} :
    HeaderDecidedAt limits bytes k ↔
      parseHeader limits (bytes.take k) ≠ .error .incomplete ∧
        ∀ m < k, parseHeader limits (bytes.take m) = .error .incomplete := by
  constructor
  · intro h
    exact ⟨by rw [h.after k (Nat.le_refl k)]; exact h.settled, h.before⟩
  · rintro ⟨hsettled, hbefore⟩
    have hwhole : parseHeader limits bytes ≠ .error .incomplete :=
      fun hopen => hsettled (parseHeader_take_of_incomplete hopen k)
    have hdecided := headerDecidedAt_taken hwhole
    exact hdecided.eq_of_first hsettled hbefore ▸ hdecided

theorem existsUnique_headerDecidedAt (h : parseHeader limits bytes ≠ .error .incomplete) :
    ∃! k, HeaderDecidedAt limits bytes k := by
  refine ⟨_, headerDecidedAt_taken h, fun k hk => ?_⟩
  obtain ⟨hsettled, hbefore⟩ := headerDecidedAt_iff.mp hk
  exact (headerDecidedAt_taken h).eq_of_first hsettled hbefore

/-- Where everything before an offset leaves the header open, the bytes up to it are rejected
    exactly if the last of them breaks a rule. -/
theorem parseHeader_take_eq_error_iff {k : Nat} {e : ParseError}
    (hbefore : ∀ m < k, parseHeader limits (bytes.take m) = .error .incomplete) :
    parseHeader limits (bytes.take k) = .error e ∧ e ≠ .incomplete ↔
      HeaderViolation limits (bytes.take k) e := by
  cases k with
  | zero =>
    refine iff_of_false ?_ not_headerViolation_nil
    rintro ⟨hparse, hsettled⟩
    exact hsettled (Except.error.inj hparse).symm
  | succ k =>
    have hopen := hbefore k (Nat.lt_succ_self k)
    by_cases hwithin : k < bytes.length
    · obtain ⟨reader, hreads⟩ := exists_reads_of_incomplete hopen
      rw [List.take_succ_eq_append_getElem hwithin]
      exact hreads.rejects_iff
    · -- past the last byte nothing is added
      have htake : bytes.take (k + 1) = bytes.take k := by
        rw [List.take_of_length_le (by omega), List.take_of_length_le (by omega)]
      rw [htake, hopen]
      refine iff_of_false ?_ fun hviolation => ?_
      · rintro ⟨hparse, hsettled⟩
        exact hsettled (Except.error.inj hparse).symm
      · have hkept := (parseHeader_eq_incomplete_iff.mp hopen k).1 e
        rw [List.take_take, Nat.min_self] at hkept
        exact hkept hviolation

/-- A rejection is that of the first byte that breaks a rule. -/
theorem rejectedAt_iff {k : Nat} {e : ParseError} :
    HeaderDecidedAt limits bytes k ∧ parseHeader limits bytes = .error e ↔
      FirstViolation limits bytes k e := by
  constructor
  · rintro ⟨hdecided, hparse⟩
    have hreject : parseHeader limits (bytes.take k) = .error e := by
      rw [hdecided.after k (Nat.le_refl k), hparse]
    have hsettled : e ≠ .incomplete := by
      rintro rfl
      exact hdecided.settled hparse
    have hkept : ∀ j < k, (∀ e', ¬ HeaderViolation limits (bytes.take j) e') ∧
        ¬ EndsInBlankLine (bytes.take j) := by
      intro j hj
      have hopen := parseHeader_eq_incomplete_iff.mp (hdecided.before j hj) j
      rwa [List.take_take, Nat.min_self] at hopen
    exact ⟨(parseHeader_take_eq_error_iff hdecided.before).mp ⟨hreject, hsettled⟩,
      fun j hj => (hkept j hj).1, fun j hj => (hkept j hj).2⟩
  · rintro ⟨hbreaks, hunbroken, hunended⟩
    have hbefore : ∀ m < k, parseHeader limits (bytes.take m) = .error .incomplete := by
      intro m hm
      rw [parseHeader_eq_incomplete_iff]
      intro j
      rw [List.take_take]
      have hj : min j m < k := Nat.lt_of_le_of_lt (Nat.min_le_right j m) hm
      exact ⟨hunbroken _ hj, hunended _ hj⟩
    obtain ⟨hreject, hsettled⟩ := (parseHeader_take_eq_error_iff hbefore).mpr hbreaks
    have hdecided : HeaderDecidedAt limits bytes k := by
      refine headerDecidedAt_iff.mpr ⟨fun hopen => ?_, hbefore⟩
      rw [hopen] at hreject
      exact hsettled (Except.error.inj hreject).symm
    exact ⟨hdecided, by rw [← hdecided.after k (Nat.le_refl k), hreject]⟩

/-- A header is too long for its bound exactly where the verdict comes with the first byte past
    it. -/
theorem headerTooLarge_iff {k : Nat} (h : HeaderDecidedAt limits bytes k) :
    parseHeader limits bytes = .error (.headerTooLarge limits.maxHeaderBytes) ↔
      k = limits.maxHeaderBytes + 1 := by
  have hlength : (bytes.take k).length = k := List.length_take_of_le h.le_length
  constructor
  · intro hparse
    have hbreaks := (rejectedAt_iff.mp ⟨h, hparse⟩).breaks
    have hlong : limits.maxHeaderBytes < (bytes.take k).length := by
      generalize bytes.take k = text at hbreaks
      cases hbreaks with
      | tooLarge long => exact long
      | line fits breaks => cases breaks
      | length fits breaks => cases breaks
    have := h.le_bound
    omega
  · rintro rfl
    have hbreaks : HeaderViolation limits (bytes.take (limits.maxHeaderBytes + 1))
        (.headerTooLarge limits.maxHeaderBytes) := .tooLarge (by omega)
    obtain ⟨hreject, -⟩ := (parseHeader_take_eq_error_iff h.before).mpr hbreaks
    rw [← h.after _ (Nat.le_refl _), hreject]

/-- The verdict on a header is settled by one of its bytes: all before leave it open, and none after
    changes it. A header is rejected by the first byte that breaks a rule, for this rule; the rule
    is the bound of the header exactly if that byte is the first past it. A header is open only
    within its bound. -/
theorem parseHeader_verdict (limits : Limits) (bytes : Bytes) :
    (parseHeader limits bytes ≠ .error .incomplete → ∃! k, HeaderDecidedAt limits bytes k) ∧
    (∀ k e, HeaderDecidedAt limits bytes k ∧ parseHeader limits bytes = .error e ↔
      FirstViolation limits bytes k e) ∧
    (∀ k, HeaderDecidedAt limits bytes k →
      (parseHeader limits bytes = .error (.headerTooLarge limits.maxHeaderBytes) ↔
        k = limits.maxHeaderBytes + 1)) ∧
    (parseHeader limits bytes = .error .incomplete → bytes.length ≤ limits.maxHeaderBytes) :=
  ⟨existsUnique_headerDecidedAt, fun _ _ => rejectedAt_iff, fun _ => headerTooLarge_iff,
    length_le_of_parseHeader_eq_incomplete⟩

/-- A length with leading zeros is refused at its seventh digit, the first that takes it past its
    bound, and not at the byte after it, which no number holds. The same header is cut off before,
    within a smaller bound; and it is open up to this digit. -/
theorem parseHeader_verdict_zeros :
    let header := utf8 "GET / HTTP/1.1\r\nContent-Length: 0009999x\r\n\r\n"
    let narrow : Limits := { Limits.standard with maxHeaderBytes := 30 }
    parseHeader .standard header = .error (.bodyTooLarge 1024) ∧
    HeaderDecidedAt .standard header 39 ∧
    (∃! k, HeaderDecidedAt .standard header k) ∧
    FirstViolation .standard header 39 (.bodyTooLarge 1024) ∧
    HeaderDecidedAt narrow header 31 ∧
    parseHeader narrow header = .error (.headerTooLarge 30) ∧
    parseHeader .standard (header.take 38) = .error .incomplete ∧
    (header.take 38).length ≤ Limits.standard.maxHeaderBytes := by
  intro header narrow
  have hparse : parseHeader .standard header = .error (.bodyTooLarge 1024) := by decide +kernel
  have hdecided : HeaderDecidedAt .standard header 39 := by
    rw [headerDecidedAt_iff]
    decide +kernel
  have hnarrow : HeaderDecidedAt narrow header 31 := by
    rw [headerDecidedAt_iff]
    decide +kernel
  have hopen : parseHeader .standard (header.take 38) = .error .incomplete := by decide +kernel
  obtain ⟨hunique, hrejected, -, -⟩ := parseHeader_verdict .standard header
  obtain ⟨-, -, hbound, -⟩ := parseHeader_verdict narrow header
  obtain ⟨-, -, -, hwithin⟩ := parseHeader_verdict .standard (header.take 38)
  exact ⟨hparse, hdecided, hunique hdecided.settled, (hrejected 39 _).mp ⟨hdecided, hparse⟩,
    hnarrow, (hbound 31 hnarrow).mpr rfl, hopen, hwithin hopen⟩

end Http

end Provision
