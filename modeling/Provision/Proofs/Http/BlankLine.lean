/-
  Provision.Proofs.Http.BlankLine

  Where a header ends. The blank line is CR LF CR LF, but a carriage return that
  follows another one takes the first one back, so only a run of odd length counts as
  the start of a line break: `EndsInBlankLine` says so on whole buffers, and
  `BlankLine.Describes` is what each state of the recognizer knows of the bytes
  before it.
-/
import Mathlib.Algebra.Ring.Parity
import Mathlib.Data.List.DropRight
import Provision.Http.BlankLine

namespace Provision.Http

/-! ## Line breaks on whole buffers -/

/-- The length of the maximal run of carriage returns that the bytes end in. -/
def trailingReturns (bytes : Bytes) : Nat := (bytes.rtakeWhile (· == Byte.cr)).length

@[simp] theorem trailingReturns_concat (bytes : Bytes) (b : UInt8) :
    trailingReturns (bytes ++ [b]) = if b = Byte.cr then trailingReturns bytes + 1 else 0 := by
  by_cases h : b = Byte.cr <;> simp [trailingReturns, h]

/-- The bytes end in a line break: a line feed after a run of carriage returns of odd
    length. -/
def EndsInLineBreak (bytes : Bytes) : Prop :=
  ∃ before, bytes = before ++ [Byte.lf] ∧ Odd (trailingReturns before)

/-- The bytes end in CR LF CR LF, and the first carriage return is the last of a
    maximal run of odd length. -/
def EndsInBlankLine (bytes : Bytes) : Prop :=
  ∃ before, bytes = before ++ [Byte.lf, Byte.cr, Byte.lf] ∧ Odd (trailingReturns before)

/-- The header at the front of `bytes` ends at offset `n`, the first that ends a blank
    line. -/
structure HeaderEndsAt (bytes : Bytes) (n : Nat) : Prop where
  /-- The offset lies within the bytes. -/
  within : n ≤ bytes.length
  /-- A blank line ends there. -/
  blank : EndsInBlankLine (bytes.take n)
  /-- None ends before. -/
  first : ∀ m < n, ¬ EndsInBlankLine (bytes.take m)

theorem endsInLineBreak_concat {bytes : Bytes} {b : UInt8} :
    EndsInLineBreak (bytes ++ [b]) ↔ b = Byte.lf ∧ Odd (trailingReturns bytes) := by
  refine ⟨?_, ?_⟩
  · rintro ⟨before, heq, hodd⟩
    obtain ⟨rfl, rfl⟩ := List.append_singleton_inj.mp heq
    exact ⟨rfl, hodd⟩
  · rintro ⟨rfl, hodd⟩
    exact ⟨bytes, rfl, hodd⟩

theorem endsInBlankLine_concat {bytes : Bytes} {b : UInt8} :
    EndsInBlankLine (bytes ++ [b]) ↔
      b = Byte.lf ∧ ∃ line, bytes = line ++ [Byte.cr] ∧ EndsInLineBreak line := by
  refine ⟨?_, ?_⟩
  · rintro ⟨before, heq, hodd⟩
    have hsplit : before ++ [Byte.lf, Byte.cr, Byte.lf]
        = (before ++ [Byte.lf] ++ [Byte.cr]) ++ [Byte.lf] := by simp
    rw [hsplit] at heq
    obtain ⟨rfl, rfl⟩ := List.append_singleton_inj.mp heq
    exact ⟨rfl, before ++ [Byte.lf], rfl, endsInLineBreak_concat.mpr ⟨rfl, hodd⟩⟩
  · rintro ⟨rfl, line, rfl, before, rfl, hodd⟩
    exact ⟨before, by simp, hodd⟩

theorem not_endsInBlankLine_nil : ¬ EndsInBlankLine [] := by
  rintro ⟨before, heq, -⟩
  simp at heq

/-- A blank line ends in a line feed, and so does the header it ends. -/
theorem EndsInBlankLine.getLast? {bytes : Bytes} (h : EndsInBlankLine bytes) :
    bytes.getLast? = some Byte.lf := by
  obtain ⟨before, rfl, -⟩ := h
  simp

theorem EndsInLineBreak.trailingReturns_eq_zero {bytes : Bytes} (h : EndsInLineBreak bytes) :
    trailingReturns bytes = 0 := by
  obtain ⟨before, rfl, -⟩ := h
  rw [trailingReturns_concat, if_neg (by decide)]

/-! ## What the recognizer knows -/

namespace BlankLine

/-- What a state says of the bytes before it, as long as no blank line has ended. -/
def Describes (state : BlankLine) (seen : Bytes) : Prop :=
  match state with
  | nothing => ¬ Odd (trailingReturns seen) ∧ ¬ EndsInLineBreak seen
  | cr => Odd (trailingReturns seen) ∧ ¬ ∃ line, seen = line ++ [Byte.cr] ∧ EndsInLineBreak line
  | crLf => EndsInLineBreak seen
  | crLfCr => ∃ line, seen = line ++ [Byte.cr] ∧ EndsInLineBreak line

theorem describes_nothing : nothing.Describes [] := by
  refine ⟨by simp [trailingReturns], ?_⟩
  rintro ⟨before, heq, -⟩
  simp at heq

/-- A byte starts the recognizer over when it is no carriage return, unless it ends a run
    of even length, and no line feed, unless none of odd length stands before it. -/
theorem describes_nothing_concat {seen : Bytes} {b : UInt8}
    (hcr : b = Byte.cr → Odd (trailingReturns seen))
    (hlf : b = Byte.lf → ¬ Odd (trailingReturns seen)) :
    nothing.Describes (seen ++ [b]) := by
  refine ⟨?_, ?_⟩
  · rw [trailingReturns_concat]
    split
    · rename_i hb
      exact Nat.not_odd_iff_even.mpr (hcr hb).add_one
    · simp
  · rw [endsInLineBreak_concat]
    rintro ⟨hb, hodd⟩
    exact hlf hb hodd

/-- The byte that ends a blank line is the one that the recognizer says so of. -/
theorem push_ended_iff {seen : Bytes} {state : BlankLine} (h : state.Describes seen) (b : UInt8) :
    (state.push b).1 = true ↔ EndsInBlankLine (seen ++ [b]) := by
  rw [endsInBlankLine_concat]
  cases state with
  | nothing =>
    obtain ⟨heven, -⟩ := h
    -- one carriage return after a line break would be a run of odd length
    have hno : ¬ ∃ line, seen = line ++ [Byte.cr] ∧ EndsInLineBreak line := by
      rintro ⟨line, rfl, hline⟩
      apply heven
      rw [trailingReturns_concat, if_pos rfl, hline.trailingReturns_eq_zero]
      exact odd_one
    simp [push, hno]
  | cr => simp [push, h.2]
  | crLf =>
    have hno : ¬ ∃ line, seen = line ++ [Byte.cr] ∧ EndsInLineBreak line := by
      rintro ⟨line, rfl, -⟩
      exact absurd (endsInLineBreak_concat.mp h).1 (by decide)
    simp [push, hno]
  | crLfCr =>
    have hyes : ∃ line, seen = line ++ [Byte.cr] ∧ EndsInLineBreak line := h
    by_cases hb : b = Byte.lf <;> simp [push, hb, hyes]

/-- One byte later the state says what it should of one byte more. -/
theorem describes_push {seen : Bytes} {state : BlankLine} {b : UInt8}
    (h : state.Describes seen) (hopen : (state.push b).1 = false) :
    (state.push b).2.Describes (seen ++ [b]) := by
  cases state with
  | nothing =>
    obtain ⟨heven, hbreak⟩ := h
    by_cases hb : b = Byte.cr
    · subst hb
      refine ⟨?_, ?_⟩
      · rw [trailingReturns_concat, if_pos rfl]
        exact (Nat.not_odd_iff_even.mp heven).add_one
      · rintro ⟨line, heq, hline⟩
        obtain ⟨rfl, -⟩ := List.append_singleton_inj.mp heq
        exact hbreak hline
    · have hnext : (push nothing b).2 = nothing := by simp [push, hb]
      rw [hnext]
      exact describes_nothing_concat (fun hcr => absurd hcr hb) (fun _ => heven)
  | cr =>
    obtain ⟨hodd, -⟩ := h
    by_cases hb : b = Byte.lf
    · subst hb
      exact endsInLineBreak_concat.mpr ⟨rfl, hodd⟩
    · have hnext : (push cr b).2 = nothing := by simp [push, hb]
      rw [hnext]
      exact describes_nothing_concat (fun _ => hodd) (fun hlf => absurd hlf hb)
  | crLf =>
    have hbreak : EndsInLineBreak seen := h
    by_cases hb : b = Byte.cr
    · subst hb
      exact ⟨seen, rfl, hbreak⟩
    · have hnext : (push crLf b).2 = nothing := by simp [push, hb]
      rw [hnext]
      -- after a line feed no carriage return is left to end a line break with
      refine describes_nothing_concat (fun hcr => absurd hcr hb) (fun _ => ?_)
      simp [hbreak.trailingReturns_eq_zero]
  | crLfCr =>
    obtain ⟨line, rfl, hline⟩ := h
    -- a line feed would have ended the header here
    have hb : b ≠ Byte.lf := by
      rintro rfl
      simp [push] at hopen
    have hnext : (push crLfCr b).2 = nothing := by simp [push, hb]
    rw [hnext]
    refine describes_nothing_concat (fun _ => ?_) (fun hlf => absurd hlf hb)
    simp [hline.trailingReturns_eq_zero]

end BlankLine

end Provision.Http
