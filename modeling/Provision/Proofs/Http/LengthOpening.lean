/-
  Provision.Proofs.Http.LengthOpening

  The search for the line that declares the body length. The number that the reader
  keeps is the length of the longest part of the line's beginning that the bytes end
  in (`Matches`). A carriage return stands only at the head of the beginning, so no
  part of it ends in a shorter part, and starting over at a carriage return loses
  nothing.
-/
import Mathlib.Data.List.Infix
import Mathlib.Order.Bounds.Basic
import Provision.Http.LengthField

namespace Provision

/-- Only a carriage return is read as one when letter case is ignored. -/
theorem Byte.lower_eq_cr_iff {b : UInt8} : Byte.lower b = Byte.cr ↔ b = Byte.cr := by
  unfold Byte.lower
  split
  · rename_i h
    simp only [Bool.and_eq_true, decide_eq_true_eq, UInt8.le_iff_toNat_le, UInt8.reduceToNat] at h
    simp only [Byte.cr, ← UInt8.toNat_inj, UInt8.toNat_add, UInt8.reduceToNat]
    omega
  · rfl

namespace Http.LengthField

/-- The bytes end in the beginning of the line, letter case ignored. -/
def EndsInOpening (bytes : Bytes) : Prop := opening <:+ bytes.map Byte.lower

/-- The bytes end in the first `matched` bytes of the line's beginning, and in no longer
    part of it short of the whole. -/
def Matches (seen : Bytes) (matched : Nat) : Prop :=
  IsGreatest {k | k < opening.length ∧ opening.take k <:+ seen.map Byte.lower} matched

/-- How much is matched one byte later; nothing once the whole was. -/
def advance (matched : Nat) (b : UInt8) : Nat :=
  if opening[matched]? = some (Byte.lower b) then
    if matched + 1 < opening.length then matched + 1 else 0
  else if b = Byte.cr then 1 else 0

theorem matches_nil : Matches [] 0 := by
  refine ⟨⟨by decide, by simp⟩, ?_⟩
  rintro k ⟨hk, hsuffix⟩
  have hlen := hsuffix.length_le
  rw [List.length_take, List.map_nil, List.length_nil] at hlen
  omega

/-- The carriage return stands only at the head. -/
theorem eq_zero_of_getElem?_eq_cr {k : Nat} (h : opening[k]? = some Byte.cr) : k = 0 := by
  have hall : ∀ i < opening.length, opening[i]? = some Byte.cr → i = 0 := by decide
  exact hall k (List.getElem?_eq_some_iff.mp h).1 h

/-- A word that ends in two parts of the beginning ends in none of them but the longer. -/
theorem eq_zero_of_suffix_of_suffix {word : Bytes} {j k : Nat} (hjk : j < k)
    (hk : k ≤ opening.length) (hj : opening.take j <:+ word) (hword : opening.take k <:+ word) :
    j = 0 := by
  by_contra hpos
  have hlenj : (opening.take j).length = j := by rw [List.length_take]; omega
  have hlenk : (opening.take k).length = k := by rw [List.length_take]; omega
  obtain ⟨before, hbefore⟩ := List.suffix_of_suffix_length_le hj hword (by omega)
  have hlen := congrArg List.length hbefore
  rw [List.length_append, hlenj, hlenk] at hlen
  have hcr : (opening.take k)[before.length]? = some Byte.cr := by
    rw [← hbefore, List.getElem?_append_right (Nat.le_refl _), Nat.sub_self,
      List.getElem?_take_of_lt (by omega)]
    rfl
  rw [List.getElem?_take_of_lt (by omega)] at hcr
  have := eq_zero_of_getElem?_eq_cr hcr
  omega

/-- A longer part ends where the shorter one did and its last byte follows. -/
theorem take_succ_suffix_concat_iff {word : Bytes} {c : UInt8} {k : Nat}
    (hk : k < opening.length) :
    opening.take (k + 1) <:+ word ++ [c] ↔ opening[k]? = some c ∧ opening.take k <:+ word := by
  rw [List.take_add_one, List.getElem?_eq_getElem hk, Option.toList_some]
  refine ⟨?_, ?_⟩
  · intro h
    rcases List.suffix_concat_iff.mp h with hnil | ⟨text, heq, hsuffix⟩
    · exact absurd hnil (List.append_ne_nil_of_right_ne_nil _ (List.cons_ne_nil _ _))
    · obtain ⟨rfl, hc⟩ := List.append_singleton_inj.mp heq
      exact ⟨congrArg some hc, hsuffix⟩
  · rintro ⟨hc, before, rfl⟩
    obtain rfl := Option.some.inj hc
    exact ⟨before, by simp⟩

theorem endsInOpening_concat_iff {seen : Bytes} {matched : Nat} (h : Matches seen matched)
    (b : UInt8) :
    EndsInOpening (seen ++ [b]) ↔
      opening[matched]? = some (Byte.lower b) ∧ ¬ matched + 1 < opening.length := by
  have hlast : opening.length = 17 + 1 := rfl
  have hwhole : opening = opening.take (17 + 1) := rfl
  have hconcat : EndsInOpening (seen ++ [b]) ↔
      opening[17]? = some (Byte.lower b) ∧ opening.take 17 <:+ seen.map Byte.lower := by
    rw [EndsInOpening, List.map_append, List.map_singleton, hwhole]
    exact take_succ_suffix_concat_iff (by decide)
  rw [hconcat]
  obtain ⟨⟨hlt, hsuffix⟩, hgreatest⟩ := h
  refine ⟨?_, ?_⟩
  · rintro ⟨hbyte, hshort⟩
    have hle := hgreatest ⟨by decide, hshort⟩
    obtain rfl : matched = 17 := by omega
    exact ⟨hbyte, by omega⟩
  · rintro ⟨hbyte, hfull⟩
    obtain rfl : matched = 17 := by omega
    exact ⟨hbyte, hsuffix⟩

theorem matches_advance {seen : Bytes} {matched : Nat} (h : Matches seen matched) (b : UInt8) :
    Matches (seen ++ [b]) (advance matched b) := by
  have hmap : (seen ++ [b]).map Byte.lower = seen.map Byte.lower ++ [Byte.lower b] := by simp
  have hends := endsInOpening_concat_iff h b
  obtain ⟨⟨hlt, hsuffix⟩, hgreatest⟩ := h
  have hbelow : ∀ k, k + 1 < opening.length →
      opening.take (k + 1) <:+ (seen ++ [b]).map Byte.lower →
        opening[k]? = some (Byte.lower b) ∧ opening.take k <:+ seen.map Byte.lower ∧
          k ≤ matched := by
    intro k hk htake
    rw [hmap, take_succ_suffix_concat_iff (by omega)] at htake
    exact ⟨htake.1, htake.2, hgreatest ⟨by omega, htake.2⟩⟩
  unfold advance
  by_cases hbyte : opening[matched]? = some (Byte.lower b)
  · rw [if_pos hbyte]
    by_cases hroom : matched + 1 < opening.length
    · rw [if_pos hroom]
      refine ⟨⟨hroom, ?_⟩, ?_⟩
      · rw [hmap, take_succ_suffix_concat_iff hlt]
        exact ⟨hbyte, hsuffix⟩
      · rintro (_ | k) ⟨hk, htake⟩
        · exact Nat.zero_le _
        · exact Nat.succ_le_succ (hbelow k hk htake).2.2
    · rw [if_neg hroom]
      refine ⟨⟨by decide, by simp⟩, ?_⟩
      rintro k ⟨hk, htake⟩
      have hwhole : opening.take opening.length <:+ (seen ++ [b]).map Byte.lower := by
        rw [List.take_length]
        exact hends.mpr ⟨hbyte, hroom⟩
      exact (eq_zero_of_suffix_of_suffix hk (Nat.le_refl _) htake hwhole).le
  · rw [if_neg hbyte]
    -- a part that goes on cannot be the longest one, and so it is the head alone
    have honly : ∀ k, k + 1 < opening.length →
        opening.take (k + 1) <:+ (seen ++ [b]).map Byte.lower → k = 0 ∧ b = Byte.cr := by
      intro k hk htake
      obtain ⟨hkbyte, hshort, hle⟩ := hbelow k hk htake
      have hne : k ≠ matched := fun heq => hbyte (heq ▸ hkbyte)
      obtain rfl := eq_zero_of_suffix_of_suffix (by omega) hlt.le hshort hsuffix
      exact ⟨rfl, Byte.lower_eq_cr_iff.mp (Option.some.inj hkbyte).symm⟩
    by_cases hcr : b = Byte.cr
    · rw [if_pos hcr]
      refine ⟨⟨by decide, ?_⟩, ?_⟩
      · rw [hmap, take_succ_suffix_concat_iff (by decide), hcr]
        exact ⟨rfl, by simp⟩
      · rintro (_ | k) ⟨hk, htake⟩
        · exact Nat.zero_le _
        · exact Nat.succ_le_succ (honly k hk htake).1.le
    · rw [if_neg hcr]
      refine ⟨⟨by decide, by simp⟩, ?_⟩
      rintro (_ | k) ⟨hk, htake⟩
      · exact Nat.le_refl _
      · exact absurd (honly k hk htake).2 hcr

theorem exists_matches (seen : Bytes) : ∃ matched, Matches seen matched := by
  induction seen using List.reverseRecOn with
  | nil => exact ⟨0, matches_nil⟩
  | append_singleton seen b ih =>
    obtain ⟨matched, hmatches⟩ := ih
    exact ⟨advance matched b, matches_advance hmatches b⟩

end Http.LengthField

end Provision
