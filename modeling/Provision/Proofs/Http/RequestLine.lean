/-
  Provision.Proofs.Http.RequestLine

  Method and target on whole buffers. `RequestLine.Names` is the rule: a buffer that
  opens with a known method goes on with a target and a space, any other names
  nothing. `RequestLine.Describes` is what the states of the reader know of the bytes
  before them; `describes_push` carries it over a byte, and `exists_push_of_describes`
  takes the last byte off again.
-/
import Mathlib.Data.List.Infix
import Provision.Http.RequestLine
import Provision.Text.Utf8

namespace Provision.Http

/-! ## The rule -/

/-- The bytes that open a header with a method that is told apart. -/
inductive Opens : Method → Bytes → Prop
  | get : Opens .get RequestLine.getOpening
  | post : Opens .post RequestLine.postOpening

/-- The bytes of a target: no more than its bound, no space and no line break. -/
structure IsTarget (path : Bytes) : Prop where
  /-- The target keeps its bound. -/
  short : path.length ≤ maxPathLength
  /-- The target is one word. -/
  plain : ∀ b ∈ path, b ≠ Byte.space ∧ Byte.isBreak b = false

/-- What the bytes of a header name. -/
inductive RequestLine.Names (bytes : Bytes) : Method → String → Prop
  /-- A known method, and its target up to the next space. -/
  | known {method : Method} {start rest : Bytes} {path : String} (opens : Opens method start)
      (target : IsTarget (utf8 path)) (split : bytes = start ++ utf8 path ++ Byte.space :: rest) :
      Names bytes method path
  /-- No known method opens the header. -/
  | unknown (none : ∀ method start, Opens method start → ¬ start <+: bytes) :
      Names bytes .unknown ""

theorem Opens.length_le {method : Method} {start : Bytes} (h : Opens method start) :
    start.length ≤ RequestLine.postOpening.length := by
  cases h <;> decide

theorem Opens.ne_nil {method : Method} {start : Bytes} (h : Opens method start) : start ≠ [] := by
  cases h <;> decide

/-- No opening holds a line feed. -/
theorem Opens.lf_notMem {method : Method} {start : Bytes} (h : Opens method start) :
    Byte.lf ∉ start := by
  cases h <;> decide

theorem isTarget_nil : IsTarget [] := ⟨Nat.zero_le _, by simp⟩

theorem isTarget_concat {path : Bytes} {b : UInt8} :
    IsTarget (path ++ [b]) ↔
      IsTarget path ∧ path.length ≠ maxPathLength ∧ b ≠ Byte.space ∧ Byte.isBreak b = false := by
  refine ⟨?_, ?_⟩
  · rintro ⟨hshort, hplain⟩
    rw [List.length_append, List.length_singleton] at hshort
    rw [List.forall_mem_append, List.forall_mem_singleton] at hplain
    exact ⟨⟨by omega, hplain.1⟩, by omega, hplain.2⟩
  · rintro ⟨⟨hshort, hplain⟩, hroom, hb⟩
    refine ⟨by rw [List.length_append, List.length_singleton]; omega, ?_⟩
    exact List.forall_mem_append.mpr ⟨hplain, List.forall_mem_singleton.mpr hb⟩

/-! ## What the reader knows -/

namespace RequestLine

/-- What a state says of the bytes before it. -/
inductive Describes : Bytes → RequestLine → Prop
  | opening {seen : Bytes} (short : seen.length ≤ postOpening.length)
      (unsettled : ∀ method start, Opens method start → start <+: seen → seen = start) :
      Describes seen (.opening seen)
  | target {method : Method} {start path : Bytes} (opens : Opens method start)
      (target : IsTarget path) (nonempty : path ≠ []) :
      Describes (start ++ path) (.target method path)
  | complete {method : Method} {start path : Bytes} (rest : Bytes) (opens : Opens method start)
      (target : IsTarget path) :
      Describes (start ++ path ++ Byte.space :: rest) (.complete method path)
  | other {seen : Bytes} (long : postOpening.length < seen.length)
      (none : ∀ method start, Opens method start → ¬ start <+: seen) : Describes seen .other

/-- The state inside a target; its first byte is still read from the opening. -/
def within (method : Method) (start path : Bytes) : RequestLine :=
  if path = [] then .opening start else .target method path

theorem describes_nil : Describes [] (.opening []) := by
  refine .opening (by decide) ?_
  intro method start hopens hstarts
  exact absurd (List.prefix_nil.mp hstarts) hopens.ne_nil

theorem eq_opening_of_describes_nil {line : RequestLine} (h : Describes [] line) :
    line = .opening [] := by
  generalize hnil : ([] : Bytes) = seen at h
  cases h with
  | opening => rfl
  | target opens => exact absurd (List.append_eq_nil_iff.mp hnil.symm).1 opens.ne_nil
  | complete => simp at hnil
  | other long =>
    rw [← hnil] at long
    exact absurd long (by decide)

theorem describes_within {method : Method} {start path : Bytes} (hopens : Opens method start)
    (htarget : IsTarget path) : Describes (start ++ path) (within method start path) := by
  by_cases hpath : path = []
  · subst hpath
    rw [within, if_pos rfl, List.append_nil]
    refine .opening hopens.length_le ?_
    intro method' start' hopens' hstarts
    cases hopens <;> cases hopens' <;> revert hstarts <;> decide
  · rw [within, if_neg hpath]
    exact .target hopens htarget hpath

theorem push_within {method : Method} {start : Bytes} (hopens : Opens method start)
    (path : Bytes) (b : UInt8) : (within method start path).push b = pushTarget method path b := by
  by_cases hpath : path = []
  · subst hpath
    rw [within, if_pos rfl]
    cases hopens <;> rfl
  · rw [within, if_neg hpath, push]

/-- What can come of a byte inside a target that is no error. -/
theorem pushTarget_eq_ok_iff {method : Method} {path : Bytes} {b : UInt8} {line : RequestLine} :
    pushTarget method path b = .ok line ↔
      (b = Byte.space ∧ line = .complete method path) ∨
      (path.length ≠ maxPathLength ∧ b ≠ Byte.space ∧ Byte.isBreak b = false ∧
        line = .target method (path ++ [b])) := by
  by_cases hspace : b = Byte.space
  · subst hspace
    simp [pushTarget, @eq_comm _ line]
  · by_cases hbreak : Byte.isBreak b = true
    · simp [pushTarget, hspace, hbreak]
    · by_cases hfull : path.length = maxPathLength
      · simp [pushTarget, hspace, hbreak, hfull]
      · simp [pushTarget, hspace, hbreak, hfull, @eq_comm _ line]

/-- Before an opening is whole, and where none is, bytes are only collected. -/
theorem push_opening {seen : Bytes} (hnone : ∀ method, ¬ Opens method seen) (b : UInt8) :
    (opening seen).push b =
      .ok (if seen.length < postOpening.length then .opening (seen ++ [b]) else .other) := by
  have hget : seen ≠ getOpening := fun h => hnone .get (h ▸ .get)
  have hpost : seen ≠ postOpening := fun h => hnone .post (h ▸ .post)
  simp only [push, if_neg hget, if_neg hpost]
  split <;> rfl

/-! ## One byte more, one byte less -/

theorem describes_pushTarget {method : Method} {start path : Bytes} {b : UInt8}
    {line : RequestLine} (hopens : Opens method start) (htarget : IsTarget path)
    (hpush : pushTarget method path b = .ok line) : Describes (start ++ path ++ [b]) line := by
  rcases pushTarget_eq_ok_iff.mp hpush with ⟨rfl, rfl⟩ | ⟨hroom, hspace, hbreak, rfl⟩
  · exact .complete [] hopens htarget
  · rw [List.append_assoc]
    exact .target hopens (isTarget_concat.mpr ⟨htarget, hroom, hspace, hbreak⟩) (by simp)

theorem describes_push {seen : Bytes} {line line' : RequestLine} {b : UInt8}
    (h : Describes seen line) (hpush : line.push b = .ok line') :
    Describes (seen ++ [b]) line' := by
  cases h with
  | opening short unsettled =>
    by_cases hopens : ∃ method, Opens method seen
    · obtain ⟨method, hopens⟩ := hopens
      have hwithin := push_within hopens [] b
      rw [within, if_pos rfl, hpush] at hwithin
      -- the opening is whole: this byte is the first of the target
      simpa using describes_pushTarget hopens isTarget_nil hwithin.symm
    · -- no opening is whole yet, so none is a prefix of the bytes seen
      have hnone : ∀ method start, Opens method start → ¬ start <+: seen := by
        intro method start hstart hstarts
        exact hopens ⟨method, unsettled method start hstart hstarts ▸ hstart⟩
      rw [push_opening (fun method hseen => hopens ⟨method, hseen⟩)] at hpush
      obtain rfl := Except.ok.inj hpush
      split
      · refine .opening (by rw [List.length_append, List.length_singleton]; omega) ?_
        intro method start hstart hstarts
        rcases List.prefix_concat_iff.mp hstarts with heq | hstarts
        · exact heq.symm
        · exact absurd hstarts (hnone method start hstart)
      · have hlen : (seen ++ [b]).length = seen.length + 1 := by simp
        refine .other (by omega) ?_
        intro method start hstart hstarts
        rcases List.prefix_concat_iff.mp hstarts with heq | hstarts
        · have := hstart.length_le
          rw [heq] at this
          omega
        · exact hnone method start hstart hstarts
  | target opens target nonempty =>
    exact describes_pushTarget opens target hpush
  | complete rest opens target =>
    obtain rfl := Except.ok.inj hpush
    have hsnoc := Describes.complete (rest ++ [b]) opens target
    simpa using hsnoc
  | other long none =>
    obtain rfl := Except.ok.inj hpush
    refine .other (by rw [List.length_append, List.length_singleton]; omega) ?_
    intro method start hstart hstarts
    rcases List.prefix_concat_iff.mp hstarts with heq | hstarts
    · have := hstart.length_le
      rw [heq, List.length_append, List.length_singleton] at this
      omega
    · exact none method start hstart hstarts

/-- Bytes that a state describes were read: without the last of them some state describes
    the rest, and reading that byte leads from the one to the other. -/
theorem exists_push_of_describes {seen : Bytes} {line' : RequestLine} {b : UInt8}
    (h : Describes (seen ++ [b]) line') :
    ∃ line, Describes seen line ∧ line.push b = .ok line' := by
  have hlen : (seen ++ [b]).length = seen.length + 1 := by simp
  generalize hfull : seen ++ [b] = full at h hlen
  cases h with
  | opening short unsettled =>
    subst hfull
    have hnone : ∀ method start, Opens method start → ¬ start <+: seen := by
      intro method start hstart hstarts
      have heq := unsettled method start hstart (List.prefix_append_of_prefix hstarts)
      have hle := hstarts.length_le
      rw [← heq] at hle
      omega
    refine ⟨.opening seen, .opening (by omega) ?_, ?_⟩
    · intro method start hstart hstarts
      exact absurd hstarts (hnone method start hstart)
    · rw [push_opening (fun method hseen => hnone method seen hseen (List.prefix_refl seen)),
        if_pos (by omega)]
  | @target method start path opens target nonempty =>
    -- the byte is the last of the target, and was read inside it or right at its start
    obtain ⟨text, c, rfl⟩ := (List.eq_nil_or_concat path).resolve_left nonempty
    rw [List.concat_eq_append, ← List.append_assoc] at hfull
    obtain ⟨rfl, rfl⟩ := List.append_singleton_inj.mp hfull
    rw [List.concat_eq_append, isTarget_concat] at target
    obtain ⟨htext, hroom, hspace, hbreak⟩ := target
    refine ⟨within method start text, describes_within opens htext, ?_⟩
    rw [push_within opens, List.concat_eq_append, pushTarget_eq_ok_iff]
    exact Or.inr ⟨hroom, hspace, hbreak, rfl⟩
  | @complete method start path rest opens target =>
    -- the byte is the space that ended the target, or one that came later
    rcases List.eq_nil_or_concat rest with rfl | ⟨before, c, rfl⟩
    · obtain ⟨rfl, rfl⟩ := List.append_singleton_inj.mp hfull
      refine ⟨within method start path, describes_within opens target, ?_⟩
      rw [push_within opens, pushTarget_eq_ok_iff]
      exact Or.inl ⟨rfl, rfl⟩
    · have hsnoc : start ++ path ++ Byte.space :: before.concat c
          = (start ++ path ++ Byte.space :: before) ++ [c] := by simp
      rw [hsnoc] at hfull
      obtain ⟨rfl, rfl⟩ := List.append_singleton_inj.mp hfull
      exact ⟨.complete method path, .complete before opens target, rfl⟩
  | other long none =>
    subst hfull
    have hnone : ∀ method start, Opens method start → ¬ start <+: seen := by
      intro method start hstart hstarts
      exact none method start hstart (List.prefix_append_of_prefix hstarts)
    -- bytes too short to rule an opening out by their length are still collected
    by_cases hshort : seen.length ≤ postOpening.length
    · refine ⟨.opening seen, .opening hshort ?_, ?_⟩
      · intro method start hstart hstarts
        exact absurd hstarts (hnone method start hstart)
      · rw [push_opening (fun method hseen => hnone method seen hseen (List.prefix_refl seen)),
          if_neg (by omega)]
    · exact ⟨.other, .other (by omega) hnone, rfl⟩

/-! ## The end of the header

A header ends in a line feed, which no opening and no target holds. So whatever the buffer
opens with is already there when the header ends. -/

theorem starts_header_of_starts {text header rest : Bytes} (hlast : header.getLast? = some Byte.lf)
    (htext : Byte.lf ∉ text) (hstarts : text <+: header ++ rest) : text <+: header := by
  rcases List.prefix_or_prefix_of_prefix hstarts (List.prefix_append header rest) with h | h
  · exact h
  · exact absurd (h.subset (List.mem_of_getLast? hlast)) htext

theorem lf_notMem_opened {method : Method} {start path : Bytes} (hopens : Opens method start)
    (htarget : IsTarget path) : Byte.lf ∉ start ++ path ++ [Byte.space] := by
  intro hmem
  simp only [List.mem_append, List.mem_singleton] at hmem
  rcases hmem with (hmem | hmem) | hmem
  · exact hopens.lf_notMem hmem
  · exact absurd (htarget.plain _ hmem).2 (by decide)
  · exact absurd hmem (by decide)

theorem names_of_settle {header rest : Bytes} {line : RequestLine} {method : Method}
    {path : String} (h : Describes header line) (hlast : header.getLast? = some Byte.lf)
    (hsettle : line.settle = .ok (method, utf8 path)) : Names (header ++ rest) method path := by
  have hunknown : (∀ method start, Opens method start → ¬ start <+: header) →
      (Method.unknown, ([] : Bytes)) = (method, utf8 path) →
        Names (header ++ rest) method path := by
    intro hnone heq
    obtain ⟨rfl, hpath⟩ := Prod.mk.inj heq
    obtain rfl : path = "" := utf8_inj.mp (hpath.symm.trans rfl)
    refine .unknown (fun method start hstart hstarts => ?_)
    exact hnone method start hstart (starts_header_of_starts hlast hstart.lf_notMem hstarts)
  cases h with
  | opening short unsettled =>
    refine hunknown (fun method start hstart hstarts => ?_) (Except.ok.inj hsettle)
    have heq := unsettled method start hstart hstarts
    exact hstart.lf_notMem (heq ▸ List.mem_of_getLast? hlast)
  | target opens target nonempty => cases hsettle
  | @complete _ start text tail opens target =>
    obtain ⟨rfl, rfl⟩ := Prod.mk.inj (Except.ok.inj hsettle)
    have hsplit : start ++ utf8 path ++ Byte.space :: tail ++ rest
        = start ++ utf8 path ++ Byte.space :: (tail ++ rest) := by simp
    exact .known opens target hsplit
  | other long none => exact hunknown none (Except.ok.inj hsettle)

theorem exists_describes_of_names {header rest : Bytes} {method : Method} {path : String}
    (h : Names (header ++ rest) method path) (hlast : header.getLast? = some Byte.lf) :
    ∃ line, Describes header line ∧ line.settle = .ok (method, utf8 path) := by
  cases h with
  | @known _ start tail _ opens target split =>
    have hstarts : start ++ utf8 path ++ [Byte.space] <+: header ++ rest :=
      ⟨tail, by rw [split]; simp⟩
    obtain ⟨after, rfl⟩ :=
      starts_header_of_starts hlast (lf_notMem_opened opens target) hstarts
    refine ⟨.complete method (utf8 path), ?_, rfl⟩
    simpa using Describes.complete after opens target
  | unknown none =>
    have hnone : ∀ method start, Opens method start → ¬ start <+: header := by
      intro method start hstart hstarts
      exact none method start hstart (hstarts.trans (List.prefix_append header rest))
    by_cases hshort : header.length ≤ postOpening.length
    · refine ⟨.opening header, .opening hshort ?_, rfl⟩
      intro method start hstart hstarts
      exact absurd hstarts (hnone method start hstart)
    · exact ⟨.other, .other (by omega) hnone, rfl⟩

end RequestLine

end Provision.Http
