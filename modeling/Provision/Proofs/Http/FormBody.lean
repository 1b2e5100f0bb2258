/-
  Provision.Proofs.Http.FormBody

  The body of a form on whole buffers. `FormBody.split` cuts a body into pairs: a name
  up to the next equals sign, line breaks left out, and a value up to the next line
  break or the end. What is said of a body is said along its pairs
  (`FormBody.split_induction`). `FormReader.closes_iff` says which bodies the reader gets
  through, and that it then has staged the last value of every pair's field.
-/
import Mathlib.Data.List.TakeWhile
import Provision.Http.Form

namespace Provision.Http

/-! ## The pairs of a body -/

/-- A name and the value that is given for it. -/
structure FormPair where
  /-- The name, without line breaks. -/
  name : Bytes
  /-- The value. -/
  value : Bytes
deriving DecidableEq

namespace FormBody

/-- The bytes without their line breaks. -/
def unbroken (bytes : Bytes) : Bytes := bytes.filter fun b => !Byte.isBreak b

/-- The pairs of a body, and the bytes after the last of them. -/
def split (body : Bytes) : List FormPair × Bytes :=
  match _h : body.dropWhile (· != Byte.equals) with
  | [] => ([], body)
  | _ :: rest =>
    let (pairs, left) := split (rest.dropWhile fun b => !Byte.isBreak b).tail
    (⟨unbroken (body.takeWhile (· != Byte.equals)), rest.takeWhile fun b => !Byte.isBreak b⟩ ::
      pairs, left)
termination_by body.length
decreasing_by
  have hbody := (List.dropWhile_suffix (l := body) (· != Byte.equals)).length_le
  have hrest := (List.dropWhile_suffix (l := rest) fun b => !Byte.isBreak b).length_le
  rw [_h, List.length_cons] at hbody
  rw [List.length_tail]
  omega

/-- The last value that the pairs give for a name. -/
def lastValue? (pairs : List FormPair) (name : Bytes) : Option Bytes :=
  ((pairs.filter fun pair => pair.name = name).getLast?).map FormPair.value

/-- A pair that a form takes: its name is that of a field, and both parts keep their bounds. -/
structure Fits (fields : List Field) (pair : FormPair) : Prop where
  /-- The name keeps its bound. -/
  name_short : pair.name.length ≤ maxNameLength
  /-- The name is a field's. -/
  name_known : ∃ field ∈ fields, utf8 field.name = pair.name
  /-- The value keeps its bound. -/
  value_short : pair.value.length ≤ maxValueLength

/-- All pairs of a body fit the fields, and only line breaks follow the last one. -/
def IsForm (fields : List Field) (body : Bytes) : Prop :=
  (∀ pair ∈ (split body).1, Fits fields pair) ∧ ∀ b ∈ (split body).2, Byte.isBreak b = true

@[simp] theorem lastValue?_nil (name : Bytes) : lastValue? [] name = none := rfl

theorem lastValue?_concat (pairs : List FormPair) (pair : FormPair) (name : Bytes) :
    lastValue? (pairs ++ [pair]) name =
      if pair.name = name then some pair.value else lastValue? pairs name := by
  unfold lastValue?
  split
  · rename_i h
    simp [h]
  · rename_i h
    simp [h]

/-- A last value is the value of one of the pairs. -/
theorem exists_mem_of_lastValue? {pairs : List FormPair} {name value : Bytes}
    (h : lastValue? pairs name = some value) : ∃ pair ∈ pairs, pair.value = value := by
  obtain ⟨pair, hlast, rfl⟩ := Option.map_eq_some_iff.mp h
  exact ⟨pair, (List.mem_filter.mp (List.mem_of_getLast? hlast)).1, rfl⟩

/-! ## Cutting a body -/

/-- Bytes without an equals sign hold no pair. -/
theorem split_of_notMem {body : Bytes} (h : Byte.equals ∉ body) : split body = ([], body) := by
  have hnone : body.dropWhile (· != Byte.equals) = [] := by
    rw [List.dropWhile_eq_nil_iff]
    intro b hb
    simpa using ne_of_mem_of_not_mem hb h
  rw [split]
  split
  · rfl
  · rename_i hrest
    rw [hnone] at hrest
    cases hrest

/-- The first pair of a body. Its value goes on to a line break, or to the end. -/
theorem split_pair {name value after : Bytes} (hname : Byte.equals ∉ name)
    (hvalue : ∀ b ∈ value, Byte.isBreak b = false)
    (hafter : ∀ b ∈ after.head?, Byte.isBreak b = true) :
    split (name ++ Byte.equals :: (value ++ after)) =
      (⟨unbroken name, value⟩ :: (split after.tail).1, (split after.tail).2) := by
  -- the equals sign is the first one
  have hstay : ∀ b ∈ name, (b != Byte.equals) = true := by
    intro b hb
    simpa using ne_of_mem_of_not_mem hb hname
  have hdrop : (name ++ Byte.equals :: (value ++ after)).dropWhile (· != Byte.equals) =
      Byte.equals :: (value ++ after) := by
    rw [List.dropWhile_append_of_pos hstay, List.dropWhile_cons_of_neg (by simp)]
  have htake : (name ++ Byte.equals :: (value ++ after)).takeWhile (· != Byte.equals) = name := by
    rw [List.takeWhile_append_of_pos hstay, List.takeWhile_cons_of_neg (by simp), List.append_nil]
  -- and no line break comes before that which ends the value
  have hgo : ∀ b ∈ value, (!Byte.isBreak b) = true := by
    intro b hb
    rw [hvalue b hb]
    rfl
  have hend : after.dropWhile (fun b => !Byte.isBreak b) = after ∧
      after.takeWhile (fun b => !Byte.isBreak b) = [] := by
    cases after with
    | nil => exact ⟨rfl, rfl⟩
    | cons b after =>
      have hbreak : Byte.isBreak b = true := hafter b rfl
      exact ⟨List.dropWhile_cons_of_neg (by simp [hbreak]),
        List.takeWhile_cons_of_neg (by simp [hbreak])⟩
  rw [split]
  split
  · rename_i hnone
    rw [hdrop] at hnone
    cases hnone
  · rename_i rest hrest
    rw [hdrop] at hrest
    obtain rfl := (List.cons.inj hrest).2
    rw [htake, List.dropWhile_append_of_pos hgo, List.takeWhile_append_of_pos hgo, hend.1,
      hend.2, List.append_nil]

/-- A body with an equals sign is cut at the first one. -/
theorem eq_append_of_dropWhile_eq_cons {body rest : Bytes} {b : UInt8}
    (h : body.dropWhile (· != Byte.equals) = b :: rest) :
    b = Byte.equals ∧ Byte.equals ∉ body.takeWhile (· != Byte.equals) ∧
      body = body.takeWhile (· != Byte.equals) ++ Byte.equals :: rest := by
  have hb : b = Byte.equals := by
    have hhead := List.head_dropWhile_not (· != Byte.equals) (l := body)
      (by rw [h]; exact List.cons_ne_nil b rest)
    simpa [h] using hhead
  subst hb
  refine ⟨rfl, fun hmem => ?_, by rw [← h, List.takeWhile_append_dropWhile]⟩
  have hall := List.mem_takeWhile_imp hmem
  simp at hall

/-- A value goes on to the next line break, or to the end. -/
theorem value_append_after (rest : Bytes) :
    (∀ b ∈ rest.takeWhile fun b => !Byte.isBreak b, Byte.isBreak b = false) ∧
      (∀ b ∈ (rest.dropWhile fun b => !Byte.isBreak b).head?, Byte.isBreak b = true) ∧
      (rest.takeWhile fun b => !Byte.isBreak b) ++ (rest.dropWhile fun b => !Byte.isBreak b) =
        rest := by
  refine ⟨fun b hb => by simpa using List.mem_takeWhile_imp hb, fun b hb => ?_,
    List.takeWhile_append_dropWhile⟩
  have hhead := List.head?_dropWhile_not (fun b => !Byte.isBreak b) rest
  rw [Option.mem_def.mp hb] at hhead
  simpa using hhead

/-- Pair after pair is cut off a body until no equals sign is left in it. -/
@[elab_as_elim]
theorem split_induction {P : Bytes → Prop} (left : ∀ body, Byte.equals ∉ body → P body)
    (pair : ∀ name value after, Byte.equals ∉ name → (∀ b ∈ value, Byte.isBreak b = false) →
      (∀ b ∈ after.head?, Byte.isBreak b = true) → P after.tail →
      P (name ++ Byte.equals :: (value ++ after)))
    (body : Bytes) : P body := by
  induction body using split.induct with
  | case1 body hdrop =>
    refine left body fun hmem => ?_
    have hall := List.dropWhile_eq_nil_iff.mp hdrop _ hmem
    simp at hall
  | case2 body b rest hdrop _ _ _ ih =>
    obtain ⟨rfl, hname, hbody⟩ := eq_append_of_dropWhile_eq_cons hdrop
    obtain ⟨hvalue, hafter, hrest⟩ := value_append_after rest
    have hpair := pair _ _ _ hname hvalue hafter ih
    rwa [hrest, ← hbody] at hpair

/-- A value ends before the first line break. -/
theorem isBreak_of_mem_value {body : Bytes} {pair : FormPair} (h : pair ∈ (split body).1)
    {b : UInt8} (hb : b ∈ pair.value) : Byte.isBreak b = false := by
  induction body using split_induction with
  | left body hbody =>
    rw [split_of_notMem hbody] at h
    cases h
  | pair name value after hname hvalue hafter ih =>
    rw [split_pair hname hvalue hafter] at h
    rcases List.mem_cons.mp h with rfl | hmem
    · exact hvalue b hb
    · exact ih hmem

theorem unbroken_eq_nil_iff {bytes : Bytes} :
    unbroken bytes = [] ↔ ∀ b ∈ bytes, Byte.isBreak b = true := by
  simp [unbroken]

end FormBody

/-! ## Reading runs of bytes -/

namespace FormReader

open FormBody

variable {fields : List Field}

theorem pushAll_append_eq_ok_iff {front back : Bytes} {reader reader' : FormReader} :
    reader.pushAll fields (front ++ back) = .ok reader' ↔
      ∃ between, reader.pushAll fields front = .ok between ∧
        between.pushAll fields back = .ok reader' := by
  induction front generalizing reader with
  | nil => simp [pushAll]
  | cons b front ih =>
    simp only [List.cons_append, pushAll]
    cases reader.push fields b with
    | error e => simp
    | ok next => exact ih

/-- A name is collected as long as it keeps its bound. -/
theorem pushAll_name_eq_ok_iff {seen bytes : Bytes} {staged : List (Option Bytes)}
    {reader : FormReader} (hbytes : Byte.equals ∉ bytes) (hseen : seen.length ≤ maxNameLength) :
    pushAll fields ⟨.name seen, staged⟩ bytes = .ok reader ↔
      (seen ++ unbroken bytes).length ≤ maxNameLength ∧
        ⟨.name (seen ++ unbroken bytes), staged⟩ = reader := by
  induction bytes generalizing seen with
  | nil => simp [pushAll, unbroken, hseen]
  | cons b bytes ih =>
    obtain ⟨hb, hbytes⟩ := List.ne_and_not_mem_of_not_mem_cons hbytes
    -- a line break is left out, and does not count for the bound
    by_cases hbreak : Byte.isBreak b = true
    · have hstep : push fields ⟨.name seen, staged⟩ b = .ok ⟨.name seen, staged⟩ := by
        simp [push, hb.symm, hbreak]
      have hskip : unbroken (b :: bytes) = unbroken bytes := by simp [unbroken, hbreak]
      rw [pushAll, hstep, hskip]
      exact ih hbytes hseen
    · have hkeep : seen ++ unbroken (b :: bytes) = seen ++ [b] ++ unbroken bytes := by
        simp [unbroken, hbreak]
      rw [pushAll, hkeep]
      -- a name at its bound takes no byte more, so the whole of it is too long
      by_cases hfull : seen.length = maxNameLength
      · have hstep : push fields ⟨.name seen, staged⟩ b = .error .nameTooLong := by
          simp [push, hb.symm, hbreak, hfull]
        simp only [hstep, reduceCtorEq, false_iff, not_and, List.length_append,
          List.length_singleton]
        omega
      · have hstep : push fields ⟨.name seen, staged⟩ b = .ok ⟨.name (seen ++ [b]), staged⟩ := by
          simp [push, hb.symm, hbreak, hfull]
        rw [hstep]
        refine ih hbytes ?_
        rw [List.length_append, List.length_singleton]
        omega

/-- A value is collected as long as it keeps its bound. -/
theorem pushAll_value_eq_ok_iff {index : Nat} {seen bytes : Bytes} {staged : List (Option Bytes)}
    {reader : FormReader} (hbytes : ∀ b ∈ bytes, Byte.isBreak b = false)
    (hseen : seen.length ≤ maxValueLength) :
    pushAll fields ⟨.value index seen, staged⟩ bytes = .ok reader ↔
      (seen ++ bytes).length ≤ maxValueLength ∧
        ⟨.value index (seen ++ bytes), staged⟩ = reader := by
  induction bytes generalizing seen with
  | nil => simp [pushAll, hseen]
  | cons b bytes ih =>
    rw [List.forall_mem_cons] at hbytes
    obtain ⟨hb, hbytes⟩ := hbytes
    rw [pushAll, List.append_cons]
    by_cases hfull : seen.length = maxValueLength
    · have hstep : push fields ⟨.value index seen, staged⟩ b =
          .error (.valueTooLong (fieldName fields index)) := by
        simp [push, hb, hfull]
      simp only [hstep, reduceCtorEq, false_iff, not_and, List.length_append,
        List.length_singleton]
      omega
    · have hstep : push fields ⟨.value index seen, staged⟩ b =
          .ok ⟨.value index (seen ++ [b]), staged⟩ := by
        simp [push, hb, hfull]
      rw [hstep]
      refine ih hbytes ?_
      rw [List.length_append, List.length_singleton]
      omega

/-! ## Reading a body to its end -/

/-- The reader gets through the bytes, and the body may end there. -/
def Closes (fields : List Field) (reader : FormReader) (bytes : Bytes) (closed : FormReader) :
    Prop :=
  ∃ reader', reader.pushAll fields bytes = .ok reader' ∧ reader'.close = .ok closed

theorem closes_append_iff {front back : Bytes} {reader closed : FormReader} :
    Closes fields reader (front ++ back) closed ↔
      ∃ between, reader.pushAll fields front = .ok between ∧ Closes fields between back closed := by
  unfold Closes
  refine ⟨?_, ?_⟩
  · rintro ⟨reader', hpush, hclose⟩
    obtain ⟨between, hfront, hback⟩ := pushAll_append_eq_ok_iff.mp hpush
    exact ⟨between, hfront, reader', hback, hclose⟩
  · rintro ⟨between, hfront, reader', hback, hclose⟩
    exact ⟨reader', pushAll_append_eq_ok_iff.mpr ⟨between, hfront, hback⟩, hclose⟩

theorem closes_cons_iff {b : UInt8} {bytes : Bytes} {reader closed : FormReader} :
    Closes fields reader (b :: bytes) closed ↔
      ∃ next, reader.push fields b = .ok next ∧ Closes fields next bytes closed := by
  simp only [Closes, pushAll]
  cases reader.push fields b <;> simp

/-- Bytes without an equals sign close a body only if they are line breaks. -/
theorem closes_left_iff {bytes : Bytes} {staged : List (Option Bytes)} {closed : FormReader}
    (hbytes : Byte.equals ∉ bytes) :
    Closes fields ⟨.name [], staged⟩ bytes closed ↔
      (∀ b ∈ bytes, Byte.isBreak b = true) ∧ ⟨.name [], staged⟩ = closed := by
  rw [← unbroken_eq_nil_iff]
  refine ⟨?_, ?_⟩
  · rintro ⟨reader, hpush, hclose⟩
    -- all bytes were collected into one name, and only an empty one may end a body
    obtain ⟨-, rfl⟩ := (pushAll_name_eq_ok_iff hbytes (Nat.zero_le _)).mp hpush
    rw [List.nil_append] at hclose
    cases hleft : unbroken bytes with
    | nil =>
      rw [hleft] at hclose
      exact ⟨rfl, Except.ok.inj hclose⟩
    | cons b left =>
      rw [hleft] at hclose
      cases hclose
  · rintro ⟨hleft, rfl⟩
    refine ⟨⟨.name [], staged⟩, ?_, rfl⟩
    rw [pushAll_name_eq_ok_iff hbytes (Nat.zero_le _), hleft]
    exact ⟨Nat.zero_le _, rfl⟩

/-- A value ends at the next line break or with the body, and is staged there. -/
theorem closes_value_iff {index : Nat} {value after : Bytes} {staged : List (Option Bytes)}
    {closed : FormReader} (hvalue : ∀ b ∈ value, Byte.isBreak b = false)
    (hafter : ∀ b ∈ after.head?, Byte.isBreak b = true) :
    Closes fields ⟨.value index [], staged⟩ (value ++ after) closed ↔
      value.length ≤ maxValueLength ∧
        Closes fields ⟨.name [], staged.set index (some value)⟩ after.tail closed := by
  -- the reader at the end of the value stages it, with the break and without
  have hstage : Closes fields ⟨.value index value, staged⟩ after closed ↔
      Closes fields ⟨.name [], staged.set index (some value)⟩ after.tail closed := by
    cases after with
    | nil => simp [Closes, pushAll, close, stage]
    | cons b after =>
      have hb : Byte.isBreak b = true := hafter b rfl
      rw [closes_cons_iff]
      simp [push, hb, stage]
  rw [closes_append_iff, ← hstage]
  refine ⟨?_, ?_⟩
  · rintro ⟨between, hpush, hclose⟩
    obtain ⟨hshort, rfl⟩ := (pushAll_value_eq_ok_iff hvalue (Nat.zero_le _)).mp hpush
    exact ⟨hshort, hclose⟩
  · rintro ⟨hshort, hclose⟩
    exact ⟨_, (pushAll_value_eq_ok_iff hvalue (Nat.zero_le _)).mpr ⟨hshort, rfl⟩, hclose⟩

theorem fieldIndex?_eq_some_iff {name : Bytes} {index : Nat} :
    fieldIndex? fields name = some index ↔
      ∃ h : index < fields.length, utf8 fields[index].name = name ∧
        ∀ j (hj : j < index), utf8 fields[j].name ≠ name := by
  simp [fieldIndex?, List.findIdx?_eq_some_iff_getElem]

theorem exists_fieldIndex?_iff {name : Bytes} :
    (∃ index, fieldIndex? fields name = some index) ↔ ∃ field ∈ fields, utf8 field.name = name := by
  rw [← Option.isSome_iff_exists]
  simp [fieldIndex?]

/-- The first pair of a body is read, and its value staged, if the pair fits the fields. -/
theorem closes_pair_iff {name rest : Bytes} {staged : List (Option Bytes)} {closed : FormReader}
    (hname : Byte.equals ∉ name) :
    Closes fields ⟨.name [], staged⟩ (name ++ Byte.equals :: rest) closed ↔
      (unbroken name).length ≤ maxNameLength ∧
      ∃ index, fieldIndex? fields (unbroken name) = some index ∧
        Closes fields ⟨.value index [], staged⟩ rest closed := by
  have hstep : ∀ next, push fields ⟨.name (unbroken name), staged⟩ Byte.equals = .ok next ↔
      ∃ index, fieldIndex? fields (unbroken name) = some index ∧
        ⟨.value index [], staged⟩ = next := by
    intro next
    cases hindex : fieldIndex? fields (unbroken name) <;> simp [push, hindex]
  rw [closes_append_iff]
  refine ⟨?_, ?_⟩
  · rintro ⟨between, hpush, hclose⟩
    obtain ⟨hshort, rfl⟩ := (pushAll_name_eq_ok_iff hname (Nat.zero_le _)).mp hpush
    obtain ⟨next, hnext, hclose⟩ := closes_cons_iff.mp hclose
    obtain ⟨index, hindex, rfl⟩ := (hstep next).mp hnext
    exact ⟨hshort, index, hindex, hclose⟩
  · rintro ⟨hshort, index, hindex, hclose⟩
    refine ⟨_, (pushAll_name_eq_ok_iff hname (Nat.zero_le _)).mpr ⟨hshort, rfl⟩, ?_⟩
    exact closes_cons_iff.mpr ⟨_, (hstep _).mpr ⟨index, hindex, rfl⟩, hclose⟩

/-! ## What is staged -/

/-- The values to stage for the fields: the last one of the pairs for the first field of
    each name. -/
def stagedFor (fields : List Field) (pairs : List FormPair) : List (Option Bytes) :=
  fields.mapIdx fun index field =>
    if fieldIndex? fields (utf8 field.name) = some index then lastValue? pairs (utf8 field.name)
    else none

@[simp] theorem length_stagedFor (fields : List Field) (pairs : List FormPair) :
    (stagedFor fields pairs).length = fields.length := by simp [stagedFor]

theorem staged_initial (fields : List Field) :
    initial fields = ⟨.name [], stagedFor fields []⟩ := by
  have hnone : (fields.map fun _ => none) = stagedFor fields [] := by
    apply List.ext_getElem <;> simp [stagedFor]
  rw [initial, hnone]

/-- One pair more is one value staged over the others. -/
theorem stagedFor_set {pairs : List FormPair} (pair : FormPair) {index : Nat}
    (h : fieldIndex? fields pair.name = some index) :
    (stagedFor fields pairs).set index (some pair.value) = stagedFor fields (pairs ++ [pair]) := by
  obtain ⟨hindex, hname, -⟩ := fieldIndex?_eq_some_iff.mp h
  apply List.ext_getElem
  · simp
  · intro j hj hj'
    rw [List.getElem_set]
    by_cases heq : index = j
    · subst heq
      simp [stagedFor, hname, h, lastValue?_concat]
    · -- the first field of another index has another name
      have hother : ∀ name, fieldIndex? fields name = some j → pair.name ≠ name := by
        rintro name hj rfl
        exact heq (Option.some.inj (h.symm.trans hj))
      simp only [heq, if_false, stagedFor, List.getElem_mapIdx, lastValue?_concat]
      split
      · rename_i hfirst
        rw [if_neg (hother _ hfirst)]
      · rfl

/-- The reader gets through the bodies of the form, and stages what their pairs give. -/
theorem closes_iff {before : List FormPair} {body : Bytes} {closed : FormReader} :
    Closes fields ⟨.name [], stagedFor fields before⟩ body closed ↔
      IsForm fields body ∧ ⟨.name [], stagedFor fields (before ++ (split body).1)⟩ = closed := by
  unfold IsForm
  induction body using split_induction generalizing before with
  | left body hbody => simp [split_of_notMem hbody, closes_left_iff hbody]
  | pair name value after hname hvalue hafter ih =>
    have hsnoc : before ++ ⟨unbroken name, value⟩ :: (split after.tail).1 =
        before ++ [⟨unbroken name, value⟩] ++ (split after.tail).1 := by simp
    rw [split_pair hname hvalue hafter, closes_pair_iff hname, hsnoc, List.forall_mem_cons]
    simp only [closes_value_iff hvalue hafter]
    refine ⟨?_, ?_⟩
    · rintro ⟨hshort, index, hindex, hfits, hclose⟩
      rw [stagedFor_set ⟨unbroken name, value⟩ hindex, ih] at hclose
      obtain ⟨⟨hpairs, hleft⟩, hclosed⟩ := hclose
      have hknown := exists_fieldIndex?_iff.mp ⟨index, hindex⟩
      exact ⟨⟨⟨⟨hshort, hknown, hfits⟩, hpairs⟩, hleft⟩, hclosed⟩
    · rintro ⟨⟨⟨⟨hshort, hknown, hfits⟩, hpairs⟩, hleft⟩, hclosed⟩
      -- a known name has an index, which is all that the reader asks of it
      obtain ⟨index, hindex⟩ := exists_fieldIndex?_iff.mpr hknown
      refine ⟨hshort, index, hindex, hfits, ?_⟩
      rw [stagedFor_set ⟨unbroken name, value⟩ hindex, ih]
      exact ⟨⟨hpairs, hleft⟩, hclosed⟩

end FormReader

end Provision.Http
