/-
  Provision.Proofs.Http.Form

  Form bodies and the fields they fill. `Form.Accepts` is the rule for a body as a whole
  and `Form.Filled` what it makes of the fields; `Form.update_accepts_and_fills` says
  that the parser follows both. A value is read as text only once it is known to be the
  last of its name, so values that are written over may be any bytes.
-/
import Mathlib.Data.Set.List
import Provision.Proofs.Http.FormBody

namespace Provision.Http

open FormBody

/-! ## The rule -/

namespace Form

/-- No field before this one has its name. -/
def IsFirst (fields : List Field) (index : Nat) : Prop :=
  ∀ (field : Field), fields[index]? = some field →
    ∀ j < index, ∀ other, fields[j]? = some other → other.name ≠ field.name

/-- A body is good for the fields. -/
structure Accepts (fields : List Field) (body : Bytes) : Prop where
  /-- Its pairs fit the fields, and nothing but line breaks follows them. -/
  form : IsForm fields body
  /-- The last value of each field's name is text. -/
  text : ∀ field ∈ fields, ∀ value, lastValue? (split body).1 (utf8 field.name) = some value →
    ∃ text, utf8 text = value

/-- What the pairs of a body leave of the field at an index. -/
structure FilledAt (fields : List Field) (body : Bytes) (index : Nat) (old new : Field) : Prop where
  name : new.name = old.name
  minLength : new.minLength = old.minLength
  /-- The first field of a name takes the last value that the body gives for it. -/
  given : IsFirst fields index → ∀ value, lastValue? (split body).1 (utf8 old.name) = some value →
    utf8 new.value = value
  /-- Any other field keeps its value. -/
  kept : ¬ (IsFirst fields index ∧
    ∃ value, lastValue? (split body).1 (utf8 old.name) = some value) →
    new.value = old.value

/-- The fields after a good body. -/
structure Filled (fields : List Field) (body : Bytes) (filled : List Field) : Prop where
  length : filled.length = fields.length
  field : ∀ (index : Nat) (old new : Field), fields[index]? = some old → filled[index]? = some new →
    FilledAt fields body index old new

/-- Reads a body into fields that are updated in place. A step that fails ends the update
    with the fields as that step left them. -/
def update (body : Bytes) : EStateM FormError (List Field) Unit := do
  let fields ← get
  let reader ← liftExcept ((FormReader.initial fields).pushAll fields body)
  let found ← liftExcept (reader.finish fields)
  modify (commit found)

theorem isFirst_iff {fields : List Field} {index : Nat} (h : index < fields.length) :
    IsFirst fields index ↔
      FormReader.fieldIndex? fields (utf8 fields[index].name) = some index := by
  rw [FormReader.fieldIndex?_eq_some_iff]
  unfold IsFirst
  refine ⟨?_, ?_⟩
  · intro hfirst
    refine ⟨h, rfl, fun j hj heq => ?_⟩
    refine hfirst fields[index] (List.getElem?_eq_getElem h) j hj fields[j] ?_ (utf8_inj.mp heq)
    exact List.getElem?_eq_getElem (by omega)
  · rintro ⟨_, _, hfirst⟩ field hfield j hj other hother heq
    obtain ⟨_, rfl⟩ := List.getElem?_eq_some_iff.mp hfield
    obtain ⟨_, rfl⟩ := List.getElem?_eq_some_iff.mp hother
    exact hfirst j hj (congrArg utf8 heq)

end Form

/-! ## Staged bytes as text -/

namespace FormReader

theorem decodeStaged_cons_eq_ok_iff {field : Field} {fields : List Field} {value : Option Bytes}
    {staged : List (Option Bytes)} {texts : List (Option String)} :
    decodeStaged (field :: fields) (value :: staged) = .ok texts ↔
      ∃ text rest, texts = text :: rest ∧ text.map utf8 = value ∧
        decodeStaged fields staged = .ok rest := by
  cases value with
  | none =>
    rw [decodeStaged]
    cases decodeStaged fields staged <;> simp [eq_comm]
  | some value =>
    rw [decodeStaged]
    cases hdecode : Utf8.decode? value with
    | none =>
      have hno : ∀ text, utf8 text ≠ value := by
        rintro text rfl
        rw [Utf8.decode?_utf8] at hdecode
        cases hdecode
      simp [hno]
    | some text =>
      obtain rfl := Utf8.decode?_eq_some_iff.mp hdecode
      cases decodeStaged fields staged <;> simp [utf8_inj, eq_comm]

/-- Values are decoded if all of them are text. -/
theorem decodeStaged_eq_ok_iff {fields : List Field} {staged : List (Option Bytes)}
    {texts : List (Option String)} (h : staged.length = fields.length) :
    decodeStaged fields staged = .ok texts ↔ texts.map (Option.map utf8) = staged := by
  -- fields and values are paired by position, so both lists are taken apart at once
  induction fields generalizing staged texts with
  | nil =>
    obtain rfl := List.length_eq_zero_iff.mp h
    have hnil : decodeStaged [] [] = .ok [] := rfl
    rw [hnil, Except.ok.injEq, List.map_eq_nil_iff, eq_comm]
  | cons field fields ih =>
    cases staged with
    | nil => simp at h
    | cons value staged =>
      rw [List.length_cons, List.length_cons, Nat.add_right_cancel_iff] at h
      rw [decodeStaged_cons_eq_ok_iff, List.map_eq_cons_iff]
      simp only [ih h]

end FormReader

/-! ## Filling the fields -/

namespace Form

theorem commit_eq_zipWith {texts : List (Option String)} {fields : List Field}
    (h : texts.length = fields.length) :
    commit texts fields = List.zipWith (fun text field =>
      { field with value := text.getD field.value }) texts fields := by
  induction texts generalizing fields with
  | nil =>
    obtain rfl := List.length_eq_zero_iff.mp h.symm
    rfl
  | cons text texts ih =>
    cases fields with
    | nil => simp at h
    | cons field fields =>
      rw [List.length_cons, List.length_cons, Nat.add_right_cancel_iff] at h
      cases text <;> simp [commit, ih h]

/-- A body is parsed if it is a form whose last values are text. -/
theorem parse_eq_ok_iff {fields filled : List Field} {body : Bytes} :
    parse fields body = .ok filled ↔
      IsForm fields body ∧ ∃ texts : List (Option String),
        texts.map (Option.map utf8) = FormReader.stagedFor fields (split body).1 ∧
        commit texts fields = filled := by
  have hclosed := @FormReader.closes_iff fields [] body
  rw [← FormReader.staged_initial, List.nil_append] at hclosed
  have hdecode : ∀ texts, FormReader.decodeStaged fields
      (FormReader.stagedFor fields (split body).1) = .ok texts ↔
      texts.map (Option.map utf8) = FormReader.stagedFor fields (split body).1 :=
    fun texts => FormReader.decodeStaged_eq_ok_iff (FormReader.length_stagedFor _ _)
  simp only [← hdecode]
  refine ⟨?_, ?_⟩
  · intro h
    unfold parse FormReader.finish at h
    cases hpush : (FormReader.initial fields).pushAll fields body with
    | error e => simp [hpush] at h
    | ok reader =>
      cases hclose : reader.close with
      | error e => simp [hpush, hclose] at h
      | ok closed =>
        obtain ⟨hform, rfl⟩ := hclosed.mp ⟨reader, hpush, hclose⟩
        cases htexts : FormReader.decodeStaged fields
            (FormReader.stagedFor fields (split body).1) with
        | error e => simp [hpush, hclose, htexts] at h
        | ok texts =>
          simp only [hpush, hclose, htexts, Except.ok.injEq] at h
          exact ⟨hform, texts, rfl, h⟩
  · rintro ⟨hform, texts, htexts, rfl⟩
    obtain ⟨reader, hpush, hclose⟩ := hclosed.mpr ⟨hform, rfl⟩
    simp [parse, FormReader.finish, hpush, hclose, htexts]

/-- Staged values are text if the last values of the fields' names are. -/
theorem exists_texts_iff {fields : List Field} {pairs : List FormPair} :
    (∃ texts : List (Option String),
      texts.map (Option.map utf8) = FormReader.stagedFor fields pairs) ↔
      ∀ field ∈ fields, ∀ value, lastValue? pairs (utf8 field.name) = some value →
        ∃ text, utf8 text = value := by
  refine ⟨?_, ?_⟩
  · rintro ⟨texts, htexts⟩ field hfield value hvalue
    -- the value is staged at the first field of its name
    obtain ⟨index, hfirst⟩ := FormReader.exists_fieldIndex?_iff.mpr ⟨field, hfield, rfl⟩
    obtain ⟨hindex, hname, -⟩ := FormReader.fieldIndex?_eq_some_iff.mp hfirst
    have hstaged : (texts.map (Option.map utf8))[index]? = some (some value) := by
      rw [htexts, FormReader.stagedFor, List.getElem?_mapIdx, List.getElem?_eq_getElem hindex]
      simp [hname, hfirst, hvalue]
    rw [List.getElem?_map, Option.map_eq_some_iff] at hstaged
    obtain ⟨text, -, htext⟩ := hstaged
    obtain ⟨text, -, rfl⟩ := Option.map_eq_some_iff.mp htext
    exact ⟨text, rfl⟩
  · intro htext
    have hrange : FormReader.stagedFor fields pairs ∈ Set.range (List.map (Option.map utf8)) := by
      rw [Set.range_list_map]
      intro value hvalue
      obtain ⟨index, hindex, rfl⟩ := List.mem_mapIdx.mp hvalue
      -- a field that is not the first of its name has nothing staged, whatever the text
      split
      · cases hlast : lastValue? pairs (utf8 fields[index].name) with
        | none => exact ⟨none, rfl⟩
        | some value =>
          obtain ⟨text, rfl⟩ := htext _ (List.getElem_mem hindex) value hlast
          exact ⟨some text, rfl⟩
      · exact ⟨none, rfl⟩
    exact hrange

/-- Fields filled from staged text are those that the body makes. -/
theorem filled_commit {fields : List Field} {body : Bytes} {texts : List (Option String)}
    (h : texts.map (Option.map utf8) = FormReader.stagedFor fields (split body).1) :
    Filled fields body (commit texts fields) := by
  have hlength : texts.length = fields.length := by
    rw [← List.length_map, h, FormReader.length_stagedFor]
  rw [commit_eq_zipWith hlength]
  refine ⟨by simp [hlength], fun index old new hold hnew => ?_⟩
  obtain ⟨hindex, rfl⟩ := List.getElem?_eq_some_iff.mp hold
  obtain ⟨hfilled, rfl⟩ := List.getElem?_eq_some_iff.mp hnew
  -- what was staged at the index, read as text
  have hat : texts[index].map utf8 =
      if FormReader.fieldIndex? fields (utf8 fields[index].name) = some index then
        lastValue? (split body).1 (utf8 fields[index].name) else none := by
    have hstaged := congrArg (·[index]?) h
    simpa [FormReader.stagedFor, hindex, hlength] using hstaged
  rw [List.getElem_zipWith]
  refine ⟨rfl, rfl, fun hfirst value hvalue => ?_, fun hkept => ?_⟩
  · rw [if_pos ((isFirst_iff hindex).mp hfirst), hvalue] at hat
    obtain ⟨text, htext, rfl⟩ := Option.map_eq_some_iff.mp hat
    rw [htext, Option.getD_some]
  · have hnone : texts[index].map utf8 = none := by
      rw [hat]
      split
      · rename_i hfirst
        rw [Option.eq_none_iff_forall_ne_some]
        intro value hvalue
        exact hkept ⟨(isFirst_iff hindex).mpr hfirst, value, hvalue⟩
      · rfl
    rw [Option.map_eq_none_iff.mp hnone, Option.getD_none]

/-- A value that was read is text of its own, within the bound and on one line. -/
theorem value_of_parse_eq_ok {fields filled : List Field} {body : Bytes}
    (h : parse fields body = .ok filled) (index : Nat) {old new : Field}
    (hold : fields[index]? = some old) (hnew : filled[index]? = some new) :
    new.value = old.value ∨ (new.value.utf8ByteSize ≤ maxValueLength ∧
      ∀ b ∈ utf8 new.value, Byte.isBreak b = false) := by
  obtain ⟨hform, texts, htexts, rfl⟩ := parse_eq_ok_iff.mp h
  have hfilled := (filled_commit htexts).field index old new hold hnew
  by_cases hgiven : IsFirst fields index ∧
      ∃ value, lastValue? (split body).1 (utf8 old.name) = some value
  · obtain ⟨hfirst, value, hvalue⟩ := hgiven
    obtain ⟨pair, hpair, rfl⟩ := exists_mem_of_lastValue? hvalue
    rw [← length_utf8, hfilled.given hfirst _ hvalue]
    exact Or.inr ⟨(hform.1 pair hpair).value_short, fun b => isBreak_of_mem_value hpair⟩
  · exact Or.inl (hfilled.kept hgiven)

/-! ## Updating in place -/

theorem run_liftExcept {α : Type} (result : Except FormError α) (fields : List Field) :
    EStateM.run (liftExcept result) fields =
      match result with
      | .error e => .error e fields
      | .ok a => .ok a fields := by
  cases result <;> rfl

/-- Only the last step of an update changes the fields, and it does not fail. -/
theorem run_update (body : Bytes) (fields : List Field) :
    (update body).run fields =
      match parse fields body with
      | .error e => .error e fields
      | .ok filled => .ok () filled := by
  unfold update parse
  simp only [EStateM.run_bind, EStateM.run_get, EStateM.run_modify, run_liftExcept]
  cases (FormReader.initial fields).pushAll fields body with
  | error e => rfl
  | ok reader =>
    dsimp only
    cases reader.finish fields with
    | error e => rfl
    | ok found => rfl

/-- A body updates the fields exactly if it is good for them, each as the body says, and
    leaves all of them alone otherwise. -/
theorem update_accepts_and_fills (body : Bytes) (fields : List Field) :
    ((∃ filled, (update body).run fields = .ok () filled) ↔ Accepts fields body) ∧
    (∀ filled, (update body).run fields = .ok () filled → Filled fields body filled) ∧
    (∀ error filled, (update body).run fields = .error error filled → filled = fields) := by
  rw [run_update]
  cases hparse : parse fields body with
  | error e =>
    have hrefused : ¬ Accepts fields body := by
      rintro ⟨hform, htext⟩
      obtain ⟨texts, htexts⟩ := exists_texts_iff.mpr htext
      have hok := parse_eq_ok_iff.mpr ⟨hform, texts, htexts, rfl⟩
      rw [hparse] at hok
      cases hok
    refine ⟨?_, ?_, ?_⟩
    · simp [hrefused]
    · simp
    · rintro error filled h
      cases h
      rfl
  | ok filled =>
    obtain ⟨hform, texts, htexts, rfl⟩ := parse_eq_ok_iff.mp hparse
    have haccepts : Accepts fields body := ⟨hform, exists_texts_iff.mp ⟨texts, htexts⟩⟩
    refine ⟨?_, ?_, ?_⟩
    · simp [haccepts]
    · rintro filled h
      cases h
      exact filled_commit htexts
    · simp

end Form

end Provision.Http
