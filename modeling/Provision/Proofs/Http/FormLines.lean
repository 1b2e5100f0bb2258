/-
  Provision.Proofs.Http.FormLines

  The lines of a form. A value ends with its line, but a name does not: the reader leaves line
  breaks out of it wherever they stand. So an accepted body is made of lines that open with a
  name, each perhaps with the front of that name on lines of their own before it
  (`FormBody.Lined`). It is made of `name=value` lines alone exactly where every line that holds
  anything holds an equals sign (`Form.lines_of_accepted`); that a line without one may be
  accepted is shown by `Form.accepted_name_on_two_lines`.
-/
import Mathlib.Data.List.Induction
import Provision.Proofs.Http.Form

namespace Provision.Http

namespace FormBody

variable {fields : List Field} {body : Bytes}

/-! ## Lines -/

/-- The lines of a body, which is cut at every line break. -/
def lines (body : Bytes) : List Bytes := body.splitOnP Byte.isBreak

/-- The line opens with the name of a field and an equals sign. -/
def OpensPair (fields : List Field) (line : Bytes) : Prop :=
  ∃ field ∈ fields, utf8 field.name ++ [Byte.equals] <+: line

instance (fields : List Field) (line : Bytes) : Decidable (OpensPair fields line) :=
  inferInstanceAs (Decidable (∃ field ∈ fields, utf8 field.name ++ [Byte.equals] <+: line))

/-- The lines of an accepted body. -/
inductive Lined (fields : List Field) : List Bytes → Prop
  | left {rows : List Bytes} (h : ∀ row ∈ rows, row = []) : Lined fields rows
  /-- The name of a pair may have been begun on the lines before it. -/
  | pair {front rows : List Bytes} {last : Bytes} (value : Bytes) {field : Field}
    (hfield : field ∈ fields) (hname : (front ++ [last]).flatten = utf8 field.name)
    (hplain : Byte.equals ∉ utf8 field.name) (hrest : Lined fields rows) :
    Lined fields (front ++ (last ++ Byte.equals :: value) :: rows)

theorem OpensPair.equals_mem {line : Bytes} (h : OpensPair fields line) : Byte.equals ∈ line := by
  obtain ⟨field, -, hopens⟩ := h
  exact hopens.subset (List.mem_append_right _ (List.mem_singleton_self _))

/-- Where no name was begun on a line of its own, every line opens with one. -/
theorem Lined.opensPair {rows : List Bytes} (h : Lined fields rows)
    (hequals : ∀ row ∈ rows, row ≠ [] → Byte.equals ∈ row) :
    ∀ row ∈ rows, row = [] ∨ OpensPair fields row := by
  induction h with
  | left hempty => exact fun row hrow => Or.inl (hempty row hrow)
  | @pair front rows last value field hfield hname hplain _ ih =>
    simp only [List.forall_mem_append, List.forall_mem_cons] at hequals ⊢
    -- the lines before the pair hold a part of the name, and so no equals sign
    have hfront : ∀ row ∈ front, row = [] := by
      intro row hrow
      by_contra hne
      refine hplain (hname ▸ List.mem_flatten.mpr ⟨row, ?_, hequals.1 row hrow hne⟩)
      exact List.mem_append_left _ hrow
    refine ⟨fun row hrow => Or.inl (hfront row hrow), Or.inr ⟨field, hfield, value, ?_⟩,
      ih hequals.2.2⟩
    rw [List.flatten_append, List.flatten_eq_nil_iff.mpr hfront] at hname
    simpa using hname.symm

/-- A line without an equals sign is a part of a name. -/
theorem Lined.infix_name {rows : List Bytes} (h : Lined fields rows) :
    ∀ row ∈ rows, Byte.equals ∉ row → row = [] ∨ ∃ field ∈ fields, row <:+: utf8 field.name := by
  induction h with
  | left hempty => exact fun row hrow _ => Or.inl (hempty row hrow)
  | @pair front rows last value field hfield hname hplain _ ih =>
    simp only [List.forall_mem_append, List.forall_mem_cons]
    refine ⟨fun row hrow _ => Or.inr ⟨field, hfield, ?_⟩, ?_, ih⟩
    · rw [← hname]
      exact List.infix_of_mem_flatten (List.mem_append_left _ hrow)
    · exact fun hno => absurd (List.mem_append_right _ List.mem_cons_self) hno

/-! ## The lines of a form -/

/-- Bytes that go on after some others go on with the last of their lines. -/
theorem exists_lines_append (bytes : Bytes) :
    ∃ front last, (∀ b ∈ last, Byte.isBreak b = false) ∧
      (front ++ [last]).flatten = unbroken bytes ∧
      ∀ more, lines (bytes ++ more) = front ++ lines (last ++ more) := by
  induction bytes using List.reverseRecOn with
  | nil => exact ⟨[], [], by simp, rfl, fun more => rfl⟩
  | append_singleton bytes b ih =>
    obtain ⟨front, last, hlast, hflatten, hlines⟩ := ih
    cases hbreak : Byte.isBreak b with
    | true =>
      -- the line ends here, and an empty one begins
      refine ⟨front ++ [last], [], by simp, by simpa [unbroken, hbreak] using hflatten,
        fun more => ?_⟩
      rw [List.append_assoc, hlines, List.singleton_append, lines,
        List.splitOnP_append_cons_of_forall_mem hlast b hbreak more]
      simp [lines]
    | false =>
      refine ⟨front, last ++ [b], List.forall_mem_append.mpr ⟨hlast, by simpa using hbreak⟩, ?_,
        fun more => ?_⟩
      · have hkeep : unbroken (bytes ++ [b]) = unbroken bytes ++ [b] := by simp [unbroken, hbreak]
        rw [hkeep, ← hflatten]
        simp
      · rw [List.append_assoc, hlines, List.append_assoc]

theorem eq_nil_of_mem_lines {row : Bytes} (hbody : ∀ b ∈ body, Byte.isBreak b = true)
    (hrow : row ∈ lines body) : row = [] := by
  induction body with
  | nil => simpa [lines] using hrow
  | cons b body ih =>
    rw [List.forall_mem_cons] at hbody
    rw [lines, List.splitOnP_cons_eq_if_modifyHead, if_pos hbody.1] at hrow
    exact (List.mem_cons.mp hrow).elim id (ih hbody.2)

/-- Pairs that fit the fields stand on lines of the form. -/
theorem lined_of_isForm (h : IsForm fields body) : Lined fields (lines body) := by
  unfold IsForm at h
  induction body using split_induction with
  | left body hbody =>
    rw [split_of_notMem hbody] at h
    exact .left fun row => eq_nil_of_mem_lines h.2
  | pair name value after hname hvalue hafter ih =>
    rw [split_pair hname hvalue hafter, List.forall_mem_cons] at h
    obtain ⟨⟨⟨-, ⟨field, hfield, hknown⟩, -⟩, hpairs⟩, hleft⟩ := h
    have hplain : Byte.equals ∉ utf8 field.name := by
      rw [hknown]
      exact fun hmem => hname (List.mem_filter.mp hmem).1
    obtain ⟨front, last, hlast, hflatten, hlines⟩ := exists_lines_append name
    rw [← hflatten] at hknown
    -- the line of the equals sign begins behind the last break before it, and ends with the value
    have hrow : ∀ b ∈ last ++ Byte.equals :: value, Byte.isBreak b = false :=
      List.forall_mem_append.mpr ⟨hlast, List.forall_mem_cons.mpr ⟨rfl, hvalue⟩⟩
    have hsplit : last ++ Byte.equals :: (value ++ after) =
        last ++ Byte.equals :: value ++ after := by
      simp
    rw [hlines, hsplit]
    cases after with
    | nil =>
      rw [List.append_nil, lines, List.splitOnP_eq_singleton hrow]
      exact .pair value hfield hknown.symm hplain (.left (by simp))
    | cons b after =>
      rw [lines, List.splitOnP_append_cons_of_forall_mem hrow b (hafter b rfl)]
      exact .pair value hfield hknown.symm hplain (ih ⟨hpairs, hleft⟩)

end FormBody

/-! ## Accepted bodies -/

namespace Form

open FormBody

/-- An accepted body is made of lines that open with names of fields, up to what stands of such a
    name on the lines before. All its lines are empty or `name=value` exactly where no line that
    holds anything is without an equals sign, and such a line is a part of a name. -/
theorem lines_of_accepted {fields filled : List Field} {body : Bytes}
    (h : parse fields body = .ok filled) :
    Lined fields (lines body) ∧
      ((∀ row ∈ lines body, row = [] ∨ OpensPair fields row) ↔
        ∀ row ∈ lines body, row ≠ [] → Byte.equals ∈ row) ∧
      ∀ row ∈ lines body, Byte.equals ∉ row →
        row = [] ∨ ∃ field ∈ fields, row <:+: utf8 field.name := by
  have hlined := lined_of_isForm (parse_eq_ok_iff.mp h).1
  refine ⟨hlined, ⟨fun hpairs row hrow hne => ?_, hlined.opensPair⟩, hlined.infix_name⟩
  exact ((hpairs row hrow).resolve_left hne).equals_mem

/-- The form of a browser, its two values on a line each. -/
theorem lines_of_accepted_browser :
    let fields : List Field := [⟨"ssid", 1, ""⟩, ⟨"password", 8, ""⟩]
    let body := utf8 "ssid=HomeNet\r\npassword=pass=word\r\n"
    parse fields body = .ok [⟨"ssid", 1, "HomeNet"⟩, ⟨"password", 8, "pass=word"⟩] ∧
      (∀ row ∈ lines body, row ≠ [] → Byte.equals ∈ row) ∧
      ∀ row ∈ lines body, row = [] ∨ OpensPair fields row := by
  intro fields body
  have hparse : parse fields body =
      .ok [⟨"ssid", 1, "HomeNet"⟩, ⟨"password", 8, "pass=word"⟩] := by decide +kernel
  have hequals : ∀ row ∈ lines body, row ≠ [] → Byte.equals ∈ row := by decide +kernel
  exact ⟨hparse, hequals, (lines_of_accepted hparse).2.1.mpr hequals⟩

/-- A name may be cut in two by a line break. Its front is then a line of an accepted body and no
    pair. -/
theorem accepted_name_on_two_lines :
    let fields : List Field := [⟨"ssid", 1, ""⟩]
    let body := utf8 "ss\r\nid=HomeNet"
    (∀ field ∈ fields, ∀ b ∈ utf8 field.name, b ≠ Byte.equals ∧ Byte.isBreak b = false) ∧
      parse fields body = .ok [⟨"ssid", 1, "HomeNet"⟩] ∧
      utf8 "ss" ∈ lines body ∧ Byte.equals ∉ utf8 "ss" ∧
      ¬ (utf8 "ss" = [] ∨ OpensPair fields (utf8 "ss")) := by
  decide +kernel

end Form

end Provision.Http
