/-
  Provision.Proofs.Text.Html

  Text that was made safe, beside any other text. It holds none of the characters that open or
  close markup (`markup_escape`), and it tells the text it was made from: the written forms of the
  characters are a prefix code (`escapeChar_append_inj`), so no two texts are written alike
  (`escape_inj`). An ampersand in it is always the first character of an entity
  (`entity_of_flatMap_eq_append`).
-/
import Mathlib.Tactic.SplitIfs
import Provision.Text.Html

namespace Provision.Html

/-! ## Markup -/

/-- A character that opens or closes an element, or a quoted attribute. -/
def isMarkup (c : Char) : Bool := c = '<' || c = '>' || c = '\x22' || c = '\x27'

/-- The markup characters of a text, in order. -/
def markup (text : String) : List Char := text.toList.filter isMarkup

@[simp] theorem markup_append (text more : String) :
    markup (text ++ more) = markup text ++ markup more := by
  simp [markup]

/-! ## The written forms -/

/-- The characters that are written as entities, with these. -/
def entities : List (Char × List Char) :=
  [('&', ['&', 'a', 'm', 'p', ';']), ('<', ['&', 'l', 't', ';']), ('>', ['&', 'g', 't', ';']),
    ('\x22', ['&', 'q', 'u', 'o', 't', ';']), ('\x27', ['&', '#', '3', '9', ';'])]

/-- A character is written as its entity, or it has no meaning in markup and stands for itself. -/
theorem escapeChar_cases (c : Char) :
    (c, escapeChar c) ∈ entities ∨ escapeChar c = [c] ∧ c ≠ '&' ∧ isMarkup c = false := by
  unfold escapeChar
  split_ifs with hamp hlt hgt hquote hapostrophe
  · simp [hamp, entities]
  · simp [hlt, entities]
  · simp [hgt, entities]
  · simp [hquote, entities]
  · simp [hapostrophe, entities]
  · exact Or.inr ⟨rfl, hamp, by simp [isMarkup, hlt, hgt, hquote, hapostrophe]⟩

theorem head_of_mem_entities : ∀ entry ∈ entities, entry.2.head? = some '&' := by decide

theorem not_isMarkup_of_mem_entities :
    ∀ entry ∈ entities, ∀ c ∈ entry.2, isMarkup c = false := by
  simp [entities, isMarkup]

/-- No entity starts another. -/
theorem eq_of_prefix_entities :
    ∀ entry ∈ entities, ∀ other ∈ entities, entry.2 <+: other.2 → entry = other := by decide

theorem isMarkup_of_mem_escapeChar {c d : Char} (h : d ∈ escapeChar c) : isMarkup d = false := by
  rcases escapeChar_cases c with hentity | ⟨hself, -, hplain⟩
  · exact not_isMarkup_of_mem_entities _ hentity d h
  · rw [hself, List.mem_singleton] at h
    rw [h, hplain]

theorem escapeChar_ne_nil (c : Char) : escapeChar c ≠ [] := by
  rcases escapeChar_cases c with hentity | ⟨hself, -, -⟩
  · intro hnil
    have hhead := head_of_mem_entities _ hentity
    simp [hnil] at hhead
  · simp [hself]

/-- The first written form can be told from what is behind it. -/
theorem escapeChar_append_inj {c d : Char} {rest rest' : List Char}
    (h : escapeChar c ++ rest = escapeChar d ++ rest') : c = d ∧ rest = rest' := by
  have hhead := congrArg List.head? h
  rw [List.head?_append, List.head?_append] at hhead
  rcases escapeChar_cases c with hc | ⟨hc, hcamp, -⟩ <;>
    rcases escapeChar_cases d with hd | ⟨hd, hdamp, -⟩
  · -- of two entities at the same place the shorter starts the longer
    have hprefix : escapeChar c <+: escapeChar d ++ rest' := ⟨rest, h⟩
    have hentry : (c, escapeChar c) = (d, escapeChar d) := by
      rcases List.prefix_or_prefix_of_prefix hprefix (List.prefix_append _ rest') with hle | hle
      · exact eq_of_prefix_entities _ hc _ hd hle
      · exact (eq_of_prefix_entities _ hd _ hc hle).symm
    obtain ⟨rfl, -⟩ := Prod.mk.inj hentry
    exact ⟨rfl, List.append_cancel_left h⟩
  · rw [head_of_mem_entities _ hc, hd, List.head?_cons, Option.some_or, Option.some_or] at hhead
    exact absurd (Option.some.inj hhead).symm hdamp
  · rw [head_of_mem_entities _ hd, hc, List.head?_cons, Option.some_or, Option.some_or] at hhead
    exact absurd (Option.some.inj hhead) hcamp
  · rw [hc, hd] at h
    exact List.cons.inj h

/-! ## Written text -/

theorem flatMap_escapeChar_inj {text other : List Char}
    (h : text.flatMap escapeChar = other.flatMap escapeChar) : text = other := by
  induction text generalizing other with
  | nil =>
    cases other with
    | nil => rfl
    | cons d other =>
      rw [List.flatMap_nil, List.flatMap_cons] at h
      exact absurd (List.append_eq_nil_iff.mp h.symm).1 (escapeChar_ne_nil d)
  | cons c text ih =>
    cases other with
    | nil =>
      rw [List.flatMap_nil, List.flatMap_cons] at h
      exact absurd (List.append_eq_nil_iff.mp h).1 (escapeChar_ne_nil c)
    | cons d other =>
      rw [List.flatMap_cons, List.flatMap_cons] at h
      obtain ⟨rfl, hrest⟩ := escapeChar_append_inj h
      rw [ih hrest]

theorem toList_escape (text : String) : (escape text).toList = text.toList.flatMap escapeChar := by
  rw [escape, String.toList_ofList]

theorem escape_inj {text other : String} : escape text = escape other ↔ text = other := by
  refine ⟨fun h => ?_, fun h => h ▸ rfl⟩
  have hlists := congrArg String.toList h
  rw [toList_escape, toList_escape] at hlists
  exact String.toList_inj.mp (flatMap_escapeChar_inj hlists)

theorem isMarkup_of_mem_escape {text : String} {c : Char} (h : c ∈ (escape text).toList) :
    isMarkup c = false := by
  rw [toList_escape, List.mem_flatMap] at h
  obtain ⟨d, -, hc⟩ := h
  exact isMarkup_of_mem_escapeChar hc

/-- Safe text holds no markup. -/
@[simp] theorem markup_escape (text : String) : markup (escape text) = [] := by
  refine List.filter_eq_nil_iff.mpr fun c hc => ?_
  rw [isMarkup_of_mem_escape hc]
  exact Bool.false_ne_true

/-- Text up to a character that is in neither. -/
theorem append_cons_inj {before before' after after' : List Char} {stop : Char}
    (hbefore : stop ∉ before) (hbefore' : stop ∉ before')
    (h : before ++ stop :: after = before' ++ stop :: after') :
    before = before' ∧ after = after' := by
  rcases List.append_eq_append_iff.mp h with ⟨gap, hgap, hstop⟩ | ⟨gap, hgap, hstop⟩
  · cases gap with
    | nil => exact ⟨by simpa using hgap.symm, (List.cons.inj hstop).2⟩
    | cons c gap =>
      obtain ⟨rfl, -⟩ := List.cons.inj hstop
      exact absurd (by simp [hgap]) hbefore'
  · cases gap with
    | nil => exact ⟨by simpa using hgap, (List.cons.inj hstop).2.symm⟩
    | cons c gap =>
      obtain ⟨rfl, -⟩ := List.cons.inj hstop
      exact absurd (by simp [hgap]) hbefore

/-- Safe text that markup follows is told by where the markup starts. -/
theorem escape_append_inj {text other : String} {stop : Char} (hstop : isMarkup stop = true)
    {after after' : String}
    (h : escape text ++ (String.singleton stop ++ after) =
      escape other ++ (String.singleton stop ++ after')) :
    text = other ∧ after = after' := by
  have hnot : ∀ text, stop ∉ (escape text).toList := by
    intro text hmem
    rw [isMarkup_of_mem_escape hmem] at hstop
    cases hstop
  have hlists := congrArg String.toList h
  simp only [String.toList_append, String.toList_singleton, List.singleton_append] at hlists
  obtain ⟨htext, hafter⟩ := append_cons_inj (hnot text) (hnot other) hlists
  exact ⟨escape_inj.mp (String.toList_inj.mp htext), String.toList_inj.mp hafter⟩

/-! ## Ampersands -/

theorem amp_notMem_tail_of_mem_entities : ∀ entry ∈ entities, '&' ∉ entry.2.tail := by decide

/-- An ampersand in a written form is where its entity begins. -/
theorem entity_of_escapeChar_eq_append {c : Char} {before after : List Char}
    (h : escapeChar c = before ++ '&' :: after) : ∃ entry ∈ entities, entry.2 = '&' :: after := by
  rcases escapeChar_cases c with hentity | ⟨hself, hamp, -⟩
  · have htail := amp_notMem_tail_of_mem_entities _ hentity
    cases before with
    | nil => exact ⟨_, hentity, h⟩
    | cons d before => exact absurd (by simp [h]) htail
  · rw [hself] at h
    have hmem : '&' ∈ [c] := by simp [h]
    exact absurd (List.mem_singleton.mp hmem).symm hamp

/-- Wherever an ampersand stands in written text, an entity stands there. -/
theorem entity_of_flatMap_eq_append {text before after : List Char}
    (h : text.flatMap escapeChar = before ++ '&' :: after) :
    ∃ entry ∈ entities, entry.2 <+: '&' :: after := by
  induction text generalizing before with
  | nil => simp at h
  | cons c text ih =>
    rw [List.flatMap_cons] at h
    rcases List.append_eq_append_iff.mp h with ⟨gap, -, hbehind⟩ | ⟨gap, hform, hbehind⟩
    · exact ih hbehind
    · cases gap with
      | nil =>
        have hrest : text.flatMap escapeChar = [] ++ '&' :: after := hbehind.symm
        exact ih hrest
      | cons d gap =>
        -- the ampersand belongs to the first character, and is the first of its entity
        obtain ⟨rfl, rfl⟩ := List.cons.inj hbehind
        obtain ⟨entry, hentry, heq⟩ := entity_of_escapeChar_eq_append hform
        exact ⟨entry, hentry, heq ▸ List.prefix_append _ _⟩

/-- Written text can stand anywhere in a page and be read back: it holds no markup, each of its
    ampersands begins an entity, and no other text is written like it. -/
theorem escape_safe_and_lossless (text : String) :
    (∀ c ∈ (escape text).toList, c ≠ '<' ∧ c ≠ '>' ∧ c ≠ '\x22' ∧ c ≠ '\x27') ∧
    (∀ before after, (escape text).toList = before ++ '&' :: after →
      ∃ entry ∈ entities, entry.2 <+: '&' :: after) ∧
    ∀ other, escape text = escape other ↔ text = other := by
  refine ⟨fun c hc => ?_, fun before after h => ?_, fun other => escape_inj⟩
  · have hplain := isMarkup_of_mem_escape hc
    simpa [isMarkup, and_assoc] using hplain
  · rw [toList_escape] at h
    exact entity_of_flatMap_eq_append h

/-- Text that looks like an entity, and the character that this entity stands for. -/
theorem escape_safe_and_lossless_entity :
    (∀ c ∈ (escape "&lt;").toList, c ≠ '<' ∧ c ≠ '>' ∧ c ≠ '\x22' ∧ c ≠ '\x27') ∧
      (∃ entry ∈ entities, entry.2 <+: "&amp;lt;".toList) ∧ escape "&lt;" ≠ escape "<" := by
  obtain ⟨hsafe, hentity, hlossless⟩ := escape_safe_and_lossless "&lt;"
  refine ⟨hsafe, hentity [] "amp;lt;".toList (by decide), fun h => ?_⟩
  exact absurd ((hlossless "<").mp h) (by decide)

end Provision.Html
