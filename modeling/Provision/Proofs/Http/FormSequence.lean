/-
  Provision.Proofs.Http.FormSequence

  Bodies that are read one after another into the same fields. A line feed ends a body as its end
  does (`FormReader.pushAll_lf_of_closes`), so two good bodies do together, each on lines of its
  own, what they do in turn (`Form.parse_joined`). Whether a body is good depends on the names of
  the fields, which no body changes, so those that are refused leave no trace on a sequence
  (`Form.updates_compose`).
-/
import Mathlib.Data.List.Basic
import Provision.Proofs.Http.Form

namespace Provision.Http

open FormBody

/-! ## A line feed between two bodies -/

namespace FormReader

variable {fields : List Field} {reader middle closed : FormReader} {first second : Bytes}

/-- A reader that may stop is brought by a line feed to where its stop would bring it. -/
theorem pushAll_lf_of_closes (h : Closes fields reader first closed) :
    reader.pushAll fields (first ++ [Byte.lf]) = .ok closed := by
  obtain ⟨between, hpush, hclose⟩ := h
  apply pushAll_append_eq_ok_iff.mpr
  refine ⟨between, hpush, ?_⟩
  obtain ⟨phase, staged⟩ := between
  cases phase with
  | value index seen => exact hclose
  | name seen =>
    -- a name that was begun cannot be stopped in, so nothing of one is left over
    cases seen with
    | nil => exact hclose
    | cons b seen => cases hclose

theorem closes_joined (hfirst : Closes fields reader first middle)
    (hsecond : Closes fields middle second closed) :
    Closes fields reader (first ++ Byte.lf :: second) closed := by
  rw [List.append_cons, closes_append_iff]
  exact ⟨middle, pushAll_lf_of_closes hfirst, hsecond⟩

end FormReader

namespace FormBody

/-- Of two runs of pairs the later one has the last word. -/
theorem lastValue?_append (pairs more : List FormPair) (name : Bytes) :
    lastValue? (pairs ++ more) name = (lastValue? more name).or (lastValue? pairs name) := by
  simp only [lastValue?, List.filter_append, List.getLast?_append, Option.map_or]

end FormBody

namespace FormReader

variable {fields fields' : List Field}

theorem stagedFor_append (fields : List Field) (pairs more : List FormPair) :
    stagedFor fields (pairs ++ more) =
      List.zipWith Option.or (stagedFor fields more) (stagedFor fields pairs) := by
  apply List.ext_getElem
  · simp
  · intro index hindex _
    -- a field behind another of its name stages nothing, in one run as in two
    simp only [stagedFor, List.getElem_zipWith, List.getElem_mapIdx, lastValue?_append]
    split <;> rfl

/-- Two forms on lines of their own are one form, with the pairs of both. -/
theorem isForm_joined {first second : Bytes} (hfirst : IsForm fields first)
    (hsecond : IsForm fields second) :
    IsForm fields (first ++ Byte.lf :: second) ∧
      stagedFor fields (split (first ++ Byte.lf :: second)).1 =
        stagedFor fields ((split first).1 ++ (split second).1) := by
  have hclosed : Closes fields ⟨.name [], stagedFor fields []⟩ first
      ⟨.name [], stagedFor fields (split first).1⟩ := closes_iff.mpr ⟨hfirst, rfl⟩
  -- the second body goes on from what the first has staged
  have hclosed' : Closes fields ⟨.name [], stagedFor fields (split first).1⟩ second
      ⟨.name [], stagedFor fields ((split first).1 ++ (split second).1)⟩ :=
    closes_iff.mpr ⟨hsecond, rfl⟩
  obtain ⟨hform, hstaged⟩ := closes_iff.mp (closes_joined hclosed hclosed')
  exact ⟨hform, congrArg FormReader.staged hstaged⟩

/-! ## What hangs on the names of the fields -/

theorem fieldIndex?_congr (h : fields.map Field.name = fields'.map Field.name) (name : Bytes) :
    fieldIndex? fields name = fieldIndex? fields' name := by
  have hnames : ∀ fields : List Field, fieldIndex? fields name =
      (fields.map Field.name).findIdx? fun other => utf8 other == name := by
    intro fields
    rw [List.findIdx?_map]
    rfl
  rw [hnames, hnames, h]

theorem stagedFor_congr (h : fields.map Field.name = fields'.map Field.name)
    (pairs : List FormPair) : stagedFor fields pairs = stagedFor fields' pairs := by
  have hlength : fields.length = fields'.length := by simpa using congrArg List.length h
  apply List.ext_getElem
  · simp [hlength]
  · intro index hindex hindex'
    rw [length_stagedFor] at hindex hindex'
    have hname : fields[index].name = fields'[index].name := by
      have hat := congrArg (·[index]?) h
      simpa [hindex, hindex'] using hat
    simp only [stagedFor, List.getElem_mapIdx, hname, fieldIndex?_congr h]

theorem isForm_congr (h : fields.map Field.name = fields'.map Field.name) {body : Bytes} :
    IsForm fields body ↔ IsForm fields' body := by
  have hknown : ∀ (fields : List Field) (name : Bytes),
      (∃ field ∈ fields, utf8 field.name = name) ↔
        ∃ other ∈ fields.map Field.name, utf8 other = name := by simp
  have hfits : ∀ pair, Fits fields pair ↔ Fits fields' pair := by
    intro pair
    constructor
    · rintro ⟨hshort, hname, hvalue⟩
      exact ⟨hshort, (hknown _ _).mpr (h ▸ (hknown _ _).mp hname), hvalue⟩
    · rintro ⟨hshort, hname, hvalue⟩
      exact ⟨hshort, (hknown _ _).mpr (h ▸ (hknown _ _).mp hname), hvalue⟩
  simp only [IsForm, hfits]

end FormReader

/-! ## Bodies in turn -/

namespace Form

variable {fields between filled : List Field} {first second : Bytes}

/-- The fields after a sequence of bodies. A refusal does not stop the bodies behind it. -/
def updateEach (fields : List Field) : List Bytes → List Field
  | [] => fields
  | body :: bodies =>
    match (update body).run fields with
    | .ok () filled => updateEach filled bodies
    | .error _ left => updateEach left bodies

/-- The bodies of a sequence that are not refused, each by the fields that it finds. -/
def accepted (fields : List Field) : List Bytes → List Bytes
  | [] => []
  | body :: bodies =>
    match (update body).run fields with
    | .ok () filled => body :: accepted filled bodies
    | .error _ left => accepted left bodies

/-- The fields take a body. -/
def takes (fields : List Field) (body : Bytes) : Bool :=
  match parse fields body with
  | .ok _ => true
  | .error _ => false

theorem takes_iff {body : Bytes} :
    takes fields body = true ↔ ∃ filled, parse fields body = .ok filled := by
  unfold takes
  cases parse fields body <;> simp

theorem names_commit (texts : List (Option String)) (fields : List Field) :
    (commit texts fields).map Field.name = fields.map Field.name := by
  fun_induction commit texts fields with
  | case1 value texts field fields ih => rw [List.map_cons, List.map_cons, ih]
  | case2 texts field fields ih => rw [List.map_cons, List.map_cons, ih]
  | case3 => rfl

/-- Two commits are one, in which the later text counts where there is one. -/
theorem commit_or {texts more : List (Option String)} (h : more.length = texts.length)
    (fields : List Field) :
    commit (List.zipWith Option.or more texts) fields = commit more (commit texts fields) := by
  induction texts generalizing more fields with
  | nil =>
    obtain rfl := List.length_eq_zero_iff.mp h
    rfl
  | cons text texts ih =>
    cases more with
    | nil => simp at h
    | cons later more =>
      rw [List.length_cons, List.length_cons, Nat.add_right_cancel_iff] at h
      cases fields with
      | nil => cases later <;> cases text <;> rfl
      | cons field fields => cases later <;> cases text <;> simp [commit, ih h]

/-- Two bodies that are good in turn are good together, and leave the same fields. -/
theorem parse_joined (hfirst : parse fields first = .ok between)
    (hsecond : parse between second = .ok filled) :
    parse fields (first ++ Byte.lf :: second) = .ok filled := by
  obtain ⟨hform, texts, htexts, rfl⟩ := parse_eq_ok_iff.mp hfirst
  obtain ⟨hform', more, hmore, rfl⟩ := parse_eq_ok_iff.mp hsecond
  have hnames := names_commit texts fields
  rw [FormReader.isForm_congr hnames] at hform'
  rw [FormReader.stagedFor_congr hnames] at hmore
  obtain ⟨hjoined, hstaged⟩ := FormReader.isForm_joined hform hform'
  have hlength : more.length = texts.length := by
    have hmoreLength := congrArg List.length hmore
    have htextsLength := congrArg List.length htexts
    simp only [List.length_map, FormReader.length_stagedFor] at hmoreLength htextsLength
    rw [hmoreLength, htextsLength]
  apply parse_eq_ok_iff.mpr
  refine ⟨hjoined, List.zipWith Option.or more texts, ?_, commit_or hlength fields⟩
  -- a text is kept in place of its bytes, whichever body it comes from
  rw [hstaged, FormReader.stagedFor_append, ← htexts, ← hmore, List.map_zipWith,
    List.zipWith_map]
  simp only [Option.map_or]

theorem parse_nil (fields : List Field) : parse fields [] = .ok fields := by
  have hcommit : ∀ fields : List Field, commit (fields.map fun _ => none) fields = fields := by
    intro fields
    induction fields with
    | nil => rfl
    | cons field fields ih => rw [List.map_cons, commit, ih]
  have hsplit : split [] = ([], []) := by simp [split]
  apply parse_eq_ok_iff.mpr
  refine ⟨by simp [IsForm, hsplit], fields.map fun _ => none, ?_, hcommit fields⟩
  have hstaged : (fields.map fun _ => none) = FormReader.stagedFor fields [] :=
    congrArg FormReader.staged (FormReader.staged_initial fields)
  rw [hsplit, ← hstaged, List.map_map]
  rfl

/-- A body is refused, or not, whatever values the fields have. -/
theorem takes_congr {fields' : List Field} (h : fields.map Field.name = fields'.map Field.name) :
    takes fields = takes fields' := by
  -- what makes a body good is said of the names alone
  have htakes : ∀ (fields : List Field) (body : Bytes), takes fields body = true ↔
      IsForm fields body ∧ ∃ texts : List (Option String),
        texts.map (Option.map utf8) = FormReader.stagedFor fields (split body).1 := by
    intro fields body
    rw [takes_iff]
    simp only [parse_eq_ok_iff]
    constructor
    · rintro ⟨filled, hform, texts, htexts, -⟩
      exact ⟨hform, texts, htexts⟩
    · rintro ⟨hform, texts, htexts⟩
      exact ⟨_, hform, texts, htexts, rfl⟩
  funext body
  rw [Bool.eq_iff_iff, htakes, htakes, FormReader.isForm_congr h, FormReader.stagedFor_congr h]

theorem takes_of_parse_eq_ok {body : Bytes} (h : parse fields body = .ok filled) :
    takes filled = takes fields := by
  obtain ⟨-, texts, -, rfl⟩ := parse_eq_ok_iff.mp h
  exact takes_congr (names_commit texts fields)

theorem accepted_eq_filter (fields : List Field) (bodies : List Bytes) :
    accepted fields bodies = bodies.filter (takes fields) := by
  induction bodies generalizing fields with
  | nil => rfl
  | cons body bodies ih =>
    rw [accepted, run_update]
    cases hparse : parse fields body with
    | error e =>
      rw [List.filter_cons_of_neg (by simp [takes, hparse])]
      exact ih fields
    | ok filled =>
      rw [List.filter_cons_of_pos (by simp [takes, hparse]), ← takes_of_parse_eq_ok hparse]
      exact congrArg (body :: ·) (ih filled)

/-- The bodies that are refused change nothing for those behind them. -/
theorem updateEach_eq_filter (fields : List Field) (bodies : List Bytes) :
    updateEach fields bodies = updateEach fields (bodies.filter (takes fields)) := by
  induction bodies generalizing fields with
  | nil => rfl
  | cons body bodies ih =>
    cases hparse : parse fields body with
    | error e =>
      rw [List.filter_cons_of_neg (by simp [takes, hparse]), ← ih, updateEach, run_update, hparse]
    | ok filled =>
      rw [List.filter_cons_of_pos (by simp [takes, hparse]), updateEach, updateEach, run_update,
        hparse, ← takes_of_parse_eq_ok hparse]
      exact ih filled

/-- A whole sequence leaves what one body does in which the accepted ones stand on lines of their
    own. -/
theorem parse_intercalate_accepted (fields : List Field) (bodies : List Bytes) :
    parse fields ([Byte.lf].intercalate (accepted fields bodies)) =
      .ok (updateEach fields bodies) := by
  induction bodies generalizing fields with
  | nil => exact parse_nil fields
  | cons body bodies ih =>
    rw [accepted, updateEach, run_update]
    cases hparse : parse fields body with
    | error e => exact ih fields
    | ok filled =>
      have hrest := ih filled
      dsimp only
      cases haccepted : accepted filled bodies with
      | nil =>
        -- no body is accepted behind this one, so the fields stay as it leaves them
        rw [haccepted, List.intercalate_nil, parse_nil] at hrest
        rw [List.intercalate_singleton, hparse, hrest]
      | cons next rest =>
        rw [haccepted] at hrest
        rw [List.intercalate_cons_cons, List.append_assoc]
        exact parse_joined hparse hrest

/-- Bodies that are accepted in turn are accepted as one body, with a line feed between them, and
    leave the same fields; and from a sequence any refused bodies can be left out. -/
theorem updates_compose (fields : List Field) :
    (∀ first second between filled, (update first).run fields = .ok () between →
      (update second).run between = .ok () filled →
      (update (first ++ Byte.lf :: second)).run fields = .ok () filled) ∧
    (∀ bodies kept : List Bytes, kept.Sublist bodies → (accepted fields bodies).Sublist kept →
      updateEach fields kept = updateEach fields bodies) ∧
    ∀ bodies, (update ([Byte.lf].intercalate (accepted fields bodies))).run fields =
      .ok () (updateEach fields bodies) := by
  have hupdate : ∀ {body : Bytes} {fields filled : List Field},
      (update body).run fields = .ok () filled ↔ parse fields body = .ok filled := by
    intro body fields filled
    rw [run_update]
    cases parse fields body <;> simp
  refine ⟨fun first second between filled hfirst hsecond => ?_,
    fun bodies kept hkept haccepted => ?_, fun bodies => ?_⟩
  · exact hupdate.mpr (parse_joined (hupdate.mp hfirst) (hupdate.mp hsecond))
  · -- what is kept and what there was have the same good bodies
    rw [accepted_eq_filter] at haccepted
    have hgood := haccepted.filter (takes fields)
    rw [List.filter_filter] at hgood
    simp only [Bool.and_self] at hgood
    have hsame := (hkept.filter (takes fields)).antisymm hgood
    rw [updateEach_eq_filter fields kept, updateEach_eq_filter fields bodies, hsame]
  · exact hupdate.mpr (parse_intercalate_accepted fields bodies)

/-- A form whose last value has no end, one with a field that is not there, and one that gives the
    first value again. -/
theorem updates_compose_resubmitted :
    let fields : List Field := [⟨"ssid", 4, ""⟩, ⟨"password", 8, ""⟩]
    let between : List Field := [⟨"ssid", 4, "home"⟩, ⟨"password", 8, ""⟩]
    let filled : List Field := [⟨"ssid", 4, "guest"⟩, ⟨"password", 8, "12345678"⟩]
    let first := utf8 "ssid=home"
    let second := utf8 "password=12345678\r\nssid=guest"
    let unknown := utf8 "ssid=other\nchannel=6"
    (update first).run fields = .ok () between ∧ (update second).run between = .ok () filled ∧
      (update (first ++ Byte.lf :: second)).run fields = .ok () filled ∧
      updateEach fields [first, second] = updateEach fields [first, unknown, second] := by
  intro fields between filled first second unknown
  have hfirst : (update first).run fields = .ok () between := by
    have hparse : parse fields first = .ok between := by decide +kernel
    rw [run_update, hparse]
  have hsecond : (update second).run between = .ok () filled := by
    have hparse : parse between second = .ok filled := by decide +kernel
    rw [run_update, hparse]
  have haccepted : accepted fields [first, unknown, second] = [first, second] := by
    rw [accepted_eq_filter]
    decide +kernel
  have hkept : [first, second].Sublist [first, unknown, second] :=
    (List.sublist_cons_self unknown [second]).cons_cons first
  obtain ⟨hjoined, hremoved, -⟩ := updates_compose fields
  refine ⟨hfirst, hsecond, hjoined first second between filled hfirst hsecond, ?_⟩
  apply hremoved
  · exact hkept
  · rw [haccepted]

end Form

end Provision.Http
