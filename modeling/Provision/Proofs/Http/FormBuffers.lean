/-
  Provision.Proofs.Http.FormBuffers

  The form reader with its storage laid open. One buffer for names and one for values serve all
  pairs of a body in turn: the name is emptied where its equals sign is taken, the value where its
  line ends. Slots and fields are reached by index, and a run that asks for one that is not there
  has no result. After any bytes the storage holds what these bytes say (`FormBuffers.Describes`),
  and from that everything else is read off: the run always has a result, which is that of
  `FormReader`, and whatever it reaches keeps its bounds (`FormBuffers.pushAll_in_bounds`).
-/
import Mathlib.Data.List.DropRight
import Provision.Proofs.Http.Form

namespace Provision.Http

open FormBody

/-! ## What the storage may hold -/

namespace FormBody

/-- A name, as far as it was read. -/
structure IsName (bytes : Bytes) : Prop where
  short : bytes.length ≤ maxNameLength
  plain : ∀ b ∈ bytes, b ≠ Byte.equals ∧ Byte.isBreak b = false

/-- A value, as far as it was read. -/
structure IsValue (bytes : Bytes) : Prop where
  short : bytes.length ≤ maxValueLength
  line : ∀ b ∈ bytes, Byte.isBreak b = false

theorem isValue_nil : IsValue [] := ⟨Nat.zero_le _, by simp⟩

theorem IsValue.concat {value : Bytes} {b : UInt8} (h : IsValue value)
    (hroom : value.length ≠ maxValueLength) (hb : Byte.isBreak b = false) :
    IsValue (value ++ [b]) := by
  refine ⟨?_, List.forall_mem_append.mpr ⟨h.line, by simpa using hb⟩⟩
  have hshort := h.short
  rw [List.length_append, List.length_singleton]
  omega

theorem isName_unbroken {bytes : Bytes} (hplain : Byte.equals ∉ bytes)
    (hshort : (unbroken bytes).length ≤ maxNameLength) : IsName (unbroken bytes) := by
  refine ⟨hshort, fun b hb => ?_⟩
  obtain ⟨hmem, hkeep⟩ := List.mem_filter.mp hb
  exact ⟨ne_of_mem_of_not_mem hmem hplain, by simpa using hkeep⟩

theorem unbroken_concat (bytes : Bytes) (b : UInt8) :
    unbroken (bytes ++ [b]) = if Byte.isBreak b then unbroken bytes else unbroken bytes ++ [b] := by
  cases hbreak : Byte.isBreak b <;> simp [unbroken, hbreak]

/-- The field at the index is the first one with this name. -/
structure FirstNamed (fields : List Field) (name : Bytes) (index : Nat) : Prop where
  lt : index < fields.length
  name : utf8 fields[index].name = name
  first : Form.IsFirst fields index

theorem firstNamed_iff {fields : List Field} {name : Bytes} {index : Nat} :
    FirstNamed fields name index ↔ FormReader.fieldIndex? fields name = some index := by
  constructor
  · rintro ⟨hlt, rfl, hfirst⟩
    exact (Form.isFirst_iff hlt).mp hfirst
  · intro h
    obtain ⟨hlt, rfl, -⟩ := FormReader.fieldIndex?_eq_some_iff.mp h
    exact ⟨hlt, rfl, (Form.isFirst_iff hlt).mpr h⟩

/-! ## Pairs that have ended -/

/-- The pairs whose values have ended. A value ends with its line, so they are those of the bytes
    up to the last line break. -/
def endedPairs (body : Bytes) : List FormPair :=
  (split (body.rdropWhile fun b => !Byte.isBreak b)).1

/-- The bytes are these pairs and nothing else, the last line break included. -/
inductive Ended : Bytes → List FormPair → Prop
  | nil : Ended [] []
  | pair {front name value : Bytes} {pairs : List FormPair} {b : UInt8}
    (ended : Ended front pairs) (hname : Byte.equals ∉ name) (hvalue : IsValue value)
    (hbreak : Byte.isBreak b = true) :
    Ended (front ++ (name ++ Byte.equals :: (value ++ [b]))) (pairs ++ [⟨unbroken name, value⟩])

namespace Ended

variable {front : Bytes} {pairs : List FormPair}

theorem isValue (h : Ended front pairs) : ∀ pair ∈ pairs, IsValue pair.value := by
  induction h with
  | nil => simp
  | pair _ _ hvalue _ ih => exact List.forall_mem_append.mpr ⟨ih, by simpa using hvalue⟩

/-- What follows whole pairs is cut as a body of its own. -/
theorem split_append (h : Ended front pairs) (more : Bytes) :
    split (front ++ more) = (pairs ++ (split more).1, (split more).2) := by
  induction h generalizing more with
  | nil => rfl
  | @pair front name value pairs b _ hname hvalue hbreak ih =>
    have hafter : ∀ c ∈ (b :: more).head?, Byte.isBreak c = true := by simpa using hbreak
    have hcut := split_pair hname hvalue.line hafter
    have hassoc : front ++ (name ++ Byte.equals :: (value ++ [b])) ++ more =
        front ++ (name ++ Byte.equals :: (value ++ b :: more)) := by simp
    rw [hassoc, ih, hcut]
    simp

/-- Whole pairs are kept where the bytes are dropped that are no line break. -/
theorem rdropWhile_append (h : Ended front pairs) (more : Bytes) :
    (front ++ more).rdropWhile (fun b => !Byte.isBreak b) =
      front ++ more.rdropWhile fun b => !Byte.isBreak b := by
  induction more using List.reverseRecOn with
  | nil =>
    rw [List.append_nil, List.rdropWhile_nil, List.append_nil]
    cases h with
    | nil => rfl
    | @pair front name value pairs b _ _ _ hbreak =>
      -- the last byte is the line break of the last pair
      have hlast : front ++ (name ++ Byte.equals :: (value ++ [b])) =
          front ++ (name ++ Byte.equals :: value) ++ [b] := by simp
      rw [hlast, List.rdropWhile_concat_neg _ _ _ (by simp [hbreak])]
  | append_singleton more c ih =>
    rw [← List.append_assoc, List.rdropWhile_concat, List.rdropWhile_concat, ih]
    split
    · rfl
    · rw [List.append_assoc]

/-- Bytes behind whole pairs that open no value before their last line break end none. -/
theorem endedPairs_append (h : Ended front pairs) {more : Bytes}
    (hmore : Byte.equals ∉ more.rdropWhile fun b => !Byte.isBreak b) :
    endedPairs (front ++ more) = pairs := by
  rw [endedPairs, h.rdropWhile_append, h.split_append, split_of_notMem hmore, List.append_nil]

theorem endedPairs_append_name (h : Ended front pairs) {name : Bytes}
    (hname : Byte.equals ∉ name) : endedPairs (front ++ name) = pairs :=
  h.endedPairs_append fun hmem => hname ((List.rdropWhile_prefix _ _).subset hmem)

theorem endedPairs_append_value (h : Ended front pairs) {name value : Bytes}
    (hname : Byte.equals ∉ name) (hvalue : ∀ b ∈ value, Byte.isBreak b = false) :
    endedPairs (front ++ (name ++ Byte.equals :: value)) = pairs := by
  -- neither the equals sign nor the value holds a line break
  have hdrop : (name ++ Byte.equals :: value).rdropWhile (fun b => !Byte.isBreak b) =
      name.rdropWhile fun b => !Byte.isBreak b := by
    have hall : ∀ b ∈ (Byte.equals :: value).reverse, (!Byte.isBreak b) = true := by
      intro b hb
      rcases List.mem_cons.mp (List.mem_reverse.mp hb) with rfl | hmem
      · rfl
      · rw [hvalue b hmem]
        rfl
    rw [List.rdropWhile, List.reverse_append, List.dropWhile_append_of_pos hall]
    rfl
  apply h.endedPairs_append
  rw [hdrop]
  exact fun hmem => hname ((List.rdropWhile_prefix _ _).subset hmem)

end Ended

theorem exists_lastValue?_iff {pairs : List FormPair} {name : Bytes} :
    (∃ value, lastValue? pairs name = some value) ↔ ∃ pair ∈ pairs, pair.name = name := by
  rw [← Option.isSome_iff_exists]
  simp [lastValue?]

end FormBody

namespace FormReader

/-- A value is staged at an index if it is the last one for a name whose first field is there. -/
theorem getElem?_stagedFor_eq_some_iff {fields : List Field} {pairs : List FormPair} {index : Nat}
    {value : Bytes} :
    (stagedFor fields pairs)[index]? = some (some value) ↔
      ∃ name, FirstNamed fields name index ∧ lastValue? pairs name = some value := by
  simp only [firstNamed_iff]
  constructor
  · intro h
    rw [stagedFor, List.getElem?_mapIdx, Option.map_eq_some_iff] at h
    obtain ⟨field, -, hstaged⟩ := h
    split at hstaged
    · rename_i hfirst
      exact ⟨utf8 field.name, hfirst, hstaged⟩
    · cases hstaged
  · rintro ⟨name, hfirst, hlast⟩
    obtain ⟨hlt, rfl, -⟩ := fieldIndex?_eq_some_iff.mp hfirst
    rw [stagedFor, List.getElem?_mapIdx, List.getElem?_eq_getElem hlt]
    simp [hfirst, hlast]

end FormReader

/-! ## The buffers -/

/-- A body that is being read, in the storage that serves all its pairs. -/
structure FormBuffers where
  /-- The index of the field whose value is being read, none while a name is. -/
  target : Option Nat
  name : Bytes
  value : Bytes
  /-- A slot for each field. -/
  staged : List (Option Bytes)
deriving DecidableEq

namespace FormBuffers

def initial (fields : List Field) : FormBuffers := ⟨none, [], [], fields.map fun _ => none⟩

/-- Moves the value into the slot at an index, if there is one. -/
def stage (buffers : FormBuffers) (index : Nat) : Option FormBuffers :=
  if index < buffers.staged.length then
    some ⟨none, buffers.name, [], buffers.staged.set index (some buffers.value)⟩
  else none

/-- Reads one byte. There is no result where a field or a slot is asked for that is not there. -/
def push (fields : List Field) (buffers : FormBuffers) (b : UInt8) :
    Option (Except FormError FormBuffers) :=
  match buffers.target with
  | none =>
    if b == Byte.equals then
      match FormReader.fieldIndex? fields buffers.name with
      | some index => some (.ok ⟨some index, [], [], buffers.staged⟩)
      | none => some (.error (.unknownField (Utf8.decodeLossy buffers.name)))
    else if Byte.isBreak b then some (.ok buffers)
    else if buffers.name.length == maxNameLength then some (.error .nameTooLong)
    else some (.ok { buffers with name := buffers.name ++ [b] })
  | some index =>
    if Byte.isBreak b then (buffers.stage index).map .ok
    else if buffers.value.length == maxValueLength then
      fields[index]?.map fun field => .error (.valueTooLong field.name)
    else some (.ok { buffers with value := buffers.value ++ [b] })

def pushAll (fields : List Field) (buffers : FormBuffers) :
    Bytes → Option (Except FormError FormBuffers)
  | [] => some (.ok buffers)
  | b :: rest =>
    match buffers.push fields b with
    | none => none
    | some (.error e) => some (.error e)
    | some (.ok next) => pushAll fields next rest

/-- The reader that these buffers are the storage of. -/
def reader (buffers : FormBuffers) : FormReader :=
  match buffers.target with
  | none => ⟨.name buffers.name, buffers.staged⟩
  | some index => ⟨.value index buffers.value, buffers.staged⟩

variable {fields : List Field} {seen : Bytes} {buffers : FormBuffers}

/-! ## What is stored after some bytes -/

/-- The storage after bytes that were all taken: the slots hold what the ended pairs leave, and one
    buffer at most holds a part of the next pair. -/
inductive Describes (fields : List Field) : Bytes → FormBuffers → Prop
  | name {front name : Bytes} {pairs : List FormPair} (ended : Ended front pairs)
    (hname : Byte.equals ∉ name) (hshort : (unbroken name).length ≤ maxNameLength) :
    Describes fields (front ++ name)
      ⟨none, unbroken name, [], FormReader.stagedFor fields pairs⟩
  | value {front name value : Bytes} {pairs : List FormPair} {index : Nat}
    (ended : Ended front pairs) (hname : Byte.equals ∉ name)
    (hfirst : FormReader.fieldIndex? fields (unbroken name) = some index)
    (hvalue : IsValue value) :
    Describes fields (front ++ (name ++ Byte.equals :: value))
      ⟨some index, [], value, FormReader.stagedFor fields pairs⟩

/-- A run over some bytes has a result, which is that of the reader, and it leaves the storage that
    these bytes describe. -/
def Follows (fields : List Field) (seen : Bytes) (run : Option (Except FormError FormBuffers))
    (expected : Except FormError FormReader) : Prop :=
  ∃ result, run = some result ∧ result.map reader = expected ∧
    ∀ buffers, result = .ok buffers → Describes fields seen buffers

theorem Follows.refused (e : FormError) : Follows fields seen (some (.error e)) (.error e) :=
  ⟨.error e, rfl, rfl, nofun⟩

theorem Follows.taken (h : Describes fields seen buffers) :
    Follows fields seen (some (.ok buffers)) (.ok buffers.reader) := by
  refine ⟨.ok buffers, rfl, rfl, fun buffers' heq => ?_⟩
  cases heq
  exact h

/-- Between two pairs both buffers are empty. -/
theorem Describes.between {front : Bytes} {pairs : List FormPair} (ended : Ended front pairs) :
    Describes fields front ⟨none, [], [], FormReader.stagedFor fields pairs⟩ := by
  have hname : Describes fields (front ++ [])
      ⟨none, unbroken [], [], FormReader.stagedFor fields pairs⟩ :=
    .name ended (by simp) (Nat.zero_le _)
  rwa [List.append_nil] at hname

theorem describes_initial (fields : List Field) : Describes fields [] (initial fields) := by
  have hstaged : (fields.map fun _ => none) = FormReader.stagedFor fields [] :=
    congrArg FormReader.staged (FormReader.staged_initial fields)
  rw [initial, hstaged]
  exact .between .nil

/-- A byte behind a name opens the value, is dropped, or goes on with the name. -/
theorem push_name {front name : Bytes} {pairs : List FormPair} (ended : Ended front pairs)
    (hname : Byte.equals ∉ name) (hshort : (unbroken name).length ≤ maxNameLength) (b : UInt8) :
    Follows fields (front ++ name ++ [b])
      (push fields ⟨none, unbroken name, [], FormReader.stagedFor fields pairs⟩ b)
      (FormReader.push fields ⟨.name (unbroken name), FormReader.stagedFor fields pairs⟩ b) := by
  rw [List.append_assoc]
  by_cases hequals : b = Byte.equals
  · subst hequals
    cases hfirst : FormReader.fieldIndex? fields (unbroken name) with
    | none =>
      simp only [push, FormReader.push, hfirst, beq_self_eq_true, if_true]
      exact .refused _
    | some index =>
      simp only [push, FormReader.push, hfirst, beq_self_eq_true, if_true]
      exact .taken (.value ended hname hfirst isValue_nil)
  · -- the name goes on, with this byte or without it
    have hmore : Byte.equals ∉ name ++ [b] := by simp [hname, Ne.symm hequals]
    cases hbreak : Byte.isBreak b with
    | true =>
      have hkeep : unbroken (name ++ [b]) = unbroken name := by rw [unbroken_concat, if_pos hbreak]
      simp only [push, FormReader.push, beq_iff_eq, hequals, hbreak, if_true, if_false]
      rw [← hkeep] at hshort ⊢
      exact .taken (.name ended hmore hshort)
    | false =>
      by_cases hfull : (unbroken name).length = maxNameLength
      · simp only [push, FormReader.push, beq_iff_eq, hequals, hbreak, hfull, if_true, if_false,
          Bool.false_eq_true]
        exact .refused _
      · have hkeep : unbroken (name ++ [b]) = unbroken name ++ [b] := by
          simp [unbroken_concat, hbreak]
        have hroom : (unbroken (name ++ [b])).length ≤ maxNameLength := by
          rw [hkeep, List.length_append, List.length_singleton]
          omega
        simp only [push, FormReader.push, beq_iff_eq, hequals, hbreak, hfull, if_false,
          Bool.false_eq_true]
        rw [← hkeep]
        exact .taken (.name ended hmore hroom)

/-- A byte behind a value ends it or goes on with it. Both find the field that it is for. -/
theorem push_value {front name value : Bytes} {pairs : List FormPair} {index : Nat}
    (ended : Ended front pairs) (hname : Byte.equals ∉ name)
    (hfirst : FormReader.fieldIndex? fields (unbroken name) = some index) (hvalue : IsValue value)
    (b : UInt8) :
    Follows fields (front ++ (name ++ Byte.equals :: value) ++ [b])
      (push fields ⟨some index, [], value, FormReader.stagedFor fields pairs⟩ b)
      (FormReader.push fields ⟨.value index value, FormReader.stagedFor fields pairs⟩ b) := by
  have hlt : index < fields.length := (firstNamed_iff.mpr hfirst).lt
  rw [List.append_assoc, List.append_assoc, List.cons_append]
  cases hbreak : Byte.isBreak b with
  | true =>
    have hstage : stage ⟨some index, [], value, FormReader.stagedFor fields pairs⟩ index =
        some ⟨none, [], [], FormReader.stagedFor fields (pairs ++ [⟨unbroken name, value⟩])⟩ := by
      -- there are as many slots as fields
      rw [stage, if_pos (by simpa using hlt),
        FormReader.stagedFor_set ⟨unbroken name, value⟩ hfirst]
    simp only [push, FormReader.push, hbreak, if_true, hstage, FormReader.stage,
      FormReader.stagedFor_set ⟨unbroken name, value⟩ hfirst]
    exact .taken (.between (ended.pair hname hvalue hbreak))
  | false =>
    by_cases hfull : value.length = maxValueLength
    · have hat : fields[index]? = some fields[index] := List.getElem?_eq_getElem hlt
      simp only [push, FormReader.push, hbreak, hfull, FormReader.fieldName, hat, beq_self_eq_true,
        if_true, if_false, Bool.false_eq_true, Option.map_some, Option.getD_some]
      exact .refused _
    · simp only [push, FormReader.push, beq_iff_eq, hbreak, hfull, if_false, Bool.false_eq_true]
      exact .taken (.value ended hname hfirst (hvalue.concat hfull hbreak))

theorem Describes.push (h : Describes fields seen buffers) (b : UInt8) :
    Follows fields (seen ++ [b]) (buffers.push fields b) (buffers.reader.push fields b) := by
  cases h with
  | name ended hname hshort => exact push_name ended hname hshort b
  | value ended hname hfirst hvalue => exact push_value ended hname hfirst hvalue b

theorem Describes.pushAll (h : Describes fields seen buffers) (bytes : Bytes) :
    Follows fields (seen ++ bytes) (buffers.pushAll fields bytes)
      (buffers.reader.pushAll fields bytes) := by
  -- each byte that is taken joins those that were seen, so the storage is described all along
  induction bytes generalizing seen buffers with
  | nil =>
    rw [List.append_nil]
    exact .taken h
  | cons b bytes ih =>
    obtain ⟨result, hpush, hreader, hdescribes⟩ := h.push b
    rw [FormBuffers.pushAll, FormReader.pushAll, hpush, ← hreader]
    cases result with
    | error e => exact .refused e
    | ok next =>
      rw [List.append_cons]
      exact ih (hdescribes next rfl)

/-! ## The bounds -/

/-- The slots where these pairs have ended. -/
structure Slots (fields : List Field) (pairs : List FormPair) (staged : List (Option Bytes)) :
    Prop where
  length : staged.length = fields.length
  value : ∀ value, some value ∈ staged → IsValue value
  /-- A slot is filled exactly if one of the pairs is for it. -/
  filled_iff : ∀ index, (∃ value, staged[index]? = some (some value)) ↔
    ∃ pair ∈ pairs, FirstNamed fields pair.name index
  /-- It holds the value of the last such pair. -/
  last : ∀ index value, staged[index]? = some (some value) →
    ∃ name, FirstNamed fields name index ∧ lastValue? pairs name = some value

/-- The bounds that the storage keeps over the bytes that were taken. -/
structure Bounded (fields : List Field) (seen : Bytes) (buffers : FormBuffers) : Prop where
  name : IsName buffers.name
  value : IsValue buffers.value
  slots : Slots fields (endedPairs seen) buffers.staged
  target_lt : ∀ index, buffers.target = some index → index < buffers.staged.length
  /-- The field that is read for is the first one with the name of the pair that was begun. -/
  target_first : ∀ index, buffers.target = some index →
    ∃ pair, (split seen).1.getLast? = some pair ∧ pair.value = buffers.value ∧
      FirstNamed fields pair.name index
  /-- Of the two buffers one at most is in use. -/
  name_eq_nil : ∀ index, buffers.target = some index → buffers.name = []
  value_eq_nil : buffers.target = none → buffers.value = []

theorem slots_stagedFor {front : Bytes} {pairs : List FormPair} (ended : Ended front pairs) :
    Slots fields pairs (FormReader.stagedFor fields pairs) where
  length := FormReader.length_stagedFor fields pairs
  value value hmem := by
    obtain ⟨index, hindex⟩ := List.mem_iff_getElem?.mp hmem
    obtain ⟨name, -, hlast⟩ := FormReader.getElem?_stagedFor_eq_some_iff.mp hindex
    obtain ⟨pair, hpair, rfl⟩ := exists_mem_of_lastValue? hlast
    exact ended.isValue pair hpair
  filled_iff index := by
    simp only [FormReader.getElem?_stagedFor_eq_some_iff]
    constructor
    · rintro ⟨value, name, hfirst, hlast⟩
      obtain ⟨pair, hpair, rfl⟩ := exists_lastValue?_iff.mp ⟨value, hlast⟩
      exact ⟨pair, hpair, hfirst⟩
    · rintro ⟨pair, hpair, hfirst⟩
      obtain ⟨value, hlast⟩ := exists_lastValue?_iff.mpr ⟨pair, hpair, rfl⟩
      exact ⟨value, pair.name, hfirst, hlast⟩
  last index value := FormReader.getElem?_stagedFor_eq_some_iff.mp

theorem Describes.bounded (h : Describes fields seen buffers) : Bounded fields seen buffers := by
  cases h with
  | name ended hname hshort =>
    exact {
      name := isName_unbroken hname hshort
      value := isValue_nil
      slots := (ended.endedPairs_append_name hname).symm ▸ slots_stagedFor ended
      target_lt := nofun
      target_first := nofun
      name_eq_nil := nofun
      value_eq_nil := fun _ => rfl }
  | @value front name value pairs index ended hname hfirst hvalue =>
    have hnamed : FirstNamed fields (unbroken name) index := firstNamed_iff.mpr hfirst
    -- the value goes on to the end of the bytes, so its pair is the last one
    have hcut : split (name ++ Byte.equals :: (value ++ [])) = _ :=
      split_pair hname hvalue.line (by simp)
    have hlast : (split (front ++ (name ++ Byte.equals :: value))).1.getLast? =
        some ⟨unbroken name, value⟩ := by
      rw [List.append_nil] at hcut
      rw [ended.split_append, hcut]
      simp [split_of_notMem]
    exact {
      name := ⟨Nat.zero_le _, by simp⟩
      value := hvalue
      slots := (ended.endedPairs_append_value hname hvalue.line).symm ▸ slots_stagedFor ended
      target_lt := by
        rintro _ ⟨⟩
        rw [FormReader.length_stagedFor]
        exact hnamed.lt
      target_first := by
        rintro _ ⟨⟩
        exact ⟨_, hlast, rfl, hnamed⟩
      name_eq_nil := fun _ _ => rfl
      value_eq_nil := nofun }

/-- Whatever bytes are read, no field and no slot is asked for that is not there, what comes of it
    is what the reader makes of them, and every storage that is reached keeps its bounds. -/
theorem pushAll_in_bounds (fields : List Field) (bytes : Bytes) :
    ∃ result, (initial fields).pushAll fields bytes = some result ∧
      result.map reader = (FormReader.initial fields).pushAll fields bytes ∧
      ∀ buffers, result = .ok buffers → Bounded fields bytes buffers := by
  obtain ⟨result, hrun, hreader, hdescribes⟩ := (describes_initial fields).pushAll bytes
  exact ⟨result, hrun, hreader, fun buffers h => (hdescribes buffers h).bounded⟩

/-- A value that is not at its end, of a name on two lines, behind one that is. The second field of
    a name gets nothing. -/
theorem pushAll_in_bounds_repeated :
    let fields : List Field := [⟨"ssid", 1, ""⟩, ⟨"ssid", 4, ""⟩, ⟨"password", 8, ""⟩]
    let bytes := utf8 "ssid=home\r\npass\nword=a=b"
    let buffers : FormBuffers := ⟨some 2, [], utf8 "a=b", [some (utf8 "home"), none, none]⟩
    (initial fields).pushAll fields bytes = some (.ok buffers) ∧
      (FormReader.initial fields).pushAll fields bytes = .ok buffers.reader ∧
      endedPairs bytes = [⟨utf8 "ssid", utf8 "home"⟩] ∧ Bounded fields bytes buffers := by
  intro fields bytes buffers
  have hrun : (initial fields).pushAll fields bytes = some (.ok buffers) := by decide +kernel
  obtain ⟨result, hresult, hreader, hbounded⟩ := pushAll_in_bounds fields bytes
  obtain rfl : result = .ok buffers := Option.some.inj (hresult.symm.trans hrun)
  exact ⟨hrun, hreader.symm, by decide +kernel, hbounded buffers rfl⟩

end FormBuffers

end Provision.Http
