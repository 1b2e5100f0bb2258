/-
  Provision.Proofs.Device.History

  A store over whole runs of operations. What it answers follows from the history of the run
  alone: from the last registration of a domain, from the last write of a record that was not
  erased since, and from the observer that was installed last (`Store.Describes`). Hence a
  record reads as what was written last (`Store.last_write_wins`).
-/
import Mathlib.Data.List.Induction
import Provision.Device.Store

namespace Provision.Store

/-! ## Histories -/

/-- One operation of a run, what it answered, and what the observer was told of it. -/
structure Event where
  operation : Operation
  answer : Answer
  told : Option Observation
deriving DecidableEq

/-- One more operation of a run. -/
def proceed (past : List Event × Store) (operation : Operation) : List Event × Store :=
  let (answer, told, store) := past.2.perform operation
  (past.1 ++ [⟨operation, answer, told⟩], store)

/-- Carries out operations one by one: their history, and the store after them. -/
def run (store : Store) (operations : List Operation) : List Event × Store :=
  operations.foldl proceed ([], store)

/-- An event is the last of its kind. -/
def IsLatest {α : Type} (kind : α → Prop) (history : List α) (event : α) : Prop :=
  ∃ before after, history = before ++ event :: after ∧ kind event ∧ ∀ later ∈ after, ¬ kind later

/-- The event registers a domain. -/
def Event.Registers (domain : UInt8) (event : Event) : Prop :=
  ∃ ids, event.operation = .registerDomain domain ids

/-- The event decides what a record is: it writes it, or erases all. -/
def Event.Settles (domain id : UInt8) (event : Event) : Prop :=
  event.operation = .factoryReset ∨
    ∃ value, event.operation = .write domain id value ∧ event.answer = .accepted

/-- The event installs an observer. -/
def Event.Observes (event : Event) : Prop := ∃ observer, event.operation = .observe observer

/-- A domain was last registered with this number of ids. -/
def Registered (history : List Event) (domain ids : UInt8) : Prop :=
  ∃ event, IsLatest (Event.Registers domain) history event ∧
    event.operation = .registerDomain domain ids

/-- The value was written last to a record, and not erased since. -/
def WrittenLast (history : List Event) (domain id : UInt8) (value : Bytes) : Prop :=
  ∃ event, IsLatest (Event.Settles domain id) history event ∧
    event.operation = .write domain id value

/-- The observer was installed last. -/
def Installed (history : List Event) (observer : String) : Prop :=
  ∃ event, IsLatest Event.Observes history event ∧ event.operation = .observe observer

/-! ## What a history decides -/

/-- Why a record cannot be reached after a history, if it cannot. -/
inductive Refuses (history : List Event) (domain id : UInt8) : Option StoreError → Prop
  | unknownDomain (h : ∀ event ∈ history, ¬ event.Registers domain) :
    Refuses history domain id (some (.unknownDomain domain))
  | unknownId {ids : UInt8} (h : Registered history domain ids) (hid : ids ≤ id) :
    Refuses history domain id (some (.unknownId domain id))
  | reachable {ids : UInt8} (h : Registered history domain ids) (hid : id < ids) :
    Refuses history domain id none

/-- What an operation answers after a history. -/
inductive Answers (history : List Event) : Operation → Answer → Prop
  | registerDomain (domain ids : UInt8) : Answers history (.registerDomain domain ids) .accepted
  | read {domain id : UInt8} {value : Option Bytes} (h : Refuses history domain id none)
    (hvalue : ∀ written, value = some written ↔ WrittenLast history domain id written) :
    Answers history (.read domain id) (.record value)
  | refuseRead {domain id : UInt8} {error : StoreError}
    (h : Refuses history domain id (some error)) :
    Answers history (.read domain id) (.refused error)
  | write {domain id : UInt8} (value : Bytes) (h : Refuses history domain id none) :
    Answers history (.write domain id value) .accepted
  | refuseWrite {domain id : UInt8} {error : StoreError} (value : Bytes)
    (h : Refuses history domain id (some error)) :
    Answers history (.write domain id value) (.refused error)
  | factoryReset : Answers history .factoryReset .accepted
  | observe (observer : String) : Answers history (.observe observer) .accepted

/-- An event is what the history before it makes of its operation. -/
structure Event.Follows (history : List Event) (event : Event) : Prop where
  answers : Answers history event.operation event.answer
  /-- Writes that succeed are told to the observer that was installed last, and nothing else is
  told to anyone. -/
  told_iff : ∀ observation, event.told = some observation ↔
    Installed history observation.observer ∧ event.answer = .accepted ∧
      event.operation = .write observation.domain observation.id observation.value

/-! ## The last event of a kind -/

section

variable {α : Type} {kind : α → Prop} {history : List α} {event newest : α}

theorem not_isLatest_nil : ¬ IsLatest kind [] event := by
  rintro ⟨before, after, heq, -⟩
  simp at heq

theorem IsLatest.holds (h : IsLatest kind history event) : kind event := by
  obtain ⟨-, -, -, hevent, -⟩ := h
  exact hevent

/-- An event of a history is the newest one, or was there before it. -/
theorem split_concat {before after : List α} (h : history ++ [newest] = before ++ event :: after) :
    after = [] ∧ history = before ∧ newest = event ∨
      ∃ between, after = between ++ [newest] ∧ history = before ++ event :: between := by
  rcases List.eq_nil_or_concat after with rfl | ⟨between, last, rfl⟩
  · exact Or.inl ⟨rfl, List.append_singleton_inj.mp h⟩
  · rw [List.concat_eq_append, ← List.cons_append, ← List.append_assoc] at h
    obtain ⟨rfl, rfl⟩ := List.append_singleton_inj.mp h
    exact Or.inr ⟨between, List.concat_eq_append, rfl⟩

theorem isLatest_concat :
    IsLatest kind (history ++ [newest]) event ↔
      kind newest ∧ event = newest ∨ ¬ kind newest ∧ IsLatest kind history event := by
  constructor
  · rintro ⟨before, after, heq, hevent, hafter⟩
    rcases split_concat heq with ⟨-, -, rfl⟩ | ⟨between, rfl, rfl⟩
    · exact Or.inl ⟨hevent, rfl⟩
    · rw [List.forall_mem_append, List.forall_mem_singleton] at hafter
      exact Or.inr ⟨hafter.2, before, between, rfl, hevent, hafter.1⟩
  · rintro (⟨hnewest, rfl⟩ | ⟨hnewest, before, after, rfl, hevent, hafter⟩)
    · exact ⟨history, [], rfl, hnewest, by simp⟩
    · refine ⟨before, after ++ [newest], by simp, hevent, ?_⟩
      rw [List.forall_mem_append, List.forall_mem_singleton]
      exact ⟨hafter, hnewest⟩

theorem exists_isLatest_concat {p : α → Prop} :
    (∃ event, IsLatest kind (history ++ [newest]) event ∧ p event) ↔
      kind newest ∧ p newest ∨ ¬ kind newest ∧ ∃ event, IsLatest kind history event ∧ p event := by
  simp only [isLatest_concat]
  constructor
  · rintro ⟨event, ⟨hnewest, rfl⟩ | ⟨hnewest, hlatest⟩, hevent⟩
    · exact Or.inl ⟨hnewest, hevent⟩
    · exact Or.inr ⟨hnewest, event, hlatest, hevent⟩
  · rintro (⟨hnewest, hevent⟩ | ⟨hnewest, event, hlatest, hevent⟩)
    · exact ⟨newest, Or.inl ⟨hnewest, rfl⟩, hevent⟩
    · exact ⟨event, Or.inr ⟨hnewest, hlatest⟩, hevent⟩

theorem exists_isLatest_of_mem (hmem : event ∈ history) (h : kind event) :
    ∃ latest, IsLatest kind history latest := by
  induction history using List.reverseRecOn with
  | nil => exact absurd hmem List.not_mem_nil
  | append_singleton history newest ih =>
    by_cases hnewest : kind newest
    · exact ⟨newest, isLatest_concat.mpr (Or.inl ⟨hnewest, rfl⟩)⟩
    · rcases List.mem_append.mp hmem with hmem | hmem
      · obtain ⟨latest, hlatest⟩ := ih hmem
        exact ⟨latest, isLatest_concat.mpr (Or.inr ⟨hnewest, hlatest⟩)⟩
      · rw [List.mem_singleton.mp hmem] at h
        exact absurd h hnewest

end

/-! ## The store that a history describes -/

variable {store : Store} {history : List Event}

/-- What a store keeps is what its history decides. -/
structure Describes (history : List Event) (store : Store) : Prop where
  idCount_iff : ∀ domain ids, store.idCount domain = some ids ↔ Registered history domain ids
  record_iff : ∀ domain id value,
    store.record domain id = some value ↔ WrittenLast history domain id value
  observer_iff : ∀ observer, store.observer = some observer ↔ Installed history observer

theorem describes_empty : Describes [] empty := by
  constructor <;> simp [empty, Registered, WrittenLast, Installed, not_isLatest_nil]

theorem Describes.refuses (h : Describes history store) (domain id : UInt8) :
    Refuses history domain id (store.refusal domain id) := by
  rw [refusal]
  cases hcount : store.idCount domain with
  | none =>
    refine .unknownDomain fun event hevent hregisters => ?_
    obtain ⟨latest, hlatest⟩ := exists_isLatest_of_mem hevent hregisters
    obtain ⟨ids, hids⟩ := hlatest.holds
    have hsome := (h.idCount_iff domain ids).mpr ⟨latest, hlatest, hids⟩
    rw [hcount] at hsome
    cases hsome
  | some ids =>
    have hregistered := (h.idCount_iff domain ids).mp hcount
    by_cases hid : id < ids
    · simpa [hid] using Refuses.reachable hregistered hid
    · simpa [hid] using Refuses.unknownId hregistered (UInt8.not_lt.mp hid)

theorem registered_concat {event : Event} {domain ids : UInt8} :
    Registered (history ++ [event]) domain ids ↔
      event.operation = .registerDomain domain ids ∨
        ¬ event.Registers domain ∧ Registered history domain ids := by
  rw [Registered, exists_isLatest_concat, and_iff_right_of_imp fun h => ⟨ids, h⟩]
  rfl

theorem writtenLast_concat {event : Event} {domain id : UInt8} {value : Bytes} :
    WrittenLast (history ++ [event]) domain id value ↔
      event.operation = .write domain id value ∧ event.answer = .accepted ∨
        ¬ event.Settles domain id ∧ WrittenLast history domain id value := by
  have hnewest : event.Settles domain id ∧ event.operation = .write domain id value ↔
      event.operation = .write domain id value ∧ event.answer = .accepted := by
    constructor
    · rintro ⟨hreset | ⟨-, -, haccepted⟩, hwrite⟩
      · rw [hwrite] at hreset
        cases hreset
      · exact ⟨hwrite, haccepted⟩
    · rintro ⟨hwrite, haccepted⟩
      exact ⟨Or.inr ⟨value, hwrite, haccepted⟩, hwrite⟩
  rw [WrittenLast, exists_isLatest_concat, hnewest]
  rfl

theorem installed_concat {event : Event} {observer : String} :
    Installed (history ++ [event]) observer ↔
      event.operation = .observe observer ∨ ¬ event.Observes ∧ Installed history observer := by
  rw [Installed, exists_isLatest_concat, and_iff_right_of_imp fun h => ⟨observer, h⟩]
  rfl

/-- One more event decides again what it registers, settles or installs, and leaves the rest of
    what a store keeps to the history before it. -/
theorem Describes.concat (h : Describes history store) {event : Event} {store' : Store}
    (hcount : ∀ domain ids, store'.idCount domain = some ids ↔
      event.operation = .registerDomain domain ids ∨
        ¬ event.Registers domain ∧ store.idCount domain = some ids)
    (hrecord : ∀ domain id value, store'.record domain id = some value ↔
      event.operation = .write domain id value ∧ event.answer = .accepted ∨
        ¬ event.Settles domain id ∧ store.record domain id = some value)
    (hobserver : ∀ observer, store'.observer = some observer ↔
      event.operation = .observe observer ∨
        ¬ event.Observes ∧ store.observer = some observer) :
    Describes (history ++ [event]) store' where
  idCount_iff := fun domain ids => by
    rw [hcount, registered_concat, h.idCount_iff]
  record_iff := fun domain id value => by
    rw [hrecord, writtenLast_concat, h.record_iff]
  observer_iff := fun observer => by
    rw [hobserver, installed_concat, h.observer_iff]

/-- An event that neither registers, nor settles a record, nor installs an observer adds nothing
    that matters. -/
theorem Describes.idle (h : Describes history store) {event : Event}
    (hregisters : ∀ domain, ¬ event.Registers domain)
    (hsettles : ∀ domain id, ¬ event.Settles domain id) (hobserves : ¬ event.Observes) :
    Describes (history ++ [event]) store := by
  refine h.concat (fun domain ids => ?_) (fun domain id value => ?_) (fun observer => ?_)
  · have hother : event.operation ≠ .registerDomain domain ids :=
      fun heq => hregisters domain ⟨ids, heq⟩
    simp [hother, hregisters]
  · have hother : ¬ (event.operation = .write domain id value ∧ event.answer = .accepted) :=
      fun heq => hsettles domain id (Or.inr ⟨value, heq⟩)
    simp [hother, hsettles]
  · have hother : event.operation ≠ .observe observer := fun heq => hobserves ⟨observer, heq⟩
    simp [hother, hobserves]

/-! ## Runs -/

theorem perform_read (store : Store) (domain id : UInt8) :
    store.perform (.read domain id) =
      match store.refusal domain id with
      | some error => (.refused error, none, store)
      | none => (.record (store.record domain id), none, store) := by
  simp only [perform, read]
  cases store.refusal domain id <;> rfl

theorem perform_write (store : Store) (domain id : UInt8) (value : Bytes) :
    store.perform (.write domain id value) =
      match store.refusal domain id with
      | some error => (.refused error, none, store)
      | none => (.accepted, store.observer.map fun observer => ⟨observer, domain, id, value⟩,
          store.put domain id value) := by
  simp only [perform, write]
  cases store.refusal domain id <;> rfl

/-- What an operation makes of a store is what its event makes of the history. -/
theorem Describes.proceed (h : Describes history store) (operation : Operation) :
    Describes (history ++ [⟨operation, (store.perform operation).1, (store.perform operation).2.1⟩])
      (store.perform operation).2.2 := by
  cases operation with
  | registerDomain domain ids =>
    refine h.concat (fun domain' ids' => ?_) ?_ ?_
    · by_cases hdomain : domain' = domain
      · simp [perform, registerDomain, Event.Registers, hdomain]
      · simp [perform, registerDomain, Event.Registers, hdomain, Ne.symm hdomain]
    · simp [perform, registerDomain, Event.Settles]
    · simp [perform, registerDomain, Event.Observes]
  | read domain id =>
    rw [perform_read]
    cases store.refusal domain id <;>
      exact h.idle (by simp [Event.Registers]) (by simp [Event.Settles]) (by simp [Event.Observes])
  | write domain id value =>
    rw [perform_write]
    cases store.refusal domain id with
    | some error =>
      exact h.idle (by simp [Event.Registers]) (by simp [Event.Settles]) (by simp [Event.Observes])
    | none =>
      refine h.concat ?_ (fun domain' id' value' => ?_) ?_
      · simp [put, Event.Registers]
      · by_cases haddress : domain' = domain ∧ id' = id
        · simp [put, Event.Settles, haddress]
        · -- what settles this record does not settle another one
          have hput : (store.put domain id value).record domain' id' = store.record domain' id' :=
            if_neg haddress
          rw [hput]
          grind [Event.Settles]
      · simp [put, Event.Observes]
  | factoryReset =>
    refine h.concat ?_ ?_ ?_
    · simp [perform, factoryReset, Event.Registers]
    · simp [perform, factoryReset, Event.Settles]
    · simp [perform, factoryReset, Event.Observes]
  | observe observer =>
    refine h.concat ?_ ?_ ?_
    · simp [perform, observe, Event.Registers]
    · simp [perform, observe, Event.Settles]
    · simp [perform, observe, Event.Observes]

/-- The answer to an operation, and what the observer is told of it, follow from the history. -/
theorem Describes.follows (h : Describes history store) (operation : Operation) :
    Event.Follows history
      ⟨operation, (store.perform operation).1, (store.perform operation).2.1⟩ := by
  cases operation with
  | registerDomain domain ids => exact ⟨.registerDomain domain ids, by simp [perform]⟩
  | read domain id =>
    have hrefuses := h.refuses domain id
    rw [perform_read]
    cases hrefusal : store.refusal domain id with
    | some error =>
      rw [hrefusal] at hrefuses
      exact ⟨.refuseRead hrefuses, by simp⟩
    | none =>
      rw [hrefusal] at hrefuses
      exact ⟨.read hrefuses fun written => h.record_iff domain id written, by simp⟩
  | write domain id value =>
    have hrefuses := h.refuses domain id
    rw [perform_write]
    cases hrefusal : store.refusal domain id with
    | some error =>
      rw [hrefusal] at hrefuses
      exact ⟨.refuseWrite value hrefuses, by simp⟩
    | none =>
      rw [hrefusal] at hrefuses
      refine ⟨.write value hrefuses, fun observation => ?_⟩
      rw [← h.observer_iff]
      obtain ⟨observer, domain', id', value'⟩ := observation
      simp
  | factoryReset => exact ⟨.factoryReset, by simp [perform]⟩
  | observe observer => exact ⟨.observe observer, by simp [perform]⟩

theorem run_concat (operations : List Operation) (operation : Operation) :
    store.run (operations ++ [operation]) = Store.proceed (store.run operations) operation := by
  rw [run, run, List.foldl_append, List.foldl_cons, List.foldl_nil]

theorem proceed_eq (past : List Event × Store) (operation : Operation) :
    Store.proceed past operation =
      (past.1 ++ [⟨operation, (past.2.perform operation).1, (past.2.perform operation).2.1⟩],
        (past.2.perform operation).2.2) :=
  rfl

theorem describes_run (operations : List Operation) :
    Describes (empty.run operations).1 (empty.run operations).2 := by
  induction operations using List.reverseRecOn with
  | nil => exact describes_empty
  | append_singleton operations operation ih =>
    rw [run_concat]
    exact ih.proceed operation

theorem operations_run (operations : List Operation) :
    (store.run operations).1.map Event.operation = operations := by
  induction operations using List.reverseRecOn with
  | nil => rfl
  | append_singleton operations operation ih =>
    rw [run_concat, proceed_eq, List.map_append, ih]
    rfl

theorem follows_run {operations : List Operation} {before after : List Event} {event : Event}
    (h : (empty.run operations).1 = before ++ event :: after) : event.Follows before := by
  induction operations using List.reverseRecOn generalizing after with
  | nil => simp [run] at h
  | append_singleton operations operation ih =>
    rw [run_concat, proceed_eq] at h
    rcases split_concat h with ⟨-, rfl, rfl⟩ | ⟨between, -, hbefore⟩
    · exact (describes_run operations).follows operation
    · exact ih hbefore

/-- A refusal leaves the store as it was, and is told to nobody. -/
theorem perform_of_refused {operation : Operation} {error : StoreError}
    (h : (store.perform operation).1 = .refused error) :
    (store.perform operation).2 = (none, store) := by
  cases operation with
  | read domain id =>
    rw [perform_read] at h ⊢
    cases hrefusal : store.refusal domain id with
    | some error => rfl
    | none => simp [hrefusal] at h
  | write domain id value =>
    rw [perform_write] at h ⊢
    cases hrefusal : store.refusal domain id with
    | some error => rfl
    | none => simp [hrefusal] at h
  | registerDomain | factoryReset | observe => cases h

/-- In every run that starts with nothing, each answer and each call of an observer is what the
    history before it makes of the operation: a record reads as what was written last and not
    erased since, and what is refused changes nothing. -/
theorem last_write_wins (operations : List Operation) :
    let history := (empty.run operations).1
    let store := (empty.run operations).2
    history.map Event.operation = operations ∧
    (∀ before event after, history = before ++ event :: after → Event.Follows before event) ∧
    ∀ operation error, (store.perform operation).1 = .refused error →
      (store.perform operation).2 = (none, store) :=
  ⟨operations_run operations, fun _ _ _ => follows_run, fun _ _ => perform_of_refused⟩

end Provision.Store
