/-
  Provision.Proofs.Wire.Source

  The bytes that a source hands out, and how it ends. `Source.delivered` are the bytes that
  reads can get at, one after the other: everything before the first end of the stream and
  the first failure that is not transient, and `Source.ending` is that ending. How the bytes
  are cut into arrivals, and which transient failures stand between them, makes no difference
  to `receive`.
-/
import Provision.Wire.Source

namespace Provision.Source

/-- The bytes that reads hand out before the first that hands out none. -/
def delivered : Source → Bytes
  | [] => []
  | .data [] :: _ => []
  | .data (b :: bs) :: rest => b :: bs ++ delivered rest
  | .failure e :: rest => if e.isTransient then delivered rest else []

/-- How the first read ends that hands out no byte: with a failure, or with the end of the
    stream. -/
def ending : Source → Option IoError
  | [] => none
  | .data [] :: _ => none
  | .data (_ :: _) :: rest => ending rest
  | .failure e :: rest => if e.isTransient then ending rest else some e

/-- Reads take these bytes off one source and leave the other, which goes on as the first
    would have. -/
structure Yields (before : Source) (bytes : Bytes) (after : Source) : Prop where
  unread : before.unread = bytes ++ after.unread
  delivered : before.delivered = bytes ++ after.delivered
  ending : before.ending = after.ending

theorem Yields.trans {before between after : Source} {bytes more : Bytes}
    (h : before.Yields bytes between) (h' : between.Yields more after) :
    before.Yields (bytes ++ more) after := by
  refine ⟨?_, ?_, h.ending.trans h'.ending⟩
  · rw [h.unread, h'.unread, List.append_assoc]
  · rw [h.delivered, h'.delivered, List.append_assoc]

theorem Yields.delivered_eq_drop {before after : Source} {n : Nat}
    (h : before.Yields (before.delivered.take n) after) :
    after.delivered = before.delivered.drop n := by
  have hsplit := List.take_append_drop n before.delivered
  exact (List.append_cancel_left (hsplit.trans h.delivered)).symm

/-! ## Sources that bring the same -/

/-- Two sources bring the same bytes and end alike. -/
structure Agrees (a b : Source) : Prop where
  delivered : a.delivered = b.delivered
  ending : a.ending = b.ending

/-- Two sources bring the same first bytes, and end alike where they bring fewer. -/
structure AgreesTo (count : Nat) (a b : Source) : Prop where
  take : a.delivered.take count = b.delivered.take count
  ending : a.delivered.length < count → a.ending = b.ending

theorem Agrees.agreesTo {a b : Source} (h : a.Agrees b) (count : Nat) : a.AgreesTo count b :=
  ⟨by rw [h.delivered], fun _ => h.ending⟩

theorem AgreesTo.le_length_iff {count : Nat} {a b : Source} (h : a.AgreesTo count b) :
    count ≤ a.delivered.length ↔ count ≤ b.delivered.length := by
  have hlength := congrArg List.length h.take
  rw [List.length_take, List.length_take] at hlength
  omega

/-- What is left of two sources after the same bytes brings the same as far as they did. -/
theorem AgreesTo.of_yields {n count : Nat} {a b a' b' : Source} (h : a.AgreesTo (n + count) b)
    (ha : a.Yields (a.delivered.take n) a') (hb : b.Yields (b.delivered.take n) b') :
    a'.AgreesTo count b' := by
  refine ⟨?_, fun hshort => ?_⟩
  · rw [ha.delivered_eq_drop, hb.delivered_eq_drop, List.take_drop, List.take_drop, h.take]
  · rw [← ha.ending, ← hb.ending]
    rw [ha.delivered_eq_drop, List.length_drop] at hshort
    exact h.ending (by omega)

/-! ## One read -/

/-- A read hands out the first of the bytes, and leaves the others. -/
theorem exists_receive_of_delivered_cons {source : Source} {b : UInt8} {bytes : Bytes}
    (h : source.delivered = b :: bytes) :
    ∃ rest, source.receive = (.ok (some b), rest) ∧ delivered rest = bytes ∧
      source.Yields [b] rest := by
  fun_induction receive source with
  | case1 => cases h
  | case2 => cases h
  | case3 c rest =>
    obtain ⟨rfl, hrest⟩ := List.cons.inj h
    exact ⟨rest, rfl, hrest, rfl, rfl, rfl⟩
  | case4 c cs rest hcs =>
    obtain ⟨rfl, hrest⟩ := List.cons.inj h
    -- bytes that arrived together are handed out one by one
    obtain ⟨d, ds, rfl⟩ := List.exists_cons_of_ne_nil hcs
    exact ⟨.data (d :: ds) :: rest, rfl, hrest, rfl, rfl, rfl⟩
  | case5 e rest he ih =>
    -- the failure passes, and the next read decides
    rw [delivered, if_pos he] at h
    obtain ⟨after, hreceive, hafter, hunread, hdelivered, hending⟩ := ih h
    refine ⟨after, hreceive, hafter, hunread, ?_, ?_⟩
    · rw [delivered, if_pos he, hdelivered]
    · rw [ending, if_pos he, hending]
  | case6 e rest he =>
    rw [delivered, if_neg he] at h
    cases h

/-- Where no byte is left, a read finds the ending and takes nothing. -/
theorem exists_receive_of_delivered_nil {source : Source} (h : source.delivered = []) :
    ∃ rest : Source, source.receive = (source.ending.elim (.ok none) .error, rest) ∧
      source.unread = rest.unread := by
  fun_induction receive source with
  | case1 => exact ⟨[], rfl, rfl⟩
  | case2 rest => exact ⟨rest, rfl, rfl⟩
  | case3 c rest => cases h
  | case4 c cs rest hcs => cases h
  | case5 e rest he ih =>
    rw [delivered, if_pos he] at h
    rw [ending, if_pos he]
    exact ih h
  | case6 e rest he =>
    rw [ending, if_neg he]
    exact ⟨rest, rfl, rfl⟩

/-- What comes after a byte is left alone by the read that hands the byte out. -/
theorem receive_append {source rest : Source} {b : UInt8}
    (h : source.receive = (.ok (some b), rest)) (more : Source) :
    receive (source ++ more) = (.ok (some b), rest ++ more) := by
  fun_induction receive source with
  | case1 => cases h
  | case2 => cases h
  | case3 c after =>
    cases h
    rfl
  | case4 c cs after hcs =>
    cases h
    obtain ⟨d, ds, rfl⟩ := List.exists_cons_of_ne_nil hcs
    rfl
  | case5 e after he ih =>
    rw [List.cons_append, receive, if_pos he]
    exact ih h
  | case6 => cases h

/-! ## Arrivals without end -/

/-- The first of some arrivals. -/
def first (arrivals : Nat → ReadEvent) (count : Nat) : Source := (List.range count).map arrivals

/-- However many bytes are asked for, enough of the arrivals bring them: the stream never ends, and
    never breaks. -/
def Endless (arrivals : Nat → ReadEvent) : Prop :=
  ∀ n, ∃ count, n ≤ (first arrivals count).delivered.length

theorem length_delivered_replicate (b : UInt8) (count : Nat) :
    (delivered (List.replicate count (.data [b]))).length = count := by
  induction count with
  | zero => rfl
  | succ count ih => simp [List.replicate_succ, delivered, ih]

theorem endless_const (b : UInt8) : Endless fun _ => .data [b] := by
  intro n
  refine ⟨n, Nat.le_of_eq ?_⟩
  rw [first, List.map_const', List.length_range, length_delivered_replicate]

end Provision.Source
