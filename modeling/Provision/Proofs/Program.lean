/-
  Provision.Proofs.Program

  Laws of programs that hold whatever answers their questions: `bindSome` is associative, and
  which questions a program can ask (`Program.OnlyAsks`) is known from its parts.
-/
import Provision.Program

namespace Provision.Program

variable {Question : Type} {Answer : Question → Type} {α β γ σ : Type}

/-! ## Programs that may come to no result -/

@[simp] theorem bindSome_done_none (go : α → Program Answer (Option β)) :
    (done none : Program Answer (Option α)).bindSome go = done none := rfl

@[simp] theorem bindSome_done_some (result : α) (go : α → Program Answer (Option β)) :
    (done (some result) : Program Answer (Option α)).bindSome go = go result := rfl

@[simp] theorem bindSome_ask (question : Question)
    (next : Answer question → Program Answer (Option α)) (go : α → Program Answer (Option β)) :
    (ask question next).bindSome go = ask question fun answer => (next answer).bindSome go := rfl

theorem bindSome_assoc (program : Program Answer (Option α)) (go : α → Program Answer (Option β))
    (on : β → Program Answer (Option γ)) :
    (program.bindSome go).bindSome on = program.bindSome fun result => (go result).bindSome on := by
  induction program with
  | done result => cases result <;> rfl
  | ask question next ih =>
    simp only [bindSome_ask]
    congr 1
    funext answer
    exact ih answer

theorem run_bindSome (answer : (question : Question) → σ → Answer question × σ)
    (program : Program Answer (Option α)) (go : α → Program Answer (Option β)) (state : σ) :
    (program.bindSome go).run answer state =
      match program.run answer state with
      | (none, state') => (none, state')
      | (some result, state') => (go result).run answer state' := by
  rw [bindSome, run_bind]
  rcases program.run answer state with ⟨_ | result, state'⟩ <;> rfl

/-- The program has no question left. -/
def isDone : Program Answer α → Bool
  | done _ => true
  | ask .. => false

/-! ## The questions of a program -/

/-- Whatever it is answered, the program asks only questions that are allowed. -/
def OnlyAsks (allowed : Question → Prop) : Program Answer α → Prop
  | done _ => True
  | ask question next => allowed question ∧ ∀ answer, (next answer).OnlyAsks allowed

variable {allowed : Question → Prop}

theorem onlyAsks_anything (program : Program Answer α) : program.OnlyAsks fun _ => True := by
  induction program with
  | done result => trivial
  | ask question next ih => exact ⟨trivial, ih⟩

theorem onlyAsks_bind {program : Program Answer α} {go : α → Program Answer β}
    (h : program.OnlyAsks allowed) (hgo : ∀ result, (go result).OnlyAsks allowed) :
    (program.bind go).OnlyAsks allowed := by
  induction program with
  | done result => exact hgo result
  | ask question next ih => exact ⟨h.1, fun answer => ih answer (h.2 answer)⟩

theorem onlyAsks_bindSome {program : Program Answer (Option α)}
    {go : α → Program Answer (Option β)} (h : program.OnlyAsks allowed)
    (hgo : ∀ result, (go result).OnlyAsks allowed) : (program.bindSome go).OnlyAsks allowed := by
  refine onlyAsks_bind h fun result => ?_
  cases result with
  | none => trivial
  | some result => exact hgo result

end Provision.Program
