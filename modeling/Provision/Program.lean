/-
  Provision.Program

  Programs that ask questions. A program either is done or asks one question and goes
  on with the answer; what answers is not part of it. The same program can so be run
  to its end against one state, or interleaved with others question by question.
-/

namespace Provision

/-- A program that asks questions of type `Question` and gets answers of type `Answer q`. -/
inductive Program {Question : Type} (Answer : Question → Type) (α : Type) : Type where
  | done (result : α)
  /-- The program asks, and goes on with the answer. -/
  | ask (question : Question) (next : Answer question → Program Answer α)

namespace Program

variable {Question : Type} {Answer : Question → Type} {α β σ : Type}

/-- Goes on with another program after the end of this one. -/
def bind (program : Program Answer α) (go : α → Program Answer β) : Program Answer β :=
  match program with
  | done result => go result
  | ask question next => ask question fun answer => (next answer).bind go

/-- Goes on with another program after the end of this one, unless it came to no result. -/
def bindSome (program : Program Answer (Option α)) (go : α → Program Answer (Option β)) :
    Program Answer (Option β) :=
  program.bind fun
    | none => done none
    | some result => go result

/-- Runs a program to its end against a state that answers its questions. -/
def run (answer : (question : Question) → σ → Answer question × σ) :
    Program Answer α → σ → α × σ
  | done result, state => (result, state)
  | ask question next, state =>
    let (reply, state') := answer question state
    (next reply).run answer state'

theorem run_bind (answer : (question : Question) → σ → Answer question × σ)
    (program : Program Answer α) (go : α → Program Answer β) (state : σ) :
    (program.bind go).run answer state =
      (go (program.run answer state).1).run answer (program.run answer state).2 := by
  induction program generalizing state with
  | done => rfl
  | ask question next ih => exact ih _ _

end Program

end Provision
