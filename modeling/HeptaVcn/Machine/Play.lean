import HeptaVcn.Machine.Program

/-!
# Programs in a world that need not answer

A call may stay without an answer: because it blocks forever, or because it ends the
process. Playing a program in such a world ends with its result, or at the call that is
not answered.
-/

namespace Machine

/-- How playing a program ends: with its result, or at a call that is not answered. -/
inductive Outcome (E : Interface) (σ α : Type) where
  | returned (result : α) (world : σ)
  | stuck (op : E.Op) (world : σ)

/-- What a world answers to a call, if anything, and the world after it. -/
abbrev Answers (E : Interface) (σ : Type) := σ → (op : E.Op) → Option (E.Reply op × σ)

namespace Program

variable {E : Interface} {σ α β : Type} {answers : Answers E σ}

/-- Play a program in a world. -/
def play (answers : Answers E σ) : Program E α → σ → Outcome E σ α
  | .done a, s => .returned a s
  | .call op next, s =>
    match answers s op with
    | some (r, t) => (next r).play answers t
    | none => .stuck op s

/-- A finished program returns at once. -/
@[simp] theorem play_done (a : α) (s : σ) :
    (Program.done a : Program E α).play answers s = .returned a s := rfl

/-- A call that is answered. -/
theorem play_call {op : E.Op} {next : E.Reply op → Program E α} {s t : σ} {r : E.Reply op}
    (h : answers s op = some (r, t)) :
    (Program.call op next).play answers s = (next r).play answers t := by
  simp only [play, h]

/-- A call whose answer depends on a condition. -/
theorem play_call_ite {P : Prop} [Decidable P] {op : E.Op} {next : E.Reply op → Program E α}
    {s t t' : σ} {r r' : E.Reply op}
    (h : answers s op = some (if P then (r, t) else (r', t'))) :
    (Program.call op next).play answers s =
      if P then (next r).play answers t else (next r').play answers t' := by
  by_cases hp : P
  · rw [if_pos hp] at h ⊢
    exact play_call h
  · rw [if_neg hp] at h ⊢
    exact play_call h

/-- A call that is not answered. -/
theorem play_unanswered {op : E.Op} {next : E.Reply op → Program E α} {s : σ}
    (h : answers s op = none) : (Program.call op next).play answers s = .stuck op s := by
  simp only [play, h]

/-- A first part that is played to its end. -/
theorem play_bind_returned {p : Program E α} {f : α → Program E β} {s t : σ} {a : α}
    (h : p.play answers s = .returned a t) :
    (p.bind f).play answers s = (f a).play answers t := by
  induction p generalizing s with
  | done b =>
    obtain ⟨rfl, rfl⟩ := Outcome.returned.inj h
    rfl
  | call op next ih =>
    cases hanswer : answers s op with
    | none =>
      rw [play_unanswered hanswer] at h
      cases h
    | some answer =>
      rw [play_call hanswer] at h
      rw [call_bind, play_call hanswer]
      exact ih _ h

/-- A first part that gets stuck. -/
theorem play_bind_stuck {p : Program E α} {f : α → Program E β} {s t : σ} {op : E.Op}
    (h : p.play answers s = .stuck op t) : (p.bind f).play answers s = .stuck op t := by
  induction p generalizing s with
  | done b => cases h
  | call op' next ih =>
    cases hanswer : answers s op' with
    | none =>
      rw [play_unanswered hanswer] at h
      rw [call_bind, play_unanswered hanswer]
      obtain ⟨rfl, rfl⟩ := Outcome.stuck.inj h
      rfl
    | some answer =>
      rw [play_call hanswer] at h
      rw [call_bind, play_call hanswer]
      exact ih _ h

/-- Whatever the world answers to the calls of the play satisfies `C`. -/
def Answered (answers : Answers E σ) (C : (op : E.Op) → Option (E.Reply op) → Prop) :
    Program E α → σ → Prop
  | .done _, _ => True
  | .call op next, s =>
    match answers s op with
    | some (r, t) => C op (some r) ∧ (next r).Answered answers C t
    | none => C op none

variable {C : (op : E.Op) → Option (E.Reply op) → Prop}

/-- A call that is answered meets the condition on it, and so does the rest of the play. -/
theorem answered_call {op : E.Op} {next : E.Reply op → Program E α} {s t : σ} {r : E.Reply op}
    (h : answers s op = some (r, t)) : (Program.call op next).Answered answers C s ↔
      C op (some r) ∧ (next r).Answered answers C t := by
  simp only [Answered, h]

/-- A call that is not answered meets the condition on it, and nothing follows. -/
theorem answered_unanswered {op : E.Op} {next : E.Reply op → Program E α} {s : σ}
    (h : answers s op = none) : (Program.call op next).Answered answers C s ↔ C op none := by
  simp only [Answered, h]

end Program

end Machine
