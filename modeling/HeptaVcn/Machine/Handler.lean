import HeptaVcn.Machine.Program

/-!
# Programs over a deterministic store

When every reply is determined by the state of a store, a program can be executed
to its end, and killed after any number of operations. What holds of the store
throughout a program holds of the one that survives the kill, wherever it comes.
-/

namespace Machine

/-- A store that answers each operation and is changed by it. -/
structure Handler (E : Interface) (σ : Type*) where
  reply : σ → (op : E.Op) → E.Reply op
  after : σ → E.Op → σ

namespace Program

variable {E : Interface} {σ : Type*} {α β : Type} {h : Handler E σ} {P : σ → Prop}

/-- Execute a program: its result and the store it leaves. -/
def exec (h : Handler E σ) : Program E α → σ → α × σ
  | .done a, s => (a, s)
  | .call op next, s => (next (h.reply s op)).exec h (h.after s op)

/-- The store left by a program that is killed after `n` operations. -/
def killed (h : Handler E σ) : ℕ → Program E α → σ → σ
  | 0, _, s => s
  | _ + 1, .done _, s => s
  | n + 1, .call op next, s => (next (h.reply s op)).killed h n (h.after s op)

/-- The predicate holds of the store before and after each operation of the program. -/
def Throughout (h : Handler E σ) (P : σ → Prop) : Program E α → σ → Prop
  | .done _, s => P s
  | .call op next, s => P s ∧ (next (h.reply s op)).Throughout h P (h.after s op)

/-- A finished program returns its result and leaves the state alone. -/
@[simp] theorem exec_done (a : α) (s : σ) : (Program.done a : Program E α).exec h s = (a, s) := rfl

/-- A call is answered by the handler, and the rest runs in the state after it. -/
@[simp] theorem exec_call (op : E.Op) (next : E.Reply op → Program E α) (s : σ) :
    (Program.call op next).exec h s = (next (h.reply s op)).exec h (h.after s op) := rfl

/-- A chain executes its first part and then the rest on what that returned. -/
@[simp] theorem exec_bind (p : Program E α) (f : α → Program E β) (s : σ) :
    (p.bind f).exec h s = (f (p.exec h s).1).exec h (p.exec h s).2 := by
  induction p generalizing s with
  | done a => rfl
  | call op next ih => exact ih _ _

/-- A property holds throughout a call if it holds before it and throughout the rest. -/
@[simp] theorem throughout_call (op : E.Op) (next : E.Reply op → Program E α) (s : σ) :
    (Program.call op next).Throughout h P s ↔
      P s ∧ (next (h.reply s op)).Throughout h P (h.after s op) := Iff.rfl

/-- What holds throughout a program holds where it starts and where it ends. -/
theorem Throughout.start {p : Program E α} {s : σ} (hp : p.Throughout h P s) : P s := by
  cases p with
  | done a => exact hp
  | call op next => exact hp.1

/-- What holds throughout an execution holds at its end. -/
theorem Throughout.exec {p : Program E α} {s : σ} (hp : p.Throughout h P s) :
    P (p.exec h s).2 := by
  induction p generalizing s with
  | done a => exact hp
  | call op next ih => exact ih _ hp.2

/-- What holds throughout a program survives its being killed. -/
theorem Throughout.killed {p : Program E α} {s : σ} (hp : p.Throughout h P s) (n : ℕ) :
    P (p.killed h n s) := by
  induction p generalizing s n with
  | done a => cases n <;> exact hp
  | call op next ih =>
    cases n with
    | zero => exact hp.1
    | succ n => exact ih _ hp.2 n

/-- The sequencing rule. -/
theorem throughout_bind (p : Program E α) (f : α → Program E β) (s : σ) :
    (p.bind f).Throughout h P s ↔
      p.Throughout h P s ∧ (f (p.exec h s).1).Throughout h P (p.exec h s).2 := by
  induction p generalizing s with
  | done a => exact ⟨fun hf => ⟨hf.start, hf⟩, fun hf => hf.2⟩
  | call op next ih => simp only [call_bind, throughout_call, exec_call, ih, and_assoc]

end Program

end Machine
