import HeptaVcn.Machine.Handler

/-!
# Programs that may fail

A program whose result is an error or a value, sequenced so that an error ends it, and
the rules for executing one.
-/

namespace Machine

/-- A program over `E` that returns a value or fails with an error. -/
abbrev Failing (E : Interface) (ε α : Type) := ExceptT ε (Program E) α

namespace Failing

variable {E : Interface} {ε α β : Type} {σ : Type*}

/-- Perform an operation that may itself fail. -/
def attempt (p : Program E (Except ε α)) : Failing E ε α := ExceptT.mk p

/-- Execute a failing program on a store. -/
def exec (h : Handler E σ) (x : Failing E ε α) (s : σ) : Except ε α × σ := Program.exec h x.run s

/-- The first part runs to its end, and the second one only after a value. -/
theorem exec_bind (h : Handler E σ) (x : Failing E ε α) (f : α → Failing E ε β) (s : σ) :
    exec h (x >>= f) s = match exec h x s with
      | (.ok a, t) => exec h (f a) t
      | (.error e, t) => (.error e, t) := by
  change Program.exec h (Program.bind x.run (ExceptT.bindCont f)) s = _
  rw [Program.exec_bind]
  change Program.exec h (ExceptT.bindCont f (exec h x s).1) (exec h x s).2 = _
  rcases exec h x s with ⟨_ | a, t⟩ <;> rfl

/-- A sequence succeeds exactly when both parts do. -/
theorem exec_bind_eq_ok {h : Handler E σ} {x : Failing E ε α} {f : α → Failing E ε β} {s u : σ}
    {b : β} : exec h (x >>= f) s = (.ok b, u) ↔
      ∃ a t, exec h x s = (.ok a, t) ∧ exec h (f a) t = (.ok b, u) := by
  rw [exec_bind]
  rcases exec h x s with ⟨_ | a, t⟩ <;> simp

/-- A program that cannot fail runs to its end. -/
theorem exec_lift (h : Handler E σ) (p : Program E α) (s : σ) :
    exec h (ExceptT.lift p : Failing E ε α) s = (.ok (p.exec h s).1, (p.exec h s).2) := by
  change Program.exec h (Program.bind p fun a => .done (Except.ok a)) s = _
  rw [Program.exec_bind, Program.exec_done]

/-- The outcome of a program that may fail is looked at, whether it is an error or not. -/
theorem exec_caught (h : Handler E σ) (x : Failing E ε α) (f : Except ε α → Failing E ε β)
    (s : σ) : exec h (ExceptT.lift x.run >>= f) s = exec h (f (exec h x s).1) (exec h x s).2 := by
  rw [exec_bind, exec_lift]
  rfl

/-- How a chain of three is bracketed makes no difference to its execution. -/
theorem exec_bind_assoc {γ : Type} (h : Handler E σ) (x : Failing E ε α) (f : α → Failing E ε β)
    (g : β → Failing E ε γ) (s : σ) :
    exec h (x >>= f >>= g) s = exec h (x >>= fun a => f a >>= g) s := by
  rw [exec_bind, exec_bind, exec_bind]
  rcases exec h x s with ⟨_ | a, t⟩
  · rfl
  · exact (exec_bind h (f a) g t).symm

/-- The program does not fail. -/
def Succeeds (h : Handler E σ) (x : Failing E ε α) (s : σ) : Prop :=
  ∃ a t, exec h x s = (.ok a, t)

/-- A chain succeeds exactly if its first part does and the rest does from there. -/
theorem succeeds_bind {h : Handler E σ} {x : Failing E ε α} {f : α → Failing E ε β} {s : σ} :
    Succeeds h (x >>= f) s ↔ ∃ a t, exec h x s = (.ok a, t) ∧ Succeeds h (f a) t := by
  constructor
  · rintro ⟨b, u, hexec⟩
    obtain ⟨a, t, hfirst, hrest⟩ := exec_bind_eq_ok.mp hexec
    exact ⟨a, t, hfirst, b, u, hrest⟩
  · rintro ⟨a, t, hfirst, b, u, hrest⟩
    exact ⟨b, u, exec_bind_eq_ok.mpr ⟨a, t, hfirst, hrest⟩⟩

/-- An execution that does not succeed ends in an error. -/
theorem not_succeeds_iff {h : Handler E σ} {x : Failing E ε α} {s : σ} :
    ¬Succeeds h x s ↔ ∃ e, (exec h x s).1 = .error e := by
  unfold Succeeds
  rcases exec h x s with ⟨_ | a, t⟩ <;> simp

end Failing

end Machine
