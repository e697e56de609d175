import HeptaVcn.Machine.Run

/-!
# Effectful programs as data

A program over an interface of operations is a tree: either done, or an
operation together with what to do on each reply. Keeping the program as data
lets a thread's state be its remaining program, so the same definition runs
alone, interleaved with other threads, or killed between two operations. The
file gives the semantics and the rules of pre- and postconditions.
-/

namespace Machine

/-- The operations a program may perform, with the type of each reply. -/
structure Interface where
  Op : Type
  Reply : Op → Type

/-- A program over the interface `E` with a result of type `α`. -/
inductive Program (E : Interface) (α : Type) where
  | done (result : α)
  | call (op : E.Op) (next : E.Reply op → Program E α)

namespace Program

variable {E : Interface} {α β : Type}

/-- Sequencing: continue with `f` from the result. -/
def bind (p : Program E α) (f : α → Program E β) : Program E β :=
  match p with
  | .done a => f a
  | .call op next => .call op fun r => (next r).bind f

instance : Monad (Program E) where
  pure := .done
  bind := bind

/-- `pure` is the finished program. -/
@[simp] theorem pure_eq (a : α) : (pure a : Program E α) = .done a := rfl

/-- `>>=` is the `bind` of programs. -/
@[simp] theorem bind_eq (p : Program E α) (f : α → Program E β) : p >>= f = p.bind f := rfl

/-- A finished program hands its result on. -/
@[simp] theorem done_bind (a : α) (f : α → Program E β) : (Program.done a).bind f = f a := rfl

/-- A chain that starts with a call makes that call first. -/
@[simp] theorem call_bind (op : E.Op) (next : E.Reply op → Program E α) (f : α → Program E β) :
    (Program.call op next).bind f = .call op fun r => (next r).bind f := rfl

/-- Returning what a program returns is that program. -/
theorem bind_done (p : Program E α) : p.bind .done = p := by
  induction p with
  | done a => rfl
  | call op next ih => simp only [call_bind, ih]

/-- How a chain of three is bracketed makes no difference. -/
theorem bind_assoc {γ : Type} (p : Program E α) (f : α → Program E β) (g : β → Program E γ) :
    (p.bind f).bind g = p.bind fun a => (f a).bind g := by
  induction p with
  | done a => rfl
  | call op next ih => simp only [call_bind, ih]

instance : LawfulMonad (Program E) :=
  LawfulMonad.mk' (Program E) bind_done (fun _ _ => rfl) bind_assoc

/-- The program that performs one operation and returns its reply. -/
def perform (op : E.Op) : Program E (E.Reply op) := .call op .done

/-- Resume a program with the reply to the operation it is waiting for. -/
def resume [DecidableEq E.Op] : Program E α → (op : E.Op) → E.Reply op → Option (Program E α)
  | .done _, _, _ => none
  | .call op next, op', r => if h : op' = op then some (next (h ▸ r)) else none

/-- Only a program that waits in a call can be resumed with a reply to it. -/
theorem resume_eq_some [DecidableEq E.Op] {p q : Program E α} {op : E.Op} {r : E.Reply op} :
    p.resume op r = some q ↔ ∃ next, p = .call op next ∧ q = next r := by
  cases p with
  | done a => simp [resume]
  | call op' next =>
    by_cases h : op = op'
    · subst h
      simp [resume, eq_comm]
    · simp [resume, h, Ne.symm h]

/-- What is left of a program once some of its operations have been replied to. -/
inductive Left (p : Program E α) : Program E α → Prop where
  | start : Left p p
  | reply {op : E.Op} {next : E.Reply op → Program E α} (r : E.Reply op) :
    Left p (.call op next) → Left p (next r)

/-- What an environment promises and asks for: before an operation `demand` must
hold, replies are those it `admits`, and `after` is its state once it has replied. -/
structure Contract (E : Interface) (σ : Type*) where
  demand : σ → E.Op → Prop
  admits : σ → (op : E.Op) → E.Reply op → Prop
  after : σ → (op : E.Op) → E.Reply op → σ

variable {σ : Type*} {c : Contract E σ} {post : σ → α → Prop}

/-- Weakest precondition: every operation finds its demand met, whatever admitted
replies came before, and `post` holds of every result. -/
def wp (c : Contract E σ) : Program E α → (σ → α → Prop) → σ → Prop
  | .done a, post, s => post s a
  | .call op next, post, s =>
    c.demand s op ∧ ∀ r, c.admits s op r → (next r).wp c post (c.after s op r)

/-- A finished program meets a postcondition that holds of its result. -/
@[simp] theorem wp_done (a : α) (s : σ) :
    (Program.done a : Program E α).wp c post s = post s a := rfl

/-- A call is allowed by the contract, and the rest meets the postcondition for every reply that
the contract admits. -/
@[simp] theorem wp_call (op : E.Op) (next : E.Reply op → Program E α) (s : σ) :
    (Program.call op next).wp c post s =
      (c.demand s op ∧ ∀ r, c.admits s op r → (next r).wp c post (c.after s op r)) := rfl

/-- The sequencing rule. -/
theorem wp_bind (p : Program E α) (f : α → Program E β) (post : σ → β → Prop) (s : σ) :
    (p.bind f).wp c post s ↔ p.wp c (fun s a => (f a).wp c post s) s := by
  induction p generalizing s with
  | done a => rfl
  | call op next ih => simp only [call_bind, wp_call, ih]

/-- The rule of consequence. -/
theorem wp_mono {post' : σ → α → Prop} (hpost : ∀ s a, post s a → post' s a) {p : Program E α}
    {s : σ} (h : p.wp c post s) : p.wp c post' s := by
  induction p generalizing s with
  | done a => exact hpost s a h
  | call op next ih => exact ⟨h.1, fun r hr => ih r (h.2 r hr)⟩

/-- Weakest preconditions follow a program as it is resumed. -/
theorem wp_resume [DecidableEq E.Op] {p q : Program E α} {op : E.Op} {r : E.Reply op} {s : σ}
    (h : p.wp c post s) (hresume : p.resume op r = some q) (hadmits : c.admits s op r) :
    c.demand s op ∧ q.wp c post (c.after s op r) := by
  obtain ⟨next, rfl, rfl⟩ := resume_eq_some.mp hresume
  exact ⟨h.1, h.2 r hadmits⟩

end Program

end Machine
