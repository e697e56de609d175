import HeptaVcn.Machine.Program

/-!
# Programs over two interfaces

A program over one interface is also one over that interface together with another, so
that code of two levels can be sequenced.
-/

namespace Machine

/-- The reply to an operation of either interface. -/
abbrev Interface.SumReply (E F : Interface) : E.Op ⊕ F.Op → Type
  | .inl op => E.Reply op
  | .inr op => F.Reply op

/-- The operations of two interfaces together. -/
abbrev Interface.sum (E F : Interface) : Interface := ⟨E.Op ⊕ F.Op, E.SumReply F⟩

namespace Program

variable {E F : Interface} {α : Type} {σ : Type*}

/-- The same program over a larger interface. -/
def inl : Program E α → Program (E.sum F) α
  | .done a => .done a
  | .call op next => .call (.inl op) fun r => (next r).inl

/-- The part of a contract that is about the first interface. -/
def Contract.left (c : Contract (E.sum F) σ) : Contract E σ where
  demand s op := c.demand s (.inl op)
  admits s op r := c.admits s (.inl op) r
  after s op r := c.after s (.inl op) r

/-- The larger program meets a contract when the program meets its part of it. -/
theorem wp_inl {c : Contract (E.sum F) σ} {post : σ → α → Prop} {p : Program E α} {s : σ} :
    (p.inl : Program (E.sum F) α).wp c post s ↔ p.wp c.left post s := by
  induction p generalizing s with
  | done a => rfl
  | call op next ih =>
    refine and_congr_right fun _ => forall_congr' fun r => ?_
    exact imp_congr_right fun _ => ih r

end Program

end Machine
