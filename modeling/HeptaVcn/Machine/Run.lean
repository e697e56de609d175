import Mathlib.Data.List.Infix

/-!
# Runs of labelled machines

A machine is a partial step function whose label resolves every choice of its
environment, so a run is a state and a list of labels. The rules below turn
facts about one step into facts about whole runs: invariants, conditions that
every step of a run meets, what a machine must get to, and projections of one
machine onto another.
-/

namespace Machine

variable {σ τ α β : Type*}

/-- Take the labels of `tr` one after another; `none` when one of them is not enabled. -/
def run (step : σ → α → Option σ) (s : σ) (tr : List α) : Option σ :=
  tr.foldlM step s

/-- The empty trace stays where it is. -/
@[simp] theorem run_nil (step : σ → α → Option σ) (s : σ) : run step s [] = some s := rfl

/-- A trace takes its first step and then the others. -/
@[simp] theorem run_cons (step : σ → α → Option σ) (s : σ) (a : α) (tr : List α) :
    run step s (a :: tr) = (step s a).bind fun t => run step t tr := rfl

/-- A trace cut in two runs one part after the other. -/
theorem run_append (step : σ → α → Option σ) (s : σ) (tr₁ tr₂ : List α) :
    run step s (tr₁ ++ tr₂) = (run step s tr₁).bind fun t => run step t tr₂ := by
  simp [run, List.foldlM_append]

/-- A run can be cut at any of its labels. -/
theorem run_append_eq_some {step : σ → α → Option σ} {s u : σ} {tr₁ tr₂ : List α} :
    run step s (tr₁ ++ tr₂) = some u ↔
      ∃ t, run step s tr₁ = some t ∧ run step t tr₂ = some u := by
  rw [run_append, Option.bind_eq_some_iff]

/-- A run goes on with a step that is enabled. -/
theorem run_concat {step : σ → α → Option σ} {s t u : σ} {tr : List α} {a : α}
    (hrun : run step s tr = some t) (hstep : step t a = some u) :
    run step s (tr ++ [a]) = some u := by
  rw [run_append, hrun, Option.bind_some, run_cons, hstep]
  rfl

/-- Every step of the run meets the condition `C` on its label and the state before it. -/
def Meets (step : σ → α → Option σ) (C : σ → α → Prop) : σ → List α → Prop
  | _, [] => True
  | s, a :: tr => C s a ∧ ∀ t, step s a = some t → Meets step C t tr

instance decidableMeets {step : σ → α → Option σ} {C : σ → α → Prop}
    [∀ s a, Decidable (C s a)] : ∀ s tr, Decidable (Meets step C s tr)
  | _, [] => isTrue trivial
  | s, a :: tr =>
    have : Decidable (∀ t, step s a = some t → Meets step C t tr) :=
      match h : step s a with
      | none => isTrue fun t ht => by simp at ht
      | some t =>
        have : Decidable (Meets step C t tr) := decidableMeets t tr
        decidable_of_iff (Meets step C t tr) (by simp)
    inferInstanceAs (Decidable (C s a ∧ ∀ t, step s a = some t → Meets step C t tr))

/-- The predicate `P` holds in every state of the run, the first and the last included. -/
def Always (step : σ → α → Option σ) (P : σ → Prop) : σ → List α → Prop
  | s, [] => P s
  | s, a :: tr => P s ∧ ∀ t, step s a = some t → Always step P t tr

section Invariants

variable {step : σ → α → Option σ} {C : σ → α → Prop} {P : σ → Prop}

/-- A trace cut in two meets a condition if its first part does, and its second part does from the
state reached. -/
theorem meets_append {s : σ} {tr₁ tr₂ : List α} :
    Meets step C s (tr₁ ++ tr₂) ↔
      Meets step C s tr₁ ∧ ∀ t, run step s tr₁ = some t → Meets step C t tr₂ := by
  induction tr₁ generalizing s with
  | nil => simp [Meets]
  | cons a tr₁ ih =>
    simp only [List.cons_append, Meets, ih, run_cons, Option.bind_eq_some_iff]
    constructor
    · rintro ⟨ha, h⟩
      exact ⟨⟨ha, fun t ht => (h t ht).1⟩, fun u ⟨t, ht, hu⟩ => (h t ht).2 u hu⟩
    · rintro ⟨⟨ha, h⟩, h'⟩
      exact ⟨ha, fun t ht => ⟨h t ht, fun u hu => h' u ⟨t, ht, hu⟩⟩⟩

/-- The history rule: a relation between the labels taken so far and the state
they reach holds of a whole run when every step that meets `C` preserves it. -/
theorem history_of_meets {I : List α → σ → Prop} {s u : σ} {tr : List α}
    (hstep : ∀ tr s a t, I tr s → C s a → step s a = some t → I (tr ++ [a]) t)
    (hinit : I [] s) (hmeets : Meets step C s tr) (hrun : run step s tr = some u) : I tr u := by
  suffices h : ∀ past s, I past s → Meets step C s tr → run step s tr = some u → I (past ++ tr) u by
    simpa using h [] s hinit hmeets hrun
  clear hinit hmeets hrun s
  induction tr with
  | nil =>
    intro past s hI _ hrun
    simp only [run_nil, Option.some.injEq] at hrun
    simpa [← hrun] using hI
  | cons a tr ih =>
    intro past s hI hmeets hrun
    obtain ⟨t, ht, hrun⟩ := Option.bind_eq_some_iff.mp hrun
    have h := ih (past ++ [a]) t (hstep past s a t hI hmeets.1 ht) (hmeets.2 t ht) hrun
    simpa using h

/-- A family of conditions is met when each of them is. -/
theorem meets_forall_iff {ι : Type*} {C : ι → σ → α → Prop} {s : σ} {tr : List α} :
    Meets step (fun s a => ∀ i, C i s a) s tr ↔ ∀ i, Meets step (C i) s tr := by
  induction tr generalizing s with
  | nil => simp [Meets]
  | cons a tr ih =>
    simp only [Meets, ih]
    exact ⟨fun h i => ⟨h.1 i, fun t ht => h.2 t ht i⟩,
      fun h => ⟨fun i => (h i).1, fun t ht i => (h i).2 t ht⟩⟩

/-- A condition that holds of all steps is met by every trace. -/
theorem meets_of_forall (hC : ∀ s a, C s a) (s : σ) (tr : List α) : Meets step C s tr := by
  induction tr generalizing s with
  | nil => trivial
  | cons a tr ih => exact ⟨hC s a, fun t _ => ih t⟩

/-- A condition on the labels alone is met when every label of the run meets it. -/
theorem meets_of_mem {L : α → Prop} {s : σ} {tr : List α} (h : ∀ a ∈ tr, L a) :
    Meets step (fun _ => L) s tr := by
  induction tr generalizing s with
  | nil => trivial
  | cons a tr ih =>
    exact ⟨h a List.mem_cons_self, fun t _ => ih fun b hb => h b (List.mem_cons_of_mem a hb)⟩

/-- A condition that an invariant implies is met by every run. -/
theorem meets_of_invariant {I : σ → Prop} (hstep : ∀ s a t, I s → step s a = some t → I t)
    (hC : ∀ s a, I s → C s a) {s : σ} (hinit : I s) (tr : List α) : Meets step C s tr := by
  induction tr generalizing s with
  | nil => trivial
  | cons a tr ih => exact ⟨hC s a hinit, fun t ht => ih (hstep s a t hinit ht)⟩

/-- The history rule without a condition on the steps. -/
theorem history {I : List α → σ → Prop} {s u : σ} {tr : List α}
    (hstep : ∀ tr s a t, I tr s → step s a = some t → I (tr ++ [a]) t)
    (hinit : I [] s) (hrun : run step s tr = some u) : I tr u :=
  history_of_meets (C := fun _ _ => True) (fun tr s a t hI _ => hstep tr s a t hI) hinit
    (meets_of_forall (fun _ _ => trivial) s tr) hrun

/-- The invariant rule under a condition on the steps. -/
theorem invariant_of_meets {I : σ → Prop} {s u : σ} {tr : List α}
    (hstep : ∀ s a t, I s → C s a → step s a = some t → I t)
    (hinit : I s) (hmeets : Meets step C s tr) (hrun : run step s tr = some u) : I u :=
  history_of_meets (I := fun _ => I) (fun _ => hstep) hinit hmeets hrun

/-- The invariant rule: what every step preserves holds wherever the machine gets to. -/
theorem invariant {I : σ → Prop} {s u : σ} {tr : List α}
    (hstep : ∀ s a t, I s → step s a = some t → I t)
    (hinit : I s) (hrun : run step s tr = some u) : I u :=
  history (I := fun _ => I) (fun _ => hstep) hinit hrun

/-- When a step that meets `C` keeps the invariant and one that does not breaks
`P` at once, `P` holds throughout a run exactly when all its steps meet `C`. -/
theorem always_iff_meets {I : σ → Prop} {s u : σ} {tr : List α} (hsafe : ∀ s, I s → P s)
    (hgood : ∀ s a t, I s → C s a → step s a = some t → I t)
    (hbad : ∀ s a t, I s → ¬C s a → step s a = some t → ¬P t)
    (hinit : I s) (hrun : run step s tr = some u) :
    Always step P s tr ↔ Meets step C s tr := by
  induction tr generalizing s with
  | nil => exact iff_of_true (hsafe s hinit) trivial
  | cons a tr ih =>
    obtain ⟨t, ht, hrun⟩ := Option.bind_eq_some_iff.mp hrun
    have hhead : Always step P t tr → P t := by cases tr <;> simp +contextual [Always]
    constructor
    · rintro ⟨_, h⟩
      have hC : C s a := by
        by_contra hC
        exact hbad s a t hinit hC ht (hhead (h t ht))
      refine ⟨hC, fun t' ht' => ?_⟩
      obtain rfl : t = t' := Option.some.inj (ht.symm.trans ht')
      exact (ih (hgood s a t hinit hC ht) hrun).mp (h t ht)
    · rintro ⟨hC, h⟩
      refine ⟨hsafe s hinit, fun t' ht' => ?_⟩
      obtain rfl : t = t' := Option.some.inj (ht.symm.trans ht')
      exact (ih (hgood s a t hinit hC ht) hrun).mpr (h t ht)

end Invariants

section Progress

variable {step : σ → α → Option σ} {L : α → Prop} {P : σ → Prop}

/-- The machine gets to `P` by labels in `L`, whichever of them it takes: until then one
of them is enabled, and it cannot go on with them forever. -/
inductive Inevitably (step : σ → α → Option σ) (L : α → Prop) (P : σ → Prop) : σ → Prop
  | now {s : σ} : P s → Inevitably step L P s
  | later {s : σ} : (∃ a t, L a ∧ step s a = some t) →
      (∀ a t, L a → step s a = some t → Inevitably step L P t) → Inevitably step L P s

/-- The progress rule: under an invariant, a step is enabled until `P` holds, and every
step goes down in a well-founded relation. -/
theorem inevitably_of_progress {I : σ → Prop} {r : σ → σ → Prop} (hwf : WellFounded r)
    (hinv : ∀ s a t, I s → L a → step s a = some t → I t)
    (hdown : ∀ s a t, L a → step s a = some t → r t s)
    (hprogress : ∀ s, I s → ¬P s → ∃ a t, L a ∧ step s a = some t)
    {s : σ} (hinit : I s) : Inevitably step L P s := by
  induction s using hwf.induction with
  | h s ih =>
    by_cases hP : P s
    case pos => exact .now hP
    case neg =>
      refine .later (hprogress s hinit hP) fun a t ha ht => ?_
      exact ih t (hdown s a t ha ht) (hinv s a t hinit ha ht)

/-- The measure rule: under an invariant, labels that each lower a measure are taken no more
often than it says. -/
theorem length_add_le_of_measure {I : σ → Prop} {μ : σ → ℕ}
    (hinv : ∀ s a t, I s → L a → step s a = some t → I t)
    (hdown : ∀ s a t, I s → L a → step s a = some t → μ t < μ s) {s t : σ} {tr : List α}
    (hinit : I s) (hL : ∀ a ∈ tr, L a) (hrun : run step s tr = some t) :
    tr.length + μ t ≤ μ s := by
  induction tr generalizing s with
  | nil =>
    obtain rfl : s = t := Option.some.inj hrun
    exact (Nat.zero_add _).le
  | cons a tr ih =>
    obtain ⟨ha, hL⟩ := List.forall_mem_cons.mp hL
    obtain ⟨u, hu, hrun⟩ := Option.bind_eq_some_iff.mp hrun
    have hlt := hdown s a u hinit ha hu
    have hle := ih (hinv s a u hinit ha hu) hL hrun
    rw [List.length_cons]
    omega

end Progress

section Projection

variable {step : σ → α → Option σ} {step' : τ → β → Option τ}
  {f : σ → τ} {g : α → List β} {I : σ → Prop}

/-- One machine is part of another when each label of the larger one is a
(possibly empty) list of labels of the smaller one; runs then project. -/
theorem run_project (hinv : ∀ s a t, I s → step s a = some t → I t)
    (hstep : ∀ s a t, I s → step s a = some t → run step' (f s) (g a) = some (f t))
    {s u : σ} {tr : List α} (hinit : I s) (hrun : run step s tr = some u) :
    run step' (f s) (tr.flatMap g) = some (f u) := by
  induction tr generalizing s with
  | nil =>
    obtain rfl : s = u := Option.some.inj hrun
    rfl
  | cons a tr ih =>
    obtain ⟨t, ht, hrun⟩ := Option.bind_eq_some_iff.mp hrun
    rw [List.flatMap_cons, run_append, hstep s a t hinit ht]
    exact ih (hinv s a t hinit ht) hrun

/-- A condition on the steps of the part is one on the steps of the whole. -/
theorem meets_flatMap {C : τ → β → Prop} (hinv : ∀ s a t, I s → step s a = some t → I t)
    (hstep : ∀ s a t, I s → step s a = some t → run step' (f s) (g a) = some (f t))
    {s u : σ} {tr : List α} (hinit : I s) (hrun : run step s tr = some u) :
    Meets step' C (f s) (tr.flatMap g) ↔
      Meets step (fun s a => Meets step' C (f s) (g a)) s tr := by
  induction tr generalizing s with
  | nil => exact iff_of_true trivial trivial
  | cons a tr ih =>
    obtain ⟨t, ht, hrun⟩ := Option.bind_eq_some_iff.mp hrun
    have hpart := hstep s a t hinit ht
    have hrest := ih (hinv s a t hinit ht) hrun
    rw [List.flatMap_cons, meets_append]
    simp only [Meets, hpart, ht, Option.some.injEq, forall_eq', hrest]

/-- A machine refines another along a relation when each of its labels asks for a
(possibly empty) list of labels of the other one. -/
theorem run_refine {R : σ → τ → Prop}
    (hstep : ∀ s t a s', R s t → step s a = some s' → ∃ t', run step' t (g a) = some t' ∧ R s' t')
    {s u : σ} {t : τ} {tr : List α} (hinit : R s t) (hrun : run step s tr = some u) :
    ∃ v, run step' t (tr.flatMap g) = some v ∧ R u v := by
  induction tr generalizing s t with
  | nil =>
    obtain rfl : s = u := Option.some.inj hrun
    exact ⟨t, rfl, hinit⟩
  | cons a tr ih =>
    obtain ⟨s', hs', hrun⟩ := Option.bind_eq_some_iff.mp hrun
    obtain ⟨t', ht', hR⟩ := hstep s t a s' hinit hs'
    obtain ⟨v, hv, hRv⟩ := ih hR hrun
    refine ⟨v, ?_, hRv⟩
    rw [List.flatMap_cons, run_append, ht']
    exact hv

end Projection

end Machine
