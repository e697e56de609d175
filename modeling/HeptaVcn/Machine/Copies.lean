import Mathlib.Data.List.GetD
import Mathlib.Data.List.Perm.Basic

/-!
# Copies of a machine beside each other

Machines of one kind stand in a list and share what their environment hands out. What is
said of any two of them is kept when one of them takes a step, and when another one is
started, as soon as that one is related to the rest.
-/

namespace Machine

variable {σ : Type*} {R : σ → σ → Prop} {l : List σ} {s t : σ} {i j : ℕ}

/-- After a change of one machine, a machine is the changed one or stands where it did. -/
theorem getElem?_set_cases (h : (l.set i s)[j]? = some t) :
    (j = i ∧ t = s) ∨ (j ≠ i ∧ l[j]? = some t) := by
  rw [List.getElem?_set] at h
  by_cases hj : i = j
  · rw [if_pos hj, Option.ite_none_right_eq_some] at h
    exact Or.inl ⟨hj.symm, (Option.some.inj h.2).symm⟩
  · rw [if_neg hj] at h
    exact Or.inr ⟨Ne.symm hj, h⟩

/-- Once another one is started, a machine is that one or stands where it did. -/
theorem getElem?_concat_cases (h : (l ++ [s])[j]? = some t) :
    (j = l.length ∧ t = s) ∨ l[j]? = some t := by
  rw [List.getElem?_append] at h
  split at h
  case isTrue => exact Or.inr h
  case isFalse hj =>
    obtain ⟨hlt, hget⟩ := List.getElem?_eq_some_iff.mp h
    rw [List.length_singleton] at hlt
    rw [List.getElem_singleton] at hget
    exact Or.inl ⟨by omega, hget.symm⟩

/-- Any two machines at different positions are related. -/
def Apart (R : σ → σ → Prop) (l : List σ) : Prop :=
  ∀ (i j : ℕ) (s t : σ), i ≠ j → l[i]? = some s → l[j]? = some t → R s t

/-- No two copies are at odds when there is none. -/
theorem apart_nil (R : σ → σ → Prop) : Apart R [] := fun _ _ _ _ _ hs => by simp at hs

/-- One machine changes. -/
theorem Apart.set (h : Apart R l)
    (hnew : ∀ (j : ℕ) (t : σ), j ≠ i → l[j]? = some t → R s t ∧ R t s) : Apart R (l.set i s) := by
  intro j k t u hjk ht hu
  rcases getElem?_set_cases ht with ⟨rfl, rfl⟩ | ⟨hj, hold⟩
  · rcases getElem?_set_cases hu with ⟨rfl, _⟩ | ⟨hk, hu⟩
    · exact absurd rfl hjk
    · exact (hnew k u hk hu).1
  · rcases getElem?_set_cases hu with ⟨rfl, rfl⟩ | ⟨_, hu⟩
    · exact (hnew j t hj hold).2
    · exact h j k t u hjk hold hu

/-- One more machine is started. -/
theorem Apart.concat (h : Apart R l) (hnew : ∀ t ∈ l, R s t ∧ R t s) : Apart R (l ++ [s]) := by
  intro j k t u hjk ht hu
  rcases getElem?_concat_cases ht with ⟨rfl, rfl⟩ | hold
  · rcases getElem?_concat_cases hu with ⟨rfl, _⟩ | hu
    · exact absurd rfl hjk
    · exact (hnew u (List.mem_of_getElem? hu)).1
  · rcases getElem?_concat_cases hu with ⟨rfl, rfl⟩ | hu
    · exact (hnew t (List.mem_of_getElem? hold)).2
    · exact h j k t u hjk hold hu

/-- What holds of every machine still does when one changes to one of which it holds. -/
theorem forall_mem_set {P : σ → Prop} (h : ∀ t ∈ l, P t) (hs : P s) : ∀ t ∈ l.set i s, P t := by
  intro t ht
  rcases List.mem_or_eq_of_mem_set ht with hold | rfl
  · exact h t hold
  · exact hs

/-- A property of all copies and of one more is a property of the longer list. -/
theorem forall_mem_concat {P : σ → Prop} (h : ∀ t ∈ l, P t) (hs : P s) : ∀ t ∈ l ++ [s], P t := by
  intro t ht
  rcases List.mem_append.mp ht with hold | hnew
  · exact h t hold
  · exact List.mem_singleton.mp hnew ▸ hs

/-! ## What each of them does -/

section Parts

variable {ι β : Type*} [DecidableEq ι]

/-- What belongs to machine `i` of what all of them do. -/
def partOf (i : ι) : List (ι × β) → List β :=
  List.filterMap fun x => if x.1 = i then some x.2 else none

/-- A part holds exactly what the whole list holds under its index. -/
theorem mem_partOf {i : ι} {b : β} {l : List (ι × β)} : b ∈ partOf i l ↔ (i, b) ∈ l := by
  rw [partOf, List.mem_filterMap]
  constructor
  · rintro ⟨⟨j, b'⟩, hmem, hx⟩
    obtain ⟨rfl, hb⟩ := Option.ite_none_right_eq_some.mp hx
    exact Option.some.inj hb ▸ hmem
  · exact fun hmem => ⟨_, hmem, if_pos rfl⟩

/-- The first item belongs to the part of its own index. -/
theorem partOf_cons (i : ι) (x : ι × β) (l : List (ι × β)) :
    partOf i (x :: l) = (if x.1 = i then [x.2] else []) ++ partOf i l := by
  rw [partOf, List.filterMap_cons]
  split <;> simp_all

/-- Among indices without repetition exactly one part gets an item. -/
theorem flatMap_ite_eq {is : List ι} (hnodup : is.Nodup) {j : ι} (hj : j ∈ is) (b : β) :
    (is.flatMap fun i => if j = i then [b] else []) = [b] := by
  induction is with
  | nil => cases hj
  | cons i is ih =>
    obtain ⟨hnew, hnodup⟩ := List.nodup_cons.mp hnodup
    rw [List.flatMap_cons]
    rcases List.mem_cons.mp hj with rfl | hj
    · have hrest : (is.flatMap fun i => if j = i then [b] else []) = [] := by
        refine List.flatMap_eq_nil_iff.mpr fun i hi => if_neg ?_
        rintro rfl
        exact hnew hi
      rw [if_pos rfl, hrest, List.append_nil]
    · have hne : j ≠ i := fun heq => hnew (heq ▸ hj)
      rw [if_neg hne, List.nil_append, ih hnodup hj]

/-- The parts of all machines together are everything, each thing once. -/
theorem flatMap_partOf_perm {is : List ι} (hnodup : is.Nodup) {l : List (ι × β)}
    (hmem : ∀ x ∈ l, x.1 ∈ is) : (is.flatMap fun i => partOf i l).Perm (l.map Prod.snd) := by
  induction l with
  | nil =>
    have hnil : (is.flatMap fun i => partOf i ([] : List (ι × β))) = [] :=
      List.flatMap_eq_nil_iff.mpr fun _ _ => rfl
    rw [hnil, List.map_nil]
  | cons x l ih =>
    obtain ⟨hx, hmem⟩ := List.forall_mem_cons.mp hmem
    simp only [partOf_cons]
    refine (List.flatMap_append_perm is _ _).symm.trans ?_
    rw [flatMap_ite_eq hnodup hx, List.map_cons, List.singleton_append]
    exact (ih hmem).cons x.2

end Parts

end Machine
