import Mathlib.Data.List.Basic

/-!
# Streams in pieces

A stream reaches its reader in nonempty pieces, and one read returns at most what is
left of the first piece. Reading in a loop until enough has arrived depends only on the
concatenation of the pieces; a single read does not.
-/

namespace Machine

variable {α : Type*}

/-- What is still to be read of a stream, cut into the pieces in which it arrives. -/
structure Segmented (α : Type*) where
  pieces : List (List α)
  nonempty : ∀ p ∈ pieces, p ≠ []

namespace Segmented

/-- The stream itself. -/
def flat (s : Segmented α) : List α := s.pieces.flatten

/-- One read of at most `n`; at the end of the stream there is nothing to return. -/
def read (s : Segmented α) (n : ℕ) : Option (List α) × Segmented α :=
  if n = 0 then (some [], s)
  else match s with
    | ⟨[], h⟩ => (none, ⟨[], h⟩)
    | ⟨p :: ps, h⟩ =>
      if hle : p.length ≤ n then (some p, ⟨ps, fun q hq => h q (List.mem_cons_of_mem p hq)⟩)
      else (some (p.take n), ⟨p.drop n :: ps, by
        intro q hq
        rcases List.mem_cons.mp hq with rfl | hq
        · rw [Ne, List.drop_eq_nil_iff]
          exact hle
        · exact h q (List.mem_cons_of_mem p hq)⟩)

/-- Read piece after piece until there are `n` or the stream has ended. -/
def gather : List (List α) → ℕ → List α × List (List α)
  | [], _ => ([], [])
  | p :: ps, n =>
    if n = 0 then ([], p :: ps)
    else if p.length ≤ n then (p ++ (gather ps (n - p.length)).1, (gather ps (n - p.length)).2)
    else (p.take n, p.drop n :: ps)

/-- What is left after gathering has no empty piece. -/
theorem gather_nonempty {ps : List (List α)} (h : ∀ p ∈ ps, p ≠ []) (n : ℕ) :
    ∀ p ∈ (gather ps n).2, p ≠ [] := by
  induction ps generalizing n with
  | nil => simp [gather]
  | cons p ps ih =>
    have htail : ∀ q ∈ ps, q ≠ [] := fun q hq => h q (List.mem_cons_of_mem p hq)
    unfold gather
    split
    case isTrue => exact h
    split
    case isTrue => exact ih htail _
    case isFalse hle =>
      intro q hq
      rcases List.mem_cons.mp hq with rfl | hq
      · rw [Ne, List.drop_eq_nil_iff]
        omega
      · exact htail q hq

/-- Read until there are `n` or the stream has ended. -/
def readFull (s : Segmented α) (n : ℕ) : List α × Segmented α :=
  ((gather s.pieces n).1, ⟨(gather s.pieces n).2, gather_nonempty s.nonempty n⟩)

/-- Gathering takes the first `n` units of the stream, however it is cut, and leaves the rest. -/
theorem gather_eq (ps : List (List α)) (n : ℕ) :
    (gather ps n).1 = ps.flatten.take n ∧ (gather ps n).2.flatten = ps.flatten.drop n := by
  induction ps generalizing n with
  | nil => simp [gather]
  | cons p ps ih =>
    obtain ⟨hfst, hsnd⟩ := ih (n - p.length)
    unfold gather
    split
    case isTrue h => simp [h]
    split
    case isTrue hle =>
      have hp : p.take n = p := List.take_of_length_le hle
      have hd : p.drop n = [] := List.drop_of_length_le hle
      simp [hfst, hsnd, List.take_append, List.drop_append, hp, hd]
    case isFalse hlt =>
      have hzero : n - p.length = 0 := by omega
      simp [List.take_append, List.drop_append, hzero]

/-- What the loop reads depends only on the stream, not on its pieces. -/
@[simp] theorem readFull_fst (s : Segmented α) (n : ℕ) : (s.readFull n).1 = s.flat.take n :=
  (gather_eq s.pieces n).1

/-- What the loop leaves is the stream without its first `n` units. -/
@[simp] theorem flat_readFull (s : Segmented α) (n : ℕ) : (s.readFull n).2.flat = s.flat.drop n :=
  (gather_eq s.pieces n).2

/-- A read takes a nonempty prefix of what is left, if there is any. -/
theorem read_eq_some (s : Segmented α) {n : ℕ} (hn : 0 < n) (hflat : s.flat ≠ []) :
    ∃ b, (s.read n).1 = some b ∧ b ≠ [] ∧ s.flat = b ++ (s.read n).2.flat := by
  have hne : n ≠ 0 := by omega
  obtain ⟨pieces, h⟩ := s
  cases pieces with
  | nil => exact absurd rfl hflat
  | cons p ps =>
    have hp : p ≠ [] := h p List.mem_cons_self
    by_cases hle : p.length ≤ n
    · exact ⟨p, by simp [read, hne, hle], hp, by simp [read, hne, hle, flat]⟩
    · exact ⟨p.take n, by simp [read, hne, hle], by simp [hne, hp],
        by simp [read, hne, hle, flat, ← List.append_assoc]⟩

/-! ## Units that are read one by one -/

/-- A piece ends after so many elements. -/
def IsCut (s : Segmented α) (k : ℕ) : Prop :=
  ∃ before after, s.pieces = before ++ after ∧ before.flatten.length = k

/-- The stream starts with the given units, and no piece ends inside one of them. -/
def Uncut (s : Segmented α) (units : List (List α)) : Prop :=
  ∀ before u after, units = before ++ u :: after →
    ∀ k, 0 < k → k < u.length → ¬s.IsCut (before.flatten.length + k)

/-- The first piece ends at a cut, and the others are those of the rest. -/
theorem isCut_cons {p : List α} {ps : List (List α)} {h : ∀ q ∈ p :: ps, q ≠ []}
    (htail : ∀ q ∈ ps, q ≠ []) {k : ℕ} (hk : 0 < k) :
    IsCut ⟨p :: ps, h⟩ k ↔ p.length ≤ k ∧ IsCut ⟨ps, htail⟩ (k - p.length) := by
  constructor
  · rintro ⟨before, after, hpieces, hlength⟩
    cases before with
    | nil =>
      simp only [List.flatten_nil, List.length_nil] at hlength
      omega
    | cons q before =>
      obtain ⟨rfl, htail⟩ := List.cons.inj hpieces
      rw [List.flatten_cons, List.length_append] at hlength
      exact ⟨by omega, before, after, htail, by omega⟩
  · rintro ⟨hle, before, after, hpieces, hlength⟩
    refine ⟨p :: before, after, ?_, ?_⟩
    · exact congrArg (p :: ·) hpieces
    · rw [List.flatten_cons, List.length_append]
      omega

/-- One read returns a whole unit when no piece ends inside it. -/
theorem read_whole (s : Segmented α) {u rest : List α} (hflat : s.flat = u ++ rest)
    (huncut : ∀ k, 0 < k → k < u.length → ¬s.IsCut k) :
    ∃ t : Segmented α, s.read u.length = (some u, t) ∧ t.flat = rest ∧
      ∀ k, 0 < k → (t.IsCut k ↔ s.IsCut (u.length + k)) := by
  by_cases hu : u = []
  · subst hu
    exact ⟨s, by simp [read], hflat, by simp⟩
  have hpos : 0 < u.length := List.length_pos_iff.mpr hu
  have hne : u.length ≠ 0 := by omega
  obtain ⟨pieces, hpieces⟩ := s
  cases pieces with
  | nil => simp [flat, hu] at hflat
  | cons p ps =>
    have htail : ∀ q ∈ ps, q ≠ [] := fun q hq => hpieces q (List.mem_cons_of_mem p hq)
    have hp : 0 < p.length := List.length_pos_iff.mpr (hpieces p List.mem_cons_self)
    have hcut : IsCut ⟨p :: ps, hpieces⟩ p.length := ⟨[p], ps, rfl, by simp⟩
    have hge : u.length ≤ p.length := by
      by_contra hlt
      exact huncut p.length hp (by omega) hcut
    have hsplit : p ++ ps.flatten = u ++ rest := hflat
    have htake : p.take u.length = u := by
      rw [← List.take_append_of_le_length hge, hsplit, List.take_left]
    have hrest : p.drop u.length ++ ps.flatten = rest := by
      rw [← List.drop_append_of_le_length hge, hsplit, List.drop_left]
    by_cases hle : p.length ≤ u.length
    · have heq : p = u := by rw [← htake, List.take_of_length_le hle]
      subst heq
      refine ⟨⟨ps, htail⟩, by simp [read, hne], by simpa [flat] using hrest, fun k hk => ?_⟩
      rw [isCut_cons htail (by omega)]
      simp
    · refine ⟨⟨p.drop u.length :: ps, ?_⟩, by simp [read, hne, hle, htake], hrest, ?_⟩
      · intro q hq
        rcases List.mem_cons.mp hq with rfl | hq
        · rw [Ne, List.drop_eq_nil_iff]
          exact hle
        · exact htail q hq
      · intro k hk
        rw [isCut_cons htail hk, isCut_cons htail (by omega), List.length_drop]
        have hiff : p.length - u.length ≤ k ↔ p.length ≤ u.length + k := by omega
        have hsub : p.length - u.length ≤ k →
            k - (p.length - u.length) = u.length + k - p.length := by omega
        constructor
        · rintro ⟨hlek, hcut⟩
          exact ⟨hiff.mp hlek, hsub hlek ▸ hcut⟩
        · rintro ⟨hlek, hcut⟩
          exact ⟨hiff.mpr hlek, (hsub (hiff.mpr hlek)).symm ▸ hcut⟩

/-- One read returns less than the unit when a piece ends inside it. -/
theorem read_short (s : Segmented α) {n k : ℕ} (hk : 0 < k) (hlt : k < n) (hcut : s.IsCut k) :
    ∃ b, (s.read n).1 = some b ∧ b.length ≠ n := by
  have hne : n ≠ 0 := by omega
  obtain ⟨pieces, hpieces⟩ := s
  cases pieces with
  | nil =>
    obtain ⟨before, after, hnil, hlength⟩ := hcut
    obtain ⟨rfl, rfl⟩ := List.append_eq_nil_iff.mp hnil.symm
    simp only [List.flatten_nil, List.length_nil] at hlength
    omega
  | cons p ps =>
    have htail : ∀ q ∈ ps, q ≠ [] := fun q hq => hpieces q (List.mem_cons_of_mem p hq)
    obtain ⟨hle, _⟩ := (isCut_cons htail hk).mp hcut
    have hlen : p.length ≤ n := by omega
    exact ⟨p, by simp [read, hne, hlen], by omega⟩

/-- One unit is uncut exactly if no piece ends within it. -/
theorem uncut_singleton {s : Segmented α} {u : List α} :
    s.Uncut [u] ↔ ∀ k, 0 < k → k < u.length → ¬s.IsCut k := by
  constructor
  · intro huncut k hk hlt
    simpa using huncut [] u [] rfl k hk hlt
  · intro huncut before v after hunits k hk hlt hcut
    obtain ⟨rfl, rfl, rfl⟩ : before = [] ∧ u = v ∧ after = [] := by
      cases before with
      | nil => simpa using hunits
      | cons w before => simp at hunits
    exact huncut k hk hlt (by simpa using hcut)

/-- No piece ends inside the first units, nor inside the others once those have been read. -/
theorem uncut_append {s t : Segmented α} {us vs : List (List α)}
    (h : ∀ k, 0 < k → (t.IsCut k ↔ s.IsCut (us.flatten.length + k))) :
    s.Uncut (us ++ vs) ↔ s.Uncut us ∧ t.Uncut vs := by
  constructor
  · intro huncut
    constructor
    · rintro before u after rfl k hk hlt
      exact huncut before u (after ++ vs) (by simp) k hk hlt
    · rintro before u after rfl k hk hlt hcut
      refine huncut (us ++ before) u after (by simp) k hk hlt ?_
      rw [List.flatten_append, List.length_append, Nat.add_assoc]
      exact (h _ (by omega)).mp hcut
  · rintro ⟨hfirst, hothers⟩ before u after hunits k hk hlt hcut
    rcases List.append_eq_append_iff.mp hunits with ⟨more, rfl, hvs⟩ | ⟨more, rfl, hmore⟩
    · refine hothers more u after hvs k hk hlt ((h _ (by omega)).mpr ?_)
      rw [List.flatten_append, List.length_append, Nat.add_assoc] at hcut
      exact hcut
    · cases more with
      | nil =>
        rw [List.append_nil] at h
        refine hothers [] u after hmore.symm k hk hlt ((h _ (by simpa using hk)).mpr ?_)
        simpa using hcut
      | cons v more =>
        obtain ⟨rfl, -⟩ := List.cons.inj hmore
        exact hfirst before u more rfl k hk hlt hcut

/-- No piece ends inside a piece. -/
theorem uncut_pieces (s : Segmented α) : s.Uncut s.pieces := by
  rintro before u after hpieces k hk hlt ⟨ends, others, hcut, hlength⟩
  rw [hpieces] at hcut
  rcases List.append_eq_append_iff.mp hcut with ⟨more, rfl, hmore⟩ | ⟨more, rfl, -⟩
  · cases more with
    | nil =>
      rw [List.append_nil] at hlength
      omega
    | cons v more =>
      obtain ⟨rfl, -⟩ := List.cons.inj hmore
      simp only [List.flatten_append, List.flatten_cons, List.length_append] at hlength
      omega
  · rw [List.flatten_append, List.length_append] at hlength
    omega

end Segmented

end Machine
