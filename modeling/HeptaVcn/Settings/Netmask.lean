import Mathlib.Analysis.SpecialFunctions.Log.Base
import HeptaVcn.App.Java

/-!
# The netmask, `Utils.java`

`netmask2prefix` adds up, over the fields of the text, how many leading ones the mask of
an octet has, read off a logarithm that is cut to an `int` after each addition. Apart
from the netmasks it accepts every text whose fields are integers.
-/

namespace HeptaVcn

open Java

namespace Utils

/-- The `int` value of `a - log₂ m` for `0 < m`, which a cast rounds towards zero. -/
def truncSubLog (a : ℤ) (m : ℕ) : ℤ :=
  if (Nat.clog 2 m : ℤ) ≤ a then a - Nat.clog 2 m else a - Nat.log 2 m

/-- `len += (8 - Math.log(256-n) / Math.log(2))` -/
def addField (len n : ℤ) : ℤ :=
  let m := wrap (256 - n)
  -- the cast to `int` of a sum that is not a number, of an infinite and of a finite one
  if m < 0 then 0
  else if m = 0 then intMax
  else clamp (truncSubLog (len + 8) m.toNat)

/-- `netmask2prefix`; `parseInt` is the only call that can throw. -/
def netmask2prefix (netmask : String) : Option ℤ :=
  (split '.' netmask.toList).foldlM (fun len n => (parseInt n).map (addField len)) 0

end Utils

/-- The cast of a real number to an integer. -/
noncomputable def truncate (x : ℝ) : ℤ := if 0 ≤ x then ⌊x⌋ else ⌈x⌉

/-- `truncSubLog` computes what it says. -/
theorem Utils.truncSubLog_eq_truncate (a : ℤ) (m : ℕ) :
    truncSubLog a m = truncate (a - Real.logb 2 m) := by
  have hfloor : ⌊Real.logb 2 m⌋ = Nat.log 2 m := by
    have h := Real.floor_logb_natCast (b := 2) (r := (m : ℝ)) (Nat.cast_nonneg m)
    rwa [Int.log_natCast, Nat.cast_ofNat] at h
  have hceil : ⌈Real.logb 2 m⌉ = Nat.clog 2 m := by
    have h := Real.ceil_logb_natCast (b := 2) (r := (m : ℝ)) (Nat.cast_nonneg m)
    rwa [Int.clog_natCast, Nat.cast_ofNat] at h
  have hsign : 0 ≤ a - Real.logb 2 m ↔ (Nat.clog 2 m : ℤ) ≤ a := by
    rw [sub_nonneg, ← hceil, Int.ceil_le]
  rw [truncSubLog, truncate]
  by_cases hle : (Nat.clog 2 m : ℤ) ≤ a
  · rw [if_pos hle, if_pos (hsign.mpr hle), sub_eq_add_neg (a : ℝ), Int.floor_intCast_add,
      Int.floor_neg, hceil]
    rfl
  · rw [if_neg hle, if_neg (mt hsign.mp hle), sub_eq_add_neg (a : ℝ), Int.ceil_intCast_add,
      Int.ceil_neg, hfloor]
    rfl

/-- The 32-bit mask with `k` leading ones. -/
def mask (k : ℕ) : BitVec 32 := BitVec.allOnes 32 <<< (32 - k)

/-- The dotted-decimal form of a 32-bit number. -/
def dotted (address : BitVec 32) : String :=
  ".".intercalate ([24, 16, 8, 0].map fun shift => toString (address.toNat / 2 ^ shift % 256))

/-- What `netmask2prefix` should do with a text: the prefix of a netmask, and an exception
for everything else. -/
def AcceptsExactly (s : String) : Prop :=
  (∀ k ≤ 32, s = dotted (mask k) → Utils.netmask2prefix s = some (k : ℤ)) ∧
    ((∀ k ≤ 32, s ≠ dotted (mask k)) → Utils.netmask2prefix s = none)

instance (s : String) : Decidable (AcceptsExactly s) := by
  unfold AcceptsExactly
  infer_instance

/-- The loop over the fields throws exactly if one of them is no number. -/
theorem foldlM_addField_eq_none {fields : List (List Char)} {len : ℤ} :
    fields.foldlM (fun len n => (parseInt n).map (Utils.addField len)) len = none ↔
      ∃ field ∈ fields, parseInt field = none := by
  induction fields generalizing len with
  | nil => simp
  | cons field fields ih =>
    rw [List.foldlM_cons]
    cases hfield : parseInt field with
    | none => simp [hfield]
    | some n => simpa [hfield] using ih

/-- Nothing is checked but that each field is an integer. -/
theorem netmask2prefix_eq_none_iff (s : String) :
    Utils.netmask2prefix s = none ↔ ∃ field ∈ split '.' s.toList, parseInt field = none :=
  foldlM_addField_eq_none

/-- The netmasks themselves are converted correctly. -/
theorem netmask2prefix_mask {k : ℕ} (hk : k ≤ 32) :
    Utils.netmask2prefix (dotted (mask k)) = some (k : ℤ) := by
  have hall : ∀ k < 33, Utils.netmask2prefix (dotted (mask k)) = some (k : ℤ) := by decide
  exact hall k (by omega)

/-- A text is treated as it should be exactly when it is a netmask or one of its fields is
not an integer. -/
theorem acceptsExactly_iff (s : String) :
    AcceptsExactly s ↔
      (∃ k ≤ 32, s = dotted (mask k)) ∨ ∃ field ∈ split '.' s.toList, parseInt field = none := by
  rw [← netmask2prefix_eq_none_iff]
  constructor
  · rintro ⟨_, hother⟩
    by_cases hmask : ∃ k ≤ 32, s = dotted (mask k)
    · exact Or.inl hmask
    · push Not at hmask
      exact Or.inr (hother hmask)
  · rintro (⟨k, hk, rfl⟩ | hnone)
    · refine ⟨fun j hj heq => ?_, fun hne => absurd rfl (hne k hk)⟩
      rw [heq, netmask2prefix_mask hj]
    · refine ⟨fun k hk heq => ?_, fun _ => hnone⟩
      rw [heq, netmask2prefix_mask hk] at hnone
      cases hnone

/-- A hole in the mask is counted over. -/
theorem not_acceptsExactly_hole : ¬AcceptsExactly "255.0.255.0" := by decide

/-! ## Octets in general -/

/-- How many leading ones an octet has. -/
def leadingOnes (n : ℤ) : ℕ := ((List.range 8).takeWhile fun i => n.toNat.testBit (7 - i)).length

/-- The logarithm counts the leading ones. -/
theorem clog_add_leadingOnes {n : ℕ} (hn : n < 256) :
    Nat.clog 2 (256 - n) + leadingOnes n = 8 := by
  have hall : ∀ n < 256, Nat.clog 2 (256 - n) + leadingOnes n = 8 := by decide +kernel
  exact hall n hn

/-- The octet of a field adds its leading ones, as far as an `int` can hold them. -/
theorem addField_octet {len n : ℤ} (hlen : 0 ≤ len) (hn : 0 ≤ n ∧ n < 256) :
    Utils.addField len n = min intMax (len + leadingOnes n) := by
  obtain ⟨m, rfl⟩ := Int.eq_ofNat_of_zero_le hn.1
  have hm : m < 256 := by omega
  have hones := clog_add_leadingOnes hm
  have hwrap : wrap (256 - (m : ℤ)) = ((256 - m : ℕ) : ℤ) := by
    rw [wrap, Int.bmod_eq_of_le (by omega) (by omega)]
    omega
  have hle : ((Nat.clog 2 (256 - m) : ℕ) : ℤ) ≤ len + 8 := by omega
  simp only [Utils.addField, hwrap, Int.toNat_natCast]
  rw [if_neg (by omega), if_neg (by omega), Utils.truncSubLog, if_pos hle, clamp]
  have hsum : len + 8 - (Nat.clog 2 (256 - m) : ℕ) = len + leadingOnes m := by omega
  have hmin : intMin ≤ min intMax (len + leadingOnes m) := by
    simp only [intMin, intMax]
    omega
  rw [hsum, max_eq_right hmin]

/-- The fields are added up one after another. -/
theorem foldlM_addField_octets {fields : List (List Char)} {octets : List ℤ} {len : ℤ}
    (hlen : 0 ≤ len) (hread : fields.mapM parseInt = some octets)
    (hoctets : ∀ n ∈ octets, 0 ≤ n ∧ n < 256) :
    fields.foldlM (fun len n => (parseInt n).map (Utils.addField len)) (min intMax len) =
      some (min intMax (len + (octets.map leadingOnes).sum)) := by
  induction fields generalizing octets len with
  | nil =>
    obtain rfl : [] = octets := by simpa using hread
    simp
  | cons field fields ih =>
    simp only [List.mapM_cons, Option.bind_eq_bind, Option.bind_eq_some_iff, Option.pure_def,
      Option.some.injEq] at hread
    obtain ⟨n, hn, rest, hrest, rfl⟩ := hread
    obtain ⟨hoctet, hoctets⟩ := List.forall_mem_cons.mp hoctets
    have hadd : Utils.addField (min intMax len) n = min intMax (len + leadingOnes n) := by
      rw [addField_octet (by simp only [intMax]; omega) hoctet]
      omega
    have hnext : 0 ≤ len + leadingOnes n := by omega
    have h := ih hnext hrest hoctets
    rw [List.foldlM_cons, hn, Option.map_some, Option.bind_eq_bind, Option.bind_some, hadd, h]
    simp [add_assoc]

/-- Whatever its octets are and however many, `netmask2prefix` counts the leading ones of
each of them: a hole in a mask is counted over. -/
theorem netmask2prefix_of_octets {s : String} {octets : List ℤ}
    (hread : (split '.' s.toList).mapM parseInt = some octets)
    (hoctets : ∀ n ∈ octets, 0 ≤ n ∧ n < 256) :
    Utils.netmask2prefix s = some (min intMax (octets.map leadingOnes).sum) := by
  have h := foldlM_addField_octets (Int.le_refl 0) hread hoctets
  rwa [zero_add] at h

/-- An instance: a mask with a hole counts the leading ones of each octet. -/
theorem netmask2prefix_of_octets_hole :
    Utils.netmask2prefix "255.0.200.0" =
      some (min intMax (([255, 0, 200, 0] : List ℤ).map leadingOnes).sum) :=
  netmask2prefix_of_octets (by decide) (by decide)

end HeptaVcn
