/-
Sums and maxima of 64-bit amounts.

A checked sum is the exact one where there is one; a saturating sum is the exact one, up to the largest amount.
-/
import Mathlib.Tactic
import SharedBuffer.Hardware.Reduction

namespace SharedBuffer

theorem exists_toNat_eq {n : Nat} (h : n < UInt64.size) : ∃ v : UInt64, v.toNat = n :=
  ⟨.ofNat n, UInt64.toNat_ofNat_of_lt' h⟩

/-! ## Sums -/

theorem checkedSum_foldlM (l : List UInt64) (a v : UInt64) :
    l.foldlM checkedAdd a = some v ↔ v.toNat = a.toNat + (l.map UInt64.toNat).sum := by
  induction l generalizing a with
  | nil => simp [← UInt64.toNat_inj, eq_comm]
  | cons x l ih =>
    rw [List.foldlM_cons, List.map_cons, List.sum_cons]
    cases hx : checkedAdd a x with
    | none =>
      rw [checkedAdd_eq_none] at hx
      have hv := v.toNat_lt
      simp only [UInt64.size] at hx
      simp only [bind, Option.bind, reduceCtorEq, false_iff]
      omega
    | some b =>
      rw [checkedAdd_eq_some] at hx
      change l.foldlM checkedAdd b = some v ↔ _
      rw [ih, hx]
      omega

theorem checkedSum_eq_some {l : List UInt64} {v : UInt64} :
    checkedSum l = some v ↔ v.toNat = (l.map UInt64.toNat).sum := by
  rw [checkedSum, checkedSum_foldlM]
  simp

theorem toNat_foldl_saturatingAdd (l : List UInt64) (a : UInt64) :
    (l.foldl saturatingAdd a).toNat = min (a.toNat + (l.map UInt64.toNat).sum) (UInt64.size - 1) := by
  induction l generalizing a with
  | nil =>
    have ha := a.toNat_lt
    simp only [List.foldl_nil, List.map_nil, List.sum_nil, UInt64.size]
    omega
  | cons x l ih =>
    rw [List.foldl_cons, ih, toNat_saturatingAdd, List.map_cons, List.sum_cons]
    omega

/-! ## Maxima -/

theorem toNat_max (a b : UInt64) : (max a b).toNat = max a.toNat b.toNat := by
  change (if a ≤ b then b else a).toNat = _
  split
  · rename_i hle
    exact (Nat.max_eq_right (UInt64.le_iff_toNat_le.1 hle)).symm
  · rename_i hle
    exact (Nat.max_eq_left (Nat.le_of_not_le fun hc => hle (UInt64.le_iff_toNat_le.2 hc))).symm

theorem toNat_largest (l : List UInt64) : (largest l).toNat = (l.map UInt64.toNat).foldl max 0 := by
  have h : ∀ a : UInt64, (l.foldl max a).toNat = (l.map UInt64.toNat).foldl max a.toNat := by
    induction l with
    | nil => exact fun _ => rfl
    | cons x l ih =>
      intro a
      rw [List.foldl_cons, ih, toNat_max]
      rfl
  exact h 0

theorem le_foldl_max (l : List Nat) (a : Nat) : a ≤ l.foldl max a ∧ ∀ x ∈ l, x ≤ l.foldl max a := by
  induction l generalizing a with
  | nil => simp
  | cons y l ih =>
    obtain ⟨h1, h2⟩ := ih (max a y)
    refine ⟨le_trans (Nat.le_max_left ..) h1, fun x hx => ?_⟩
    rcases List.mem_cons.1 hx with rfl | hx
    · exact le_trans (Nat.le_max_right ..) h1
    · exact h2 x hx

theorem foldl_max_mono {l l' : List Nat} {a : Nat} (h : ∀ x ∈ l', ∃ y ∈ l, x ≤ y) :
    l'.foldl max a ≤ l.foldl max a := by
  have hle : ∀ (l' : List Nat) (b : Nat), b ≤ l.foldl max a → (∀ x ∈ l', x ≤ l.foldl max a) →
      l'.foldl max b ≤ l.foldl max a := by
    intro l'
    induction l' with
    | nil => exact fun b hb _ => hb
    | cons x l' ih =>
      exact fun b hb hx => ih (max b x) (max_le hb (hx x (by simp))) fun y hy => hx y (List.mem_cons_of_mem _ hy)
  refine hle l' a (le_foldl_max l a).1 fun x hx => ?_
  obtain ⟨y, hy, hxy⟩ := h x hx
  calc x ≤ y := hxy
    _ ≤ l.foldl max a := (le_foldl_max l a).2 y hy

end SharedBuffer
