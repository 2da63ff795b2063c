/-
64-bit amounts (byte counts, element counts) whose sums, products and differences say when they do not fit.

Each checked operation answers `none` exactly when the exact result is not a 64-bit number, so a law about one is a
law about natural numbers: `checkedAdd_eq_some`, `checkedMul_eq_some`, `checkedSub_eq_some`. The saturating ones stop at
the largest amount: `toNat_saturatingAdd`, `toNat_saturatingMul`.
-/

namespace SharedBuffer

/-- the sum, if it fits 64 bits -/
def checkedAdd (a b : UInt64) : Option UInt64 :=
  if a.toNat + b.toNat < UInt64.size then some (a + b) else none

/-- the product, if it fits 64 bits -/
def checkedMul (a b : UInt64) : Option UInt64 :=
  if a.toNat * b.toNat < UInt64.size then some (a * b) else none

/-- the difference, if it is not negative -/
def checkedSub (a b : UInt64) : Option UInt64 :=
  if b.toNat ≤ a.toNat then some (a - b) else none

/-- the largest 64-bit amount -/
def maxAmount : UInt64 := 0xFFFFFFFFFFFFFFFF

/-- the sum, or the largest amount where it does not fit -/
def saturatingAdd (a b : UInt64) : UInt64 := (checkedAdd a b).getD maxAmount

/-- the product, or the largest amount where it does not fit -/
def saturatingMul (a b : UInt64) : UInt64 := (checkedMul a b).getD maxAmount

/-! ## Laws over the natural numbers -/

theorem toNat_maxAmount : maxAmount.toNat = UInt64.size - 1 := rfl

theorem checkedAdd_eq_some {a b c : UInt64} : checkedAdd a b = some c ↔ c.toNat = a.toNat + b.toNat := by
  have hc := c.toNat_lt
  unfold checkedAdd
  split <;> rename_i h
  · have hs : (a + b).toNat = a.toNat + b.toNat := by rw [UInt64.toNat_add]; exact Nat.mod_eq_of_lt h
    rw [Option.some.injEq, ← UInt64.toNat_inj, hs]
    exact eq_comm
  · simp only [reduceCtorEq, false_iff]
    simp only [UInt64.size] at h
    omega

theorem checkedAdd_eq_none {a b : UInt64} : checkedAdd a b = none ↔ UInt64.size ≤ a.toNat + b.toNat := by
  unfold checkedAdd
  split <;> simp <;> omega

theorem checkedMul_eq_some {a b c : UInt64} : checkedMul a b = some c ↔ c.toNat = a.toNat * b.toNat := by
  have hc := c.toNat_lt
  unfold checkedMul
  split <;> rename_i h
  · have hs : (a * b).toNat = a.toNat * b.toNat := by rw [UInt64.toNat_mul]; exact Nat.mod_eq_of_lt h
    rw [Option.some.injEq, ← UInt64.toNat_inj, hs]
    exact eq_comm
  · simp only [reduceCtorEq, false_iff]
    simp only [UInt64.size] at h
    omega

theorem checkedMul_eq_none {a b : UInt64} : checkedMul a b = none ↔ UInt64.size ≤ a.toNat * b.toNat := by
  unfold checkedMul
  split <;> simp <;> omega

theorem checkedSub_eq_some {a b c : UInt64} : checkedSub a b = some c ↔ c.toNat + b.toNat = a.toNat := by
  have hc := c.toNat_lt
  unfold checkedSub
  split <;> rename_i h
  · have hs : (a - b).toNat = a.toNat - b.toNat := UInt64.toNat_sub_of_le _ _ (UInt64.le_iff_toNat_le.2 h)
    rw [Option.some.injEq, ← UInt64.toNat_inj, hs]
    omega
  · simp only [reduceCtorEq, false_iff]
    omega

theorem checkedSub_eq_none {a b : UInt64} : checkedSub a b = none ↔ a.toNat < b.toNat := by
  unfold checkedSub
  split <;> simp <;> omega

theorem toNat_saturatingAdd (a b : UInt64) :
    (saturatingAdd a b).toNat = min (a.toNat + b.toNat) (UInt64.size - 1) := by
  unfold saturatingAdd
  cases h : checkedAdd a b with
  | none => rw [checkedAdd_eq_none] at h; simp only [Option.getD_none, toNat_maxAmount]; omega
  | some c =>
    have hc := c.toNat_lt
    rw [checkedAdd_eq_some] at h
    simp only [Option.getD_some, UInt64.size]
    omega

theorem toNat_saturatingMul (a b : UInt64) :
    (saturatingMul a b).toNat = min (a.toNat * b.toNat) (UInt64.size - 1) := by
  unfold saturatingMul
  cases h : checkedMul a b with
  | none => rw [checkedMul_eq_none] at h; simp only [Option.getD_none, toNat_maxAmount]; omega
  | some c =>
    have hc := c.toNat_lt
    rw [checkedMul_eq_some] at h
    simp only [Option.getD_some, UInt64.size]
    omega

end SharedBuffer
