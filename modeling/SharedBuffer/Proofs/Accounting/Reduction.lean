/-
What the tiles of a pool reserve together, in natural numbers.

The reservations of a pool's tiles are added up twice: for the total that is shown, which stops at the largest amount,
and for what is taken from the pool, which is refused where a step of it does not fit. `exactTotal` is the number both
of them compute, and `copies` says how many times over the pool holds it. A list of reservations is taken to be shorter
than there are 64-bit numbers, as its length enters the product of a broadcast.

Results:
- `toNat_total`: the total that is shown is the exact one, up to the largest amount;
- `sharedSize?_eq_some`, `sharedSize?_eq_none`: what is left of the pool is the exact difference, and nothing is left
  only where an exact number does not fit;
- `exactTotal_perm`, `exactTotal_mono`: the order of the tiles does not matter, and more reserved is more in total;
- `pool_conserved`: so no byte of a pool is lost or made up by either rule.
-/
import SharedBuffer.Proofs.Accounting.Sums

namespace SharedBuffer

namespace Reduction

/-- how many times over a pool holds what its tiles reserve -/
def copies : Reduction → Nat
  | broadcastMax replication => replication.toNat
  | perTileSum => 1

/-- what the tiles of a pool reserve together -/
def exactTotal : Reduction → List UInt64 → Nat
  | broadcastMax _, reserved => reserved.length * (reserved.map UInt64.toNat).foldl max 0
  | perTileSum, reserved => (reserved.map UInt64.toNat).sum

variable {policy : Reduction} {size shared : UInt64} {reserved permuted grown : List UInt64}

/-! ## The two totals -/

theorem toNat_total (hlen : reserved.length < UInt64.size) :
    (policy.total reserved).toNat = min (policy.exactTotal reserved) (UInt64.size - 1) := by
  cases policy with
  | broadcastMax replication =>
    rw [total, toNat_saturatingMul, UInt64.toNat_ofNat_of_lt' hlen, toNat_largest, Nat.mul_comm]
    rfl
  | perTileSum =>
    rw [total, toNat_foldl_saturatingAdd, UInt64.toNat_zero, Nat.zero_add]
    rfl

/-- a total that is a 64-bit number is shown as it is -/
theorem toNat_total_of_lt (hlen : reserved.length < UInt64.size) (hfit : policy.exactTotal reserved < UInt64.size) :
    (policy.total reserved).toNat = policy.exactTotal reserved := by
  rw [toNat_total hlen]
  exact Nat.min_eq_left (Nat.le_pred_of_lt hfit)

/-- the total that is taken from the pool, before it is multiplied -/
theorem checkedMul_largest (hlen : reserved.length < UInt64.size) (replication tiles : UInt64) :
    checkedMul (largest reserved) (UInt64.ofNat reserved.length) = some tiles ↔
      tiles.toNat = (broadcastMax replication).exactTotal reserved := by
  rw [checkedMul_eq_some, UInt64.toNat_ofNat_of_lt' hlen, toNat_largest, Nat.mul_comm]
  rfl

/-! ## What is left of the pool -/

/-- the rest of the pool: what is shared and what is reserved are its size -/
theorem sharedSize?_eq_some (hlen : reserved.length < UInt64.size) :
    policy.sharedSize? size reserved = some shared ↔ policy.exactTotal reserved < UInt64.size ∧
      shared.toNat + policy.copies * policy.exactTotal reserved = size.toNat := by
  cases policy with
  | broadcastMax replication =>
    simp only [sharedSize?, Option.bind_eq_bind, Option.bind_eq_some_iff, checkedMul_largest hlen replication,
      checkedMul_eq_some, checkedSub_eq_some, copies]
    constructor
    · rintro ⟨tiles, htiles, held, hheld, hshared⟩
      refine ⟨htiles ▸ tiles.toNat_lt, ?_⟩
      rw [← htiles, Nat.mul_comm, ← hheld]
      exact hshared
    · rintro ⟨hfit, hshared⟩
      obtain ⟨tiles, htiles⟩ := exists_toNat_eq hfit
      rw [← htiles] at hshared ⊢
      obtain ⟨held, hheld⟩ : ∃ held : UInt64, held.toNat = replication.toNat * tiles.toNat :=
        exists_toNat_eq (lt_of_le_of_lt (hshared ▸ Nat.le_add_left _ _) size.toNat_lt)
      refine ⟨tiles, rfl, held, hheld.trans (Nat.mul_comm ..), ?_⟩
      rw [hheld]
      exact hshared
  | perTileSum =>
    simp only [sharedSize?, Option.bind_eq_bind, Option.bind_eq_some_iff, checkedSum_eq_some, checkedSub_eq_some,
      copies, exactTotal, Nat.one_mul]
    constructor
    · rintro ⟨held, hheld, hshared⟩
      exact ⟨hheld ▸ held.toNat_lt, hheld ▸ hshared⟩
    · rintro ⟨hfit, hshared⟩
      obtain ⟨held, hheld⟩ := exists_toNat_eq hfit
      exact ⟨held, hheld, hheld ▸ hshared⟩

/-- nothing is left where the total is no 64-bit number, or is more than the pool has -/
theorem sharedSize?_eq_none (hlen : reserved.length < UInt64.size) :
    policy.sharedSize? size reserved = none ↔
      UInt64.size ≤ policy.exactTotal reserved ∨ size.toNat < policy.copies * policy.exactTotal reserved := by
  rw [Option.eq_none_iff_forall_ne_some]
  simp only [ne_eq, sharedSize?_eq_some hlen]
  constructor
  · intro h
    by_contra hfit
    rw [not_or, Nat.not_le, Nat.not_lt] at hfit
    obtain ⟨shared, hshared⟩ := exists_toNat_eq
      (Nat.lt_of_le_of_lt (Nat.sub_le size.toNat (policy.copies * policy.exactTotal reserved)) size.toNat_lt)
    exact h shared ⟨hfit.1, hshared ▸ Nat.sub_add_cancel hfit.2⟩
  · rintro h shared ⟨hfit, hshared⟩
    omega

/-- a pool that is taken from at all has nothing left only where the reservations are more than it has -/
theorem sharedSize?_eq_none_of_pos (hlen : reserved.length < UInt64.size) (hpos : 0 < policy.copies) :
    policy.sharedSize? size reserved = none ↔ size.toNat < policy.copies * policy.exactTotal reserved := by
  rw [sharedSize?_eq_none hlen, or_iff_right_of_imp]
  intro hbig
  calc size.toNat < UInt64.size := size.toNat_lt
    _ ≤ policy.exactTotal reserved := hbig
    _ ≤ policy.copies * policy.exactTotal reserved := Nat.le_mul_of_pos_left _ hpos

/-! ## Other reservations -/

theorem exactTotal_perm (h : permuted.Perm reserved) : policy.exactTotal permuted = policy.exactTotal reserved := by
  have hmap := h.map UInt64.toNat
  cases policy with
  | broadcastMax replication =>
    have hmax : (permuted.map UInt64.toNat).foldl max 0 = (reserved.map UInt64.toNat).foldl max 0 :=
      Nat.le_antisymm (foldl_max_mono fun x hx => ⟨x, hmap.mem_iff.1 hx, Nat.le_refl x⟩)
        (foldl_max_mono fun x hx => ⟨x, hmap.mem_iff.2 hx, Nat.le_refl x⟩)
    rw [exactTotal, exactTotal, h.length_eq, hmax]
  | perTileSum => exact hmap.sum_eq

theorem exactTotal_mono (policy : Reduction)
    (h : List.Forall₂ (· ≤ ·) (reserved.map UInt64.toNat) (grown.map UInt64.toNat)) :
    policy.exactTotal reserved ≤ policy.exactTotal grown := by
  cases policy with
  | broadcastMax replication =>
    have hlen : reserved.length = grown.length := by simpa using h.length_eq
    rw [exactTotal, exactTotal, hlen]
    refine Nat.mul_le_mul_left _ (foldl_max_mono fun x hx => ?_)
    obtain ⟨i, hi, rfl⟩ := List.getElem_of_mem hx
    exact ⟨_, List.getElem_mem (h.length_eq ▸ hi), List.Forall₂.get h hi _⟩
  | perTileSum => exact h.sum_le_sum

/-- tiles that reserve nothing take nothing -/
theorem exactTotal_zero (policy : Reduction) (n : Nat) : policy.exactTotal (List.replicate n 0) = 0 := by
  cases policy with
  | broadcastMax replication =>
    have hmax : (List.replicate n 0).foldl max 0 = 0 := by
      induction n with
      | zero => rfl
      | succ n ih => exact ih
    rw [exactTotal, List.map_replicate, UInt64.toNat_zero, hmax, Nat.mul_zero]
  | perTileSum => simp [exactTotal]

/-- what is shared does not grow with what is reserved -/
theorem sharedSize?_antitone (policy : Reduction) (size : UInt64) (hlen : reserved.length < UInt64.size)
    (h : List.Forall₂ (· ≤ ·) (reserved.map UInt64.toNat) (grown.map UInt64.toNat)) :
    policy.sharedSize? size grown ≤ policy.sharedSize? size reserved := by
  have hgrown : grown.length < UInt64.size := by
    have hlength : reserved.length = grown.length := by simpa using h.length_eq
    exact hlength ▸ hlen
  have htotal := exactTotal_mono policy h
  have htaken := Nat.mul_le_mul_left policy.copies htotal
  cases hafter : policy.sharedSize? size grown with
  | none => exact Option.none_le
  | some after =>
    obtain ⟨hfit, hshared⟩ := (sharedSize?_eq_some hgrown).1 hafter
    cases hbefore : policy.sharedSize? size reserved with
    | none =>
      rw [sharedSize?_eq_none hlen] at hbefore
      omega
    | some before =>
      obtain ⟨-, hshared'⟩ := (sharedSize?_eq_some hlen).1 hbefore
      rw [Option.some_le_some, UInt64.le_iff_toNat_le]
      omega

/-- **No byte of a pool is lost or made up**, however many tiles it has, as long as 64 bits can count them. What is left
of a pool and what its tiles reserve, as many times over as the pool holds it, are its size, with a total that is exact.
Nothing is left exactly where the reservations are more than the pool has. Both figures are the same in any order of the
tiles, and no more is left as more is reserved. -/
theorem pool_conserved (policy : Reduction) (size : UInt64) {reserved : List UInt64}
    (hlen : reserved.length < UInt64.size) :
    (∀ shared, policy.sharedSize? size reserved = some shared →
      policy.exactTotal reserved < UInt64.size ∧ (policy.total reserved).toNat = policy.exactTotal reserved ∧
        shared.toNat + policy.copies * (policy.total reserved).toNat = size.toNat) ∧
    (0 < policy.copies →
      (policy.sharedSize? size reserved = none ↔ size.toNat < policy.copies * policy.exactTotal reserved)) ∧
    (∀ permuted : List UInt64, permuted.Perm reserved →
      policy.total permuted = policy.total reserved ∧
        policy.sharedSize? size permuted = policy.sharedSize? size reserved) ∧
    ∀ grown : List UInt64, List.Forall₂ (· ≤ ·) reserved grown →
      policy.sharedSize? size grown ≤ policy.sharedSize? size reserved := by
  refine ⟨fun shared h => ?_, sharedSize?_eq_none_of_pos hlen, fun permuted h => ?_, fun grown h => ?_⟩
  · obtain ⟨hfit, hshared⟩ := (sharedSize?_eq_some hlen).1 h
    rw [toNat_total_of_lt hlen hfit]
    exact ⟨hfit, rfl, hshared⟩
  · have hlen' : permuted.length < UInt64.size := h.length_eq ▸ hlen
    refine ⟨?_, Option.ext fun shared => ?_⟩
    · rw [← UInt64.toNat_inj, toNat_total hlen', toNat_total hlen, exactTotal_perm h]
    · rw [sharedSize?_eq_some hlen', sharedSize?_eq_some hlen, exactTotal_perm h]
  · refine sharedSize?_antitone policy size hlen ?_
    rw [List.forall₂_map_left_iff, List.forall₂_map_right_iff]
    exact h.imp fun _ _ => UInt64.le_iff_toNat_le.1

/-- one tile of four reserves, in two slices: the pool holds eight times as much, to the byte -/
theorem pool_conserved_two_slices :
    [5, 0, 0, 0].length < UInt64.size ∧ 0 < (broadcastMax 2).copies ∧
    (broadcastMax 2).sharedSize? 40 [5, 0, 0, 0] = some 0 ∧ ((broadcastMax 2).total [5, 0, 0, 0]).toNat = 20 ∧
    (broadcastMax 2).sharedSize? 39 [5, 0, 0, 0] = none ∧
    (broadcastMax 2).sharedSize? 40 [0, 0, 5, 0] = some 0 ∧
    (broadcastMax 2).sharedSize? 40 [5, 6, 0, 0] ≤ some 0 := by
  have hlen : ([5, 0, 0, 0] : List UInt64).length < UInt64.size := by decide
  have hshared : (broadcastMax 2).sharedSize? 40 [5, 0, 0, 0] = some 0 := by decide
  obtain ⟨hexact, -, hperm, hgrown⟩ := pool_conserved (broadcastMax 2) 40 hlen
  refine ⟨hlen, by decide, hshared, ?_, ?_, ?_, ?_⟩
  · exact (hexact 0 hshared).2.1.trans (by decide)
  · exact ((pool_conserved (broadcastMax 2) 39 hlen).2.1 (by decide)).2 (by decide)
  · exact (hperm [0, 0, 5, 0] (by decide)).2.trans hshared
  · exact hshared ▸ hgrown [5, 6, 0, 0] (by decide)

end Reduction

end SharedBuffer
