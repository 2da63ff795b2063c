/-
Pools whose profiles hold less.

When a profile goes, or gives some of its memory back, its pool is derived anew, and that cannot be refused: what fits
does so with lighter holdings, too, and more of the pool is shared. Holdings that are no lighter and no heavier have the
same figures, in whatever order they were derived. A pool without holdings shares all of its size, and a profile without
consumers makes no difference.

Results: `figure_mono`, `Balances.unique`, `figure_nil` and `figure_append_idle`.
-/
import SharedBuffer.Proofs.Accounting.Figures

namespace SharedBuffer

/-! ## Lighter holdings -/

namespace Holding

variable {slots : Nat} {direction : Direction} {h h' : Holding} {hs hs' : List Holding}

theorem Within.refl (h : Holding) : h.Within h := ⟨UInt64.le_refl _, UInt64.le_refl _, List.Subset.refl _⟩

theorem Within.charge_le (hw : h'.Within h) (direction : Direction) : h'.charge direction ≤ h.charge direction := by
  have hsize := UInt64.le_iff_toNat_le.1 hw.size
  have hheadroom := UInt64.le_iff_toNat_le.1 hw.headroom
  cases direction
  · exact Nat.add_le_add hsize hheadroom
  · exact hsize

/-- fewer profiles reserve no more -/
theorem Lighter.of_sublist (h : hs'.Sublist hs) : Lighter slots direction hs' hs :=
  ⟨((h.filter _).map _).sum_le_sum (by simp), fun _ => ((h.filter _).map _).sum_le_sum (by simp)⟩

/-- profiles that each hold no more reserve no more -/
theorem Lighter.of_map {α : Type} {l : List α} {f g : α → Holding} (h : ∀ a ∈ l, (g a).Within (f a)) :
    Lighter slots direction (l.map g) (l.map f) := by
  induction l with
  | nil => exact .of_sublist (List.Sublist.refl _)
  | cons a l ih =>
    have ha := h a List.mem_cons_self
    have hl := ih fun b hb => h b (List.mem_cons_of_mem _ hb)
    refine ⟨?_, fun tile => ?_⟩
    · rw [List.map_cons, List.map_cons, flatNeed_cons, flatNeed_cons]
      refine Nat.add_le_add ?_ hl.flat
      split
      · exact Nat.zero_le _
      · rename_i hsome
        rw [if_neg fun hnone => hsome ?_]
        · exact UInt64.le_iff_toNat_le.1 ha.size
        · rw [List.isEmpty_iff] at hnone ⊢
          exact List.subset_nil.1 (hnone ▸ ha.tiles)
    · rw [List.map_cons, List.map_cons, tileNeed_cons, tileNeed_cons]
      refine Nat.add_le_add ?_ (hl.tile tile)
      split
      · rename_i hit
        have hit' : tile ∈ (f a).hits slots := List.map_subset _ ha.tiles hit
        rw [if_pos hit']
        exact ha.charge_le direction
      · exact Nat.zero_le _

/-- a pool needs no more for lighter holdings -/
theorem Lighter.need_le {hw : Hardware} (h : Lighter hw.tileSlots direction hs' hs) :
    hw.need direction hs' ≤ hw.need direction hs := by
  unfold Hardware.need
  split
  · cases hw.reduction with
    | broadcastMax =>
      refine Nat.mul_le_mul_left _ (Nat.mul_le_mul_left _ (foldl_max_mono fun x hx => ?_))
      obtain ⟨i, hi, rfl⟩ := List.mem_map.1 hx
      exact ⟨_, List.mem_map_of_mem hi, h.tile i⟩
    | perTileSum => exact List.sum_le_sum fun i _ => h.tile i
  · exact h.flat

end Holding

namespace Accounting

open Holding

/-! ## Holding less -/

/-- smaller reservations leave something of a pool, too -/
theorem sharedSize?_mono {hw : Hardware} {size shared : UInt64} {v v' : List UInt64} {f f' : Nat → Nat}
    (hv : v.map UInt64.toNat = (List.range hw.tileSlots).map f)
    (hv' : v'.map UInt64.toNat = (List.range hw.tileSlots).map f') (hle : ∀ i, f' i ≤ f i)
    (h : hw.policy.sharedSize? size v = some shared) : ∃ shared', hw.policy.sharedSize? size v' = some shared' := by
  have hlen' : v'.length = hw.tileSlots := by simpa using congrArg List.length hv'
  have hbelow : List.Forall₂ (· ≤ ·) (v'.map UInt64.toNat) (v.map UInt64.toNat) := by
    rw [hv, hv', List.forall₂_map_left_iff, List.forall₂_map_right_iff, List.forall₂_same]
    exact fun i _ => hle i
  have hleft := Reduction.sharedSize?_antitone hw.policy size (hlen' ▸ tileSlots_lt hw) hbelow
  cases h' : hw.policy.sharedSize? size v' with
  | some shared' => exact ⟨shared', rfl⟩
  | none =>
    rw [h, h'] at hleft
    exact absurd hleft (by simp)

/-- lighter holdings reserve no more where there are no tiles -/
theorem holdFlat_mono {pool : Key} {hs hs' : List Holding} {v : UInt64} (hle : flatNeed hs' ≤ flatNeed hs)
    (h : holdFlat pool 0 hs = .ok v) : ∃ v', holdFlat pool 0 hs' = .ok v' ∧ v'.toNat ≤ v.toNat := by
  have hv := holdFlat_ok h
  have hlt := v.toNat_lt
  rw [UInt64.toNat_zero, Nat.zero_add] at hv
  cases h' : holdFlat pool 0 hs' with
  | error e =>
    have hbig := (holdFlat_error h').2
    simp only [UInt64.toNat_zero, UInt64.size] at hbig
    omega
  | ok v' =>
    have hv' := holdFlat_ok h'
    rw [UInt64.toNat_zero, Nat.zero_add] at hv'
    exact ⟨v', rfl, by omega⟩

/-- nor on any tile -/
theorem exists_holdTiled_of_lighter {pool : Key} {direction : Direction} {hs hs' : List Holding} {n : Nat}
    {v : List UInt64} (hpos : 0 < n) (hlight : Lighter n direction hs' hs)
    (h : holdTiled pool direction (List.replicate n 0) hs = .ok v) :
    ∃ v', holdTiled pool direction (List.replicate n 0) hs' = .ok v' := by
  cases h' : holdTiled pool direction (List.replicate n 0) hs' with
  | ok v' => exact ⟨v', rfl⟩
  | error e =>
    -- the tile that overflows now would have overflowed before
    obtain ⟨-, i, hi, hbig⟩ := holdTiled_error (by simpa using hpos) h'
    have hv := holdTiled_ok h
    rw [List.length_replicate] at hi hv
    simp only [List.getElem_replicate, List.length_replicate, UInt64.toNat_zero, Nat.zero_add] at hbig
    have hiv : i < v.length := by rw [hv.length_eq, List.length_replicate]; exact hi
    have hvi := hv.getElem hiv (by simpa using hi)
    rw [List.getElem_replicate, UInt64.toNat_zero, Nat.zero_add] at hvi
    have hle := hlight.tile i
    have hlt := v[i].toNat_lt
    simp only [UInt64.size] at hbig
    omega

/-- what fits does so with lighter holdings -/
theorem exists_figure_of_lighter {hw : Hardware} {pool : Key} {size : UInt64} {direction : Direction}
    {hs hs' : List Holding} {t : Totals} (hlight : Lighter hw.tileSlots direction hs' hs)
    (h : figure hw pool size direction hs = .ok t) : ∃ t', figure hw pool size direction hs' = .ok t' := by
  cases ht : hw.isTiled with
  | true =>
    obtain ⟨v, shared, hv, hshared, -⟩ | ⟨v, -, -, reason, hf⟩ | ⟨e, -, hf⟩ :=
      figure_tiled hw pool size direction hs ht
    · obtain ⟨v', hv'⟩ := exists_holdTiled_of_lighter (tileSlots_eq ht).2 hlight hv
      have hr := holdTiled_ok hv
      have hr' := holdTiled_ok hv'
      rw [List.length_replicate] at hr hr'
      obtain ⟨shared', hshared'⟩ := sharedSize?_mono (raised_replicate hr) (raised_replicate hr')
        hlight.tile hshared
      unfold figure
      rw [if_pos ht]
      simp only [hv', bind, Except.bind, hshared']
      exact ⟨_, rfl⟩
    · cases hf.symm.trans h
    · cases hf.symm.trans h
  | false =>
    obtain ⟨v, shared, hv, hshared, -⟩ | ⟨v, -, -, reason, hf⟩ | ⟨e, -, hf⟩ :=
      figure_flat hw pool size direction hs ht
    · obtain ⟨v', hv', hle⟩ := holdFlat_mono hlight.flat hv
      rw [checkedSub_eq_some] at hshared
      have hfit : v'.toNat ≤ size.toNat := by omega
      unfold figure
      rw [if_neg (by simp [ht])]
      simp [hv', bind, Except.bind, checkedSub, hfit]
    · cases hf.symm.trans h
    · cases hf.symm.trans h

/-- **Lighter holdings fit, too**, and leave no less to share. -/
theorem figure_mono {hw : Hardware} {pool : Key} {size : UInt64} {direction : Direction} {hs hs' : List Holding}
    {t : Totals} (hlight : Lighter hw.tileSlots direction hs' hs) (h : figure hw pool size direction hs = .ok t) :
    ∃ t', figure hw pool size direction hs' = .ok t' ∧ t.sharedSize ≤ t'.sharedSize := by
  obtain ⟨t', h'⟩ := exists_figure_of_lighter hlight h
  refine ⟨t', h', UInt64.le_iff_toNat_le.2 ?_⟩
  have hneed := hlight.need_le
  have hbefore := (figure_ok h).shared_add_need
  have hafter := (figure_ok h').shared_add_need
  omega

/-- **Holdings that take as much have the same figures.** -/
theorem Balances.unique {hw : Hardware} {direction : Direction} {hs hs' : List Holding} {size : UInt64} {t t' : Totals}
    (h : Balances hw direction hs size t) (h' : Balances hw direction hs' size t')
    (hle : Lighter hw.tileSlots direction hs hs') (hge : Lighter hw.tileSlots direction hs' hs) : t = t' := by
  have hneed : hw.need direction hs = hw.need direction hs' := Nat.le_antisymm hle.need_le hge.need_le
  have htiles : tileNeeds hw.tileSlots direction hs = tileNeeds hw.tileSlots direction hs' :=
    List.map_congr_left fun i _ => Nat.le_antisymm (hle.tile i) (hge.tile i)
  have hinj : ∀ v v' : List UInt64, v.map UInt64.toNat = v'.map UInt64.toNat → v = v' := fun v v' =>
    (List.map_injective_iff.2 fun a b => UInt64.toNat_inj.1).eq_iff.1
  have hshared : t.sharedSize = t'.sharedSize := by
    have hsum := h.shared_add_need
    have hsum' := h'.shared_add_need
    rw [← UInt64.toNat_inj]
    omega
  obtain ⟨shared, tiles, total⟩ := t
  obtain ⟨shared', tiles', total'⟩ := t'
  unfold Balances at h h'
  rw [Totals.mk.injEq]
  cases ht : hw.isTiled with
  | true =>
    simp only [ht, if_true] at h h'
    rw [htiles] at h
    refine ⟨hshared, hinj _ _ (h.1.trans h'.1.symm), UInt64.toNat_inj.1 ?_⟩
    cases hr : hw.reduction <;> simp only [hr] at h h' <;> exact h.2.1.trans h'.2.1.symm
  | false =>
    simp only [ht] at h h'
    exact ⟨hshared, h.1.trans h'.1.symm, h.2.1.trans h'.2.1.symm⟩

/-! ## Holding nothing -/

/-- the figures of a pool without holdings: all of it is shared -/
theorem figure_nil (hw : Hardware) (pool : Key) (size : UInt64) (direction : Direction) :
    figure hw pool size direction [] = .ok ⟨size, List.replicate hw.tileSlots 0, 0⟩ := by
  unfold figure
  cases ht : hw.isTiled with
  | true =>
    have hlen : (List.replicate hw.tileSlots (0 : UInt64)).length < UInt64.size :=
      (List.length_replicate ..).trans_lt (tileSlots_lt hw)
    have hzero := Reduction.exactTotal_zero hw.policy hw.tileSlots
    have hshared : hw.policy.sharedSize? size (List.replicate hw.tileSlots 0) = some size := by
      rw [Reduction.sharedSize?_eq_some hlen, hzero]
      exact ⟨by decide, rfl⟩
    have htotal : hw.policy.total (List.replicate hw.tileSlots 0) = 0 := by
      rw [← UInt64.toNat_inj, Reduction.toNat_total hlen, hzero]
      rfl
    simp only [if_true, holdTiled, bind, Except.bind, hshared, htotal]
  | false =>
    have hslots : hw.tileSlots = 0 := by simp [Hardware.tileSlots, ht]
    have hsub : checkedSub size 0 = some size := checkedSub_eq_some.2 (by simp)
    simp [holdFlat, bind, Except.bind, hsub, hslots]

/-- a profile without consumers takes nothing -/
theorem figure_append_idle (hw : Hardware) (pool : Key) (size : UInt64) (direction : Direction) (hs : List Holding)
    {h : Holding} (hidle : h.tiles = []) :
    figure hw pool size direction (hs ++ [h]) = figure hw pool size direction hs := by
  have hflat : ∀ hs r, holdFlat pool r (hs ++ [h]) = holdFlat pool r hs := by
    intro hs
    induction hs with
    | nil => exact fun r => by simp [holdFlat, hidle]
    | cons x hs ih => exact fun r => by simp only [List.cons_append, holdFlat, ih]
  have htiled : ∀ hs r, holdTiled pool direction r (hs ++ [h]) = holdTiled pool direction r hs := by
    intro hs
    induction hs with
    | nil => exact fun r => by simp [holdTiled, hidle]
    | cons x hs ih => exact fun r => by simp only [List.cons_append, holdTiled, ih]
  unfold figure
  rw [hflat, htiled]

end Accounting

end SharedBuffer
