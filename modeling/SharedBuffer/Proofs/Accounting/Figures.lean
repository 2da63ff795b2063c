/-
The figures of a pool as a function of what its profiles hold.

Of a profile only three things matter to its pool: its size, its headroom, and the tiles of its consumers. `figure`
derives a pool's figures from these alone, with the same checked steps in the same order as `Accounting.totals`.
`need` says in natural numbers what the holdings take from the pool.

Results:
- `figure_ok`: figures that are derived are exact, `Balances`;
- `figure_error`: figures are refused only where the holdings need more than the pool's size;
- `insufficient_of_figure`: and always as insufficient resources;
- `exists_figure_iff`: so they are derived exactly where the need is met.
-/
import SharedBuffer.Accounting
import SharedBuffer.Proofs.Accounting.Reduction

namespace SharedBuffer

/-! ## Holdings -/

/-- what a profile reserves and where: its size, its headroom, and the tile of each of its consumers -/
structure Holding where
  size : UInt64
  headroom : UInt64
  tiles : List UInt32
deriving DecidableEq

namespace Holding

/-- what the profile takes from each tile it is on -/
def charge (direction : Direction) (h : Holding) : Nat :=
  match direction with
  | .ingress => h.size.toNat + h.headroom.toNat
  | .egress => h.size.toNat

/-- the entries of a list of tile reservations that the profile is charged to -/
def hits (slots : Nat) (h : Holding) : List Nat := h.tiles.map fun tile => min tile.toNat (slots - 1)

/-- what some profiles reserve where there are no tiles -/
def flatNeed (hs : List Holding) : Nat := ((hs.filter fun h => !h.tiles.isEmpty).map fun h => h.size.toNat).sum

/-- what some profiles reserve on a tile -/
def tileNeed (slots : Nat) (direction : Direction) (hs : List Holding) (tile : Nat) : Nat :=
  ((hs.filter fun h => tile ∈ h.hits slots).map (charge direction)).sum

/-- what some profiles reserve on each tile -/
def tileNeeds (slots : Nat) (direction : Direction) (hs : List Holding) : List Nat :=
  (List.range slots).map (tileNeed slots direction hs)

theorem flatNeed_cons (h : Holding) (hs : List Holding) :
    flatNeed (h :: hs) = (if h.tiles.isEmpty then 0 else h.size.toNat) + flatNeed hs := by
  unfold flatNeed
  cases hx : h.tiles.isEmpty <;> simp [hx]

theorem tileNeed_cons (slots : Nat) (direction : Direction) (h : Holding) (hs : List Holding) (tile : Nat) :
    tileNeed slots direction (h :: hs) tile =
      (if tile ∈ h.hits slots then h.charge direction else 0) + tileNeed slots direction hs tile := by
  unfold tileNeed
  rw [List.filter_cons]
  by_cases ht : tile ∈ h.hits slots <;> simp [ht]

theorem tileNeed_cons_of_isEmpty (slots : Nat) (direction : Direction) {h : Holding} (hs : List Holding) (tile : Nat)
    (he : h.tiles.isEmpty = true) : tileNeed slots direction (h :: hs) tile = tileNeed slots direction hs tile := by
  rw [List.isEmpty_iff] at he
  simp [tileNeed_cons, hits, he]

/-- a holding that takes no more than another, nor from other tiles -/
structure Within (h' h : Holding) : Prop where
  size : h'.size ≤ h.size
  headroom : h'.headroom ≤ h.headroom
  tiles : h'.tiles ⊆ h.tiles

/-- some holdings that take no more than others, together and from each tile -/
structure Lighter (slots : Nat) (direction : Direction) (hs' hs : List Holding) : Prop where
  flat : flatNeed hs' ≤ flatNeed hs
  tile : ∀ tile, tileNeed slots direction hs' tile ≤ tileNeed slots direction hs tile

end Holding

/-- what some profiles take from their pool -/
def Hardware.need (hw : Hardware) (direction : Direction) (hs : List Holding) : Nat :=
  if hw.isTiled then
    let tiles := Holding.tileNeeds hw.tileSlots direction hs
    match hw.reduction with
    | .broadcastMax => hw.replication.toNat * (hw.tileSlots * tiles.foldl max 0)
    | .perTileSum => tiles.sum
  else Holding.flatNeed hs

namespace Accounting

/-! ## The figures of holdings -/

/-- what some profiles reserve where there are no tiles, on top of what is reserved already -/
def holdFlat (pool : Key) (reserved : UInt64) : List Holding → Except Fault UInt64
  | [] => .ok reserved
  | h :: rest =>
    if h.tiles.isEmpty then holdFlat pool reserved rest
    else do holdFlat pool (← orOverflow pool (checkedAdd reserved h.size)) rest

/-- what some profiles reserve on each tile, on top of what is reserved already -/
def holdTiled (pool : Key) (direction : Direction) (reserved : List UInt64) :
    List Holding → Except Fault (List UInt64)
  | [] => .ok reserved
  | h :: rest =>
    if h.tiles.isEmpty then holdTiled pool direction reserved rest
    else do
      let charge ← orOverflow pool (tileCharge direction h.size h.headroom)
      holdTiled pool direction (← orOverflow pool (chargeTiles charge (h.hits reserved.length) reserved)) rest

/-- the figures of a pool of some size whose profiles hold so much -/
def figure (hw : Hardware) (pool : Key) (size : UInt64) (direction : Direction) (hs : List Holding) :
    Except Fault Totals :=
  if hw.isTiled then do
    let reserved ← holdTiled pool direction (List.replicate hw.tileSlots 0) hs
    match hw.policy.sharedSize? size reserved with
    | some sharedSize => .ok ⟨sharedSize, reserved, hw.policy.total reserved⟩
    | none => .error (.insufficientResources ("pool " ++ pool.text ++ " of " ++ toString size.toNat ++
        " bytes cannot hold tile reservations " ++ amountsText reserved ++
        " (" ++ hw.policy.name ++ ")"))
  else do
    let reserved ← holdFlat pool 0 hs
    match checkedSub size reserved with
    | some sharedSize => .ok { sharedSize }
    | none => .error (.insufficientResources ("pool " ++ pool.text ++ " of " ++ toString size.toNat ++
        " bytes cannot hold " ++ toString reserved.toNat ++ " reserved bytes"))

/-- figures that account for every byte of a pool: what is shared and what is reserved is its size -/
def Balances (hw : Hardware) (direction : Direction) (hs : List Holding) (size : UInt64) (t : Totals) : Prop :=
  if hw.isTiled then
    let tiles := Holding.tileNeeds hw.tileSlots direction hs
    t.tileReserved.map UInt64.toNat = tiles ∧
      match hw.reduction with
      | .broadcastMax => t.tilesTotalReserved.toNat = hw.tileSlots * tiles.foldl max 0 ∧
          t.sharedSize.toNat + hw.replication.toNat * t.tilesTotalReserved.toNat = size.toNat
      | .perTileSum => t.tilesTotalReserved.toNat = tiles.sum ∧
          t.sharedSize.toNat + t.tilesTotalReserved.toNat = size.toNat
  else t.tileReserved = [] ∧ t.tilesTotalReserved = 0 ∧ t.sharedSize.toNat + Holding.flatNeed hs = size.toNat

/-! ## Without tiles -/

theorem holdFlat_ok {pool : Key} {r v : UInt64} {hs : List Holding} (h : holdFlat pool r hs = .ok v) :
    v.toNat = r.toNat + Holding.flatNeed hs := by
  induction hs generalizing r with
  | nil =>
    cases h
    simp [Holding.flatNeed]
  | cons x hs ih =>
    rw [holdFlat] at h
    cases hx : x.tiles.isEmpty with
    | true =>
      rw [hx] at h
      rw [Holding.flatNeed_cons, if_pos hx, Nat.zero_add]
      exact ih h
    | false =>
      rw [hx] at h
      cases ha : checkedAdd r x.size with
      | none => rw [ha] at h; cases h
      | some b =>
        rw [ha] at h
        rw [checkedAdd_eq_some] at ha
        rw [Holding.flatNeed_cons, if_neg (by simp [hx])]
        calc v.toNat = b.toNat + Holding.flatNeed hs := ih h
          _ = r.toNat + x.size.toNat + Holding.flatNeed hs := by rw [ha]
          _ = r.toNat + (x.size.toNat + Holding.flatNeed hs) := Nat.add_assoc ..

theorem holdFlat_error {pool : Key} {r : UInt64} {hs : List Holding} {e : Fault} (h : holdFlat pool r hs = .error e) :
    e = overflow pool ∧ UInt64.size ≤ r.toNat + Holding.flatNeed hs := by
  induction hs generalizing r with
  | nil => cases h
  | cons x hs ih =>
    rw [holdFlat] at h
    cases hx : x.tiles.isEmpty with
    | true =>
      rw [hx] at h
      rw [Holding.flatNeed_cons, if_pos hx, Nat.zero_add]
      exact ih h
    | false =>
      rw [hx] at h
      rw [Holding.flatNeed_cons, if_neg (by simp [hx])]
      cases ha : checkedAdd r x.size with
      | none =>
        rw [ha] at h
        cases h
        rw [checkedAdd_eq_none] at ha
        exact ⟨rfl, by omega⟩
      | some b =>
        rw [ha] at h
        obtain ⟨he, hb⟩ := ih h
        rw [checkedAdd_eq_some] at ha
        exact ⟨he, by omega⟩

/-! ## With tiles -/

theorem mapM_charge_some {c : UInt64} {hit : List Nat} {l v : List UInt64} {k : Nat}
    (h : (l.zipIdx k).mapM (fun x => if x.2 ∈ hit then checkedAdd x.1 c else some x.1) = some v) :
    v.map UInt64.toNat = (l.zipIdx k).map fun x => x.1.toNat + if x.2 ∈ hit then c.toNat else 0 := by
  induction l generalizing k v with
  | nil =>
    cases h
    rfl
  | cons a l ih =>
    rw [List.zipIdx_cons, List.mapM_cons] at h
    simp only [Option.bind_eq_bind, Option.bind_eq_some_iff, Option.pure_def, Option.some.injEq] at h
    obtain ⟨b, hb, w, hw, rfl⟩ := h
    rw [List.zipIdx_cons, List.map_cons, List.map_cons, ih hw]
    congr 1
    split at hb
    · rename_i hk
      rw [checkedAdd_eq_some] at hb
      simp [hb, hk]
    · rename_i hk
      rw [Option.some.injEq] at hb
      simp [hb, hk]

theorem mapM_charge_none {c : UInt64} {hit : List Nat} {l : List UInt64} {k : Nat}
    (h : (l.zipIdx k).mapM (fun x => if x.2 ∈ hit then checkedAdd x.1 c else some x.1) = none) :
    ∃ x ∈ l.zipIdx k, x.2 ∈ hit ∧ UInt64.size ≤ x.1.toNat + c.toNat := by
  induction l generalizing k with
  | nil => cases h
  | cons a l ih =>
    rw [List.zipIdx_cons, List.mapM_cons] at h
    rw [List.zipIdx_cons]
    cases hb : (if k ∈ hit then checkedAdd a c else some a) with
    | none =>
      split at hb
      · rename_i hk
        exact ⟨(a, k), by simp, hk, checkedAdd_eq_none.1 hb⟩
      · cases hb
    | some b =>
      simp only [hb, Option.bind_eq_bind, Option.bind_some, Option.bind_eq_none_iff] at h
      cases hl : (l.zipIdx (k + 1)).mapM (fun x => if x.2 ∈ hit then checkedAdd x.1 c else some x.1) with
      | none =>
        obtain ⟨x, hx, hc⟩ := ih hl
        exact ⟨x, List.mem_cons_of_mem _ hx, hc⟩
      | some w => exact absurd (h w hl) (by simp)

/-- each entry is raised by what a function says of its position -/
def Raised (f : Nat → Nat) (r v : List UInt64) : Prop := v.map UInt64.toNat = r.zipIdx.map fun x => x.1.toNat + f x.2

namespace Raised

variable {f g : Nat → Nat} {r v w : List UInt64}

theorem length_eq (h : Raised f r v) : v.length = r.length := by
  simpa using congrArg List.length h

theorem getElem (h : Raised f r v) {i : Nat} (hv : i < v.length) (hr : i < r.length) :
    v[i].toNat = r[i].toNat + f i := by
  have := congrArg (fun l : List Nat => l[i]?) h
  simpa [hv, hr, List.getElem?_eq_getElem] using this

theorem of_getElem (hl : v.length = r.length)
    (h : ∀ i (hv : i < v.length) (hr : i < r.length), v[i].toNat = r[i].toNat + f i) : Raised f r v := by
  refine List.ext_getElem (by simp [hl]) fun i h1 h2 => ?_
  simp only [List.length_map] at h1
  simp [h i h1 (hl ▸ h1)]

theorem trans (h : Raised f r v) (h' : Raised g v w) : Raised (fun i => f i + g i) r w := by
  refine of_getElem (h'.length_eq.trans h.length_eq) fun i hw hr => ?_
  have hv : i < v.length := h.length_eq ▸ hr
  calc w[i].toNat = v[i].toNat + g i := h'.getElem hw hv
    _ = r[i].toNat + f i + g i := by rw [h.getElem hv hr]
    _ = r[i].toNat + (f i + g i) := Nat.add_assoc ..

end Raised

theorem tileCharge_eq_some {direction : Direction} {h : Holding} {c : UInt64} :
    tileCharge direction h.size h.headroom = some c ↔ c.toNat = h.charge direction := by
  cases direction with
  | ingress => exact checkedAdd_eq_some
  | egress => simp [tileCharge, Holding.charge, ← UInt64.toNat_inj, eq_comm]

theorem tileCharge_eq_none {direction : Direction} {h : Holding} :
    tileCharge direction h.size h.headroom = none → UInt64.size ≤ h.charge direction := by
  cases direction with
  | ingress => exact checkedAdd_eq_none.1
  | egress => simp [tileCharge]

theorem chargeTiles_eq_some {c : UInt64} {hit : List Nat} {r v : List UInt64} (h : chargeTiles c hit r = some v) :
    Raised (fun i => if i ∈ hit then c.toNat else 0) r v := mapM_charge_some h

theorem holdTiled_ok {pool : Key} {direction : Direction} {r v : List UInt64} {hs : List Holding}
    (h : holdTiled pool direction r hs = .ok v) : Raised (Holding.tileNeed r.length direction hs) r v := by
  induction hs generalizing r with
  | nil =>
    cases h
    exact Raised.of_getElem rfl fun i _ _ => rfl
  | cons x hs ih =>
    rw [holdTiled] at h
    cases hx : x.tiles.isEmpty with
    | true =>
      rw [hx] at h
      have hv := ih h
      refine Raised.of_getElem hv.length_eq fun i h1 h2 => ?_
      rw [hv.getElem h1 h2, Holding.tileNeed_cons_of_isEmpty _ _ _ _ hx]
    | false =>
      rw [hx] at h
      cases hc : tileCharge direction x.size x.headroom with
      | none => rw [hc] at h; cases h
      | some c =>
        cases hb : chargeTiles c (x.hits r.length) r with
        | none =>
          simp only [hc, orOverflow, bind, Except.bind, hb] at h
          cases h
        | some b =>
          simp only [hc, orOverflow, bind, Except.bind, hb] at h
          have hr := chargeTiles_eq_some hb
          have hv := hr.trans (ih h)
          rw [tileCharge_eq_some] at hc
          refine Raised.of_getElem hv.length_eq fun i h1 h2 => ?_
          rw [hv.getElem h1 h2, Holding.tileNeed_cons, hr.length_eq, hc]

/-- reservations that no 64-bit amount can hold are more than that on some tile -/
theorem holdTiled_error {pool : Key} {direction : Direction} {r : List UInt64} {hs : List Holding} {e : Fault}
    (hpos : 0 < r.length) (h : holdTiled pool direction r hs = .error e) :
    e = overflow pool ∧ ∃ i, ∃ hi : i < r.length,
      UInt64.size ≤ r[i].toNat + Holding.tileNeed r.length direction hs i := by
  induction hs generalizing r with
  | nil => cases h
  | cons x hs ih =>
    rw [holdTiled] at h
    cases hx : x.tiles.isEmpty with
    | true =>
      rw [hx] at h
      obtain ⟨he, i, hi, hs⟩ := ih hpos h
      exact ⟨he, i, hi, by rwa [Holding.tileNeed_cons_of_isEmpty _ _ _ _ hx]⟩
    | false =>
      rw [hx] at h
      cases hc : tileCharge direction x.size x.headroom with
      | none =>
        rw [hc] at h
        cases h
        obtain ⟨tile, rest, htiles⟩ := List.exists_cons_of_ne_nil (fun e : x.tiles = [] => by simp [e] at hx)
        have hmem : min tile.toNat (r.length - 1) ∈ x.hits r.length := by simp [Holding.hits, htiles]
        have hbig := tileCharge_eq_none hc
        refine ⟨rfl, min tile.toNat (r.length - 1), by omega, ?_⟩
        rw [Holding.tileNeed_cons, if_pos hmem]
        omega
      | some c =>
        cases hb : chargeTiles c (x.hits r.length) r with
        | none =>
          simp only [hc, orOverflow, bind, Except.bind, hb] at h
          cases h
          obtain ⟨⟨a, i⟩, ha, hit, hbig⟩ := mapM_charge_none hb
          rw [List.mk_mem_zipIdx_iff_getElem?, List.getElem?_eq_some_iff] at ha
          obtain ⟨hi, rfl⟩ := ha
          refine ⟨rfl, i, hi, ?_⟩
          rw [tileCharge_eq_some] at hc
          rw [Holding.tileNeed_cons, if_pos hit, ← hc]
          simp only at hbig
          omega
        | some b =>
          simp only [hc, orOverflow, bind, Except.bind, hb] at h
          have hr := chargeTiles_eq_some hb
          obtain ⟨he, i, hi, hbig⟩ := ih (hr.length_eq ▸ hpos) h
          have hi' : i < r.length := hr.length_eq ▸ hi
          rw [tileCharge_eq_some] at hc
          rw [hr.getElem hi hi', hr.length_eq, hc] at hbig
          refine ⟨he, i, hi', ?_⟩
          rw [Holding.tileNeed_cons]
          omega

theorem raised_replicate {f : Nat → Nat} {n : Nat} {v : List UInt64} (h : Raised f (List.replicate n 0) v) :
    v.map UInt64.toNat = (List.range n).map f := by
  have hl := h.length_eq
  rw [List.length_replicate] at hl
  refine List.ext_getElem (by simp [hl]) fun i h1 h2 => ?_
  rw [List.length_map] at h1
  have hi := h.getElem h1 (by rw [List.length_replicate]; exact hl ▸ h1)
  rw [List.getElem_replicate, UInt64.toNat_zero, Nat.zero_add] at hi
  simpa using hi

/-! ## The reduction of the tiles -/

theorem tileSlots_eq {hw : Hardware} (ht : hw.isTiled = true) :
    hw.tileSlots = hw.tileCount.toNat ∧ 0 < hw.tileSlots := by
  have h : hw.tileSlots = hw.tileCount.toNat := if_pos ht
  refine ⟨h, ?_⟩
  have h1 : 1 < hw.tileCount := by simpa [Hardware.isTiled] using ht
  have := UInt32.lt_iff_toNat_lt.1 h1
  simp only [UInt32.toNat_one] at this
  omega

theorem toNat_lastTile (hw : Hardware) : hw.lastTile.toNat = hw.tileCount.toNat - 1 := by
  unfold Hardware.lastTile
  split
  · rename_i hnone
    rw [hnone]
    rfl
  · rename_i hsome
    have hpos : hw.tileCount.toNat ≠ 0 := fun h0 => hsome (UInt32.toNat_inj.1 h0)
    refine UInt32.toNat_sub_of_le _ _ (UInt32.le_iff_toNat_le.2 ?_)
    rw [UInt32.toNat_one]
    omega

/-- a tile that there is has an entry of its own in a pool's list of tile reservations -/
theorem tile_lt_tileSlots {hw : Hardware} {tile : UInt32} (ht : hw.isTiled = true) (hle : tile ≤ hw.lastTile) :
    tile.toNat < hw.tileSlots := by
  obtain ⟨hslots, hpos⟩ := tileSlots_eq ht
  have htile := UInt32.le_iff_toNat_le.1 hle
  rw [toNat_lastTile] at htile
  omega

theorem tileSlots_lt (hw : Hardware) : hw.tileSlots < UInt64.size := by
  have htiles : hw.tileSlots ≤ hw.tileCount.toNat := by
    unfold Hardware.tileSlots
    split
    · exact Nat.le_refl _
    · exact Nat.zero_le _
  calc hw.tileSlots ≤ hw.tileCount.toNat := htiles
    _ < UInt64.size := Nat.lt_trans hw.tileCount.toNat_lt (by decide)

/-- the share that is left of a pool whose tiles reserve some amounts is exact -/
theorem sharedSize?_eq_some {hw : Hardware} {size shared : UInt64} {v : List UInt64} (hl : v.length = hw.tileSlots)
    (h : hw.policy.sharedSize? size v = some shared) :
    match hw.reduction with
    | .broadcastMax => (hw.policy.total v).toNat = hw.tileSlots * (v.map UInt64.toNat).foldl max 0 ∧
        shared.toNat + hw.replication.toNat * (hw.policy.total v).toNat = size.toNat
    | .perTileSum => (hw.policy.total v).toNat = (v.map UInt64.toNat).sum ∧
        shared.toNat + (hw.policy.total v).toNat = size.toNat := by
  have hlen : v.length < UInt64.size := hl ▸ tileSlots_lt hw
  obtain ⟨hfit, hshared⟩ := (Reduction.sharedSize?_eq_some hlen).1 h
  have htotal := Reduction.toNat_total_of_lt hlen hfit
  rw [← htotal] at hshared
  cases hr : hw.reduction with
  | broadcastMax =>
    simp only [Hardware.policy, hr, Reduction.copies, Reduction.exactTotal, hl] at htotal hshared ⊢
    exact ⟨htotal, hshared⟩
  | perTileSum =>
    simp only [Hardware.policy, hr, Reduction.copies, Reduction.exactTotal, Nat.one_mul] at htotal hshared ⊢
    exact ⟨htotal, hshared⟩

/-- where nothing is left of a pool, its tiles reserve more than there is -/
theorem sharedSize?_eq_none {hw : Hardware} {size : UInt64} {v : List UInt64} (hl : v.length = hw.tileSlots)
    (hrep : 0 < hw.replication.toNat) (h : hw.policy.sharedSize? size v = none) :
    size.toNat < match hw.reduction with
    | .broadcastMax => hw.replication.toNat * (hw.tileSlots * (v.map UInt64.toNat).foldl max 0)
    | .perTileSum => (v.map UInt64.toNat).sum := by
  have hlen : v.length < UInt64.size := hl ▸ tileSlots_lt hw
  cases hr : hw.reduction with
  | broadcastMax =>
    have hpos : 0 < (Reduction.broadcastMax hw.replication).copies := hrep
    simp only [Hardware.policy, hr] at h
    simpa only [Reduction.copies, Reduction.exactTotal, hl] using (Reduction.sharedSize?_eq_none_of_pos hlen hpos).1 h
  | perTileSum =>
    have hpos : 0 < Reduction.perTileSum.copies := Nat.one_pos
    simp only [Hardware.policy, hr] at h
    simpa only [Reduction.copies, Reduction.exactTotal, Nat.one_mul] using
      (Reduction.sharedSize?_eq_none_of_pos hlen hpos).1 h

/-! ## Figures -/

section Endings

variable (hw : Hardware) (pool : Key) (size : UInt64) (direction : Direction) (hs : List Holding)

/-- how deriving figures ends where there are tiles: with what the policy leaves of the pool, with nothing left, or
before that with a sum that is no 64-bit amount -/
theorem figure_tiled (ht : hw.isTiled = true) :
    (∃ v shared, holdTiled pool direction (List.replicate hw.tileSlots 0) hs = .ok v ∧
      hw.policy.sharedSize? size v = some shared ∧
      figure hw pool size direction hs = .ok ⟨shared, v, hw.policy.total v⟩) ∨
    (∃ v, holdTiled pool direction (List.replicate hw.tileSlots 0) hs = .ok v ∧
      hw.policy.sharedSize? size v = none ∧
      ∃ reason, figure hw pool size direction hs = .error (.insufficientResources reason)) ∨
    ∃ e, holdTiled pool direction (List.replicate hw.tileSlots 0) hs = .error e ∧
      figure hw pool size direction hs = .error e := by
  unfold figure
  rw [if_pos ht]
  cases hv : holdTiled pool direction (List.replicate hw.tileSlots 0) hs with
  | error e => exact .inr (.inr ⟨e, rfl, rfl⟩)
  | ok v =>
    cases hshared : hw.policy.sharedSize? size v with
    | none =>
      refine .inr (.inl ⟨v, rfl, hshared, ?_⟩)
      simp only [bind, Except.bind, hshared]
      exact ⟨_, rfl⟩
    | some shared => exact .inl ⟨v, shared, rfl, hshared, by simp only [bind, Except.bind, hshared]⟩

/-- and where there are none -/
theorem figure_flat (ht : hw.isTiled = false) :
    (∃ v shared, holdFlat pool 0 hs = .ok v ∧ checkedSub size v = some shared ∧
      figure hw pool size direction hs = .ok { sharedSize := shared }) ∨
    (∃ v, holdFlat pool 0 hs = .ok v ∧ checkedSub size v = none ∧
      ∃ reason, figure hw pool size direction hs = .error (.insufficientResources reason)) ∨
    ∃ e, holdFlat pool 0 hs = .error e ∧ figure hw pool size direction hs = .error e := by
  unfold figure
  rw [if_neg (by simp [ht])]
  cases hv : holdFlat pool 0 hs with
  | error e => exact .inr (.inr ⟨e, rfl, rfl⟩)
  | ok v =>
    cases hshared : checkedSub size v with
    | none =>
      refine .inr (.inl ⟨v, rfl, hshared, ?_⟩)
      simp only [bind, Except.bind, hshared]
      exact ⟨_, rfl⟩
    | some shared => exact .inl ⟨v, shared, rfl, hshared, by simp only [bind, Except.bind, hshared]⟩

end Endings

/-- **Figures that are derived are exact.** -/
theorem figure_ok {hw : Hardware} {pool : Key} {size : UInt64} {direction : Direction} {hs : List Holding} {t : Totals}
    (h : figure hw pool size direction hs = .ok t) : Balances hw direction hs size t := by
  unfold Balances
  cases ht : hw.isTiled with
  | true =>
    rw [if_pos rfl]
    obtain ⟨v, shared, hv, hshared, hf⟩ | ⟨v, -, -, reason, hf⟩ | ⟨e, -, hf⟩ :=
      figure_tiled hw pool size direction hs ht
    · obtain rfl := Except.ok.inj (hf.symm.trans h)
      have hr := holdTiled_ok hv
      have hl := hr.length_eq
      rw [List.length_replicate] at hr hl
      have hmap := raised_replicate hr
      have hexact := sharedSize?_eq_some hl hshared
      rw [hmap] at hexact
      exact ⟨hmap, hexact⟩
    · cases hf.symm.trans h
    · cases hf.symm.trans h
  | false =>
    rw [if_neg (by simp)]
    obtain ⟨v, shared, hv, hshared, hf⟩ | ⟨v, -, -, reason, hf⟩ | ⟨e, -, hf⟩ :=
      figure_flat hw pool size direction hs ht
    · obtain rfl := Except.ok.inj (hf.symm.trans h)
      have hr := holdFlat_ok hv
      rw [UInt64.toNat_zero, Nat.zero_add] at hr
      rw [checkedSub_eq_some] at hshared
      exact ⟨rfl, rfl, hr ▸ hshared⟩
    · cases hf.symm.trans h
    · cases hf.symm.trans h

/-- a tile that alone needs more than a pool has is enough -/
theorem lt_need_of_tile {hw : Hardware} {direction : Direction} {hs : List Holding} {size i : Nat}
    (hrep : 0 < hw.replication.toNat) (ht : hw.isTiled = true) (hi : i < hw.tileSlots)
    (hbig : size < Holding.tileNeed hw.tileSlots direction hs i) : size < hw.need direction hs := by
  have hmem : Holding.tileNeed hw.tileSlots direction hs i ∈ Holding.tileNeeds hw.tileSlots direction hs :=
    List.mem_map.2 ⟨i, List.mem_range.2 hi, rfl⟩
  unfold Hardware.need
  rw [if_pos ht]
  cases hw.reduction with
  | broadcastMax =>
    calc size < Holding.tileNeed hw.tileSlots direction hs i := hbig
      _ ≤ (Holding.tileNeeds hw.tileSlots direction hs).foldl max 0 := (le_foldl_max _ 0).2 _ hmem
      _ ≤ hw.tileSlots * (Holding.tileNeeds hw.tileSlots direction hs).foldl max 0 :=
        Nat.le_mul_of_pos_left _ (tileSlots_eq ht).2
      _ ≤ hw.replication.toNat * (hw.tileSlots * (Holding.tileNeeds hw.tileSlots direction hs).foldl max 0) :=
        Nat.le_mul_of_pos_left _ hrep
  | perTileSum =>
    calc size < Holding.tileNeed hw.tileSlots direction hs i := hbig
      _ ≤ (Holding.tileNeeds hw.tileSlots direction hs).sum := List.single_le_sum (by simp) _ hmem

/-- figures that cannot be derived are refused as insufficient resources -/
theorem insufficient_of_figure {hw : Hardware} {pool : Key} {size : UInt64} {direction : Direction} {hs : List Holding}
    {e : Fault} (h : figure hw pool size direction hs = .error e) : ∃ reason, e = .insufficientResources reason := by
  cases ht : hw.isTiled with
  | true =>
    obtain ⟨v, shared, -, -, hf⟩ | ⟨v, -, -, reason, hf⟩ | ⟨e', hv, hf⟩ := figure_tiled hw pool size direction hs ht
    · cases hf.symm.trans h
    · exact ⟨reason, Except.error.inj (h.symm.trans hf)⟩
    · obtain rfl := Except.error.inj (hf.symm.trans h)
      exact ⟨_, (holdTiled_error (by simpa using (tileSlots_eq ht).2) hv).1⟩
  | false =>
    obtain ⟨v, shared, -, -, hf⟩ | ⟨v, -, -, reason, hf⟩ | ⟨e', hv, hf⟩ := figure_flat hw pool size direction hs ht
    · cases hf.symm.trans h
    · exact ⟨reason, Except.error.inj (h.symm.trans hf)⟩
    · obtain rfl := Except.error.inj (hf.symm.trans h)
      exact ⟨_, (holdFlat_error hv).1⟩

/-- **Figures are refused only where too much is needed.** -/
theorem figure_error {hw : Hardware} {pool : Key} {size : UInt64} {direction : Direction} {hs : List Holding}
    {e : Fault} (hrep : 0 < hw.replication.toNat) (h : figure hw pool size direction hs = .error e) :
    size.toNat < hw.need direction hs := by
  cases ht : hw.isTiled with
  | true =>
    obtain ⟨v, shared, -, -, hf⟩ | ⟨v, hv, hshared, -⟩ | ⟨e', hv, -⟩ := figure_tiled hw pool size direction hs ht
    · cases hf.symm.trans h
    · have hr := holdTiled_ok hv
      have hl := hr.length_eq
      rw [List.length_replicate] at hr hl
      have hlack := sharedSize?_eq_none hl hrep hshared
      rw [raised_replicate hr] at hlack
      rw [Hardware.need, if_pos ht]
      exact hlack
    · obtain ⟨-, i, hi, hbig⟩ := holdTiled_error (by simpa using (tileSlots_eq ht).2) hv
      rw [List.length_replicate] at hi
      rw [List.getElem_replicate, List.length_replicate, UInt64.toNat_zero, Nat.zero_add] at hbig
      exact lt_need_of_tile hrep ht hi (Nat.lt_of_lt_of_le size.toNat_lt hbig)
  | false =>
    rw [Hardware.need, if_neg (by simp [ht])]
    obtain ⟨v, shared, -, -, hf⟩ | ⟨v, hv, hshared, -⟩ | ⟨e', hv, -⟩ := figure_flat hw pool size direction hs ht
    · cases hf.symm.trans h
    · have hr := holdFlat_ok hv
      rw [UInt64.toNat_zero, Nat.zero_add] at hr
      rw [checkedSub_eq_none] at hshared
      exact hr ▸ hshared
    · obtain ⟨-, hbig⟩ := holdFlat_error hv
      rw [UInt64.toNat_zero, Nat.zero_add] at hbig
      exact Nat.lt_of_lt_of_le size.toNat_lt hbig

/-- what a pool shares and what it needs is its size -/
theorem Balances.shared_add_need {hw : Hardware} {direction : Direction} {hs : List Holding} {size : UInt64}
    {t : Totals} (h : Balances hw direction hs size t) : t.sharedSize.toNat + hw.need direction hs = size.toNat := by
  unfold Balances at h
  unfold Hardware.need
  cases ht : hw.isTiled with
  | true =>
    rw [ht, if_pos rfl] at h
    rw [if_pos rfl]
    obtain ⟨-, h⟩ := h
    cases hr : hw.reduction <;> simp only [hr] at h ⊢ <;> rw [← h.1] <;> exact h.2
  | false =>
    rw [ht, if_neg (by simp)] at h
    rw [if_neg (by simp)]
    exact h.2.2

theorem Balances.need_le {hw : Hardware} {direction : Direction} {hs : List Holding} {size : UInt64} {t : Totals}
    (h : Balances hw direction hs size t) : hw.need direction hs ≤ size.toNat :=
  h.shared_add_need ▸ Nat.le_add_left _ _

/-- **Figures are derived exactly where the need is met.** -/
theorem exists_figure_iff {hw : Hardware} {pool : Key} {size : UInt64} {direction : Direction} {hs : List Holding}
    (hrep : 0 < hw.replication.toNat) :
    (∃ t, figure hw pool size direction hs = .ok t) ↔ hw.need direction hs ≤ size.toNat := by
  constructor
  · rintro ⟨t, h⟩
    exact (figure_ok h).need_le
  · intro h
    cases hf : figure hw pool size direction hs with
    | ok t => exact ⟨t, rfl⟩
    | error e => exact absurd h (Nat.not_le.2 (figure_error hrep hf))

end Accounting

end SharedBuffer
