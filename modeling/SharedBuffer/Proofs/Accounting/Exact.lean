/-
What the pools of a store have given away, in exact numbers.

These definitions read a store from outside: its lists as they are walked, the ports that consumers draw through, and
sizes as natural numbers, which nothing can overflow. They know nothing of layouts, evaluations or changes.

Results:
- `Wired.taken_eq`: in a wired store, what profiles take is what figures derived from their holdings need;
- `Sound.balanced`: in a sound store every pool's figures are exact.
-/
import SharedBuffer.Proofs.Accounting.Accounted

namespace SharedBuffer

namespace Store

/-! ## Reading a store -/

/-- the lists of a pool can be walked to the ports that its consumers draw through, on tiles that there are -/
def Walkable (s : Store Record) (hw : Hardware) (pool : Key) : Prop :=
  ∃ profiles, s.members .poolProfiles pool = .ok profiles ∧ ∀ q ∈ profiles, (∃ p, s.profile? q = some p) ∧
    ∃ consumers, s.members .profileConsumers q = .ok consumers ∧
      ∀ x ∈ consumers, ∃ port, s.portOf? x = some port ∧ port.tile ≤ hw.lastTile

/-- the members of an owner's list, in order; none where there is no such list -/
def listOf (s : Store Record) (R : Roster) (owner : Key) : List Key :=
  match s.members R owner with
  | .ok members => members
  | .error _ => []

/-- whether a profile has a consumer -/
def isActive (s : Store Record) (profile : Key) : Bool := !(s.listOf .profileConsumers profile).isEmpty

/-- the profiles of a pool that have a consumer -/
def active (s : Store Record) (pool : Key) : List Key := (s.listOf .poolProfiles pool).filter s.isActive

/-- whether the port a consumer draws through sits on a tile -/
def isOnTile (s : Store Record) (tile : Nat) (consumer : Key) : Bool :=
  (s.portOf? consumer).any fun p => p.tile.toNat = tile

/-- whether a profile has a consumer on a tile -/
def reaches (s : Store Record) (tile : Nat) (profile : Key) : Bool :=
  (s.listOf .profileConsumers profile).any (s.isOnTile tile)

/-- the size of a profile -/
def sizeOf (s : Store Record) (profile : Key) : Nat := (s.profile? profile).elim 0 fun p => p.size.toNat

/-- what a profile takes from a tile it reaches: its size, and in ingress pools the larger of its marks -/
def chargeOf (s : Store Record) (direction : Direction) (profile : Key) : Nat :=
  (s.profile? profile).elim 0 fun p =>
    p.size.toNat + match direction with
      | .ingress => max p.xoff.toNat p.xon.toNat
      | .egress => 0

/-- what is reserved from a pool on a tile -/
def tileReserved (s : Store Record) (direction : Direction) (pool : Key) (tile : Nat) : Nat :=
  (((s.active pool).filter (s.reaches tile)).map (s.chargeOf direction)).sum

/-- what is reserved from a pool on each tile -/
def tilesReserved (s : Store Record) (hw : Hardware) (direction : Direction) (pool : Key) : List Nat :=
  (List.range hw.tileCount.toNat).map (s.tileReserved direction pool)

/-- what is reserved from a pool altogether -/
def reserved (s : Store Record) (hw : Hardware) (direction : Direction) (pool : Key) : Nat :=
  if hw.tileCount ≤ 1 then ((s.active pool).map s.sizeOf).sum
  else match hw.reduction with
    | .broadcastMax =>
      hw.replication.toNat * (hw.tileCount.toNat * (s.tilesReserved hw direction pool).foldl max 0)
    | .perTileSum => (s.tilesReserved hw direction pool).sum

/-! ## What some profiles take -/

/-- what some profiles take where there are no tiles -/
def flatTaken (s : Store Record) (profiles : List Key) : Nat := ((profiles.filter s.isActive).map s.sizeOf).sum

/-- what some profiles take from a tile -/
def tileTaken (s : Store Record) (direction : Direction) (profiles : List Key) (tile : Nat) : Nat :=
  (((profiles.filter s.isActive).filter (s.reaches tile)).map (s.chargeOf direction)).sum

/-- what some profiles take from each tile -/
def tilesTaken (s : Store Record) (hw : Hardware) (direction : Direction) (profiles : List Key) : List Nat :=
  (List.range hw.tileCount.toNat).map (s.tileTaken direction profiles)

/-- what some profiles take altogether -/
def taken (s : Store Record) (hw : Hardware) (direction : Direction) (profiles : List Key) : Nat :=
  if hw.tileCount ≤ 1 then s.flatTaken profiles
  else match hw.reduction with
    | .broadcastMax =>
      hw.replication.toNat * (hw.tileCount.toNat * (s.tilesTaken hw direction profiles).foldl max 0)
    | .perTileSum => (s.tilesTaken hw direction profiles).sum

/-- what is reserved from a pool is what the profiles in its list take -/
theorem reserved_eq_taken (s : Store Record) (hw : Hardware) (direction : Direction) (pool : Key) :
    s.reserved hw direction pool = s.taken hw direction (s.listOf .poolProfiles pool) := rfl

end Store

/-- the figures of a pool are exact -/
structure Balanced (hw : Hardware) (s : Store Record) (pool : Key) (p : Pool) : Prop where
  walkable : s.Walkable hw pool
  /-- without tiles, what the active profiles do not take is shared -/
  flat : hw.tileCount ≤ 1 →
    p.sharedSize.toNat + ((s.active pool).map s.sizeOf).sum = p.size.toNat ∧ p.tileReserved = [] ∧
      p.tilesTotalReserved = 0
  tiles : 1 < hw.tileCount → p.tileReserved.map UInt64.toNat = s.tilesReserved hw p.direction pool
  /-- each tile takes as much as the one that needs most, a number of times over -/
  broadcastMax : 1 < hw.tileCount → hw.reduction = .broadcastMax →
    p.tilesTotalReserved.toNat = hw.tileCount.toNat * (p.tileReserved.map UInt64.toNat).foldl max 0 ∧
      p.sharedSize.toNat + hw.replication.toNat * p.tilesTotalReserved.toNat = p.size.toNat
  /-- each tile takes what it needs -/
  perTileSum : 1 < hw.tileCount → hw.reduction = .perTileSum →
    p.tilesTotalReserved.toNat = (p.tileReserved.map UInt64.toNat).sum ∧
      p.sharedSize.toNat + p.tilesTotalReserved.toNat = p.size.toNat

namespace Wired

open Accounting

variable {hw : Hardware} {s : Store Record} {L : Layout} {k o q : Key} {R : Roster}

theorem listOf_eq (w : Wired hw s L none) (hc : s.contains o = true) (hk : o.kind = R.ownerKind) :
    s.listOf R o = L R o := by
  obtain ⟨h, hh⟩ := w.exists_head hc hk
  rw [Store.listOf, w.linked.members_eq hh]

theorem walkable (w : Wired hw s L none) (hc : s.contains k = true) (hk : k.kind = .pool) : s.Walkable hw k := by
  obtain ⟨h, hh⟩ := w.exists_head (R := .poolProfiles) hc hk
  refine ⟨L .poolProfiles k, w.linked.members_eq hh, fun q hq => ?_⟩
  obtain ⟨hqc, hqk⟩ := w.takes_of_mem hq
  obtain ⟨p, hp⟩ := w.exists_profile_of_mem hq
  obtain ⟨h', hh'⟩ := w.exists_head (R := .profileConsumers) hqc (Roster.eq_profile_of_takes hqk)
  refine ⟨⟨p, hp⟩, L .profileConsumers q, w.linked.members_eq hh', fun x hx => ?_⟩
  obtain ⟨hxc, hxk⟩ := w.takes_of_mem hx
  exact w.exists_portOf hxc hxk

theorem isActive_eq (w : Wired hw s L none) (hc : s.contains q = true) (hk : q.kind = .profile) (j : Key) :
    s.isActive q = !(s.holding (.recompute j) L q).tiles.isEmpty := by
  obtain ⟨p, hp⟩ := w.exists_profile hc hk
  rw [Store.isActive, w.listOf_eq (R := .profileConsumers) hc hk, Store.holding, hp, List.isEmpty_map]
  rfl

theorem sizeOf_eq (w : Wired hw s L none) (hc : s.contains q = true) (hk : q.kind = .profile) (j : Key) :
    s.sizeOf q = (s.holding (.recompute j) L q).size.toNat := by
  obtain ⟨p, hp⟩ := w.exists_profile hc hk
  rw [Store.sizeOf, Store.holding, hp]
  rfl

theorem chargeOf_holding (w : Wired hw s L none) (hc : s.contains q = true) (hk : q.kind = .profile)
    (direction : Direction) (j : Key) :
    s.chargeOf direction q = (s.holding (.recompute j) L q).charge direction := by
  obtain ⟨p, hp⟩ := w.exists_profile hc hk
  rw [Store.chargeOf, Store.holding, hp]
  cases direction with
  | ingress => simp [Holding.charge, Change.recharge, Profile.headroom, toNat_max]
  | egress => simp [Holding.charge, Change.recharge]

/-- a consumer is on exactly one tile, and it is one that there is -/
theorem isOnTile_iff (w : Wired hw s L none) (ht : hw.isTiled = true) (hc : s.contains k = true)
    (hk : Roster.profileConsumers.takes k.kind = true) (tile : Nat) :
    s.isOnTile tile k = true ↔ min (s.tileOf k).toNat (hw.tileSlots - 1) = tile := by
  obtain ⟨p, hp, hle⟩ := w.exists_portOf hc hk
  have hmin : min p.tile.toNat (hw.tileSlots - 1) = p.tile.toNat :=
    Nat.min_eq_left (Nat.le_pred_of_lt (tile_lt_tileSlots ht hle))
  rw [Store.isOnTile, hp, Store.tileOf, hp]
  simp [hmin]

theorem reaches_iff (w : Wired hw s L none) (ht : hw.isTiled = true) (hc : s.contains q = true)
    (hk : q.kind = .profile) (tile : Nat) (j : Key) :
    s.reaches tile q = true ↔ tile ∈ (s.holding (.recompute j) L q).hits hw.tileSlots := by
  obtain ⟨p, hp⟩ := w.exists_profile hc hk
  have hhits : (s.holding (.recompute j) L q).hits hw.tileSlots =
      ((L .profileConsumers q).map s.tileOf).map fun tile => min tile.toNat (hw.tileSlots - 1) := by
    rw [Store.holding, hp]
    rfl
  rw [Store.reaches, w.listOf_eq (R := .profileConsumers) hc hk, hhits, List.map_map, List.any_eq_true, List.mem_map]
  constructor
  · rintro ⟨x, hx, hon⟩
    obtain ⟨hxc, hxk⟩ := w.takes_of_mem hx
    exact ⟨x, hx, (w.isOnTile_iff ht hxc hxk tile).1 hon⟩
  · rintro ⟨x, hx, hon⟩
    obtain ⟨hxc, hxk⟩ := w.takes_of_mem hx
    exact ⟨x, hx, (w.isOnTile_iff ht hxc hxk tile).2 hon⟩

/-! ## What some profiles take -/

section

variable {profiles : List Key} (w : Wired hw s L none) (hlive : ∀ q ∈ profiles, s.contains q = true ∧ q.kind = .profile)

include w hlive

/-- the profiles with a consumer are those whose holdings count -/
theorem filter_isActive_eq (j : Key) :
    profiles.filter s.isActive = profiles.filter fun q => !(s.holding (.recompute j) L q).tiles.isEmpty :=
  List.filter_congr fun q hq => w.isActive_eq (hlive q hq).1 (hlive q hq).2 j

theorem flatTaken_eq (j : Key) : s.flatTaken profiles = Holding.flatNeed (profiles.map (s.holding (.recompute j) L)) := by
  rw [Store.flatTaken, w.filter_isActive_eq hlive j, Holding.flatNeed, List.filter_map, List.map_map]
  refine congrArg List.sum (List.map_congr_left fun q hq => ?_)
  obtain ⟨hc, hk⟩ := hlive q (List.mem_of_mem_filter hq)
  exact w.sizeOf_eq hc hk j

theorem tileTaken_eq (ht : hw.isTiled = true) (direction : Direction) (tile : Nat) (j : Key) :
    s.tileTaken direction profiles tile =
      Holding.tileNeed hw.tileSlots direction (profiles.map (s.holding (.recompute j) L)) tile := by
  -- a profile that reaches a tile has a consumer
  have hlist : (profiles.filter s.isActive).filter (s.reaches tile) =
      profiles.filter fun q => tile ∈ (s.holding (.recompute j) L q).hits hw.tileSlots := by
    rw [w.filter_isActive_eq hlive j, List.filter_filter]
    refine List.filter_congr fun q hq => ?_
    have hreach := w.reaches_iff ht (hlive q hq).1 (hlive q hq).2 tile j
    rw [Bool.eq_iff_iff]
    simp only [Bool.and_eq_true, decide_eq_true_eq, Bool.not_eq_true', hreach, and_iff_left_iff_imp]
    intro hmem
    rw [Holding.hits, List.mem_map] at hmem
    obtain ⟨x, hx, -⟩ := hmem
    exact List.isEmpty_eq_false_iff.2 (List.ne_nil_of_mem hx)
  rw [Store.tileTaken, hlist, Holding.tileNeed, List.filter_map, List.map_map]
  refine congrArg List.sum (List.map_congr_left fun q hq => ?_)
  obtain ⟨hc, hk⟩ := hlive q (List.mem_of_mem_filter hq)
  exact w.chargeOf_holding hc hk direction j

theorem tilesTaken_eq (ht : hw.isTiled = true) (direction : Direction) (j : Key) :
    s.tilesTaken hw direction profiles =
      Holding.tileNeeds hw.tileSlots direction (profiles.map (s.holding (.recompute j) L)) := by
  rw [Store.tilesTaken, ← (tileSlots_eq ht).1]
  exact List.map_congr_left fun tile _ => w.tileTaken_eq hlive ht direction tile j

/-- **What some profiles take is what their holdings need.** -/
theorem taken_eq (direction : Direction) (j : Key) :
    s.taken hw direction profiles = hw.need direction (profiles.map (s.holding (.recompute j) L)) := by
  unfold Store.taken Hardware.need
  cases ht : hw.isTiled with
  | true =>
    have hlt : ¬ hw.tileCount ≤ 1 := UInt32.not_le.2 (by simpa [Hardware.isTiled] using ht)
    rw [if_neg hlt, if_pos rfl]
    cases hw.reduction with
    | broadcastMax => simp only [w.tilesTaken_eq hlive ht direction j, (tileSlots_eq ht).1]
    | perTileSum => simp only [w.tilesTaken_eq hlive ht direction j]
  | false =>
    have hle : hw.tileCount ≤ 1 := UInt32.not_lt.1 (by simpa [Hardware.isTiled] using ht)
    rw [if_pos hle, w.flatTaken_eq hlive j]
    rfl

end

/-- the profiles of a pool are live -/
theorem live_of_poolProfiles (w : Wired hw s L none) :
    ∀ q ∈ L .poolProfiles k, s.contains q = true ∧ q.kind = .profile := fun _ hq =>
  ⟨(w.takes_of_mem hq).1, Roster.eq_profile_of_takes (w.takes_of_mem hq).2⟩

/-- **What is reserved from a pool is what its holdings take.** -/
theorem reserved_eq (w : Wired hw s L none) (hc : s.contains k = true) (hk : k.kind = .pool) (direction : Direction) :
    s.reserved hw direction k = hw.need direction (s.holdings (.recompute k) L k) := by
  rw [Store.reserved_eq_taken, w.listOf_eq (R := .poolProfiles) hc hk]
  exact w.taken_eq w.live_of_poolProfiles direction k

end Wired

/-! ## Figures -/

/-- figures that account for every byte are exact for a pool whose profiles take what they were derived from -/
theorem Accounting.Balances.balanced {hw : Hardware} {s : Store Record} {k : Key} {p : Pool} {hs : List Holding}
    (h : Balances hw p.direction hs p.size p.totals) (hwalk : s.Walkable hw k)
    (hflat : s.flatTaken (s.listOf .poolProfiles k) = Holding.flatNeed hs)
    (htiles : hw.isTiled = true → s.tilesTaken hw p.direction (s.listOf .poolProfiles k) =
      Holding.tileNeeds hw.tileSlots p.direction hs) : Balanced hw s k p := by
  unfold Balances at h
  cases ht : hw.isTiled with
  | true =>
    have hlt : 1 < hw.tileCount := by simpa [Hardware.isTiled] using ht
    rw [ht, if_pos rfl, ← htiles ht] at h
    obtain ⟨htiles, hrest⟩ := h
    refine ⟨hwalk, fun hle => absurd hlt (UInt32.not_lt.2 hle), fun _ => htiles, fun _ hr => ?_, fun _ hr => ?_⟩
    · rw [hr, tileSlots_eq ht |>.1] at hrest
      exact ⟨htiles ▸ hrest.1, hrest.2⟩
    · rw [hr] at hrest
      exact ⟨htiles ▸ hrest.1, hrest.2⟩
  | false =>
    have hle : hw.tileCount ≤ 1 := UInt32.not_lt.1 (by simpa [Hardware.isTiled] using ht)
    rw [ht, if_neg (by simp), ← hflat] at h
    obtain ⟨htiles, htotal, hsum⟩ := h
    exact ⟨hwalk, fun _ => ⟨hsum, htiles, htotal⟩, fun hlt => absurd hlt (UInt32.not_lt.2 hle),
      fun hlt => absurd hlt (UInt32.not_lt.2 hle), fun hlt => absurd hlt (UInt32.not_lt.2 hle)⟩

/-- **In a sound store every pool's figures are exact.** -/
theorem Sound.balanced {hw : Hardware} {s : Store Record} {L : Layout} (h : Sound hw s L) {k : Key} {p : Pool}
    (hp : s.pool? k = some p) : Balanced hw s k p := by
  have hc := Store.contains_of_pool? hp
  have hk := h.wired.kind_of_pool? hp
  refine (h.accounted.balances h.wired hp).balanced (h.wired.walkable hc hk) ?_ fun ht => ?_
  · rw [h.wired.listOf_eq (R := .poolProfiles) hc hk]
    exact h.wired.flatTaken_eq h.wired.live_of_poolProfiles k
  · rw [h.wired.listOf_eq (R := .poolProfiles) hc hk]
    exact h.wired.tilesTaken_eq h.wired.live_of_poolProfiles ht p.direction k

end SharedBuffer
