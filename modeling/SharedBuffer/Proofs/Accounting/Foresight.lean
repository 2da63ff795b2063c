/-
Plans and what becomes of them.

A plan evaluates a change before it is made. Once only the structural part of the change is made, deriving the figures
anew gives what was planned, to the last refusal; so a plan is refused exactly if some pool could not hold what would
then be reserved from it.

Results:
- `Change.Made.totals_of_plan`, `Change.Made.totals_unplanned`, `Change.Made.exists_refusal`: the figures afterwards;
- `Change.Made.plan_iff`: a plan is accepted exactly if every pool can hold its reservations afterwards.
-/
import SharedBuffer.Proofs.Accounting.Exact

namespace SharedBuffer

open Accounting

/-- a list of an owner that is gone cannot be left -/
theorem Store.detach_missing {s : Store Record} {R : Roster} {o m : Key} (h : s.get? o = none) :
    (Store.detach R o m).run s = (.error (.ownerNotFound o), s) := by
  refine run_bind_error ?_
  have hlink : s.linkUnder R o m = .error (.ownerNotFound o) := by
    rw [Store.linkUnder, Store.ownerHead, h]
    rfl
  rw [← hlink]
  rfl

/-- the structural part of a change of objects that are there was made -/
structure Change.Made (c : Change) (s t : Store Record) : Prop where
  buildable : c.Buildable s
  run : c.apply.run s = (.ok (), t)

namespace Change.Made

variable {hw hw' : Hardware} {s t : Store Record} {L : Layout} {c : Change} {k : Key}
  {figures : List (Key × Totals)} {e : Fault}

/-- a consumer that has changed its profile was counted where it was -/
theorem countable (h : c.Made s t) (w : Wired hw s L none) : c.Countable s := by
  cases c with
  | bind consumer target =>
    rintro ⟨o, ho, hzero⟩
    obtain ⟨u, hu, -⟩ := Store.relink_halves h.run
    rw [ho] at hu
    have hm := w.linked.ownerOf?_eq_some.1 ho
    change (Store.detach .profileConsumers o consumer).run s = _ at hu
    cases hg : s.get? o with
    | none =>
      rw [Store.detach_missing hg] at hu
      cases hu
    | some r =>
      obtain ⟨hd, hhd⟩ := w.exists_head (Store.contains_of_get? hg) (w.owners _ o consumer hm).2
      rw [w.linked.detach_refused hhd hm hzero] at hu
      cases hu
  | _ => trivial

/-- what making a change leaves -/
theorem applied (h : c.Made s t) (w : Wired hw s L none) : Wired hw t (c.relayout L) none ∧ c.Applied s t := by
  obtain ⟨t', hrun, hwt, happ, -⟩ := c.apply_run w h.buildable (h.countable w)
  obtain rfl := (Prod.mk.inj (h.run.symm.trans hrun)).2
  exact ⟨hwt, happ⟩

/-- deriving the figures of a pool afterwards gives what evaluating the change gave -/
theorem totals_eq (h : c.Made s t) (w : Wired hw s L none) (hk : s.contains k = true ∧ k.kind = .pool) :
    totals hw' t (.recompute k) k = totals hw' s c k :=
  (h.applied w).2.totals_eq w (h.applied w).1 h.buildable hk

/-- **Planned figures are those derived afterwards.** -/
theorem totals_of_plan (h : c.Made s t) (w : Wired hw s L none) (hplan : plan hw' s c = .ok figures) {tot : Totals}
    (hk : (k, tot) ∈ figures) : totals hw' t (.recompute k) k = .ok tot := by
  have htot := (plan_ok hplan).2 k tot hk
  obtain ⟨p, hp⟩ := exists_pool_of_totals htot
  rw [h.totals_eq w ⟨Store.contains_of_pool? hp, w.kind_of_pool? hp⟩, htot]

/-- **Figures that are not planned do not change.** -/
theorem totals_unplanned (h : c.Made s t) (w : Wired hw s L none) (hplan : plan hw' s c = .ok figures) {p : Pool}
    (hp : s.pool? k = some p) (hk : k ∉ figures.map Prod.fst) :
    totals hw' t (.recompute k) k = totals hw' s (.recompute k) k := by
  have hlive : s.contains k = true ∧ k.kind = .pool := ⟨Store.contains_of_pool? hp, w.kind_of_pool? hp⟩
  rw [h.totals_eq w hlive,
    w.totals_unconcerned h.buildable (w.covers_affectedPools (plan_ok hplan).1) hk hlive]

/-- **A refused plan is a refusal afterwards**, of a live pool that the change concerns. -/
theorem exists_refusal (h : c.Made s t) (w : Wired hw s L none) (hplan : plan hw' s c = .error e) :
    ∃ pools, affectedPools s c = .ok pools ∧
      ∃ k ∈ pools, (∃ p, s.pool? k = some p) ∧ totals hw' t (.recompute k) k = .error e := by
  obtain ⟨pools, hpools, hlive⟩ := w.exists_affectedPools h.buildable (h.countable w)
  obtain ⟨k, hk, he⟩ := plan_error hplan hpools
  obtain ⟨p, hp⟩ := w.exists_pool (hlive k hk).1 (hlive k hk).2
  exact ⟨pools, hpools, k, hk, ⟨p, hp⟩, by rw [h.totals_eq w (hlive k hk), he]⟩

end Change.Made

/-- every pool can hold what is reserved from it -/
def Store.Holds (s : Store Record) (hw : Hardware) : Prop :=
  ∀ k p, s.pool? k = some p → s.reserved hw p.direction k ≤ p.size.toNat

/-- a sound store holds -/
theorem Sound.holds {hw : Hardware} {s : Store Record} {L : Layout} (h : Sound hw s L) : s.Holds hw := by
  intro k p hp
  rw [h.wired.reserved_eq (Store.contains_of_pool? hp) (h.wired.kind_of_pool? hp)]
  exact (h.accounted.balances h.wired hp).need_le

/-- a pool's figures can be derived exactly if it can hold what is reserved from it -/
theorem Wired.exists_totals_iff {hw : Hardware} {s : Store Record} {L : Layout} (w : Wired hw s L none)
    (hrep : 1 ≤ hw.replication) {k : Key} {p : Pool} (hp : s.pool? k = some p) :
    (∃ tot, totals hw s (.recompute k) k = .ok tot) ↔ s.reserved hw p.direction k ≤ p.size.toNat := by
  have hlive : s.contains k = true ∧ k.kind = .pool := ⟨Store.contains_of_pool? hp, w.kind_of_pool? hp⟩
  rw [w.totals_eq (c := .recompute k) hlive hw hp, w.reserved_eq hlive.1 hlive.2]
  exact exists_figure_iff (UInt64.le_iff_toNat_le.1 hrep)

namespace Change.Made

variable {hw : Hardware} {s t : Store Record} {L : Layout} {c : Change}

/-- **A plan is accepted exactly if every pool can hold its reservations afterwards.** -/
theorem plan_iff (h : c.Made s t) (hs : Sound hw s L) (hrep : 1 ≤ hw.replication) :
    (∃ figures, plan hw s c = .ok figures) ↔ t.Holds hw := by
  obtain ⟨hwt, happ⟩ := h.applied hs.wired
  constructor
  · rintro ⟨figures, hplan⟩ k p hp
    rw [← hwt.exists_totals_iff hrep hp]
    have hlive : s.contains k = true ∧ k.kind = .pool := by
      rw [← happ.contains]
      exact ⟨Store.contains_of_pool? hp, hwt.kind_of_pool? hp⟩
    by_cases hk : k ∈ figures.map Prod.fst
    · obtain ⟨⟨k, tot⟩, htot, rfl⟩ := List.mem_map.1 hk
      exact ⟨tot, h.totals_of_plan hs.wired hplan htot⟩
    · obtain ⟨q, hq⟩ := hs.wired.exists_pool hlive.1 hlive.2
      exact ⟨q.totals, by rw [h.totals_unplanned hs.wired hplan hq hk, hs.accounted k q hq]⟩
  · intro hholds
    cases hplan : plan hw s c with
    | ok figures => exact ⟨figures, rfl⟩
    | error e =>
      obtain ⟨pools, -, k, -, ⟨q, hq⟩, he⟩ := h.exists_refusal hs.wired hplan
      have hlive : t.contains k = true ∧ k.kind = .pool :=
        ⟨happ.contains.trans (Store.contains_of_pool? hq), hs.wired.kind_of_pool? hq⟩
      obtain ⟨p, hp⟩ := hwt.exists_pool hlive.1 hlive.2
      obtain ⟨tot, htot⟩ := (hwt.exists_totals_iff hrep hp).2 (hholds k p hp)
      cases he.symm.trans htot

/-- a refused plan says that resources are insufficient -/
theorem insufficient_of_plan (h : c.Made s t) (hs : Sound hw s L) {e : Fault}
    (hplan : plan hw s c = .error e) : ∃ reason, e = .insufficientResources reason := by
  obtain ⟨hwt, happ⟩ := h.applied hs.wired
  obtain ⟨pools, -, k, -, ⟨q, hq⟩, he⟩ := h.exists_refusal hs.wired hplan
  have hlive : t.contains k = true ∧ k.kind = .pool :=
    ⟨happ.contains.trans (Store.contains_of_pool? hq), hs.wired.kind_of_pool? hq⟩
  obtain ⟨p, hp⟩ := hwt.exists_pool hlive.1 hlive.2
  rw [hwt.totals_eq (c := .recompute k) hlive hw hp] at he
  exact insufficient_of_figure he

end Change.Made

theorem Sound.insufficient_of_plan {hw : Hardware} {s : Store Record} {L : Layout} {c : Change} (hs : Sound hw s L)
    (hb : c.Buildable s) (hn : c.Countable s) {e : Fault} (hplan : plan hw s c = .error e) :
    ∃ reason, e = .insufficientResources reason := by
  obtain ⟨t, hrun, -⟩ := c.apply_run hs.wired hb hn
  exact Change.Made.insufficient_of_plan ⟨hb, hrun⟩ hs hplan

/-! ## Changes to what is there already -/

namespace Hardware

variable {hw : Hardware} {direction : Direction}

/-- what is needed does not depend on the order of the holdings -/
theorem need_perm {hs hs' : List Holding} (h : hs.Perm hs') : hw.need direction hs = hw.need direction hs' := by
  have htile : ∀ tile, Holding.tileNeed hw.tileSlots direction hs tile =
      Holding.tileNeed hw.tileSlots direction hs' tile := fun tile => ((h.filter _).map _).sum_eq
  have htiles : Holding.tileNeeds hw.tileSlots direction hs = Holding.tileNeeds hw.tileSlots direction hs' :=
    List.map_congr_left fun tile _ => htile tile
  have hflat : Holding.flatNeed hs = Holding.flatNeed hs' := ((h.filter _).map _).sum_eq
  simp only [need, htiles, hflat]

/-- nor on the order of the consumers in each -/
theorem need_map_congr {l : List Key} {f g : Key → Holding} (hsize : ∀ q ∈ l, (f q).size = (g q).size)
    (hhead : ∀ q ∈ l, (f q).headroom = (g q).headroom) (htiles : ∀ q ∈ l, (f q).tiles.Perm (g q).tiles) :
    hw.need direction (l.map f) = hw.need direction (l.map g) := by
  have hflat : Holding.flatNeed (l.map f) = Holding.flatNeed (l.map g) := by
    have hfilter : l.filter (fun q => !(f q).tiles.isEmpty) = l.filter fun q => !(g q).tiles.isEmpty :=
      List.filter_congr fun q hq => by rw [(htiles q hq).isEmpty_eq]
    simp only [Holding.flatNeed, List.filter_map, List.map_map, Function.comp_def, hfilter]
    exact congrArg List.sum (List.map_congr_left fun q hq => by rw [hsize q (List.mem_of_mem_filter hq)])
  have htile : ∀ tile, Holding.tileNeed hw.tileSlots direction (l.map f) tile =
      Holding.tileNeed hw.tileSlots direction (l.map g) tile := by
    intro tile
    have hfilter : l.filter (fun q => decide (tile ∈ (f q).hits hw.tileSlots)) =
        l.filter fun q => decide (tile ∈ (g q).hits hw.tileSlots) :=
      List.filter_congr fun q hq => decide_eq_decide.2 ((htiles q hq).map _).mem_iff
    simp only [Holding.tileNeed, List.filter_map, List.map_map, Function.comp_def, hfilter]
    refine congrArg List.sum (List.map_congr_left fun q hq => ?_)
    have hq := List.mem_of_mem_filter hq
    cases direction <;> simp only [Holding.charge, hsize q hq, hhead q hq]
  have hall : Holding.tileNeeds hw.tileSlots direction (l.map f) = Holding.tileNeeds hw.tileSlots direction (l.map g) :=
    List.map_congr_left fun tile _ => htile tile
  simp only [need, hall, hflat]

end Hardware

/-- moving a member to the end of its own list reorders it -/
theorem Layout.relink_perm {s : Store Record} {L : Layout} (hl : Linked s L) {R : Roster} {x : Key}
    {target : Option Key} (h : s.ownerOf? R x = target) (R' : Roster) (o : Key) :
    (L.relink R x target R' o).Perm (L R' o) := by
  by_cases hR : R' = R
  · subst hR
    have hmem : x ∈ L R' o ↔ target = some o := by rw [← h, hl.ownerOf?_eq_some]
    simp only [relink, if_true]
    by_cases hx : target = some o
    · have hmem := hmem.2 hx
      have hfilter : (L R' o).filter (fun y => y ≠ x) = (L R' o).erase x := by
        rw [(hl.nodup R' o).erase_eq_filter]
        exact List.filter_congr fun y _ => by rw [Bool.eq_iff_iff]; simp
      rw [if_pos hx, hfilter]
      exact (List.perm_append_singleton ..).trans (List.perm_cons_erase hmem).symm
    · rw [if_neg hx, List.append_nil, filter_ne_of_not_mem (mt hmem.1 hx)]
  · simp [relink, hR]

namespace Change

/-- a change that puts a member at the end of the list it is in, and changes nothing else -/
def IsIdle (s : Store Record) : Change → Prop
  | .bind consumer target => s.ownerOf? .profileConsumers consumer = target
  | .profilePool profile pool => s.ownerOf? .poolProfiles profile = some pool
  | _ => False

/-- **After a change to what is there already everything still holds.** -/
theorem Made.holds_of_isIdle {hw : Hardware} {s t : Store Record} {L : Layout} {c : Change} (h : c.Made s t)
    (hs : Sound hw s L) (hidle : c.IsIdle s) : t.Holds hw := by
  obtain ⟨hwt, happ⟩ := h.applied hs.wired
  have hperm : ∀ R o, (c.relayout L R o).Perm (L R o) := by
    intro R o
    cases c with
    | bind consumer target =>
      rw [relayout_bind]
      exact Layout.relink_perm hs.wired.linked hidle R o
    | profilePool profile pool =>
      rw [relayout_profilePool]
      exact Layout.relink_perm hs.wired.linked hidle R o
    | _ => exact hidle.elim
  have hcontents : (∀ k p, c.recharge k p = p) ∧ ∀ k p, c.resize k p = p := by
    cases c with
    | bind | profilePool => exact ⟨fun _ _ => rfl, fun _ _ => rfl⟩
    | _ => exact hidle.elim
  intro k p hp
  have hk := hwt.kind_of_pool? hp
  have hc : s.contains k = true := happ.contains ▸ Store.contains_of_pool? hp
  obtain ⟨q, hq⟩ := hs.wired.exists_pool hc hk
  obtain ⟨p', hp', hsize, hdir⟩ := pool?_of_core (happ.core k) hq
  obtain rfl : p' = p := Option.some.inj (hp'.symm.trans hp)
  rw [hwt.reserved_eq (Store.contains_of_pool? hp) hk, hdir, happ.holdings hs.wired h.buildable, hsize,
    hcontents.2 k q]
  have hholds : s.reserved hw q.direction k ≤ q.size.toNat := hs.holds k q hq
  rw [hs.wired.reserved_eq hc hk] at hholds
  refine le_of_eq_of_le ?_ hholds
  have halike : ∀ x, (s.holding c L x).size = (s.holding (.recompute k) L x).size ∧
      (s.holding c L x).headroom = (s.holding (.recompute k) L x).headroom ∧
      (s.holding c L x).tiles.Perm (s.holding (.recompute k) L x).tiles := by
    intro x
    unfold Store.holding
    cases s.profile? x with
    | none => exact ⟨rfl, rfl, .refl _⟩
    | some r =>
      have hr := hcontents.1 x r
      exact ⟨congrArg Profile.size hr, congrArg Profile.headroom hr, (hperm .profileConsumers x).map _⟩
  calc hw.need q.direction (s.holdings c L k)
      = hw.need q.direction ((L .poolProfiles k).map (s.holding c L)) :=
        Hardware.need_perm ((hperm .poolProfiles k).map _)
    _ = hw.need q.direction (s.holdings (.recompute k) L k) :=
        Hardware.need_map_congr (fun x _ => (halike x).1) (fun x _ => (halike x).2.1) fun x _ => (halike x).2.2

end Change

end SharedBuffer
