/-
What a planned change comes to.

A change that passes its plan is made, and the planned figures are written: `Change.Outcome`. Apart from the figures of
pools this is the change and nothing else, and every pool has afterwards the figures that its new holdings give.

A change that leaves every pool lighter (`Change.Lightens`) is not refused, whatever the hardware, since what was
reserved before fits; and no pool shares less afterwards.

Results: `Change.Outcome.sound`, `Change.Lightens.exists_plan` and `Change.Outcome.sharedSize_le`.
-/
import SharedBuffer.Proofs.Accounting.Contents
import SharedBuffer.Proofs.Accounting.Fewer
import SharedBuffer.Proofs.Accounting.Foresight

namespace SharedBuffer

open Accounting

namespace Change

/-- `t` is what a change comes to: its plan passed, the change was made, and the planned figures were written -/
def Outcome (c : Change) (hw : Hardware) (s t : Store Record) : Prop :=
  ∃ figures u, plan hw s c = .ok figures ∧ c.apply.run s = (.ok (), u) ∧ t = u.written figures

namespace Outcome

variable {hw : Hardware} {c : Change} {s t : Store Record} {L : Layout} {k : Key}

theorem planned (h : c.Outcome hw s t) : ∃ figures, plan hw s c = .ok figures := by
  obtain ⟨figures, -, hplan, -⟩ := h
  exact ⟨figures, hplan⟩

theorem contains (h : c.Outcome hw s t) : t.contains k = s.contains k := by
  obtain ⟨figures, u, -, hrun, rfl⟩ := h
  rw [(applied_written k u figures).contains, contains_apply hrun]

/-- what a change comes to has the contents and the lists that the change gives -/
theorem applied (h : c.Outcome hw s t) (hs : Sound hw s L) (hb : c.Buildable s) :
    Wired hw t (c.relayout L) none ∧ c.Applied s t := by
  obtain ⟨figures, u, -, hrun, rfl⟩ := h
  obtain ⟨w, happ⟩ := Made.applied ⟨hb, hrun⟩ hs.wired
  refine ⟨w.written figures, fun k => ?_, fun R x hR => (Store.linkAt_written ..).trans (happ.ports R x hR)⟩
  rw [(applied_written k u figures).core, funext (rewrite_recompute k k), Option.map_id', happ.core]

/-- a change that has come to something could be made -/
theorem countable (h : c.Outcome hw s t) (hs : Sound hw s L) (hb : c.Buildable s) : c.Countable s := by
  obtain ⟨figures, u, -, hrun, -⟩ := h
  exact Made.countable ⟨hb, hrun⟩ hs.wired

/-- **What a planned change comes to is sound.** -/
theorem sound (h : c.Outcome hw s t) (hs : Sound hw s L) (hb : c.Buildable s) : Sound hw t (c.relayout L) := by
  refine ⟨(h.applied hs hb).1, ?_⟩
  obtain ⟨figures, u, hplan, hrun, rfl⟩ := h
  obtain ⟨u', hrun', w, happ, hkeep, -⟩ := c.apply_run hs.wired hb (Made.countable ⟨hb, hrun⟩ hs.wired)
  obtain rfl := congrArg Prod.snd (hrun'.symm.trans hrun)
  exact happ.accounted hs.wired w hb hs.accounted hplan hkeep

/-- where a member is afterwards -/
theorem ownerOf?_eq_some (h : c.Outcome hw s t) (hs : Sound hw s L) (hb : c.Buildable s) {R : Roster} {o : Key} :
    t.ownerOf? R k = some o ↔ k ∈ c.relayout L R o := (h.applied hs hb).1.linked.ownerOf?_eq_some

/-- who is bound to what, after a binding -/
theorem binding {x : Key} {target : Option Key} (h : (Change.bind x target).Outcome hw s t) (hs : Sound hw s L)
    (hb : (Change.bind x target).Buildable s) (y : Key) :
    t.ownerOf? .profileConsumers y = if y = x then target else s.ownerOf? .profileConsumers y :=
  hs.wired.linked.ownerOf?_relink (relayout_bind x target ▸ (h.applied hs hb).1.linked) y

/-- which profile belongs to which pool, after one has moved -/
theorem housing {profile pool : Key} (h : (Change.profilePool profile pool).Outcome hw s t) (hs : Sound hw s L)
    (hb : (Change.profilePool profile pool).Buildable s) (y : Key) :
    t.ownerOf? .poolProfiles y = if y = profile then some pool else s.ownerOf? .poolProfiles y :=
  hs.wired.linked.ownerOf?_relink (relayout_profilePool profile pool ▸ (h.applied hs hb).1.linked) y

/-- a change that binds nobody leaves every consumer where it is -/
theorem binding_of_ne (h : c.Outcome hw s t) (hs : Sound hw s L) (hb : c.Buildable s)
    (hc : ∀ x target, c ≠ .bind x target) (y : Key) :
    t.ownerOf? .profileConsumers y = s.ownerOf? .profileConsumers y := by
  refine hs.wired.linked.ownerOf?_congr (h.applied hs hb).1.linked fun o => ?_
  cases c with
  | bind x target => exact absurd rfl (hc x target)
  | _ => exact Iff.rfl

/-- a change that moves no profile leaves every profile where it is -/
theorem housing_of_ne (h : c.Outcome hw s t) (hs : Sound hw s L) (hb : c.Buildable s)
    (hc : ∀ profile pool, c ≠ .profilePool profile pool) (y : Key) :
    t.ownerOf? .poolProfiles y = s.ownerOf? .poolProfiles y := by
  refine hs.wired.linked.ownerOf?_congr (h.applied hs hb).1.linked fun o => ?_
  cases c with
  | profilePool profile pool => exact absurd rfl (hc profile pool)
  | _ => exact Iff.rfl

/-- **A pool has the figures that its holdings give** after the change. -/
theorem exists_pool (h : c.Outcome hw s t) (hs : Sound hw s L) (hb : c.Buildable s) {p : Pool}
    (hp : s.pool? k = some p) : ∃ p', t.pool? k = some p' ∧ p'.size = (c.resize k p).size ∧
      p'.direction = p.direction ∧ figure hw k (c.resize k p).size p.direction (s.holdings c L k) = .ok p'.totals := by
  obtain ⟨w, happ⟩ := h.applied hs hb
  obtain ⟨p', hp', hsize, hdir⟩ := pool?_of_core (happ.core k) hp
  have hlive : s.contains k = true ∧ k.kind = .pool := ⟨Store.contains_of_pool? hp, hs.wired.kind_of_pool? hp⟩
  refine ⟨p', hp', hsize, hdir, ?_⟩
  rw [← hs.wired.totals_eq hb hw hp, ← happ.totals_eq hs.wired w hb hlive]
  exact (h.sound hs hb).accounted k p' hp'

end Outcome

/-! ## Changes that give memory back -/

/-- a change that leaves every pool its size, and no more to reserve -/
def Lightens (c : Change) (hw : Hardware) (s : Store Record) (L : Layout) : Prop :=
  ∀ k p, s.pool? k = some p → (c.resize k p).size = p.size ∧
    Holding.Lighter hw.tileSlots p.direction (s.holdings c L k) (s.holdings (.recompute k) L k)

section

variable {hw : Hardware} {c : Change} {s t : Store Record} {L : Layout} {k : Key}

/-- a change that leaves profiles in their pools lightens if no profile holds more -/
theorem Lightens.of_holding (hsize : ∀ k p, c.resize k p = p)
    (hlist : ∀ k, c.relayout L .poolProfiles k = L .poolProfiles k)
    (h : ∀ k j, (s.holding c L k).Within (s.holding (.recompute j) L k)) : c.Lightens hw s L := by
  refine fun k p _ => ⟨by rw [hsize], ?_⟩
  have hholds : s.holdings c L k = (L .poolProfiles k).map (s.holding c L) := by rw [Store.holdings, hlist]
  rw [hholds]
  exact .of_map fun q _ => h q k

/-- a consumer that leaves its profile takes nothing away, nor does one that comes to a profile which has a consumer on
the same tile -/
theorem lightens_bind {consumer : Key} {target : Option Key}
    (h : ∀ profile, target = some profile →
      ∃ y ∈ L .profileConsumers profile, s.tileOf y = s.tileOf consumer) :
    (Change.bind consumer target).Lightens hw s L := by
  refine .of_holding (fun _ _ => rfl) (fun _ => rfl) fun k j => ?_
  unfold Store.holding
  cases s.profile? k with
  | none => exact .refl _
  | some p =>
    refine ⟨UInt64.le_refl _, UInt64.le_refl _, fun tile htile => ?_⟩
    obtain ⟨x, hx, rfl⟩ := List.mem_map.1 htile
    rcases List.mem_append.1 hx with hx | hx
    · exact List.mem_map_of_mem (List.mem_of_mem_filter hx)
    · split at hx
      · rename_i htarget
        obtain ⟨y, hy, hyx⟩ := h k htarget
        obtain rfl := List.mem_singleton.1 hx
        exact hyx ▸ List.mem_map_of_mem hy
      · cases hx

/-- so do other contents of profiles that make none of them larger -/
theorem Lightens.of_recharge (hsize : ∀ k p, c.resize k p = p) (hlist : c.relayout L = L)
    (h : ∀ k p, s.profile? k = some p → (c.recharge k p).size ≤ p.size ∧ (c.recharge k p).headroom ≤ p.headroom) :
    c.Lightens hw s L := by
  refine .of_holding hsize (fun k => by rw [hlist]) fun k j => ?_
  have hsame : (recompute j).relayout L = L := rfl
  unfold Store.holding
  rw [hlist, hsame]
  cases hp : s.profile? k with
  | none => exact .refl _
  | some p => exact ⟨(h k p hp).1, (h k p hp).2, List.Subset.refl _⟩

theorem lightens_profileSize {p : Profile} (hp : s.profile? k = some p) {size : UInt64} (h : size ≤ p.size) :
    (Change.profileSize k size).Lightens hw s L := by
  refine .of_recharge (fun _ _ => rfl) rfl fun j q hq => ?_
  by_cases hk : k = j
  · subst hk
    obtain rfl := Option.some.inj (hp.symm.trans hq)
    simpa [recharge, Profile.headroom] using h
  · simp [recharge, hk]

theorem lightens_profileHeadroom {p : Profile} (hp : s.profile? k = some p) {xoff xon : UInt64}
    (h : max xoff xon ≤ p.headroom) : (Change.profileHeadroom k xoff xon).Lightens hw s L := by
  refine .of_recharge (fun _ _ => rfl) rfl fun j q hq => ?_
  by_cases hk : k = j
  · subst hk
    obtain rfl := Option.some.inj (hp.symm.trans hq)
    rw [recharge, if_pos rfl]
    exact ⟨UInt64.le_refl _, h⟩
  · simp [recharge, hk]

/-- the figures of a pool after a change that lightens -/
theorem Lightens.exists_figure (h : c.Lightens hw s L) (hs : Sound hw s L) {p : Pool} (hp : s.pool? k = some p) :
    ∃ tot, figure hw k (c.resize k p).size p.direction (s.holdings c L k) = .ok tot ∧ p.sharedSize ≤ tot.sharedSize := by
  obtain ⟨hsize, hlight⟩ := h k p hp
  rw [hsize]
  exact figure_mono hlight (hs.accounted.figure_eq hs.wired hp)

/-- **A change that lightens passes its plan.** -/
theorem Lightens.exists_plan (h : c.Lightens hw s L) (hs : Sound hw s L) (hb : c.Buildable s) (hn : c.Countable s) :
    ∃ figures, plan hw s c = .ok figures := by
  refine hs.wired.exists_plan hb hn fun k p hp => ?_
  obtain ⟨tot, htot, -⟩ := h.exists_figure hs hp
  exact ⟨tot, htot⟩

/-- **No pool shares less** after a change that lightens. -/
theorem Outcome.sharedSize_le (h : c.Outcome hw s t) (hs : Sound hw s L) (hb : c.Buildable s)
    (hlight : c.Lightens hw s L) {p : Pool} (hp : s.pool? k = some p) :
    ∃ p', t.pool? k = some p' ∧ p.sharedSize ≤ p'.sharedSize := by
  obtain ⟨p', hp', -, -, hfigure⟩ := h.exists_pool hs hb hp
  obtain ⟨tot, htot, hle⟩ := hlight.exists_figure hs hp
  obtain rfl := Except.ok.inj (htot.symm.trans hfigure)
  exact ⟨p', hp', hle⟩

end

end Change

end SharedBuffer
