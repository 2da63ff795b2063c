/-
Pools whose stored figures are the ones that would be derived.

`Accounted` is the invariant the accounting rests on: deriving the figures of any live pool, as things stand, gives
what is stored in it. A change keeps it if the planned figures are written into the pools it concerns.

Results:
- `Change.Applied.accounted`: after a planned change and the writing of its figures, every pool is accounted for;
- `Accounted.balances`: in an accounted store, what is shared and what is reserved is the size of the pool, exactly.
-/
import SharedBuffer.Proofs.Accounting.Concerned

namespace SharedBuffer

open Accounting

/-- a pool with other figures -/
def Pool.withTotals (t : Totals) (p : Pool) : Pool :=
  { p with sharedSize := t.sharedSize, tileReserved := t.tileReserved, tilesTotalReserved := t.tilesTotalReserved }

/-- every live pool stores the figures that would be derived for it -/
def Accounted (hw : Hardware) (s : Store Record) : Prop :=
  ∀ k p, s.pool? k = some p → totals hw s (.recompute k) k = .ok p.totals

namespace Store

/-- the store with figures written into their pools -/
def written (s : Store Record) (figures : List (Key × Totals)) : Store Record :=
  figures.foldl (fun s (k, t) => s.edit k (Record.mapPool (Pool.withTotals t))) s

variable {s : Store Record} {figures : List (Key × Totals)} {k : Key}

theorem written_cons (j : Key) (t : Totals) : s.written ((j, t) :: figures) =
    (s.edit j (Record.mapPool (Pool.withTotals t))).written figures := rfl

theorem keepsWiring_withTotals (t : Totals) : Record.KeepsWiring (Record.mapPool (Pool.withTotals t)) :=
  Record.keepsWiring_mapPool (fun _ => rfl) fun _ => rfl

/-- what no single figure changes is not changed by any number of them -/
theorem view_written {β : Type} (view : Store Record → β)
    (h : ∀ (s : Store Record) j t, view (s.edit j (Record.mapPool (Pool.withTotals t))) = view s) (s : Store Record)
    (figures : List (Key × Totals)) : view (s.written figures) = view s := by
  induction figures generalizing s with
  | nil => rfl
  | cons f figures ih =>
    obtain ⟨j, t⟩ := f
    calc view (s.written ((j, t) :: figures))
        = view ((s.edit j (Record.mapPool (Pool.withTotals t))).written figures) := rfl
      _ = view (s.edit j (Record.mapPool (Pool.withTotals t))) := ih _
      _ = view s := h s j t

theorem refsAt_written (k : Key) (s : Store Record) (figures : List (Key × Totals)) :
    (s.written figures).refsAt k = s.refsAt k :=
  view_written (fun s => s.refsAt k) (fun _ _ t => refsAt_edit (keepsWiring_withTotals t).refs) s figures

/-- a pool holds the figures that were written into it, or else its old ones -/
theorem pool?_written {p : Pool} (h : (s.written figures).pool? k = some p) :
    ∃ p', s.pool? k = some p' ∧
      (k ∉ figures.map Prod.fst ∧ p = p' ∨ ∃ t, (k, t) ∈ figures ∧ p.totals = t) := by
  induction figures generalizing s with
  | nil => exact ⟨p, h, .inl ⟨by simp, rfl⟩⟩
  | cons f figures ih =>
    obtain ⟨j, t⟩ := f
    rw [written_cons] at h
    obtain ⟨p', hp', hrest⟩ := ih h
    have hold : ∃ q, s.pool? k = some q ∧ p' = if k = j then q.withTotals t else q := by
      unfold pool? at hp'
      rw [get?_edit] at hp'
      cases hg : s.get? k with
      | none => simp [hg] at hp'
      | some r =>
        cases r
        case pool q =>
          refine ⟨q, by rw [pool?, hg]; rfl, ?_⟩
          rw [hg] at hp'
          by_cases hkj : k = j
          · rw [if_pos hkj] at hp' ⊢
            exact (Option.some.inj hp').symm
          · rw [if_neg hkj] at hp' ⊢
            exact (Option.some.inj hp').symm
        all_goals split at hp' <;> simp [hg, Record.mapPool, Record.asPool?] at hp'
    obtain ⟨q, hq, hpq⟩ := hold
    refine ⟨q, hq, ?_⟩
    rcases hrest with ⟨hout, rfl⟩ | ⟨u, hu, hpu⟩
    · by_cases hkj : k = j
      · rw [if_pos hkj] at hpq
        exact .inr ⟨t, by simp [hkj], by rw [hpq]; rfl⟩
      · rw [if_neg hkj] at hpq
        exact .inl ⟨by simpa [hkj] using hout, hpq⟩
    · exact .inr ⟨u, List.mem_cons_of_mem _ hu, hpu⟩

end Store

theorem Wired.written {hw : Hardware} {s : Store Record} {L : Layout} {out : Option Key} (w : Wired hw s L out)
    (figures : List (Key × Totals)) : Wired hw (s.written figures) L out := by
  induction figures generalizing s with
  | nil => exact w
  | cons f figures ih => exact ih (w.edit (Store.keepsWiring_withTotals f.2))

/-- figures are not derived from figures -/
theorem Change.applied_written (j : Key) (s : Store Record) (figures : List (Key × Totals)) :
    (Change.recompute j).Applied s (s.written figures) := by
  have hid : ∀ k, (Change.recompute j).rewrite k = id := fun k =>
    funext (rewrite_eq_self (fun _ _ => rfl) fun _ _ => rfl)
  induction figures generalizing s with
  | nil => exact ⟨fun k => by rw [hid, Option.map_id]; rfl, fun _ _ _ => rfl⟩
  | cons f figures ih =>
    obtain ⟨k, t⟩ := f
    have h1 : (Change.recompute j).Applied s (s.edit k (Record.mapPool (Pool.withTotals t))) := by
      refine applied_edit (Store.keepsWiring_withTotals t) (fun r => ?_) fun j r _ => by rw [hid]; rfl
      rw [hid]
      cases r <;> rfl
    have h2 := ih (s.edit k (Record.mapPool (Pool.withTotals t)))
    refine ⟨fun i => ?_, fun R x hR => (h2.ports R x hR).trans (h1.ports R x hR)⟩
    rw [Store.written_cons, h2.core, h1.core, hid, Option.map_id, id]

section

variable {hw : Hardware} {s t : Store Record} {L L' : Layout} {c : Change} {figures : List (Key × Totals)}

/-- the records hang together and every pool is accounted for -/
structure Sound (hw : Hardware) (s : Store Record) (L : Layout) : Prop where
  wired : Wired hw s L none
  accounted : Accounted hw s

/-- an accounted pool has the figures that its holdings give -/
theorem Accounted.figure_eq (h : Accounted hw s) (w : Wired hw s L none) {k : Key} {p : Pool} (hp : s.pool? k = some p) :
    figure hw k p.size p.direction (s.holdings (.recompute k) L k) = .ok p.totals := by
  rw [← h k p hp, w.totals_eq (c := .recompute k) ⟨Store.contains_of_pool? hp, w.kind_of_pool? hp⟩ hw hp]
  rfl

/-- **An accounted pool balances**: what it shares and what its profiles hold is its size. -/
theorem Accounted.balances (h : Accounted hw s) (w : Wired hw s L none) {k : Key} {p : Pool} (hp : s.pool? k = some p) :
    Balances hw p.direction (s.holdings (.recompute k) L k) p.size p.totals := figure_ok (h.figure_eq w hp)

/-- pools stay accounted for where the derived figures and the stored ones stay -/
theorem Accounted.of_kept (h : Accounted hw s) (hkeep : Store.KeepsTotals s t)
    (htot : ∀ k p, s.pool? k = some p → t.contains k = true →
      totals hw t (.recompute k) k = totals hw s (.recompute k) k) : Accounted hw t := by
  intro k p hp
  obtain ⟨p', hp', heq⟩ := hkeep k p hp
  rw [htot k p' hp' (Store.contains_of_pool? hp), h k p' hp', heq]

/-- writing derived figures leaves every pool accounted for, if the others are already -/
theorem accounted_written (w : Wired hw t L' none)
    (hfig : ∀ k u, (k, u) ∈ figures → totals hw t (.recompute k) k = .ok u)
    (hrest : ∀ k p, t.pool? k = some p → k ∉ figures.map Prod.fst → totals hw t (.recompute k) k = .ok p.totals) :
    Accounted hw (t.written figures) := by
  intro k p hp
  obtain ⟨p', hp', hcase⟩ := Store.pool?_written hp
  have hlive : t.contains k = true ∧ k.kind = .pool := ⟨Store.contains_of_pool? hp', w.kind_of_pool? hp'⟩
  rw [(Change.applied_written k t figures).totals_eq (c := .recompute k) w (w.written figures) hlive hlive]
  rcases hcase with ⟨hout, rfl⟩ | ⟨u, hu, hpu⟩
  · exact hrest k p hp' hout
  · rw [hpu]
    exact hfig k u hu

/-- **A planned change leaves every pool accounted for**, once its figures are written. -/
theorem Change.Applied.accounted (h : c.Applied s t) (w : Wired hw s L none) (w' : Wired hw t (c.relayout L) none)
    (hb : c.Buildable s) (ha : Accounted hw s) (hplan : plan hw s c = .ok figures)
    (hkeep : Store.KeepsTotals s t) : Accounted hw (t.written figures) := by
  obtain ⟨hks, hfig⟩ := plan_ok hplan
  refine accounted_written w' (fun k u hu => ?_) fun k p hp hout => ?_
  · obtain ⟨q, hq⟩ := exists_pool_of_totals (hfig k u hu)
    rw [h.totals_eq w w' hb ⟨Store.contains_of_pool? hq, w.kind_of_pool? hq⟩]
    exact hfig k u hu
  · obtain ⟨q, hq, htot⟩ := hkeep k p hp
    have hlive : s.contains k = true ∧ k.kind = .pool := ⟨Store.contains_of_pool? hq, w.kind_of_pool? hq⟩
    rw [h.totals_eq w w' hb hlive, w.totals_unconcerned hb (w.covers_affectedPools hks) hout hlive, ha k q hq, htot]

end

/-! ## Changes that need no evaluation -/

namespace Wired

variable {hw hw' : Hardware} {s t : Store Record} {L L' : Layout} {k q x : Key}

/-- a key with the same core is as after no change -/
theorem rewrite_of_coreAt (h : t.coreAt k = s.coreAt k) :
    t.coreAt k = (s.coreAt k).map ((Change.recompute k).rewrite k) := by
  rw [h, funext (Change.rewrite_recompute k k)]
  exact Option.map_id'.symm

/-- consumers stay on their tiles where ports keep theirs and their lists lose nobody -/
theorem tileOf_congr (w : Wired hw s L none) (w' : Wired hw' t L' none)
    (hports : ∀ o, s.contains o = true → o.kind = .port → t.coreAt o = s.coreAt o)
    (hlists : ∀ R o m, R.ownerKind = .port → m ∈ L R o → m ∈ L' R o)
    (hc : s.contains x = true) (hk : Roster.profileConsumers.takes x.kind = true) : t.tileOf x = s.tileOf x := by
  have hport' : ∀ {o p}, t.coreAt o = s.coreAt o → s.port? o = some p →
      ∃ p', t.port? o = some p' ∧ p'.tile = p.tile := by
    intro o p ho hp
    have htile := Change.port?_of_core (rewrite_of_coreAt ho)
    rw [hp] at htile
    exact Option.map_eq_some_iff.1 htile
  have hsub : ∀ {R}, x.kind.home? = some R → R.ownerKind = .port → t.tileOf x = s.tileOf x := by
    intro R hR hport
    obtain ⟨o, hm, ho, hok⟩ := w.home x R hc hR (by simp)
    obtain ⟨p, hp⟩ := w.exists_port ho (hok.trans hport)
    obtain ⟨p', hp', htile⟩ := hport' (hports o ho (hok.trans hport)) hp
    rw [Store.tileOf, Store.tileOf, w.portOf?_of_mem hport hm hp,
      w'.portOf?_of_mem hport (hlists R o x hport hm) hp']
    exact htile
  cases hkind : x.kind
  case port =>
    obtain ⟨p, hp⟩ := w.exists_port hc hkind
    obtain ⟨p', hp', htile⟩ := hport' (hports x hc hkind) hp
    rw [Store.tileOf, Store.tileOf, Store.portOf?, Store.portOf?, Store.port?_eq_some.1 hp, Store.port?_eq_some.1 hp']
    exact htile
  case priorityGroup => exact hsub (R := .portPriorityGroups) (by rw [hkind]; rfl) rfl
  case queue => exact hsub (R := .portQueues) (by rw [hkind]; rfl) rfl
  all_goals rw [hkind] at hk; cases hk

/-- a profile with the same core and the same consumers holds the same -/
theorem holding_congr (w : Wired hw s L none) (w' : Wired hw' t L' none)
    (hports : ∀ o, s.contains o = true → o.kind = .port → t.coreAt o = s.coreAt o)
    (hlists : ∀ R o m, R.ownerKind = .port → m ∈ L R o → m ∈ L' R o)
    (hc : s.contains q = true) (hk : q.kind = .profile) (hq : t.coreAt q = s.coreAt q)
    (hcons : L' .profileConsumers q = L .profileConsumers q) (j : Key) :
    t.holding (.recompute j) L' q = s.holding (.recompute j) L q := by
  obtain ⟨p, hp⟩ := w.exists_profile hc hk
  obtain ⟨p', hp', hsize, hhead⟩ := Change.profile?_of_core (rewrite_of_coreAt hq) hp
  simp only [Store.holding, hp, hp', Change.recharge, hsize, hhead, Holding.mk.injEq, true_and]
  have hrel : ∀ M : Layout, (Change.recompute j).relayout M = M := fun _ => rfl
  rw [hrel, hrel, hcons]
  refine List.map_congr_left fun x hx => ?_
  obtain ⟨hxc, hxk⟩ := w.takes_of_mem hx
  exact w.tileOf_congr w' hports hlists hxc hxk

/-- **A pool keeps its figures** where its profiles hold what they held. -/
theorem totals_congr (w : Wired hw s L none) (w' : Wired hw' t L' none)
    (hports : ∀ o, s.contains o = true → o.kind = .port → t.coreAt o = s.coreAt o)
    (hlists : ∀ R o m, R.ownerKind = .port → m ∈ L R o → m ∈ L' R o)
    (hk : s.contains k = true ∧ k.kind = .pool) (hpool : t.coreAt k = s.coreAt k)
    (hlist : L' .poolProfiles k = L .poolProfiles k)
    (hprofiles : ∀ q ∈ L .poolProfiles k,
      t.coreAt q = s.coreAt q ∧ L' .profileConsumers q = L .profileConsumers q) (hw₀ : Hardware) :
    totals hw₀ t (.recompute k) k = totals hw₀ s (.recompute k) k := by
  obtain ⟨p, hp⟩ := w.exists_pool hk.1 hk.2
  obtain ⟨p', hp', hsize, hdir⟩ := Change.pool?_of_core (rewrite_of_coreAt hpool) hp
  rw [w.totals_eq (c := .recompute k) hk hw₀ hp,
    w'.totals_eq (c := .recompute k) ⟨Store.contains_of_pool? hp', hk.2⟩ hw₀ hp', hdir]
  have hholds : t.holdings (.recompute k) L' k = s.holdings (.recompute k) L k := by
    change (L' .poolProfiles k).map _ = (L .poolProfiles k).map _
    rw [hlist]
    refine List.map_congr_left fun q hq => ?_
    obtain ⟨hqc, hqk⟩ := w.takes_of_mem hq
    exact w.holding_congr w' hports hlists hqc (Roster.eq_profile_of_takes hqk) (hprofiles q hq).1
      (hprofiles q hq).2 k
  rw [hholds]
  exact congrArg (fun n => figure hw₀ k n p.direction (s.holdings (.recompute k) L k)) hsize

end Wired

/-- **Contents that no figure depends on** may change at will. -/
theorem Sound.edit {hw : Hardware} {s : Store Record} {L : Layout} (h : Sound hw s L) (k : Key) {f : Record → Record}
    (hf : Record.KeepsWiring f) (hcore : ∀ r, (f r).core = r.core)
    (htot : ∀ r, (f r).asPool?.map Pool.totals = r.asPool?.map Pool.totals) : Sound hw (s.edit k f) L := by
  have w' := h.wired.edit (k := k) hf
  refine ⟨w', h.accounted.of_kept (Store.keepsTotals_edit s k htot) fun j p hp _ => ?_⟩
  have hlive : s.contains j = true ∧ j.kind = .pool := ⟨Store.contains_of_pool? hp, h.wired.kind_of_pool? hp⟩
  have hid := Change.rewrite_recompute j
  have happ : (Change.recompute j).Applied s (s.edit k f) :=
    Change.applied_edit hf (fun r => by rw [hid, hcore]) fun i r _ => hid i r
  exact happ.totals_eq (c := .recompute j) h.wired w' hlive hlive

end SharedBuffer
