/-
A profile that moves to another pool.

A move concerns two pools. The one that is left only gets lighter, so it is the one that is joined which refuses the
move, if any does: by what its profiles take together with the one that comes. Of the pool that is left nothing else is
derived than if the profile had no consumers, since such a profile takes nothing.

Results: `Sound.plan_profilePool_iff` and `Change.Outcome.balanced_left`.
-/
import SharedBuffer.Proofs.Accounting.Outcome

namespace SharedBuffer

open Accounting

/-! ## A profile without consumers -/

namespace Store

variable {hw : Hardware} {s t : Store Record} {R : Roster} {k o q : Key} {p : Profile}

/-- the store as if a profile had no consumers: its list is empty, and all else is as it is -/
def withoutConsumers (s : Store Record) (k : Key) : Store Record :=
  s.edit k (Record.mapProfile fun p => { p with consumers := {} })

/-- a walk depends on its start, on what comes after each member, and on the number of records -/
theorem members_congr (hsize : t.size = s.size) (hnext : ∀ x, t.nextMember? R x = s.nextMember? R x)
    (hhead : t.ownerHead R o = s.ownerHead R o) : t.members R o = s.members R o := by
  have hwalk : ∀ n start, t.walk R n start = s.walk R n start := by
    intro n
    induction n with
    | zero => intro start; cases start <;> rfl
    | succ n ih =>
      intro start
      cases start with
      | none => rfl
      | some x => rw [walk, walk, hnext, ih]
  simp only [members, membersUpTo, hsize, hhead, hwalk]

theorem size_withoutConsumers : (s.withoutConsumers k).size = s.size := by
  have hkeys := congrArg List.length
    (KeyMap.keys_modifyEntry k (Record.mapProfile fun p => { p with consumers := {} }) s.records.entries)
  rw [List.length_map, List.length_map] at hkeys
  exact hkeys

theorem get?_withoutConsumers_of_ne (h : q ≠ k) : (s.withoutConsumers k).get? q = s.get? q := by
  rw [withoutConsumers, get?_edit, if_neg h]

theorem get?_withoutConsumers (hp : s.profile? k = some p) :
    (s.withoutConsumers k).get? k = some (.profile { p with consumers := {} }) := by
  rw [withoutConsumers, get?_edit, if_pos rfl, profile?_eq_some.1 hp]
  rfl

/-- the profiles that take part are others -/
theorem ne_of_mem_filter_isActive {l : List Key} (h : q ∈ (l.filter fun q => q ≠ k).filter s.isActive) : q ≠ k := by
  simpa using (List.mem_filter.1 (List.mem_of_mem_filter h)).2

section

variable (hp : s.profile? k = some p)

include hp

/-- every other list is walked as before -/
theorem members_withoutConsumers_of_ne (h : ¬ (R = .profileConsumers ∧ o = k)) :
    (s.withoutConsumers k).members R o = s.members R o := by
  refine members_congr size_withoutConsumers (fun x => ?_) ?_
  · by_cases hx : x = k
    · subst hx
      simp only [nextMember?, get?_withoutConsumers hp, profile?_eq_some.1 hp]
      cases R <;> rfl
    · rw [nextMember?, nextMember?, get?_withoutConsumers_of_ne hx]
  · by_cases ho : o = k
    · subst ho
      simp only [ownerHead, get?_withoutConsumers hp, profile?_eq_some.1 hp]
      cases R
      case profileConsumers => exact absurd ⟨rfl, rfl⟩ h
      all_goals rfl
    · rw [ownerHead, ownerHead, get?_withoutConsumers_of_ne ho]

theorem members_withoutConsumers : (s.withoutConsumers k).members .profileConsumers k = .ok [] := by
  simp only [members, membersUpTo, ownerHead, get?_withoutConsumers hp]
  rfl

theorem portOf?_withoutConsumers (x : Key) : (s.withoutConsumers k).portOf? x = s.portOf? x := by
  have hport : ∀ o, (s.withoutConsumers k).port? o = s.port? o := by
    intro o
    by_cases ho : o = k
    · subst ho
      simp only [port?, get?_withoutConsumers hp, profile?_eq_some.1 hp]
      rfl
    · rw [port?, port?, get?_withoutConsumers_of_ne ho]
  have hport' : (s.withoutConsumers k).port? = s.port? := funext hport
  by_cases hx : x = k
  · subst hx
    simp only [portOf?, get?_withoutConsumers hp, profile?_eq_some.1 hp]
    rfl
  · rw [portOf?, portOf?, get?_withoutConsumers_of_ne hx, hport']

/-- what can be walked still can -/
theorem Walkable.withoutConsumers (h : s.Walkable hw o) : (s.withoutConsumers k).Walkable hw o := by
  obtain ⟨profiles, hprofiles, hall⟩ := h
  refine ⟨profiles, (members_withoutConsumers_of_ne hp (by nofun)).trans hprofiles, fun q hq => ?_⟩
  obtain ⟨⟨r, hr⟩, consumers, hconsumers, hports⟩ := hall q hq
  by_cases hqk : q = k
  · subst hqk
    exact ⟨⟨_, profile?_eq_some.2 (get?_withoutConsumers hp)⟩, [], members_withoutConsumers hp, by nofun⟩
  · refine ⟨⟨r, by rw [profile?, get?_withoutConsumers_of_ne hqk]; exact hr⟩, consumers,
      (members_withoutConsumers_of_ne hp fun e => hqk e.2).trans hconsumers, fun x hx => ?_⟩
    rw [portOf?_withoutConsumers hp]
    exact hports x hx

/-- the profile takes no part any more, and the others do as before -/
theorem filter_isActive_withoutConsumers (l : List Key) :
    l.filter (s.withoutConsumers k).isActive = (l.filter fun q => q ≠ k).filter s.isActive := by
  rw [List.filter_filter]
  refine List.filter_congr fun q _ => ?_
  by_cases hqk : q = k
  · subst hqk
    simp [isActive, listOf, members_withoutConsumers hp]
  · simp [isActive, listOf, members_withoutConsumers_of_ne (R := .profileConsumers) hp fun e => hqk e.2, hqk]

theorem flatTaken_withoutConsumers (l : List Key) :
    (s.withoutConsumers k).flatTaken l = s.flatTaken (l.filter fun q => q ≠ k) := by
  rw [flatTaken, flatTaken, filter_isActive_withoutConsumers hp]
  refine congrArg List.sum (List.map_congr_left fun q hq => ?_)
  rw [sizeOf, sizeOf, profile?, profile?, get?_withoutConsumers_of_ne (ne_of_mem_filter_isActive hq)]

theorem tileTaken_withoutConsumers (direction : Direction) (l : List Key) (tile : Nat) :
    (s.withoutConsumers k).tileTaken direction l tile = s.tileTaken direction (l.filter fun q => q ≠ k) tile := by
  have hreaches : ∀ q, q ≠ k → (s.withoutConsumers k).reaches tile q = s.reaches tile q := by
    intro q hqk
    rw [reaches, reaches, listOf, listOf, members_withoutConsumers_of_ne hp fun e => hqk e.2]
    congr 1
    funext x
    rw [isOnTile, isOnTile, portOf?_withoutConsumers hp]
  rw [tileTaken, tileTaken, filter_isActive_withoutConsumers hp,
    List.filter_congr fun q hq => hreaches q (ne_of_mem_filter_isActive hq)]
  refine congrArg List.sum (List.map_congr_left fun q hq => ?_)
  have hqk := ne_of_mem_filter_isActive (List.mem_of_mem_filter hq)
  rw [chargeOf, chargeOf, profile?, profile?, get?_withoutConsumers_of_ne hqk]

theorem tilesTaken_withoutConsumers (direction : Direction) (l : List Key) :
    (s.withoutConsumers k).tilesTaken hw direction l = s.tilesTaken hw direction (l.filter fun q => q ≠ k) :=
  List.map_congr_left fun tile _ => tileTaken_withoutConsumers hp direction l tile

end

end Store

/-! ## The two pools of a move -/

section

variable {hw : Hardware} {s t : Store Record} {L : Layout} {k o j : Key} {p q : Pool}

/-- the profiles of any pool but the one that is joined -/
theorem Store.holdings_left (s : Store Record) (L : Layout) (h : o ≠ j) :
    s.holdings (.profilePool k o) L j =
      ((L .poolProfiles j).filter fun x => x ≠ k).map (s.holding (.recompute j) L) := by
  simp only [holdings, Change.relayout, Change.relist, if_neg h, List.append_nil]
  rfl

/-- the profiles of the pool that is joined -/
theorem Store.holdings_joined (s : Store Record) {L : Layout} (h : k ∉ L .poolProfiles o) :
    s.holdings (.profilePool k o) L o = (L .poolProfiles o ++ [k]).map (s.holding (.recompute o) L) := by
  simp only [holdings, Change.relayout, Change.relist, if_pos, Layout.filter_ne_of_not_mem h]
  rfl

/-- **A move is refused by the pool that is joined**, if at all: by what its profiles and the new one take. -/
theorem Sound.plan_profilePool_iff (hs : Sound hw s L) (hb : (Change.profilePool k o).Buildable s)
    (hrep : 1 ≤ hw.replication) (hk : k ∉ L .poolProfiles o) (hp : s.pool? o = some p) :
    (∃ figures, plan hw s (.profilePool k o) = .ok figures) ↔
      s.taken hw p.direction (s.listOf .poolProfiles o ++ [k]) ≤ p.size.toNat := by
  have hlive : ∀ x ∈ L .poolProfiles o ++ [k], s.contains x = true ∧ x.kind = .profile :=
    List.forall_mem_append.2 ⟨hs.wired.live_of_poolProfiles, List.forall_mem_singleton.2 hb.1⟩
  have hfits : (∃ tot, figure hw o p.size p.direction (s.holdings (.profilePool k o) L o) = .ok tot) ↔
      hw.need p.direction (s.holdings (.profilePool k o) L o) ≤ p.size.toNat :=
    exists_figure_iff (UInt64.le_iff_toNat_le.1 hrep)
  rw [hs.wired.listOf_eq (R := .poolProfiles) hb.2.1 hb.2.2, hs.wired.taken_eq hlive p.direction o,
    ← s.holdings_joined hk, ← hfits]
  constructor
  · rintro ⟨figures, hplan⟩
    obtain ⟨hks, hfigures⟩ := plan_ok hplan
    obtain ⟨⟨_, tot⟩, hmem, rfl⟩ := List.mem_map.1 (hs.wired.covers_affectedPools hks).2
    have htot := hfigures _ tot hmem
    rw [hs.wired.totals_eq hb hw hp] at htot
    exact ⟨tot, htot⟩
  · rintro ⟨tot, htot⟩
    refine hs.wired.exists_plan hb trivial fun j q hq => ?_
    by_cases hj : o = j
    · subst hj
      obtain rfl := Option.some.inj (hp.symm.trans hq)
      exact ⟨tot, htot⟩
    · -- whatever pool is left holds no more than before
      have hlighter : Holding.Lighter hw.tileSlots q.direction (s.holdings (.profilePool k o) L j)
          (s.holdings (.recompute j) L j) := by
        rw [s.holdings_left L hj]
        exact .of_sublist (List.filter_sublist.map _)
      obtain ⟨tot', htot', -⟩ := figure_mono hlighter (hs.accounted.figure_eq hs.wired hq)
      exact ⟨tot', htot'⟩

/-- a profile that moves is in use as before -/
theorem Change.Outcome.refsAt_profilePool (h : (Change.profilePool k o).Outcome hw s t) (hs : Sound hw s L)
    (hb : (Change.profilePool k o).Buildable s) : t.refsAt k = s.refsAt k := by
  have hother : ∀ j : Key, j.kind = .pool → k ≠ j := fun j hj e => by
    cases hj.symm.trans (e ▸ hb.1.2)
  obtain ⟨figures, u, -, hrun, rfl⟩ := h
  rw [Store.refsAt_written]
  refine Store.Apart.of_relink (V := fun s => s.refsAt k) hrun (fun j hj => ?_) fun j hj => ?_
  · exact Store.apart_refsAt (hother j (hs.wired.pool_of_mem (hs.wired.linked.ownerOf?_eq_some.1 hj)).2.1)
  · exact Store.apart_refsAt (hother j (Option.some.inj hj ▸ hb.2.2))

/-- **The pool that is left has the figures that it would have if the profile had no consumers.** -/
theorem Change.Outcome.balanced_left (h : (Change.profilePool k o).Outcome hw s t) (hs : Sound hw s L)
    (hb : (Change.profilePool k o).Buildable s) (hj : o ≠ j) (hq : s.pool? j = some q) :
    ∃ q', t.pool? j = some q' ∧ q'.size = q.size ∧ q'.direction = q.direction ∧
      Balanced hw (s.withoutConsumers k) j q' := by
  obtain ⟨q', hq', hsize, hdir, hfigure⟩ := h.exists_pool hs hb hq
  obtain ⟨r, hr⟩ := hs.wired.exists_profile hb.1.1 hb.1.2
  have hc := Store.contains_of_pool? hq
  have hkind := hs.wired.kind_of_pool? hq
  have hlive : ∀ x ∈ (L .poolProfiles j).filter fun x => x ≠ k, s.contains x = true ∧ x.kind = .profile :=
    fun x hx => hs.wired.live_of_poolProfiles x (List.mem_of_mem_filter hx)
  have hlist : (s.withoutConsumers k).listOf .poolProfiles j = L .poolProfiles j := by
    rw [Store.listOf, Store.members_withoutConsumers_of_ne hr (by simp)]
    exact hs.wired.listOf_eq (R := .poolProfiles) hc hkind
  rw [s.holdings_left L hj, ← hsize, ← hdir] at hfigure
  refine ⟨q', hq', hsize, hdir, (figure_ok hfigure).balanced ((hs.wired.walkable hc hkind).withoutConsumers hr) ?_
    fun ht => ?_⟩
  · rw [hlist, Store.flatTaken_withoutConsumers hr]
    exact hs.wired.flatTaken_eq hlive j
  · rw [hlist, Store.tilesTaken_withoutConsumers hr]
    exact hs.wired.tilesTaken_eq hlive ht q'.direction j

end

end SharedBuffer
