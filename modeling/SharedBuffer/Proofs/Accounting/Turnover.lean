/-
Records that come and go.

A new pool shares all of its size. A new profile has no consumers and reserves nothing, so that the pool it joins keeps
its figures without anybody deriving them again; ports, priority groups and queues that are not bound to a profile count
for nothing either. What goes has no references left: a pool then has no profiles, and a profile, whose pool is derived
anew, can only make that pool's reservations smaller.

Results: `Sound.insert`, `Sound.adopt`, `Sound.retire_pool` and `Sound.retire_profile`.
-/
import SharedBuffer.Proofs.Accounting.Accounted
import SharedBuffer.Proofs.Accounting.Fewer

namespace SharedBuffer

open Accounting

variable {hw : Hardware} {s t u : Store Record} {L : Layout} {R : Roster} {k j o : Key} {kind : ObjectKind} {r : Record}

/-! ## Coming -/

/-- a record that is in no list is bound to nothing -/
theorem Record.Unlinked.ownerIn?_eq_none (h : r.Unlinked) (R : Roster) : r.ownerIn? R = none := by
  unfold Record.ownerIn?
  rcases hl : r.link? R with - | - | l
  · rfl
  · rfl
  · exact absurd hl (h.2.1 R l)

namespace Store

theorem Inserted.ne_of_contains (h : Inserted s t kind k r) (hs : s.Handed) (hj : s.contains j = true) : j ≠ k := by
  rintro rfl
  exact h.new (hs.issued hj)

/-- a new record is in no list, and the others are where they were -/
theorem Inserted.ownerOf?_eq (h : Inserted s t kind k r) (hr : r.Unlinked) (hs : s.Handed) (R : Roster) :
    t.ownerOf? R j = s.ownerOf? R j := by
  unfold ownerOf?
  rw [h.get]
  split
  · rename_i hj
    have hnew : s.contains j = false := Bool.eq_false_iff.2 fun hc => h.ne_of_contains hs hc hj
    rw [get?_eq_none hnew, Option.bind_some, hr.ownerIn?_eq_none]
    rfl
  · rfl

theorem Inserted.coreAt (h : Inserted s t kind k r) (hj : j ≠ k) : t.coreAt j = s.coreAt j := by
  rw [Store.coreAt, h.get, if_neg hj]
  rfl

end Store

/-- a key that was never issued owns nothing -/
theorem Wired.eq_nil_of_new (w : Wired hw s L none) (h : ¬ s.Issued k) (R : Roster) : L R k = [] :=
  List.eq_nil_iff_forall_not_mem.2 fun m hm => h (w.owners R k m hm).1

/-- what is no consumer is bound to nothing -/
theorem Wired.unbound_of_kind (w : Wired hw s L none) (hk : Roster.profileConsumers.takes k.kind = false) :
    s.ownerOf? .profileConsumers k = none :=
  w.linked.ownerOf?_eq_none.2 fun _ hm => Bool.eq_false_iff.1 hk (w.takes_of_mem hm).2

/-- **A new pool, with nothing reserved, or a new port keeps a store sound.** -/
theorem Sound.insert (h : Sound hw s L) (hi : Store.Inserted s t kind k r) (hr : r.Unlinked) (hkind : r.kind = kind)
    (htile : ∀ p, r.bare = .port p → p.tile ≤ hw.lastTile) (hhome : kind.home? = none)
    (hpool : ∀ p, r = .pool p → p.totals = ⟨p.size, List.replicate hw.tileSlots 0, 0⟩) :
    Sound hw t L ∧ (Tight s L → Tight t L) := by
  have w' : Wired hw t L none := h.wired.insert hi hr hkind htile (.inr ⟨rfl, hhome⟩)
  refine ⟨⟨w', fun j p hp => ?_⟩, fun ht => ht.insert h.wired hi hr.2.2⟩
  by_cases hjk : j = k
  · subst hjk
    have hp' : r = .pool p := by
      rw [Store.pool?, hi.get, if_pos rfl] at hp
      cases r
      case pool q => exact congrArg _ (Option.some.inj hp)
      all_goals cases hp
    have hnone : t.holdings (.recompute j) L j = [] := by
      change (L .poolProfiles j).map _ = []
      rw [h.wired.eq_nil_of_new hi.new]
      rfl
    rw [w'.totals_eq (c := .recompute j) ⟨Store.contains_of_pool? hp, w'.kind_of_pool? hp⟩ hw hp, hnone, figure_nil,
      hpool p hp']
    rfl
  · have hps : s.pool? j = some p := by
      rw [← hp, Store.pool?, Store.pool?, hi.get, if_neg hjk]
    have hne : ∀ {i}, s.contains i = true → i ≠ k := fun hi' => hi.ne_of_contains h.wired.handed hi'
    rw [← h.accounted j p hps]
    refine h.wired.totals_congr w' (fun i hi' _ => hi.coreAt (hne hi')) (fun _ _ _ _ hm => hm)
      ⟨Store.contains_of_pool? hps, h.wired.kind_of_pool? hps⟩ (hi.coreAt hjk) rfl (fun q hq => ⟨?_, rfl⟩) hw
    exact hi.coreAt (hne (h.wired.takes_of_mem hq).1)

/-- a member that reserves nothing leaves its pool's figures as they are -/
theorem Wired.totals_of_idle {L' : Layout} (w : Wired hw s L none) (w' : Wired hw u L' none)
    (hports : ∀ i, s.contains i = true → i.kind = .port → u.coreAt i = s.coreAt i)
    (hlists : ∀ R, R ≠ .poolProfiles → L' R = L R) (hk : s.contains o = true ∧ o.kind = .pool)
    (hpool : u.coreAt o = s.coreAt o) (hlist : L' .poolProfiles o = L .poolProfiles o ++ [k])
    (hprofiles : ∀ q ∈ L .poolProfiles o, u.coreAt q = s.coreAt q) (hidle : L .profileConsumers k = []) :
    totals hw u (.recompute o) o = totals hw s (.recompute o) o := by
  obtain ⟨p, hp⟩ := w.exists_pool hk.1 hk.2
  obtain ⟨p', hp', hsize, hdir⟩ := Change.pool?_of_core (Wired.rewrite_of_coreAt hpool) hp
  have htiles : (u.holding (.recompute o) L' k).tiles = [] := by
    unfold Store.holding
    split
    · change (L' .profileConsumers k).map _ = []
      rw [hlists _ (by decide), hidle]
      rfl
    · rfl
  have hholds : u.holdings (.recompute o) L' o =
      s.holdings (.recompute o) L o ++ [u.holding (.recompute o) L' k] := by
    change (L' .poolProfiles o).map _ = (L .poolProfiles o).map _ ++ _
    rw [hlist, List.map_append, List.map_singleton]
    refine congrArg (· ++ _) (List.map_congr_left fun q hq => ?_)
    obtain ⟨hqc, hqk⟩ := w.takes_of_mem hq
    refine w.holding_congr w' hports (fun R i m hR hm => ?_) hqc (Roster.eq_profile_of_takes hqk) (hprofiles q hq)
      (by rw [hlists _ (by decide)]) o
    rwa [hlists R (by rintro rfl; cases hR)]
  rw [w.totals_eq (c := .recompute o) hk hw hp,
    w'.totals_eq (c := .recompute o) ⟨Store.contains_of_pool? hp', hk.2⟩ hw hp', hdir, hholds,
    figure_append_idle _ _ _ _ _ htiles]
  exact congrArg (fun n => figure hw o n p.direction (s.holdings (.recompute o) L o)) hsize

/-- **A new record joins its home list**, and no figure changes. -/
theorem Sound.adopt (h : Sound hw s L) (hi : Store.Inserted s t kind k r) (hr : r.Unlinked) (hkind : r.kind = kind)
    (hhome : kind.home? = some R) (ho : s.contains o = true) (hok : o.kind = R.ownerKind) :
    ∃ u, (Store.attach R o k).run t = (.ok (), u) ∧ Sound hw u (L.set R o (L R o ++ [k])) ∧
      (Tight s L → Tight u (L.set R o (L R o ++ [k]))) ∧ ∀ j, u.contains j = t.contains j := by
  obtain ⟨u, hrun, hwu, hf, hrefs⟩ := h.wired.adopt hi hr hkind hhome ho hok
  have hne : ∀ {i}, s.contains i = true → i ≠ k := fun hi' => hi.ne_of_contains h.wired.handed hi'
  have hcore : ∀ i, i ≠ k → u.coreAt i = s.coreAt i := fun i hik => by
    rw [Store.coreAt_eq, hf.bare, ← Store.coreAt_eq, hi.coreAt hik]
  have hR : R ≠ .profileConsumers := by
    rintro rfl
    cases kind <;> cases hhome
  have hkeep : Store.KeepsTotals s u := by
    refine Store.keepsTotals_of_bareAt fun i p hp => ?_
    have hik : i ≠ k := by
      rintro rfl
      rw [← hi.kind, hwu.kind_of_pool? hp] at hhome
      cases hhome
    rw [hf.bare, Store.bareAt, hi.get, if_neg hik]
    rfl
  refine ⟨u, hrun, ⟨hwu, h.accounted.of_kept hkeep fun i p hp _ => ?_⟩, fun ht => ?_, hf.contains⟩
  · have hlive : s.contains i = true ∧ i.kind = .pool := ⟨Store.contains_of_pool? hp, h.wired.kind_of_pool? hp⟩
    have hprofiles : ∀ q ∈ L .poolProfiles i, u.coreAt q = s.coreAt q := fun q hq =>
      hcore q (hne (h.wired.takes_of_mem hq).1)
    have hports : ∀ i, s.contains i = true → i.kind = .port → u.coreAt i = s.coreAt i := fun i hi' _ =>
      hcore i (hne hi')
    by_cases hjoin : R = .poolProfiles ∧ i = o
    · obtain ⟨rfl, rfl⟩ := hjoin
      refine h.wired.totals_of_idle hwu hports (fun R hR => ?_) hlive (hcore i (hne hlive.1)) (Layout.set_self ..)
        hprofiles (h.wired.eq_nil_of_new hi.new _)
      funext o'
      exact Layout.set_of_ne fun e => hR e.1
    · refine h.wired.totals_congr hwu hports (fun R' o' m _ hm => ?_) hlive (hcore i (hne hlive.1))
        (Layout.set_of_ne fun e => hjoin ⟨e.1.symm, e.2⟩)
        (fun q hq => ⟨hprofiles q hq, Layout.set_of_ne fun e => hR e.1.symm⟩) hw
      by_cases hro : R' = R ∧ o' = o
      · obtain ⟨rfl, rfl⟩ := hro
        rw [Layout.set_self]
        exact List.mem_append_left _ hm
      · rwa [Layout.set_of_ne hro]
  · refine (ht.insert h.wired hi hr.2.2).congr (fun i _ => hf.contains i) (fun i hik => hrefs i ?_)
      fun i => Layout.set_of_ne fun e => hR e.1.symm
    rintro rfl
    rw [hik] at hok
    cases R
    case profileConsumers => exact hR rfl
    all_goals exact absurd hok (by decide)

/-! ## Going -/

theorem Store.Retired.coreAt (h : Store.Retired s t k) (hj : j ≠ k) : t.coreAt j = s.coreAt j := by
  rw [Store.coreAt, h.get, if_neg hj]
  rfl

theorem Store.Retired.pool? (h : Store.Retired s t k) {p : Pool} (hp : t.pool? j = some p) :
    j ≠ k ∧ s.pool? j = some p := by
  rw [Store.pool?, h.get] at hp
  split at hp
  · cases hp
  · rename_i hj
    exact ⟨hj, hp⟩

/-- **A pool without profiles can go.** -/
theorem Sound.retire_pool (h : Sound hw s L) (hret : Store.Retired s t k) (hc : s.contains k = true)
    (hk : k.kind = .pool) (hzero : s.refsAt k = 0) : Sound hw t L ∧ (Tight s L → Tight t L) := by
  have hempty : L .poolProfiles k = [] := by
    rw [← List.length_eq_zero_iff, ← h.wired.counted k hc hk, hzero]
  have hfree : ∀ R o, k ∉ L R o := by
    intro R o hm
    have := (h.wired.takes_of_mem hm).2
    rw [hk] at this
    cases R <;> cases this
  have hhome : ∀ R m, m ∈ L R k → m.kind.home? ≠ some R := by
    intro R m hm
    obtain rfl := Roster.eq_poolProfiles ((h.wired.owners R k m hm).2.symm.trans hk)
    rw [hempty] at hm
    cases hm
  have w' := h.wired.retire hret (.inl rfl) hfree hhome
  have hne : ∀ {i}, i.kind ≠ .pool → i ≠ k := by
    rintro i hi rfl
    exact hi hk
  have hkeep : Store.KeepsTotals s t := fun j p hp => ⟨p, (hret.pool? hp).2, rfl⟩
  refine ⟨⟨w', h.accounted.of_kept hkeep fun j p hp hj => ?_⟩, fun ht => ht.retire hret hc hzero⟩
  have hjk : j ≠ k := by
    rintro rfl
    simp [hret.contains] at hj
  refine h.wired.totals_congr w' (fun i _ hi => hret.coreAt (hne (by rw [hi]; decide))) (fun _ _ _ _ hm => hm)
    ⟨Store.contains_of_pool? hp, h.wired.kind_of_pool? hp⟩ (hret.coreAt hjk) rfl (fun q hq => ⟨?_, rfl⟩) hw
  refine hret.coreAt (hne ?_)
  rw [Roster.eq_profile_of_takes (h.wired.takes_of_mem hq).2]
  decide

/-- a profile that has left its pool and the store leaves the pool no worse off -/
theorem Sound.exists_totals_of_left {L' : Layout} (h : Sound hw s L) (w' : Wired hw t L' none)
    (hk : s.contains o = true ∧ o.kind = .pool) (hcore : ∀ i, i ≠ k → t.coreAt i = s.coreAt i) (hko : o ≠ k)
    (hports : ∀ i, s.contains i = true → i.kind = .port → t.coreAt i = s.coreAt i)
    (hlists : ∀ R, R ≠ .poolProfiles → L' R = L R)
    (hlist : L' .poolProfiles o = (L .poolProfiles o).filter fun x => x ≠ k) :
    ∃ tot, totals hw t (.recompute o) o = .ok tot := by
  obtain ⟨p, hp⟩ := h.wired.exists_pool hk.1 hk.2
  obtain ⟨p', hp', hsize, hdir⟩ := Change.pool?_of_core (Wired.rewrite_of_coreAt (hcore o hko)) hp
  have hold := h.accounted.figure_eq h.wired hp
  have hholds : t.holdings (.recompute o) L' o =
      ((L .poolProfiles o).filter fun x => x ≠ k).map (s.holding (.recompute o) L) := by
    change (L' .poolProfiles o).map _ = _
    rw [hlist]
    refine List.map_congr_left fun q hq => ?_
    obtain ⟨hqm, hqk⟩ := List.mem_filter.1 hq
    obtain ⟨hqc, hqt⟩ := h.wired.takes_of_mem hqm
    refine h.wired.holding_congr w' hports (fun R i m hR hm => ?_) hqc (Roster.eq_profile_of_takes hqt)
      (hcore q (by simpa using hqk)) (by rw [hlists _ (by decide)]) o
    rwa [hlists R (by rintro rfl; cases hR)]
  have hsub : (((L .poolProfiles o).filter fun x => x ≠ k).map (s.holding (.recompute o) L)).Sublist
      (s.holdings (.recompute o) L o) := List.Sublist.map _ List.filter_sublist
  obtain ⟨tot, htot, -⟩ := figure_mono (.of_sublist hsub) hold
  refine ⟨tot, ?_⟩
  rw [w'.totals_eq (c := .recompute o) ⟨Store.contains_of_pool? hp', hk.2⟩ hw hp', hholds, hdir, ← htot]
  exact congrArg (fun n => figure hw o n p.direction _) hsize

/-- **A profile without references can go**, and its pool can be derived anew. -/
theorem Sound.retire_profile (h : Sound hw s L) (hc : s.contains k = true) (hk : k.kind = .profile)
    (hm : k ∈ L .poolProfiles o) (hzero : s.refsAt k = 0) :
    ∃ u, (Store.detach .poolProfiles o k).run s = (.ok (), u) ∧ u.contains k = true ∧ u.refsAt k = 0 ∧ u.Handed ∧
      ∀ t, Store.Retired u t k → ∃ figures, plan hw t (.recompute o) = .ok figures ∧
        (∀ j ∈ figures.map Prod.fst, j.kind = .pool ∧ ∃ p, t.pool? j = some p) ∧
        Sound hw (t.written figures) (L.set .poolProfiles o ((L .poolProfiles o).filter fun x => x ≠ k)) ∧
        (Tight s L →
          Tight (t.written figures) (L.set .poolProfiles o ((L .poolProfiles o).filter fun x => x ≠ k))) := by
  obtain ⟨hoc, hok, hcount⟩ := h.wired.pool_of_mem hm
  have hko : o ≠ k := by
    rintro rfl
    rw [hk] at hok
    cases hok
  obtain ⟨u, hrun, hwu, hrel⟩ := h.wired.detach (R := .poolProfiles) hoc hok hm hcount (.inl ⟨rfl, rfl⟩)
  have hku : u.refsAt k = 0 := by rw [hrel.refs, if_neg hko.symm, hzero]
  refine ⟨u, hrun, by rw [hrel.frame.contains, hc], hku, hwu.handed, fun t hret => ?_⟩
  set L' := L.set .poolProfiles o ((L .poolProfiles o).filter fun x => x ≠ k)
  have hlists : ∀ R, R ≠ .poolProfiles → L' R = L R := fun R hR => funext fun i =>
    Layout.set_of_ne fun e => hR e.1
  have hwt : Wired hw t L' none := h.wired.retire_profile hm hwu hret
  have hcore : ∀ i, i ≠ k → t.coreAt i = s.coreAt i := fun i hik => by
    rw [hret.coreAt hik, Store.coreAt_eq, hrel.frame.bare, ← Store.coreAt_eq]
  have hports : ∀ i, s.contains i = true → i.kind = .port → t.coreAt i = s.coreAt i := by
    rintro i - hi
    refine hcore i ?_
    rintro rfl
    rw [hk] at hi
    cases hi
  have hkeep : Store.KeepsTotals s t := by
    refine Store.keepsTotals_of_bareAt fun i p hp => ?_
    rw [← hrel.frame.bare, Store.bareAt, hret.get, if_neg (hret.pool? hp).1]
    rfl
  obtain ⟨tot, htot⟩ := h.exists_totals_of_left hwt ⟨hoc, hok⟩ hcore hko hports hlists (Layout.set_self ..)
  have hplan : plan hw t (.recompute o) = .ok [(o, tot)] := by
    have haff : affectedPools t (.recompute o) = .ok [o] := rfl
    simp only [plan, haff, bind, Except.bind, List.mapM_cons, List.mapM_nil, htot, pure, Except.pure]
  refine ⟨[(o, tot)], hplan, fun j hj => ?_, ⟨hwt.written _, ?_⟩, fun ht => ?_⟩
  · rw [List.mem_singleton.1 hj]
    exact ⟨hok, exists_pool_of_totals htot⟩
  · refine accounted_written hwt (fun j v hv => ?_) fun j p hp hout => ?_
    · obtain ⟨rfl, rfl⟩ := Prod.mk.inj (List.mem_singleton.1 hv)
      exact htot
    · have hjo : j ≠ o := by simpa using hout
      obtain ⟨p', hps, heq⟩ := hkeep j p hp
      rw [heq, ← h.accounted j p' hps]
      refine h.wired.totals_congr hwt hports (fun R i m hR hmem => ?_)
        ⟨Store.contains_of_pool? hps, h.wired.kind_of_pool? hps⟩ (hcore j ?_)
        (Layout.set_of_ne fun e => hjo e.2) (fun q hq => ⟨hcore q ?_, by rw [hlists _ (by decide)]⟩) hw
      · rwa [hlists R (by rintro rfl; cases hR)]
      · exact (hret.pool? hp).1
      · rintro rfl
        exact hjo (h.wired.linked.owner_unique hq hm)
  · have hu : Tight u L' := ht.congr (fun i _ => hrel.frame.contains i) (fun i hi => ?_)
      fun i => by rw [hlists _ (by decide)]
    · exact (hu.retire hret (by rw [hrel.frame.contains, hc]) hku).congr
        (fun i _ => (Change.applied_written i t _).contains) (fun i _ => Store.refsAt_written i t _) fun _ => rfl
    · rw [hrel.refs, if_neg]
      rintro rfl
      rw [hok] at hi
      cases hi

end SharedBuffer
