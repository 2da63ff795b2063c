/-
What is left exactly as it was.

Every object has a snapshot, and an owner has lists. Lists are threaded through the records of their members, so a change
to one record writes into others that nobody named: what of a record is shown, and which lists it owns, does not depend
on where it stands in the lists of others. `Store.Spared s t k` says that under `k` nothing can be seen of what made `t`
of `s`.

Result: `Store.Alike.spared`.
-/
import SharedBuffer.Proofs.Manager.Display

namespace SharedBuffer

/-- an object is shown as before, and the lists that it owns have the same members in the same order -/
structure Store.Spared (s t : Store Record) (k : Key) : Prop where
  snapshot : t.snapshot k = s.snapshot k
  members : ∀ R, k.kind = R.ownerKind → t.members R k = s.members R k

/-- the snapshot of a record under a key of a store -/
def Record.snapshotIn (s : Store Record) (k : Key) : Record → Except Fault Snapshot
  | pool p => .ok (.pool (.of k p))
  | profile p => (s.profileSnapshotOf k p).map .profile
  | priorityGroup g => .ok (.priorityGroup (.of k g))
  | queue q => .ok (.queue (.of k q))
  | port p => .ok (.port (.of k p))

namespace Store

variable {s t u : Store Record} {k : Key}

theorem snapshot_of_absent (h : s.contains k = false) : s.snapshot k = .error (.notFound k.label) := by
  simp only [snapshot, require_of_absent h, bind, Except.bind]

theorem snapshot_of_get? {r : Record} (h : s.get? k = some r) : s.snapshot k = r.snapshotIn s k := by
  simp only [snapshot, require, get, h, Except.mapError, bind, Except.bind, pure, Except.pure]
  cases r with
  | profile p => cases hp : s.profileSnapshotOf k p <;> simp only [Record.snapshotIn, hp] <;> rfl
  | _ => rfl

theorem members_of_absent (R : Roster) (h : s.contains k = false) : s.members R k = .error (.ownerNotFound k) := by
  have hnone : s.get? k = none := by
    cases hg : s.get? k with
    | none => rfl
    | some r => rw [contains_of_get? hg] at h; cases h
  simp only [members, membersUpTo, ownerHead, hnone, bind, Except.bind]

namespace Spared

theorem refl (s : Store Record) (k : Key) : s.Spared s k := ⟨rfl, fun _ _ => rfl⟩

theorem trans (h : s.Spared t k) (h' : t.Spared u k) : s.Spared u k :=
  ⟨h'.snapshot.trans h.snapshot, fun R hR => (h'.members R hR).trans (h.members R hR)⟩

/-- nothing can be seen under a key without a record -/
theorem of_absent (h : s.contains k = false) (h' : t.contains k = false) : s.Spared t k :=
  ⟨by rw [snapshot_of_absent h, snapshot_of_absent h'], fun R _ => by rw [members_of_absent R h, members_of_absent R h']⟩

end Spared

end Store

/-! ## Snapshots of ports and of their groups and queues -/

theorem SubqueueSnapshot.of_congr {k : Key} {q q' : Subqueue} (hindex : q'.index = q.index)
    (hport : q'.portLink.map Link.owner = q.portLink.map Link.owner)
    (hprofile : q'.profileLink.map Link.owner = q.profileLink.map Link.owner) : of k q' = of k q := by
  have hid : ∀ l : Option Link, l.elim nullId (fun l => l.owner.id) = (l.map Link.owner).elim nullId Key.id := by
    rintro (_ | _) <;> rfl
  have hids : ∀ l : Option Link, l.map (fun l => l.owner.id) = (l.map Link.owner).map Key.id := by
    rintro (_ | _) <;> rfl
  rw [of, of, hid, hid, hids, hids, hindex, hport, hprofile]

theorem PortSnapshot.of_congr {k : Key} {p p' : Port} (hnumber : p'.hardwareNumber = p.hardwareNumber)
    (htile : p'.tile = p.tile) (hgroups : p'.priorityGroups = p.priorityGroups) (hqueues : p'.queues = p.queues)
    (hprofile : p'.profileLink.map Link.owner = p.profileLink.map Link.owner) : of k p' = of k p := by
  have hids : ∀ l : Option Link, l.map (fun l => l.owner.id) = (l.map Link.owner).map Key.id := by
    rintro (_ | _) <;> rfl
  rw [of, of, hids, hids, hnumber, htile, hgroups, hqueues, hprofile]

section

variable {hw : Hardware} {s t : Store Record} {L L' : Layout} {k o : Key} {p : Profile} {q : Pool}

/-- what a consumer shows rests on its own record alone -/
theorem Store.Alike.snapshot_consumer (h : s.Alike t k) (w : Wired hw s L none) (hc : s.contains k = true)
    (htakes : Roster.profileConsumers.takes k.kind = true) : t.snapshot k = s.snapshot k := by
  obtain ⟨r, hr⟩ := Store.contains_iff.1 hc
  obtain ⟨r', hr'⟩ := Store.contains_iff.1 (h.contains.trans hc)
  have hbare : r'.bare = r.bare := by simpa only [Store.bareAt, hr, hr', Option.map_some, Option.some.injEq] using h.bare
  have hheads : ∀ R, r'.head? R = r.head? R := fun R => by
    simpa only [Store.headAt, hr, hr', Option.bind_some] using h.heads R
  have howners : ∀ R, r'.ownerIn? R = r.ownerIn? R := fun R => by
    simpa only [Store.ownerOf?, hr, hr', Option.bind_some] using h.owners R
  rw [Store.snapshot_of_get? hr, Store.snapshot_of_get? hr']
  rw [← w.kind_eq hr] at htakes
  cases r with
  | pool | profile => cases htakes
  | priorityGroup g =>
    cases r' with
    | priorityGroup g' =>
      have hindex : g'.index = g.index := by simpa [Record.bare] using hbare
      simp only [Record.snapshotIn, SubqueueSnapshot.of_congr hindex (howners .portPriorityGroups) (howners .profileConsumers)]
    | _ => cases hbare
  | queue q =>
    cases r' with
    | queue q' =>
      have hindex : q'.index = q.index := by simpa [Record.bare] using hbare
      simp only [Record.snapshotIn, SubqueueSnapshot.of_congr hindex (howners .portQueues) (howners .profileConsumers)]
    | _ => cases hbare
  | port p =>
    cases r' with
    | port p' =>
      obtain ⟨hnumber, htile⟩ : p'.hardwareNumber = p.hardwareNumber ∧ p'.tile = p.tile := by
        simpa [Record.bare] using hbare
      have hgroups : p'.priorityGroups = p.priorityGroups := Option.some.inj (hheads .portPriorityGroups)
      have hqueues : p'.queues = p.queues := Option.some.inj (hheads .portQueues)
      simp only [Record.snapshotIn, PortSnapshot.of_congr hnumber htile hgroups hqueues (howners .profileConsumers)]
    | _ => cases hbare

theorem Wired.snapshot_profile (w : Wired hw s L none) {p : Profile} {o : Key} {q : Pool} (hp : s.profile? k = some p)
    (ho : p.pool? = some o) (hq : s.pool? o = some q) : s.snapshot k = .ok (.profile ⟨k.id, o.id, p.size, p.mode,
      p.mode.effective q.mode, p.threshold, p.xoff, p.xon, p.refCount, (L .profileConsumers k).map Key.id⟩) := by
  have hshown := w.profileSnapshot_eq hp ho hq
  rw [Store.profileSnapshot, Store.profileAt_eq hp] at hshown
  rw [Store.snapshot_of_get? (Store.profile?_eq_some.1 hp), Record.snapshotIn,
    show s.profileSnapshotOf k p = _ from hshown]
  rfl

/-- a live pool or profile has a snapshot, and that is what is displayed of it -/
theorem Wired.exists_snapshot (w : Wired hw s L none) (hc : s.contains k = true)
    (hkind : k.kind = .pool ∨ k.kind = .profile) : ∃ shown, s.snapshot k = .ok shown ∧ s.display k = some shown := by
  rcases hkind with hk | hk
  · obtain ⟨q, hq⟩ := w.exists_pool hc hk
    exact ⟨_, Store.snapshot_of_get? (Store.pool?_eq_some.1 hq), w.display_pool hq⟩
  · obtain ⟨p, hp⟩ := w.exists_profile hc hk
    obtain ⟨o, q, ho, hq⟩ := w.exists_housed hp
    exact ⟨_, w.snapshot_profile hp ho hq, w.display_profile hp ho hq⟩

/-- **What is alike is spared**: where pools keep their modes, what is shown of an object, and the lists that it owns,
are told by its record, its owners, its count and its lists. -/
theorem Store.Alike.spared (h : s.Alike t k) (w : Wired hw s L none) (w' : Wired hw t L' none)
    (hlists : ∀ R, L' R k = L R k)
    (hregime : ∀ o q q', s.pool? o = some q → t.pool? o = some q' → q'.regime = q.regime) : s.Spared t k := by
  cases hc : s.contains k with
  | false => exact .of_absent hc (h.contains.trans hc)
  | true =>
    have hc' := h.contains.trans hc
    refine ⟨?_, fun R hR => ?_⟩
    · by_cases hkind : k.kind = .pool ∨ k.kind = .profile
      · obtain ⟨shown, hshown, hdisplay⟩ := w.exists_snapshot hc hkind
        obtain ⟨shown', hshown', hdisplay'⟩ := w'.exists_snapshot hc' hkind
        have hsame := h.display_of_regime w w' (hlists .profileConsumers) hregime
        rw [hdisplay, hdisplay', Option.some.injEq] at hsame
        rw [hshown, hshown', hsame]
      · refine h.snapshot_consumer w hc ?_
        obtain ⟨r, hr⟩ := Store.contains_iff.1 hc
        rw [← w.kind_eq hr] at hkind ⊢
        cases r with
        | pool | profile => simp [Record.kind] at hkind
        | _ => rfl
    · rw [w.members_eq hc hR, w'.members_eq hc' hR, hlists]

theorem Store.Alike.spared_of_move (h : s.Alike t k) (hs : Sound hw s L) (hm : Move hw s t) (w : Wired hw t L' none)
    (hlists : ∀ R, L' R k = L R k) : s.Spared t k :=
  h.spared hs.wired w hlists fun _ _ _ hq hq' => hm.regime_eq hs hq hq'

/-- a new record spares the others -/
theorem Store.Inserted.spared {j : Key} {kind : ObjectKind} {r : Record} (new : s.Inserted t kind j r)
    (w : Wired hw s L none) (w' : Wired hw t L none)
    (hregime : ∀ o q q', s.pool? o = some q → t.pool? o = some q' → q'.regime = q.regime) (hk : k ≠ j) :
    s.Spared t k := by
  have halike : s.Alike t k := .of_get? ((new.get k).trans (if_neg hk))
  exact halike.spared w w' (fun _ => rfl) hregime

/-- a new member of a list spares all but its owner and itself -/
theorem Store.Inserted.spared_of_attach {u : Store Record} {j : Key} {kind : ObjectKind} {r : Record} {R : Roster}
    {l : List Key} (new : s.Inserted t kind j r) (joined : (Store.attach R o j).run t = (.ok (), u))
    (w : Wired hw s L none) (w' : Wired hw u (L.set R o l) none)
    (hregime : ∀ o q q', s.pool? o = some q → u.pool? o = some q' → q'.regime = q.regime) (hko : k ≠ o) (hkj : k ≠ j) :
    s.Spared u k := by
  have halike : s.Alike t k := .of_get? ((new.get k).trans (if_neg hkj))
  exact (halike.trans (.of_attach joined hko hkj)).spared w w' (fun _ => Layout.set_of_ne fun e => hko e.2) hregime

/-- a record that goes spares the others -/
theorem Sound.spared_retire {j : Key} (hs : Sound hw s L) (hm : Move hw s t) (w : Wired hw t L none)
    (gone : Store.Retired s t j) (hk : k ≠ j) : s.Spared t k :=
  (Store.Alike.of_get? ((gone.get k).trans (if_neg hk))).spared_of_move hs hm w fun _ => rfl

/-- a profile that goes spares all but its pool -/
theorem Sound.spared_retire_profile {u : Store Record} {figures : List (Key × Totals)} {j : Key} {l : List Key}
    (hs : Sound hw s L) (hm : Move hw s (t.written figures))
    (w : Wired hw (t.written figures) (L.set .poolProfiles o l) none)
    (left : (Store.detach .poolProfiles o j).run s = (.ok (), u)) (gone : Store.Retired u t j)
    (planned : Accounting.plan hw t (.recompute o) = .ok figures) (hkj : k ≠ j) (hko : k ≠ o) :
    s.Spared (t.written figures) k := by
  have hpools : [o] = figures.map Prod.fst := Except.ok.inj (Accounting.plan_ok planned).1
  have hout : k ∉ figures.map Prod.fst := by rwa [← hpools, List.mem_singleton]
  have halike : s.Alike (t.written figures) k :=
    ((Store.Alike.of_detach left hko hkj).trans (.of_get? ((gone.get k).trans (if_neg hkj)))).trans
      (.of_get? (Store.get?_written t hout))
  exact halike.spared_of_move hs hm w fun _ => Layout.set_of_ne fun e => hko e.2

end

end SharedBuffer
