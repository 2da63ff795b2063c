/-
Requests that create and remove.

A pool, profile or port that no handle is left for is not created, and nothing changes; but a port that runs out of
handles for its priority groups or queues keeps those it has got by then. Once a new record is there it can be attached,
and once a profile has left its pool the pool's figures can be derived: the refusals after these points are never met.
-/
import SharedBuffer.Proofs.Accounting.Turnover
import SharedBuffer.Proofs.Manager.Dispatch
import SharedBuffer.Proofs.Manager.Spared

namespace SharedBuffer

/-! ## New records -/

theorem Pool.unlinked_fresh (direction : Direction) (size : UInt64) (mode : ThresholdMode) (tiles : Nat) :
    (Record.pool (Pool.fresh direction size mode tiles)).Unlinked := by
  refine ⟨fun R h hh => ?_, fun R l hl => ?_, rfl⟩
  · cases R <;> simp_all [Record.head?, Pool.fresh]
    exact hh ▸ ⟨rfl, rfl⟩
  · cases hl

theorem Profile.unlinked {p : Profile} (hp : p.poolLink = none) (hc : p.consumers = {}) (hr : p.refCount = 0) :
    (Record.profile p).Unlinked := by
  refine ⟨fun R h hh => ?_, fun R l hl => ?_, hr⟩
  · cases R <;> simp_all [Record.head?]
    exact hh ▸ ⟨rfl, rfl⟩
  · cases R <;> simp_all [Record.link?]

theorem Port.unlinked (hardwareNumber tile : UInt32) : (Record.port { hardwareNumber, tile }).Unlinked := by
  refine ⟨fun R h hh => ?_, fun R l hl => ?_, rfl⟩
  · cases R <;> simp_all [Record.head?] <;> exact hh ▸ ⟨rfl, rfl⟩
  · cases R <;> simp_all [Record.link?]

theorem Subqueue.unlinked (i : UInt32) :
    (Record.priorityGroup { index := i }).Unlinked ∧ (Record.queue { index := i }).Unlinked := by
  constructor <;> refine ⟨fun R h hh => ?_, fun R l hl => ?_, rfl⟩
  · cases hh
  · cases R <;> simp_all [Record.link?]
  · cases hh
  · cases R <;> simp_all [Record.link?]

theorem Hardware.tileOf_le (hw : Hardware) (port : UInt32) : hw.tileOf port ≤ hw.lastTile := by
  unfold Hardware.tileOf
  split
  · exact Std.min_le_right
  · split
    · split
      · exact Std.min_le_right
      · exact UInt32.zero_le
    · exact UInt32.zero_le

/-- `k` is a new object of a kind in `m'`, under a handle that was never issued -/
structure Created (m m' : Manager) (kind : ObjectKind) (k : Key) : Prop where
  ofId? : Key.ofId? k.id = some k
  kind : k.kind = kind
  new : ¬ m.store.Issued k
  live : m'.store.contains k = true

/-- `t` is `s` with a new profile at the end of the list of its pool -/
def Store.Adopted (s t : Store Record) (pool k : Key) (p : Profile) : Prop :=
  ∃ u, Store.Inserted s u .profile k (.profile p) ∧ (Store.attach .poolProfiles pool k).run u = (.ok (), t)

/-- `t` is `s` without an object; consumers are bound as they were, and at most the pool of the object can tell -/
structure Store.Without (s t : Store Record) (k : Key) : Prop where
  contains : ∀ j, t.contains j = (!decide (j = k) && s.contains j)
  binding : ∀ x, t.ownerOf? .profileConsumers x = s.ownerOf? .profileConsumers x
  spared : ∀ j, j ≠ k → s.ownerOf? .poolProfiles k ≠ some j → s.Spared t j

theorem Store.Without.kept {s t : Store Record} {k j : Key} (h : s.Without t k) (hj : t.contains j = true) :
    s.contains j = true := by
  rw [h.contains] at hj
  exact (Bool.and_eq_true_iff.1 hj).2

/-- `t` is `s` with a port, or with more priority groups and queues of that port, and all else is as it was -/
structure Store.Enlarged (s t : Store Record) (port : Key) : Prop where
  kept : ∀ j, s.contains j = true → t.contains j = true
  fresh : ∀ j, t.contains j = true → s.contains j = true ∨ j = port ∨ j.kind = .priorityGroup ∨ j.kind = .queue
  binding : ∀ x, t.ownerOf? .profileConsumers x = s.ownerOf? .profileConsumers x
  spared : ∀ j, s.contains j = true → j ≠ port → s.Spared t j

theorem Store.Enlarged.refl (s : Store Record) (port : Key) : s.Enlarged s port :=
  ⟨fun _ h => h, fun _ h => .inl h, fun _ => rfl, fun j _ _ => .refl s j⟩

theorem Store.Enlarged.trans {s t u : Store Record} {port : Key} (h : s.Enlarged t port) (h' : t.Enlarged u port) :
    s.Enlarged u port := by
  refine ⟨fun j hj => h'.kept j (h.kept j hj), fun j hj => ?_, fun x => (h'.binding x).trans (h.binding x),
    fun j hj hport => ?_⟩
  · rcases h'.fresh j hj with ht | hnew
    · exact h.fresh j ht
    · exact .inr hnew
  · exact (h.spared j hj hport).trans (h'.spared j (h.kept j hj) hport)

/-- the id of a new record states its key -/
theorem Store.Inserted.created {m m' : Manager} {t : Store Record} {kind : ObjectKind} {k : Key} {r : Record}
    (h : Store.Inserted m.store t kind k r) (hlive : ∀ j, t.contains j = true → m'.store.contains j = true) :
    Created m m' kind k := by
  have hc : t.contains k = true := by simp [h.contains]
  exact ⟨(h.handed.isHandle k hc).ofId?, h.kind, h.new, hlive k hc⟩

theorem Created.of_store {m m' m'' : Manager} {kind : ObjectKind} {k : Key} (h : Created m m' kind k)
    (hs : m''.store = m'.store) : Created m m'' kind k := ⟨h.ofId?, h.kind, h.new, hs ▸ h.live⟩

/-- what the attributes of a profile to create are read as: the pool it goes to, and the profile -/
inductive Manager.Describes (m : Manager) (attrs : List Attribute) : Key → Profile → Prop where
  | intro {i j : Nat} {id : ObjectId} {size : UInt64} {pool : Key} {owner : Pool} {given : Option (Nat × Int32)}
    {mode : ProfileMode} {dynamic : Option (Nat × Int8)} {fixed : Option (Nat × UInt64)} {threshold : Threshold}
    {xoff xon : Option (Nat × UInt64)}
    (poolId : requiredAttribute attrs ProfileAttribute.poolId.id ProfileAttribute.poolId.name AttributeValue.asOid? =
      .ok (i, id))
    (reservedSize : requiredAttribute attrs ProfileAttribute.reservedSize.id ProfileAttribute.reservedSize.name
      AttributeValue.asU64? = .ok (j, size))
    (resolved : m.resolve? .pool id = some pool) (live : m.store.poolAt pool = .ok owner)
    (thresholdMode : optionalAttribute attrs ProfileAttribute.thresholdMode.id ProfileAttribute.thresholdMode.name
      AttributeValue.asS32? = .ok given)
    (decoded : (given.elim (.ok .inherited) fun (index, code) =>
      decodeAt index "unknown threshold mode" code (ProfileMode.ofCode? code)) = .ok mode)
    (dynamicThreshold : optionalAttribute attrs ProfileAttribute.dynamicThreshold.id
      ProfileAttribute.dynamicThreshold.name AttributeValue.asI8? = .ok dynamic)
    (staticThreshold : optionalAttribute attrs ProfileAttribute.staticThreshold.id
      ProfileAttribute.staticThreshold.name AttributeValue.asU64? = .ok fixed)
    (one : resolveThreshold (mode.effective owner.mode) dynamic fixed = .ok threshold)
    (xoffThreshold : optionalAttribute attrs ProfileAttribute.xoffThreshold.id ProfileAttribute.xoffThreshold.name
      AttributeValue.asU64? = .ok xoff)
    (xonThreshold : optionalAttribute attrs ProfileAttribute.xonThreshold.id ProfileAttribute.xonThreshold.name
      AttributeValue.asU64? = .ok xon)
    (headroom : owner.direction = .egress → firstHeadroom? xoff xon = none) :
    m.Describes attrs pool { size, mode, threshold, xoff := xoff.elim 0 Prod.snd, xon := xon.elim 0 Prod.snd }

open Accounting in
theorem Manager.describes_of_ok {m : Manager} {attrs : List Attribute} {pool : Key} {profile : Profile}
    (h : m.profileOfAttributes attrs = .ok (pool, profile)) : m.Describes attrs pool profile := by
  unfold Manager.profileOfAttributes at h
  obtain ⟨⟨_, id⟩, poolId, h⟩ := bind_ok h
  obtain ⟨⟨_, size⟩, reservedSize, h⟩ := bind_ok h
  dsimp only at h
  cases resolved : m.resolve? .pool id with
  | none => rw [resolved] at h; cases h
  | some pool' =>
    rw [resolved] at h
    obtain ⟨_, hpool, h⟩ := bind_ok h
    cases hpool
    obtain ⟨owner, live, h⟩ := bind_ok h
    obtain ⟨given, thresholdMode, h⟩ := bind_ok h
    -- a mode is decoded or inherited; from there on the two cases run alike
    cases given
    all_goals
      obtain ⟨mode, decoded, h⟩ := bind_ok h
      obtain ⟨dynamic, dynamicThreshold, h⟩ := bind_ok h
      obtain ⟨fixed, staticThreshold, h⟩ := bind_ok h
      obtain ⟨threshold, one, h⟩ := bind_ok h
      obtain ⟨xoff, xoffThreshold, h⟩ := bind_ok h
      obtain ⟨xon, xonThreshold, h⟩ := bind_ok h
      split at h
      · cases h
      rename_i hnone
      cases h
      exact .intro poolId reservedSize resolved live thresholdMode decoded dynamicThreshold staticThreshold one
        xoffThreshold xonThreshold fun hegress => Option.eq_none_iff_forall_ne_some.2 fun _ => hnone _ hegress

/-- a profile that a request describes goes to a live pool, and is in no list yet -/
theorem Manager.profileOfAttributes_ok {m : Manager} {attrs : List Attribute} {pool : Key} {profile : Profile}
    (h : m.profileOfAttributes attrs = .ok (pool, profile)) :
    (∃ id, m.resolve? .pool id = some pool) ∧ profile.poolLink = none ∧ profile.consumers = {} ∧
      profile.refCount = 0 := by
  obtain ⟨_, _, resolved⟩ := describes_of_ok h
  exact ⟨⟨_, resolved⟩, rfl, rfl, rfl⟩

/-- a profile without references is taken out once it has left its pool -/
theorem Wired.removeAssociated_profile {hw : Hardware} {s u : Store Record} {L : Layout} {k o : Key} {p : Profile}
    (w : Wired hw s L none) (hp : s.profile? k = some p) (ho : k ∈ L .poolProfiles o) (hzero : s.refsAt k = 0)
    (hdetach : (Store.detach .poolProfiles o k).run s = (.ok (), u)) (hc : u.contains k = true) :
    ∃ removed, (Store.removeAssociated k).run s = (.ok removed, (u.remove k).release k) := by
  have hown : (Record.profile p).ownerIn? .poolProfiles = some o := by
    simpa [Record.ownerIn?, Record.link?, Profile.pool?] using (w.mem_poolProfiles_iff hp).1 ho
  have hmember : (Record.profile p).memberships = [(.poolProfiles, o)] := by
    simp only [Record.memberships, Roster.all, List.filterMap_cons, hown, Option.map_some, List.filterMap_nil]
    rfl
  have hall : (Store.detachAll k (Record.profile p).memberships).run s = (.ok (), u) := by
    rw [hmember]
    exact (run_bind_ok hdetach).trans rfl
  exact Store.removeAssociated_run (Store.profile?_eq_some.1 hp) hzero hall hc

namespace ManagerM

variable {m : Manager} {L : Layout} {k : Key}

/-! ## Pools -/

/-- **A pool is created exactly if its direction has room for it** and there is a handle left. -/
theorem tryCreatePool_ends (h : Sound m.hardware m.store L) (attrs : List Attribute) :
    Ends (tryCreatePool attrs) m
      (fun k m' => Follows m L m' ∧ Created m m' .pool k ∧ ∃ r, PoolRequest.ofAttributes attrs = .ok r ∧
        (m.checkDirection r.direction none r.size = .ok () ∧ m.store.HasRoom .pool) ∧
          Store.Inserted m.store m'.store .pool k
            (.pool (Pool.fresh r.direction r.size r.mode m.hardware.tileSlots)))
      (fun e m' => m' = m ∧ (PoolRequest.ofAttributes attrs = .error e ∨ ∃ r, PoolRequest.ofAttributes attrs = .ok r ∧
        (m.checkDirection r.direction none r.size = .error e ∨
          e = (StoreError.exhausted .pool).toFault ∧ ¬ m.store.HasRoom .pool))) := by
  refine ends_reading (fun r hr => ?_) fun e he => ⟨rfl, .inl he⟩
  refine ends_reading (fun _ hcheck => ?_) fun e he => ⟨rfl, .inr ⟨r, hr, .inl he⟩⟩
  refine Ends.bind_ok (a := m.hardware.tileSlots) (t := m) rfl ?_
  refine Ends.bind ((onStore_ends (Store.insertNew_ends h.wired.handed .pool _)).mono (fun _ _ hk => hk) ?_)
    fun k m' hk => ?_
  · rintro e m' ⟨e', t, rfl, rfl, rfl, rfl, hroom⟩
    exact ⟨rfl, .inr ⟨r, hr, .inr ⟨rfl, hroom⟩⟩⟩
  · obtain ⟨t, rfl, hins, hroom⟩ := hk
    obtain ⟨hsound, htight⟩ := h.insert hins (Pool.unlinked_fresh ..) rfl (fun p hp => by cases hp) rfl
      fun p hp => by cases hp; rfl
    have hmove : Move m.hardware m.store t := .newPool hcheck hins
    have hlead : Leads m L t := ⟨.single h hmove, L, hsound, fun ht _ => htight ht⟩
    have hsame : ∀ j, j ∉ [k] → t.display j = m.store.display j := fun j hj =>
      h.display_insert hmove hsound.wired hins (by simpa using hj)
    refine Ends.bind (announcePool_ends hins.kind).sure fun _ m'' ht => ?_
    have hfol := hlead.follows_visible h (fun j hj => by simp [hins.contains, hj]) hsame ht
    exact Ends.pure ⟨hfol, (hins.created fun _ hj => hj).of_store ht.store, r, hr, ⟨hcheck, hroom⟩,
      ht.store.symm ▸ hins⟩

/-- an object that is taken out, with what follows from it announced, is announced to be gone -/
theorem removal_ends {α : Type} {x : ManagerM α} {t : Store Record} (ks : List Key) {e : Event} (hlead : Leads m L t)
    (hwithout : m.store.Without t k)
    (hshown : ∀ j, j ≠ k → t.display j ≠ m.store.display j → j ∈ ks) (hobject : e.object = k) (hsaid : e.said = none)
    (hx : Ends x m (fun _ m' => Told ks { m with store := t } m') fun _ _ => False) :
    Ends (x >>= fun _ => announce e) m (fun _ m' => Follows m L m' ∧ m.store.Without m'.store k) fun _ _ => False := by
  refine Ends.bind hx fun _ m₁ h₁ => ?_
  have hgone : e.said = m₁.store.display e.object := by
    rw [hobject, h₁.store, hsaid, Store.display_of_absent (by simp [hwithout.contains])]
  refine (announce_ends hgone).mono (fun _ m₂ h₂ => ?_) fun _ _ hf => hf
  have htold := h₁.trans h₂
  refine ⟨hlead.follows (fun j hj => ?_) htold, htold.store.symm ▸ hwithout⟩
  by_cases hjk : j = k
  · simp [hobject, hjk]
  · exact List.mem_append_left _ (hshown j hjk hj)

/-- a pool that no profile belongs to is removed, and nothing else is -/
theorem dropPool_unused (h : Sound m.hardware m.store L) (hk : k.kind = .pool) (hc : m.store.contains k = true)
    (hzero : m.store.refsAt k = 0) :
    Ends (dropPool k) m (fun _ m' => Follows m L m' ∧ m.store.Without m'.store k) fun _ _ => False := by
  obtain ⟨p, hp⟩ := h.wired.exists_pool hc hk
  obtain ⟨removed, hrun⟩ := Store.removeAssociated_run (u := m.store) (Store.pool?_eq_some.1 hp) hzero rfl hc
  have hret := h.wired.handed.retire hc
  obtain ⟨hs, ht⟩ := h.retire_pool hret hc hk hzero
  have hmove : Move m.hardware m.store ((m.store.remove k).release k) := .poolGone hc hk hzero hret
  refine removal_ends [] ⟨.single h hmove, L, hs, fun htight _ => ht htight⟩
    ⟨fun _ => hret.contains, fun _ => hret.ownerOf?_eq (h.wired.unbound_of_kind (by rw [hk]; rfl)), fun j hjk _ =>
      h.spared_retire hmove hs.wired hret hjk⟩
    (fun j hjk hj => absurd (h.display_retire hmove hs.wired hret hjk) hj) (by rw [Event.object, ← hk]) rfl ?_
  exact Ends.of_run_ok (onLists_run_ok hrun) (.nil _)

/-- **A pool is removed exactly if no profile belongs to it.** -/
theorem dropPool_ends (h : Sound m.hardware m.store L) (hk : k.kind = .pool) :
    Ends (dropPool k) m
      (fun _ m' => Follows m L m' ∧ m.store.contains k = true ∧ m.store.Without m'.store k)
      (fun _ m' => m' = m) := by
  by_cases hout : m.store.contains k = false ∨ m.store.refsAt k ≠ 0
  · obtain ⟨e, he⟩ := Store.removeAssociated_refused hout
    exact Ends.of_run_error (run_bind_error (onLists_run_error he)) rfl
  · obtain ⟨hc, hzero⟩ := not_or.1 hout
    rw [Bool.not_eq_false] at hc
    exact (dropPool_unused h hk hc (not_not.1 hzero)).sure.mono (fun _ _ hp => ⟨hp.1, hc, hp.2⟩) fun _ _ hf => hf

/-! ## Profiles -/

/-- **A profile is created** in a live pool, exactly if its attributes describe one and there is a handle left. -/
theorem tryCreateProfile_ends (h : Sound m.hardware m.store L) (attrs : List Attribute) :
    Ends (tryCreateProfile attrs) m
      (fun k m' => Follows m L m' ∧ Created m m' .profile k ∧ ∃ pool profile,
        m.profileOfAttributes attrs = .ok (pool, profile) ∧ m.store.HasRoom .profile ∧
          Store.Adopted m.store m'.store pool k profile)
      (fun e m' => m' = m ∧ (m.profileOfAttributes attrs = .error e ∨ ∃ r, m.profileOfAttributes attrs = .ok r ∧
        e = (StoreError.exhausted .profile).toFault ∧ ¬ m.store.HasRoom .profile)) := by
  refine ends_reading (fun r hr => ?_) fun e he => ⟨rfl, .inl he⟩
  obtain ⟨pool, profile⟩ := r
  obtain ⟨⟨id, hres⟩, hlink, hcons, hrefs⟩ := Manager.profileOfAttributes_ok hr
  obtain ⟨-, hpk, hpc⟩ := resolve?_eq_some hres
  refine Ends.bind ((onStore_ends (Store.insertNew_ends h.wired.handed .profile _)).mono (fun _ _ hk => hk) ?_)
    fun k m' hk => ?_
  · rintro e m' ⟨e', t, rfl, rfl, rfl, rfl, hroom⟩
    exact ⟨rfl, .inr ⟨_, hr, rfl, hroom⟩⟩
  obtain ⟨t, rfl, hins, hroom⟩ := hk
  obtain ⟨u, hrun, hsound, htight, hcu⟩ := h.adopt hins (Profile.unlinked hlink hcons hrefs) rfl rfl hpc hpk
  have hattach : (attempt (onLists (Store.attach .poolProfiles pool k))).run { m with store := t } =
      (.ok (.ok ()), { m with store := u }) := by
    rw [attempt_run, onLists_run_ok (m := { m with store := t }) hrun]
  have hasked : ∀ p, Record.profile profile = .profile p →
      ∃ attrs, (Manager.over m.hardware m.store).profileOfAttributes attrs = .ok (pool, p) := by
    rintro _ ⟨⟩
    exact ⟨attrs, hr⟩
  have hmove : Move m.hardware m.store u :=
    .newMember (R := .poolProfiles) rfl ⟨hpc, hpk⟩ (Profile.unlinked hlink hcons hrefs) rfl hasked hins hrun
  have hlead : Leads m L u := ⟨.single h hmove, _, hsound, fun ht _ => htight ht⟩
  have hsame : ∀ j, j ∉ [pool] ++ [k] → u.display j = m.store.display j := fun j hj =>
    h.display_adopt hmove hsound.wired hins hrun (fun e => hj (by simp [e])) fun e => hj (by simp [e])
  refine Ends.bind_ok hattach (Ends.bind (announcePool_ends hpk).sure fun _ m₁ h₁ => ?_)
  refine Ends.bind (announceProfile_ends hins.kind).sure fun _ m₂ h₂ => ?_
  rw [h₁.store] at h₂
  have htold := h₁.trans h₂
  rw [← Store.visible_append] at htold
  have hfol := hlead.follows_visible h (fun j hj => by rw [hcu, hins.contains, hj, Bool.or_true]) hsame htold
  exact Ends.pure ⟨hfol, (hins.created fun j hj => (hcu j).trans hj).of_store htold.store, pool, profile, hr, hroom, t,
    hins, htold.store.symm ▸ hrun⟩

/-- a profile that no consumer is bound to is removed, and nothing else is -/
theorem dropProfile_unused (h : Sound m.hardware m.store L) (hk : k.kind = .profile)
    (hc : m.store.contains k = true) (hzero : m.store.refsAt k = 0) :
    Ends (dropProfile k) m (fun _ m' => Follows m L m' ∧ m.store.Without m'.store k) fun _ _ => False := by
  obtain ⟨p, hp⟩ := h.wired.exists_profile hc hk
  obtain ⟨o, q, hpool, ho, -⟩ := exists_poolOf_run h hp
  obtain ⟨u, hdetach, huc, -, hhanded, hgone⟩ := h.retire_profile hc hk ho hzero
  obtain ⟨removed, hrun⟩ := h.wired.removeAssociated_profile hp ho hzero hdetach huc
  have hret := hhanded.retire huc
  obtain ⟨figures, hplan, hlive, hsound, htight⟩ := hgone _ hret
  have hmove : Move m.hardware m.store (((u.remove k).release k).written figures) :=
    .profileGone hc hk hzero hdetach hret hplan
  have hwritten : ∀ j, (((u.remove k).release k).written figures).contains j = ((u.remove k).release k).contains j :=
    fun j => (Change.applied_written k _ figures).contains
  have hcontains : ∀ j, (((u.remove k).release k).written figures).contains j =
      (!decide (j = k) && m.store.contains j) := fun j => by
    have hsteady := (Store.steady_detach .poolProfiles o k).contains m.store j
    rw [hdetach] at hsteady
    rw [← hsteady]
    exact (hwritten j).trans hret.contains
  have hbinding : ∀ x, (((u.remove k).release k).written figures).ownerOf? .profileConsumers x =
      m.store.ownerOf? .profileConsumers x := fun x => by
    have hfree : u.ownerOf? .profileConsumers k = none :=
      (Store.binding_of_detach hdetach).trans (h.wired.unbound_of_kind (by rw [hk]; rfl))
    rw [Store.ownerOf?_written, hret.ownerOf?_eq hfree, Store.binding_of_detach hdetach]
  have hspared : ∀ j, j ≠ k → m.store.ownerOf? .poolProfiles k ≠ some j →
      m.store.Spared (((u.remove k).release k).written figures) j := fun j hjk hj =>
    h.spared_retire_profile hmove hsound.wired hdetach hret hplan hjk fun e =>
      hj (h.wired.linked.ownerOf?_eq_some.2 (e ▸ ho))
  refine removal_ends ((((u.remove k).release k).written figures).visible (figures.map Prod.fst))
    ⟨.single h hmove, _, hsound, fun ht _ => htight ht⟩ ⟨hcontains, hbinding, hspared⟩ (fun j hjk hj => ?_)
    (by rw [Event.object, ← hk]) rfl (Ends.bind_ok hpool (Ends.bind_ok (onLists_run_ok hrun)
      (ends_reading (fun figures' hplan' => ?_) fun e he => by cases hplan.symm.trans he)))
  · have hin : j ∈ figures.map Prod.fst := by
      by_contra hout
      exact hj (h.display_retire_profile hmove hsound.wired hdetach hret hplan hjk hout)
    obtain ⟨hjp, q', hq'⟩ := hlive j hin
    exact List.mem_filter.2 ⟨hin, hsound.wired.isSome_display.2
      ⟨(hwritten j).trans (Store.contains_of_pool? hq'), .inl hjp⟩⟩
  · obtain rfl := Except.ok.inj (hplan.symm.trans hplan')
    exact commit_ends hlive

/-- what is no profile has no pool to leave -/
theorem dropProfile_absent (hc : m.store.contains k = false) :
    (dropProfile k).run m = (.error (.notFound k.label), m) := by
  refine run_bind_error (run_bind_error ?_)
  simp only [poolOf, readingStore, reading, Store.profileAt, Store.require_of_absent hc, bind, Except.bind,
    ExceptT.run_mk]

/-- a profile that consumers are bound to stays -/
theorem dropProfile_inUse (h : Sound m.hardware m.store L) {p : Profile} (hp : m.store.profile? k = some p)
    (hrefs : m.store.refsAt k ≠ 0) :
    (dropProfile k).run m = (.error (LinkError.objectInUse k p.refCount).toFault, m) := by
  obtain ⟨o, q, hpool, -, -⟩ := exists_poolOf_run h hp
  have hrefused := Store.removeAssociated_inUse (Store.profile?_eq_some.1 hp) hrefs
  exact run_bind_error ((run_bind_ok hpool).trans (run_bind_error (onLists_run_error hrefused)))

/-- **A profile is removed exactly if no consumer is bound to it.** -/
theorem dropProfile_ends (h : Sound m.hardware m.store L) (hk : k.kind = .profile) :
    Ends (dropProfile k) m
      (fun _ m' => Follows m L m' ∧ m.store.contains k = true ∧ m.store.Without m'.store k)
      (fun _ m' => m' = m) := by
  cases hc : m.store.contains k with
  | false => exact Ends.of_run_error (dropProfile_absent hc) rfl
  | true =>
    obtain ⟨p, hp⟩ := h.wired.exists_profile hc hk
    by_cases hzero : m.store.refsAt k = 0
    · exact (dropProfile_unused h hk hc hzero).sure.mono (fun _ _ hf => ⟨hf.1, rfl, hf.2⟩) fun _ _ he => he
    · exact Ends.of_run_error (dropProfile_inUse h hp hzero) rfl

/-! ## Ports -/

/-- what a new port, or new groups and queues of a port, make of a store: what was there is still there, new members of a
list are new records, and nothing is shown otherwise -/
structure Grown (hw : Hardware) (port : Key) (s : Store Record) (L : Layout) (t : Store Record) (L' : Layout) :
    Prop where
  sound : Sound hw t L'
  tight : Tight s L → Tight t L'
  moves : Moves hw s t
  enlarged : s.Enlarged t port
  listed : ∀ R o j, j ∈ L' R o → j ∈ L R o ∨ s.contains j = false
  same : ∀ j, t.display j = s.display j

theorem Grown.refl {hw : Hardware} {port : Key} {s : Store Record} (h : Sound hw s L) : Grown hw port s L s L :=
  ⟨h, id, .refl _, .refl s port, fun _ _ _ hj => .inl hj, fun _ => rfl⟩

theorem Grown.trans {hw : Hardware} {port : Key} {s t u : Store Record} {L₁ L₂ : Layout} (h : Grown hw port s L t L₁)
    (h' : Grown hw port t L₁ u L₂) : Grown hw port s L u L₂ := by
  refine ⟨h'.sound, fun ht => h'.tight (h.tight ht), h.moves.trans h'.moves, h.enlarged.trans h'.enlarged,
    fun R o j hj => ?_, fun j => (h'.same j).trans (h.same j)⟩
  rcases h'.listed R o j hj with hj | hj
  · exact h.listed R o j hj
  · exact .inr (Bool.eq_false_iff.2 fun hs => by simp [h.enlarged.kept j hs] at hj)

/-- a manager that another comes to by new records alone -/
def Grows (port : Key) (m : Manager) (L : Layout) (m' : Manager) : Prop :=
  ∃ t L', m' = { m with store := t } ∧ Grown m.hardware port m.store L t L'

theorem Grows.follows {port : Key} {m' : Manager} (h : Grows port m L m') : Follows m L m' := by
  obtain ⟨t, L', rfl, hg⟩ := h
  have hlead : Leads m L t := ⟨hg.moves, L', hg.sound, fun htight _ => hg.tight htight⟩
  exact hlead.follows (fun j hj => absurd (hg.same j) hj) (.nil _)

theorem Grows.enlarged {port : Key} {m' : Manager} (h : Grows port m L m') : m.store.Enlarged m'.store port := by
  obtain ⟨t, L', rfl, hg⟩ := h
  exact hg.enlarged

/-- growing is not announced -/
theorem Grows.events {port : Key} {m' : Manager} (h : Grows port m L m') : m'.events = m.events := by
  obtain ⟨t, L', rfl, -⟩ := h
  rfl

/-- what grows goes on growing -/
theorem Grows.of_grown {port : Key} {t : Store Record} {L' : Layout} {m' : Manager}
    (hg : Grown m.hardware port m.store L t L') (h : Grows port { m with store := t } L' m') : Grows port m L m' := by
  obtain ⟨u, L₂, rfl, hg'⟩ := h
  exact ⟨u, L₂, rfl, hg.trans hg'⟩

/-- adding priority groups or queues to a port can only fail for want of handles -/
theorem addSubqueues_ends (kind : ObjectKind) {R : Roster} {toRecord : Subqueue → Record} {port : Key}
    (hhome : kind.home? = some R) (hR : R.ownerKind = .port) (hun : ∀ i, (toRecord { index := i }).Unlinked)
    (hkind : ∀ i, (toRecord { index := i }).kind = kind) (hsub : kind = .priorityGroup ∨ kind = .queue)
    (hport : port.kind = .port) (n : Nat) (i : UInt32) (h : Sound m.hardware m.store L) (hc : m.store.contains port = true) :
    Ends (addSubqueues kind R toRecord port n i) m (fun _ m' => Grows port m L m')
      (fun e m' => e = (StoreError.exhausted kind).toFault ∧ Grows port m L m') := by
  induction n generalizing m L i with
  | zero => exact Ends.pure ⟨m.store, L, rfl, .refl h⟩
  | succ n ih =>
    refine Ends.bind ((onStore_ends (Store.insertNew_ends h.wired.handed kind _)).mono (fun _ _ hk => hk) ?_)
      fun member m' hm => ?_
    · rintro e m' ⟨e', t, rfl, rfl, rfl, rfl, -⟩
      exact ⟨rfl, m.store, L, rfl, .refl h⟩
    obtain ⟨t, rfl, hins, -⟩ := hm
    obtain ⟨u, hrun, hsound, htight, hcu⟩ := h.adopt hins (hun i) (hkind i) hhome hc (hport.trans hR.symm)
    have hasked : ∀ p, toRecord { index := i } = .profile p →
        ∃ attrs, (Manager.over m.hardware m.store).profileOfAttributes attrs = .ok (port, p) := by
      intro p hp
      rw [← hkind i, hp] at hsub
      rcases hsub with hsub | hsub <;> cases hsub
    have hmove : Move m.hardware m.store u :=
      .newMember hhome ⟨hc, hport.trans hR.symm⟩ (hun i) (hkind i) hasked hins hrun
    have hnew : m.store.contains member = false :=
      Bool.eq_false_iff.2 fun hm => hins.new (h.wired.handed.issued hm)
    -- neither the port nor what joins it is shown
    have hunseen : ∀ (s : Store Record) j, j = port ∨ j = member → s.display j = none := by
      rintro s j (rfl | rfl)
      · exact Store.display_of_kind (by rw [hport]; decide) (by rw [hport]; decide)
      · rw [← hins.kind] at hsub
        refine Store.display_of_kind (fun e => ?_) fun e => ?_ <;> rw [e] at hsub <;> rcases hsub with hsub | hsub <;>
          cases hsub
    have henlarged : m.store.Enlarged u port := by
      have hR' : Roster.profileConsumers ≠ R := by
        rintro rfl
        cases hR
      refine ⟨fun j hj => ?_, fun j hj => ?_, fun x => ?_, fun j hj hjp => ?_⟩
      · rw [hcu, hins.contains, hj, Bool.or_true]
      · rw [hcu, hins.contains, Bool.or_eq_true, decide_eq_true_eq] at hj
        rcases hj with rfl | hj
        · exact .inr (.inr (hins.kind ▸ hsub))
        · exact .inl hj
      · rw [Store.binding_of_attach hR' hrun, hins.ownerOf?_eq (hun i) h.wired.handed]
      · exact hins.spared_of_attach hrun h.wired hsound.wired (fun _ _ _ => hmove.regime_eq h) hjp
          (hins.ne_of_contains h.wired.handed hj)
    have hgrown : Grown m.hardware port m.store L u (L.set R port (L R port ++ [member])) := by
      refine ⟨hsound, htight, .single h hmove, henlarged, fun R' o j hj => ?_, fun j => ?_⟩
      · by_cases hat : R' = R ∧ o = port
        · obtain ⟨rfl, rfl⟩ := hat
          rw [Layout.set_self, List.mem_append, List.mem_singleton] at hj
          rcases hj with hj | rfl
          · exact .inl hj
          · exact .inr hnew
        · rw [Layout.set_of_ne hat] at hj
          exact .inl hj
      · by_cases hj : j = port ∨ j = member
        · rw [hunseen _ j hj, hunseen _ j hj]
        · exact h.display_adopt hmove hsound.wired hins hrun (fun e => hj (.inl e)) fun e => hj (.inr e)
    refine Ends.bind_ok (onLists_run_ok (m := { m with store := t }) hrun) ?_
    exact (ih (m := { m with store := u }) (i + 1) hsound (henlarged.kept port hc)).mono
      (fun _ m' hm => .of_grown hgrown hm) fun e m' he => ⟨he.1, .of_grown hgrown he.2⟩

/-- **A port is brought up**, unless its hardware number is taken or handles run out on the way; all that is in its
lists is new. -/
theorem registerPort_ends (h : Sound m.hardware m.store L) (hardwareNumber groups queues : UInt32) :
    Ends (registerPort hardwareNumber groups queues) m
      (fun port m' => Follows m L m' ∧ ∃ k, k.id = port.raw ∧ Created m m' .port k ∧
        m.store.Enlarged m'.store k ∧ ∃ L', Sound m.hardware m'.store L' ∧
          ∀ R j, j ∈ L' R k → m.store.contains j = false)
      (fun e m' => m' = m ∨
        (∃ kind, e = (StoreError.exhausted kind).toFault) ∧ Follows m L m' ∧ m'.events = m.events ∧
          ∃ port : Key, port.kind = .port ∧ m.store.Enlarged m'.store port) := by
  refine Ends.bind_ok (a := m.findPort? hardwareNumber) (t := m) rfl ?_
  by_cases htaken : (m.findPort? hardwareNumber).isSome = true
  · rw [if_pos htaken]
    exact Ends.of_run_error rfl (.inl rfl)
  rw [if_neg htaken]
  refine Ends.bind_ok (a := m.hardware.tileOf hardwareNumber) (t := m) rfl ?_
  refine Ends.bind ((onStore_ends (Store.insertNew_ends h.wired.handed .port _)).mono (fun _ _ hk => hk) ?_)
    fun port m' hm => ?_
  · rintro e m' ⟨e', t, rfl, rfl, rfl, rfl, -⟩
    exact .inl rfl
  obtain ⟨t, rfl, hins, -⟩ := hm
  have htile : ∀ p, (Record.port { hardwareNumber, tile := m.hardware.tileOf hardwareNumber }).bare = .port p →
      p.tile ≤ m.hardware.lastTile := by
    intro p hp
    cases hp
    exact m.hardware.tileOf_le hardwareNumber
  obtain ⟨hsound, htight⟩ := h.insert hins (Port.unlinked ..) rfl htile rfl fun p hp => by cases hp
  have hc : t.contains port = true := by simp [hins.contains]
  have hfree : m.findPort? hardwareNumber = none := by simpa using htaken
  have hmove : Move m.hardware m.store t := .newPort hfree hins
  have henlarged : m.store.Enlarged t port := by
    refine ⟨fun j hj => by rw [hins.contains, hj, Bool.or_true], fun j hj => ?_, fun x =>
      hins.ownerOf?_eq (Port.unlinked ..) h.wired.handed _, fun j _ hjp =>
      hins.spared h.wired hsound.wired (fun _ _ _ => hmove.regime_eq h) hjp⟩
    rw [hins.contains, Bool.or_eq_true, decide_eq_true_eq] at hj
    exact hj.symm.imp_right .inl
  have hgrown : Grown m.hardware port m.store L t L := by
    refine ⟨hsound, htight, .single h hmove, henlarged, fun _ _ _ hj => .inl hj, fun j => ?_⟩
    by_cases hj : j = port
    · have hunseen : ∀ s : Store Record, s.display j = none := fun s =>
        Store.display_of_kind (by rw [hj, hins.kind]; decide) (by rw [hj, hins.kind]; decide)
      rw [hunseen, hunseen]
    · exact h.display_insert hmove hsound.wired hins hj
  have hout : ∀ {kind e m'}, e = (StoreError.exhausted kind).toFault ∧ Grows port m L m' →
      m' = m ∨ (∃ kind, e = (StoreError.exhausted kind).toFault) ∧ Follows m L m' ∧ m'.events = m.events ∧
        ∃ port : Key, port.kind = .port ∧ m.store.Enlarged m'.store port :=
    fun {kind _ _} he => .inr ⟨⟨kind, he.1⟩, he.2.follows, he.2.events, port, hins.kind, he.2.enlarged⟩
  refine Ends.bind ((addSubqueues_ends (m := { m with store := t }) .priorityGroup rfl rfl
    (fun i => (Subqueue.unlinked i).1) (fun _ => rfl) (.inl rfl) hins.kind groups.toNat 0 hsound hc).mono
    (fun _ _ hg => hg) fun _ _ he => hout ⟨he.1, .of_grown hgrown he.2⟩) fun _ m₁ h₁ => ?_
  obtain ⟨v, L₁, rfl, hg₁⟩ := h₁
  have hgrown₁ := hgrown.trans hg₁
  refine Ends.bind ((addSubqueues_ends (m := { m with store := v }) .queue rfl rfl
    (fun i => (Subqueue.unlinked i).2) (fun _ => rfl) (.inr rfl) hins.kind queues.toNat 0 hg₁.sound
    (hg₁.enlarged.kept port hc)).mono (fun _ _ hg => hg) fun _ _ he => hout ⟨he.1, .of_grown hgrown₁ he.2⟩) fun _ m₂ h₂ => ?_
  obtain ⟨x, L₂, rfl, hg₂⟩ := h₂
  have hgrown₂ := hgrown₁.trans hg₂
  refine Ends.bind (logChange_ends ..).sure fun _ m₃ h₃ => ?_
  obtain ⟨audit, rfl⟩ := h₃
  have hfol : Follows m L { m with store := x } := Grows.follows ⟨x, L₂, rfl, hgrown₂⟩
  have hlisted : ∀ R j, j ∈ L₂ R port → m.store.contains j = false := fun R j hj =>
    (hgrown₂.listed R port j hj).resolve_left fun hold => by
      rw [h.wired.eq_nil_of_new hins.new] at hold
      cases hold
  refine Ends.of_run_ok (a := ⟨port.id⟩) (t := { m with store := x, audit }) ?_
    ⟨hfol.recorded, port, rfl, hins.created fun j hj => hg₂.enlarged.kept j (hg₁.enlarged.kept j hj),
      hgrown₂.enlarged, L₂, hgrown₂.sound, hlisted⟩
  simp only [reading, Handle.require, Handle.ofKey?, hins.kind, if_true, ExceptT.run_mk]

end ManagerM

end SharedBuffer
