/-
Requests that change what is there: bindings, sizes, headroom, pools of profiles, thresholds.

Each is refused before it changes anything, or goes through and leaves a sound manager. Where figures may move, what
decides is the plan: once the checks of the request itself are passed, it is refused exactly if the plan is. Those checks
object to the attribute that was given, or to its value (`Fault.Objects`).
-/
import SharedBuffer.Proofs.Manager.Actions

namespace SharedBuffer

/-- a fault finds something wrong with the only attribute of a request, or with its value -/
def Fault.Objects (e : Fault) : Prop := ∃ reason, e = .badAttributeAt 0 reason ∨ e = .badValueAt 0 reason

/-- why a profile of a pool does not go to the pool that has an id, whatever its figures are: there is none, or it is
another one that does not suit the profile -/
inductive Manager.RefusesMove (m : Manager) (p : Profile) (o : Key) (q : Pool) (id : ObjectId) : Fault → Prop where
  | gone (hgone : ∀ b r, m.store.pool? b = some r → b.id ≠ id) :
    RefusesMove m p o q id (.badValueAt 0 ("unknown buffer pool " ++ hexText id.toNat))
  | direction {b : Key} {r : Pool} (hr : m.store.pool? b = some r) (hid : b.id = id) (hother : o ≠ b)
    (hdirection : q.direction ≠ r.direction) :
    RefusesMove m p o q id (.badAttributeAt 0 ("cannot move a " ++ q.direction.label ++ " profile to a " ++
      r.direction.label ++ " pool"))
  | mode {b : Key} {r : Pool} (hr : m.store.pool? b = some r) (hid : b.id = id) (hother : o ≠ b)
    (hdirection : q.direction = r.direction) (hmode : r.mode ≠ p.mode.effective q.mode) :
    RefusesMove m p o q id (.badAttributeAt 0 ("profile needs a " ++ (p.mode.effective q.mode).label ++
      " pool, target is " ++ r.mode.label))

/-- live pools are told apart by their ids -/
theorem Wired.pool_unique {hw : Hardware} {s : Store Record} {L : Layout} (w : Wired hw s L none) {a b : Key}
    {q r : Pool} (hq : s.pool? a = some q) (hr : s.pool? b = some r) (hid : a.id = b.id) : a = b ∧ q = r := by
  have hlive : ∀ {k p}, s.pool? k = some p → k.IsHandle := fun hp => w.handed.isHandle _ (Store.contains_of_pool? hp)
  obtain rfl := (hlive hq).eq_of_id_eq (hlive hr) hid
  exact ⟨rfl, Option.some.inj (hq.symm.trans hr)⟩

namespace Manager.RefusesMove

variable {m : Manager} {L : Layout} {p : Profile} {o b : Key} {q r : Pool} {id : ObjectId} {e : Fault}

theorem objects (h : m.RefusesMove p o q id e) : e.Objects := by
  cases h with
  | gone => exact ⟨_, .inr rfl⟩
  | direction | mode => exact ⟨_, .inl rfl⟩

/-- the pool that has the id is neither the profile's own nor one that suits the profile -/
theorem unsuited (h : m.RefusesMove p o q id e) (hs : Sound m.hardware m.store L) (hr : m.store.pool? b = some r)
    (hid : b.id = id) : ¬ (o = b ∨ q.direction = r.direction ∧ r.mode = p.mode.effective q.mode) := by
  cases h with
  | gone hgone => exact absurd hid (hgone b r hr)
  | direction hr' hid' hother hnot =>
    obtain ⟨rfl, rfl⟩ := hs.wired.pool_unique hr' hr (hid'.trans hid.symm)
    exact fun hsuits => hsuits.elim hother fun h => hnot h.1
  | mode hr' hid' hother _ hnot =>
    obtain ⟨rfl, rfl⟩ := hs.wired.pool_unique hr' hr (hid'.trans hid.symm)
    exact fun hsuits => hsuits.elim hother fun h => hnot h.2

end Manager.RefusesMove

namespace ManagerM

variable {α : Type} {m : Manager} {L : Layout} {k : Key}

/-- a way to finish a planned change: its figures are written, and nothing else happens but that their pools and some
other objects are announced -/
def Finishes (ks : List Key) (finish : List (Key × Totals) → ManagerM α) : Prop :=
  ∀ (figures : List (Key × Totals)) (m : Manager),
    (∀ k ∈ figures.map Prod.fst, k.kind = .pool ∧ ∃ p, m.store.pool? k = some p) →
    Ends (finish figures) m (fun _ m' => Told ((m.store.written figures).visible (figures.map Prod.fst ++ ks))
      { m with store := m.store.written figures } m') fun _ _ => False

theorem finishes_commit : Finishes [] commit := fun figures _ h => by
  rw [List.append_nil]
  exact commit_ends h

theorem Finishes.then {ks : List Key} {tail : ManagerM α}
    (htail : ∀ m, Ends tail m (fun _ m' => Told (m.store.visible ks) m m') fun _ _ => False) :
    Finishes ks fun figures => commit figures >>= fun _ => tail := by
  intro figures m h
  refine Ends.bind (commit_ends h) fun _ m' ht => ?_
  refine (htail m').mono (fun _ _ ht' => ?_) fun _ _ hf => hf
  rw [Store.visible_append]
  rw [ht.store] at ht'
  exact ht.trans ht'

/-- **A planned change is made exactly if its plan is accepted.** `make` is the part of the request that changes the
store, with what follows it. -/
theorem planned_ends (h : Sound m.hardware m.store L) {c : Change} (hb : c.Buildable m.store)
    (hn : c.Countable m.store) (hp : c.Permitted m.hardware m.store)
    (make : ManagerM α → ManagerM α) {finish : List (Key × Totals) → ManagerM α}
    (hmake : ∀ t rest, c.apply.run m.store = (.ok (), t) → (make rest).run m = rest.run { m with store := t })
    (hfinish : Finishes (c.named m.store) finish) :
    Ends (plan c >>= fun figures => make (finish figures)) m
      (fun _ m' => Follows m L m' ∧ c.Outcome m.hardware m.store m'.store)
      (fun e m' => m' = m ∧ Accounting.plan m.hardware m.store c = .error e) := by
  refine ends_reading (fun figures hplan => ?_) fun e he => ⟨rfl, he⟩
  obtain ⟨t, hrun, -⟩ := Change.apply_run h.wired hb hn
  obtain ⟨hlead, hlive, hkept, hsame⟩ := Leads.of_plan h hb hn hp hplan hrun
  have hdone : Ends (finish figures) { m with store := t }
      (fun _ m' => Follows m L m' ∧ c.Outcome m.hardware m.store m'.store)
      (fun e m' => m' = m ∧ Accounting.plan m.hardware m.store c = .error e) :=
    (hfinish figures { m with store := t } hlive).sure.mono
      (fun _ m' ht => ⟨hlead.follows_visible h (fun k hk => (hkept k).trans hk) hsame ht, figures, t, hplan, hrun,
        ht.store⟩)
      fun _ _ hf => hf
  unfold Ends at hdone ⊢
  rwa [hmake t _ hrun]

/-! ## Pools -/

theorem resizePool_ends (h : Sound m.hardware m.store L) {p : Pool} (hp : m.store.pool? k = some p) (size : UInt64) :
    Ends (resizePool k size) m
      (fun _ m' => Follows m L m' ∧ m.checkDirection p.direction (some k) size = .ok () ∧
        (Change.poolSize k size).Outcome m.hardware m.store m'.store)
      (fun e m' => m' = m ∧ (m.checkDirection p.direction (some k) size = .error e ∨
        m.checkDirection p.direction (some k) size = .ok () ∧
          Accounting.plan m.hardware m.store (.poolSize k size) = .error e)) := by
  have hc := Store.contains_of_pool? hp
  refine Ends.bind_ok (readingStore_run_ok (Store.poolAt_eq hp)) ?_
  refine ends_reading (fun _ hcheck => ?_) fun e he => ⟨rfl, .inl he⟩
  refine (planned_ends h (c := .poolSize k size) ⟨hc, h.wired.kind_of_pool? hp⟩ trivial ⟨p, hp, hcheck⟩
    (fun rest => modifyPool k (fun p => { p with size }) >>= fun _ => rest) (fun t rest hrun => ?_)
    finishes_commit).mono (fun _ m' hf => ⟨hf.1, hcheck, hf.2⟩) fun e m' he => ⟨he.1, .inr ⟨hcheck, he.2⟩⟩
  rw [run_bind_ok (modifyPool_run hp _)]
  rw [Change.apply, Store.ofStore_modify_run hc, Prod.mk.injEq] at hrun
  rw [hrun.2]

/-! ## Profiles -/

theorem resizeProfile_ends (h : Sound m.hardware m.store L) {p : Profile} (hp : m.store.profile? k = some p)
    (size : UInt64) :
    Ends (resizeProfile k size) m
      (fun _ m' => Follows m L m' ∧ (Change.profileSize k size).Outcome m.hardware m.store m'.store)
      (fun e m' => m' = m ∧ Accounting.plan m.hardware m.store (.profileSize k size) = .error e) := by
  have hc := Store.contains_of_profile? hp
  refine planned_ends h (c := .profileSize k size) ⟨hc, h.wired.kind_of_profile? hp⟩ trivial trivial
    (fun rest => modifyProfile k (fun p => { p with size }) >>= fun _ => rest) (fun t rest hrun => ?_)
    (Finishes.then fun m => announceProfile_ends (h.wired.kind_of_profile? hp))
  rw [run_bind_ok (modifyProfile_run hp _)]
  rw [Change.apply, Store.ofStore_modify_run hc, Prod.mk.injEq] at hrun
  rw [hrun.2]

theorem setHeadroom_ends (h : Sound m.hardware m.store L) {p : Profile} (hp : m.store.profile? k = some p)
    {o : Key} {q : Pool} (ho : k ∈ L .poolProfiles o) (hq : m.store.pool? o = some q) (newXoff newXon : Option UInt64) :
    Ends (setHeadroom k newXoff newXon) m
      (fun _ m' => Follows m L m' ∧ q.direction = .ingress ∧ (Change.profileHeadroom k (newXoff.getD p.xoff)
        (newXon.getD p.xon)).Outcome m.hardware m.store m'.store)
      (fun e m' => m' = m ∧ (q.direction ≠ .ingress ∧ e.Objects ∨ q.direction = .ingress ∧
        Accounting.plan m.hardware m.store (.profileHeadroom k (newXoff.getD p.xoff) (newXon.getD p.xon)) =
          .error e)) := by
  have hc := Store.contains_of_profile? hp
  obtain ⟨o', q', hrun, ho', hq'⟩ := exists_poolOf_run h hp
  obtain rfl := h.wired.linked.owner_unique ho ho'
  refine Ends.bind_ok (readingStore_run_ok (Store.profileAt_eq hp)) ?_
  refine Ends.bind_ok hrun ?_
  refine Ends.bind_ok (readingStore_run_ok (Store.poolAt_eq hq)) ?_
  by_cases hdir : q.direction = .ingress
  · rw [if_neg (not_not.2 hdir)]
    refine (planned_ends h (c := .profileHeadroom k (newXoff.getD p.xoff) (newXon.getD p.xon))
      ⟨hc, h.wired.kind_of_profile? hp⟩ trivial ⟨p, o, q, hp, (h.wired.mem_poolProfiles_iff hp).1 ho, hq, hdir⟩
      (fun rest => modifyProfile k
        (fun p' => { p' with xoff := newXoff.getD p.xoff, xon := newXon.getD p.xon }) >>= fun _ => rest)
      (fun t rest hrun => ?_) (Finishes.then fun m => announceProfile_ends (h.wired.kind_of_profile? hp))).mono
      (fun _ m' hf => ⟨hf.1, hdir, hf.2⟩) fun e m' he => ⟨he.1, .inr ⟨hdir, he.2⟩⟩
    rw [run_bind_ok (modifyProfile_run hp _)]
    rw [Change.apply, Store.ofStore_modify_run hc, Prod.mk.injEq] at hrun
    rw [hrun.2]
  · rw [if_pos hdir]
    exact Ends.of_run_error rfl ⟨rfl, .inl ⟨hdir, _, .inl rfl⟩⟩

/-- a threshold is taken exactly if it is of the mode that counts for the profile -/
theorem setThreshold_ends (h : Sound m.hardware m.store L) {p : Profile} (hp : m.store.profile? k = some p)
    {o : Key} {q : Pool} (ho : k ∈ L .poolProfiles o) (hq : m.store.pool? o = some q) (threshold : Threshold) :
    Ends (setThreshold k threshold) m
      (fun _ m' => Follows m L m' ∧ threshold.mode = p.mode.effective q.mode ∧
        m'.store = m.store.edit k (Record.mapProfile fun p => { p with threshold }))
      (fun e m' => m' = m ∧ threshold.mode ≠ p.mode.effective q.mode ∧ e.Objects) := by
  obtain ⟨o', q', hrun, ho', hq'⟩ := exists_poolOf_run h hp
  obtain rfl := h.wired.linked.owner_unique ho ho'
  have hmode : (readingStore fun s => do return p.mode.effective (← s.poolAt o).mode).run m =
      (.ok (p.mode.effective q.mode), m) := by
    refine readingStore_run_ok ?_
    rw [Store.poolAt_eq hq]
    rfl
  refine Ends.bind_ok (readingStore_run_ok (Store.profileAt_eq hp)) ?_
  refine Ends.bind_ok hrun (Ends.bind_ok hmode ?_)
  by_cases hthr : threshold.mode = p.mode.effective q.mode
  · rw [if_neg (not_not.2 hthr)]
    have hkeep : Record.KeepsWiring (Record.mapProfile fun p => { p with threshold }) :=
      Record.keepsWiring_mapProfile (fun _ => rfl) (fun _ => rfl) fun _ => rfl
    have hs := h.edit k hkeep (fun r => by cases r <;> rfl) fun r => by cases r <;> rfl
    have hmove : Move m.hardware m.store (m.store.edit k (Record.mapProfile fun p => { p with threshold })) :=
      .threshold hp ((h.wired.mem_poolProfiles_iff hp).1 ho) hq hthr
    have hlead : Leads m L (m.store.edit k (Record.mapProfile fun p => { p with threshold })) := by
      refine ⟨.single h hmove, L, hs, fun ht _ => ?_⟩
      exact ht.congr (fun j _ => Store.contains_edit ..) (fun j _ => Store.refsAt_edit hkeep.refs) fun _ => rfl
    have hsame : ∀ j, j ∉ [o] ++ [k] → (m.store.edit k (Record.mapProfile fun p => { p with threshold })).display j =
        m.store.display j := fun j hj =>
      (Store.Alike.of_edit fun e => hj (by simp [e])).display h hmove hs.wired rfl
    have hok := (h.wired.pool_of_mem ho).2.1
    refine Ends.bind_ok (modifyProfile_run hp _) (Ends.bind (announcePool_ends hok).sure fun _ m₁ h₁ => ?_)
    refine ((announceProfile_ends (h.wired.kind_of_profile? hp)).sure).mono (fun _ m₂ h₂ => ?_) fun _ _ hf => hf
    rw [h₁.store] at h₂
    refine ⟨hlead.follows_visible h (fun j hj => (Store.contains_edit ..).trans hj) hsame ?_, hthr,
      (h₁.trans h₂).store⟩
    rw [Store.visible_append]
    exact h₁.trans h₂
  · rw [if_pos hthr]
    exact Ends.of_run_error rfl ⟨rfl, hthr, _, .inl rfl⟩

/-! ## Lists -/

/-- **A move is refused** if there is no pool for it, if the pool does not suit the profile, or if its plan is refused -/
theorem moveProfile_ends (h : Sound m.hardware m.store L) {p : Profile} (hp : m.store.profile? k = some p)
    {o : Key} {q : Pool} (ho : k ∈ L .poolProfiles o) (hq : m.store.pool? o = some q) (poolId : ObjectId) :
    Ends (moveProfile k poolId) m
      (fun _ m' => Follows m L m' ∧ ∃ target, m.resolve? .pool poolId = some target ∧
        (o = target ∧ m' = m ∨ o ≠ target ∧ (Change.profilePool k target).Permitted m.hardware m.store ∧
          (Change.profilePool k target).Outcome m.hardware m.store m'.store))
      (fun e m' => m' = m ∧ (m.RefusesMove p o q poolId e ∨ ∃ target, m.resolve? .pool poolId = some target ∧
        o ≠ target ∧ (Change.profilePool k target).Permitted m.hardware m.store ∧
          Accounting.plan m.hardware m.store (.profilePool k target) = .error e)) := by
  have hc := Store.contains_of_profile? hp
  have hk : k.kind = .profile := h.wired.kind_of_profile? hp
  obtain ⟨o', q', hrun, ho', -⟩ := exists_poolOf_run h hp
  obtain rfl := h.wired.linked.owner_unique ho ho'
  cases hres : m.resolve? .pool poolId with
  | none =>
    refine ends_reading (fun target ht => ?_) fun e he => ⟨rfl, .inl ?_⟩
    · simp only [hres] at ht
      cases ht
    · simp only [hres] at he
      cases he
      refine .gone fun b r hr hid => ?_
      cases ((resolve?_pool_eq_some h).2 ⟨hid, r, hr⟩).symm.trans hres
  | some target =>
    refine Ends.bind_ok (reading_run_ok (a := target) (by rw [hres])) ?_
    obtain ⟨hid, r, hr⟩ := (resolve?_pool_eq_some h).1 hres
    have hmode : (readingStore fun s => do return (← s.profileAt k).mode).run m = (.ok p.mode, m) := by
      refine readingStore_run_ok ?_
      rw [Store.profileAt_eq hp]
      rfl
    refine Ends.bind_ok hmode (Ends.bind_ok hrun ?_)
    by_cases hot : o = target
    · rw [if_pos hot]
      exact Ends.pure ⟨.refl h, target, rfl, .inl ⟨hot, rfl⟩⟩
    rw [if_neg hot]
    refine Ends.bind_ok (readingStore_run_ok (Store.poolAt_eq hq)) ?_
    refine Ends.bind_ok (readingStore_run_ok (Store.poolAt_eq hr)) ?_
    by_cases hdir : q.direction = r.direction
    swap
    · rw [if_pos hdir]
      exact Ends.of_run_error rfl ⟨rfl, .inl (.direction hr hid hot hdir)⟩
    rw [if_neg (not_not.2 hdir)]
    by_cases hmd : r.mode = p.mode.effective q.mode
    swap
    · rw [if_pos hmd]
      exact Ends.of_run_error rfl ⟨rfl, .inl (.mode hr hid hot hdir hmd)⟩
    rw [if_neg (not_not.2 hmd)]
    have hb : (Change.profilePool k target).Buildable m.store :=
      ⟨⟨hc, hk⟩, Store.contains_of_pool? hr, h.wired.kind_of_pool? hr⟩
    have hpermit : (Change.profilePool k target).Permitted m.hardware m.store :=
      ⟨p, o, q, r, hp, (h.wired.mem_poolProfiles_iff hp).1 ho, hq, hr, hdir, hmd⟩
    refine (planned_ends h hb trivial hpermit
      (fun rest => onLists (Store.detach .poolProfiles o k) >>= fun _ =>
        onLists (Store.attach .poolProfiles target k) >>= fun _ => rest)
      (fun t rest hrun => ?_) (Finishes.then fun m => announceProfile_ends hk)).mono
      (fun _ m' hf => ⟨hf.1, target, rfl, .inr ⟨hot, hpermit, hf.2⟩⟩)
      fun e m' he => ⟨he.1, .inr ⟨target, rfl, hot, hpermit, he.2⟩⟩
    obtain ⟨u, hu, ht'⟩ := Store.relink_halves hrun
    rw [h.wired.linked.ownerOf?_eq_some.2 ho] at hu
    refine (run_bind_ok (onLists_run_ok (x := Store.detach .poolProfiles o k) hu)).trans ?_
    exact run_bind_ok (onLists_run_ok (x := Store.attach .poolProfiles target k) (m := { m with store := u }) ht')

end ManagerM

end SharedBuffer
