/-
Requests as a whole: each ends in a sound manager, or leaves everything as it was.

`Atomic` says it of the action that decides a request, `Clean` of a request with its counting and recording. `Settles`
leaves room for the one request that can stop halfway, when handles run out under it.

Results: `create_ends`, `remove_ends` and `clean_setAttribute`, for the requests by object id.
-/
import SharedBuffer.Proofs.Manager.Bindings
import SharedBuffer.Proofs.Manager.Dispatch
import SharedBuffer.Proofs.Manager.Lifecycle

namespace SharedBuffer

/-- a manager that refused a request: its audit trail and its count of errors may differ -/
def Refused (m m' : Manager) : Prop := ∃ audit errors, m' = { m with audit, counters := { m.counters with errors } }

namespace Refused

variable {m m' : Manager}

theorem refl (m : Manager) : Refused m m := ⟨m.audit, m.counters.errors, rfl⟩

theorem of_eq (h : m' = m) : Refused m m' := h ▸ refl m

theorem counted (h : Refused m m') (audit : List AuditRecord) (errors : UInt64) :
    Refused m { m' with audit, counters := { m'.counters with errors } } := by
  obtain ⟨_, _, rfl⟩ := h
  exact ⟨audit, errors, rfl⟩

theorem store (h : Refused m m') : m'.store = m.store := by
  obtain ⟨_, _, rfl⟩ := h
  rfl

end Refused

/-- what a create request makes of the store: a pool as it asks for, or a profile in the pool that it names -/
inductive Manager.Makes (m : Manager) (attrs : List Attribute) (k : Key) (t : Store Record) : ObjectKind → Prop where
  | pool {r : PoolRequest} (asked : PoolRequest.ofAttributes attrs = .ok r)
    (new : Store.Inserted m.store t .pool k (.pool (Pool.fresh r.direction r.size r.mode m.hardware.tileSlots))) :
    Makes m attrs k t .pool
  | profile {pool : Key} {p : Profile} (asked : m.profileOfAttributes attrs = .ok (pool, p))
    (new : Store.Adopted m.store t pool k p) : Makes m attrs k t .profile

/-- some kind of object has run out of handles -/
def Fault.IsExhausted (e : Fault) : Prop := ∃ kind, e = (StoreError.exhausted kind).toFault

namespace ManagerM

variable {α β : Type} {m : Manager} {L : Layout} {k : Key} {f : α → β} {x : ManagerM α} {y : ManagerM β}

/-- an action that ends in a sound manager, or changes nothing -/
def Atomic (x : ManagerM α) (m : Manager) (L : Layout) : Prop :=
  Ends x m (fun _ m' => Follows m L m') fun _ m' => m' = m

/-- a refusal changes nothing that matters, unless handles ran out; nothing is announced either way -/
def Declines (m : Manager) (L : Layout) (e : Fault) (m' : Manager) : Prop :=
  Refused m m' ∨ e.IsExhausted ∧ Follows m L m' ∧ m'.events = m.events

theorem Declines.of_eq {e : Fault} {m' : Manager} (h : m' = m) : Declines m L e m' := .inl (.of_eq h)

theorem Declines.counted {e : Fault} {m' : Manager} (h : Declines m L e m') (audit : List AuditRecord)
    (errors : UInt64) : Declines m L e { m' with audit, counters := { m'.counters with errors } } := by
  rcases h with hr | ⟨hex, hf⟩
  · exact .inl (hr.counted audit errors)
  · exact .inr ⟨hex, hf.1.recorded, hf.2⟩

theorem Declines.events {e : Fault} {m' : Manager} (h : Declines m L e m') : m'.events = m.events := by
  rcases h with ⟨_, _, rfl⟩ | ⟨-, -, he⟩
  · rfl
  · exact he

/-- a request that ends in a sound manager, or is refused and changes nothing -/
def Clean (x : ManagerM α) (m : Manager) (L : Layout) : Prop :=
  Ends x m (fun _ m' => Follows m L m') fun _ m' => Refused m m'

/-- a request that ends in a sound manager, or is declined -/
def Settles (x : ManagerM α) (m : Manager) (L : Layout) : Prop :=
  Ends x m (fun _ m' => Follows m L m') (Declines m L)

theorem Atomic.clean (h : Atomic x m L) : Clean x m L :=
  Ends.mono h (fun _ _ hf => hf) fun _ _ he => .of_eq he

theorem Clean.settles (h : Clean x m L) : Settles x m L := Ends.mono h (fun _ _ hf => hf) fun _ _ he => .inl he

theorem Clean.of_wraps (h : Clean x m L) (hy : Wraps f m y x) : Clean y m L :=
  hy.ends h (fun _ _ _ _ hf => hf.recorded) fun _ _ audit errors he => he.counted audit errors

/-- whatever the answer, either nothing that matters has changed, or a sound manager follows -/
theorem Settles.cases (h : Settles x m L) : Refused m (x.run m).2 ∨ Follows m L (x.run m).2 := by
  rcases hr : x.run m with ⟨e | a, m'⟩
  · exact (h.error hr).imp_right fun he => he.2.1
  · exact .inr (h.ok hr)

theorem Settles.of_wraps (h : Settles x m L) (hy : Wraps f m y x) : Settles y m L :=
  hy.ends h (fun _ _ _ _ hf => hf.recorded) fun _ _ audit errors he => he.counted audit errors

/-- an action that looks first -/
theorem Atomic.reading {r : Manager → Except Fault β} {g : β → ManagerM α} (h : ∀ b, r m = .ok b → Atomic (g b) m L) :
    Atomic (reading r >>= g) m L := ends_reading h fun _ _ => rfl

theorem Atomic.throw (e : Fault) : Atomic (MonadExcept.throw e : ManagerM α) m L := Ends.throw rfl

theorem Clean.throw (e : Fault) : Clean (MonadExcept.throw e : ManagerM α) m L := Ends.throw (.refl m)

/-! ## Attributes -/

theorem atomic_trySetPool (h : Sound m.hardware m.store L) (hc : m.store.contains k = true) (hk : k.kind = .pool)
    (a : Attribute) : Atomic (trySetPool k a) m L := by
  obtain ⟨p, hp⟩ := h.wired.exists_pool hc hk
  unfold trySetPool
  split
  · refine Atomic.reading fun size _ => ?_
    exact (resizePool_ends h hp size).mono (fun _ _ hf => hf.1) fun _ _ he => he.1
  · exact Atomic.throw _
  · exact Atomic.throw _

theorem atomic_trySetProfile (h : Sound m.hardware m.store L) (hc : m.store.contains k = true)
    (hk : k.kind = .profile) (a : Attribute) : Atomic (trySetProfile k a) m L := by
  obtain ⟨p, hp⟩ := h.wired.exists_profile hc hk
  obtain ⟨o, q, -, ho, hq⟩ := exists_poolOf_run h hp
  have hheadroom : ∀ xoff xon, Atomic (setHeadroom k xoff xon) m L := fun xoff xon =>
    (setHeadroom_ends h hp ho hq xoff xon).mono (fun _ _ hf => hf.1) fun _ _ he => he.1
  have hthreshold : ∀ threshold, Atomic (setThreshold k threshold) m L := fun threshold =>
    (setThreshold_ends h hp ho hq threshold).mono (fun _ _ hf => hf.1) fun _ _ he => he.1
  unfold trySetProfile
  split
  · refine Atomic.reading fun poolId _ => ?_
    exact (moveProfile_ends h hp ho hq poolId).mono (fun _ _ hf => hf.1) fun _ _ he => he.1
  · refine Atomic.reading fun size _ => ?_
    exact (resizeProfile_ends h hp size).mono (fun _ _ hf => hf.1) fun _ _ he => he.1
  · exact Atomic.reading fun alpha _ => hthreshold _
  · exact Atomic.reading fun limit _ => hthreshold _
  · exact Atomic.reading fun xoff _ => hheadroom _ _
  · exact Atomic.reading fun xon _ => hheadroom _ _
  · exact Atomic.throw _
  · exact Atomic.throw _

theorem clean_bindObject (h : Sound m.hardware m.store L) (hc : m.store.contains k = true)
    (hk : Roster.profileConsumers.takes k.kind = true) (a : Attribute) : Clean (bindObject k a) m L := by
  unfold bindObject
  cases a.value.asOid? with
  | none => exact Clean.throw _
  | some profileId =>
    have hatom : Atomic (tryBind k profileId) m L :=
      (tryBind_ends h hc hk profileId).mono (fun _ _ hf => hf.1) fun _ _ he => he.1
    exact hatom.clean.of_wraps (wraps_bindConsumer k profileId m)

theorem clean_setObject (h : Sound m.hardware m.store L) (hc : m.store.contains k = true) (a : Attribute) :
    Clean (setObject k a) m L := by
  unfold setObject
  split
  · rename_i hk
    exact (atomic_trySetPool h hc hk a).clean.of_wraps (wraps_setPool k a m)
  · rename_i hk
    exact (atomic_trySetProfile h hc hk a).clean.of_wraps (wraps_setProfile k a m)
  · exact Clean.throw _
  all_goals
    rename_i hk
    exact clean_bindObject h hc (by rw [hk]; rfl) a

/-! ## Requests by object id -/

theorem clean_setAttribute (h : Sound m.hardware m.store L) (object : ObjectId) (a : Attribute) :
    Clean (setAttribute object a) m L := by
  exact (setAttribute_ends (fun k _ _ _ hc => clean_setObject h hc a) (fun _ => Refused.refl m)
    fun _ _ hq => hq.counted _ _).mono (fun _ _ ⟨_, _, _, _, _, hf⟩ => hf) fun _ _ hq => hq

/-- what was removed was there before and nothing else is gone, and a refusal changes nothing -/
theorem remove_ends (h : Sound m.hardware m.store L) (object : ObjectId) :
    Ends (remove object) m (fun _ m' => Follows m L m' ∧ ∃ k, Key.ofId? object = some k ∧
      m.store.contains k = true ∧ m.store.Without m'.store k) fun _ m' => Refused m m' := by
  have hinner : Ends (reading (fun _ => Key.require object) >>= removeObject) m
      (fun _ m' => Follows m L m' ∧ ∃ k, Key.ofId? object = some k ∧
        m.store.contains k = true ∧ m.store.Without m'.store k) fun _ m' => Refused m m' := by
    refine ends_reading (fun k hk => ?_) fun _ _ => .refl m
    have hid := Key.require_eq_ok hk
    unfold removeObject
    split
    · rename_i hk
      exact (wraps_removePool hk m).ends (dropPool_ends h hk)
        (fun _ m' _ _ hp => ⟨hp.1.recorded, k, hid, hp.2⟩)
        fun e m' audit errors he => (Refused.of_eq he).counted audit errors
    · rename_i hk
      exact (wraps_removeProfile hk m).ends (dropProfile_ends h hk)
        (fun _ m' _ _ hp => ⟨hp.1.recorded, k, hid, hp.2⟩)
        fun e m' audit errors he => (Refused.of_eq he).counted audit errors
    · exact Ends.throw (.refl m)
  rw [remove_eq]
  refine (wraps_counted _ m).ends hinner (fun _ _ _ _ hp => ⟨hp.1.recorded, hp.2⟩) ?_
  exact fun _ _ audit errors he => he.counted audit errors

theorem clean_remove (h : Sound m.hardware m.store L) (object : ObjectId) : Clean (remove object) m L :=
  (remove_ends h object).mono (fun _ _ hp => hp.1) fun _ _ he => he

/-- creating leaves something new, with an id that states its kind, or is refused and changes nothing -/
theorem create_ends (h : Sound m.hardware m.store L) (kind : ObjectKind) (attrs : List Attribute) :
    Ends (create kind attrs) m (fun object m' => Follows m L m' ∧ ObjectKind.ofId? object = some kind ∧
      ∃ k, k.id = object ∧ Created m m' kind k ∧ m.Makes attrs k m'.store kind) fun _ m' => Refused m m' := by
  have hkind : ∀ {k : Key}, Key.ofId? k.id = some k → k.kind = kind → ObjectKind.ofId? k.id = some kind := by
    rintro k hk rfl
    unfold Key.ofId? at hk
    obtain ⟨kind', hkind', hk⟩ := Option.map_eq_some_iff.1 hk
    rw [hkind', ← hk]
  have hinner : Ends (reading (fun _ => checkCreate kind attrs) >>= fun _ => createObject kind attrs) m
      (fun object m' => Follows m L m' ∧ ObjectKind.ofId? object = some kind ∧
        ∃ k, k.id = object ∧ Created m m' kind k ∧ m.Makes attrs k m'.store kind) fun _ m' => Refused m m' := by
    refine ends_reading (fun _ _ => ?_) fun _ _ => Refused.refl m
    cases kind
    case pool =>
      refine ((wraps_createPoolFrom attrs m).trans (Wraps.map Key.id _ m)).ends (tryCreatePool_ends h attrs)
        (fun k m' _ _ hp => ?_) fun e m' audit errors he => (Refused.of_eq he.1).counted audit errors
      obtain ⟨hf, hnew, r, hr, -, hins⟩ := hp
      exact ⟨hf.recorded, hkind hnew.ofId? hnew.kind, k, rfl, hnew.of_store rfl, .pool hr hins⟩
    case profile =>
      refine ((wraps_createProfileFrom attrs m).trans (Wraps.map Key.id _ m)).ends (tryCreateProfile_ends h attrs)
        (fun k m' _ _ hp => ?_) fun e m' audit errors he => (Refused.of_eq he.1).counted audit errors
      obtain ⟨hf, hnew, pool, profile, hr, -, hadopted⟩ := hp
      exact ⟨hf.recorded, hkind hnew.ofId? hnew.kind, k, rfl, hnew.of_store rfl, .profile hr hadopted⟩
    all_goals exact Ends.throw (Refused.refl m)
  rw [create_eq]
  refine (wraps_counted _ m).ends hinner (fun _ _ _ _ hp => ?_) fun _ m' audit errors he =>
    he.counted audit errors
  obtain ⟨hfol, hkind, k, hid, hnew, hmade⟩ := hp
  exact ⟨hfol.recorded, hkind, k, hid, hnew.of_store rfl, hmade⟩

end ManagerM

end SharedBuffer
