/-
From requests to the actions they are made of.

Around the action that decides, a request only counts and records: `Wraps f m y x` says that from `m` the request `y`
answers and refuses as `x` does, and leaves what `x` leaves but for its audit trail and counters; of a refusal it
changes the audit trail and the count of errors alone. Requests by object id go on to one action for each kind of object
and each attribute; a removal that went through is announced only then.
-/
import SharedBuffer.Manager.Request
import SharedBuffer.Proofs.Manager.Actions

namespace SharedBuffer

theorem Key.require_eq_ok {id : ObjectId} {k : Key} (h : Key.require id = .ok k) : Key.ofId? id = some k := by
  unfold Key.require at h
  split at h
  · rename_i k' hid
    exact hid.trans (congrArg some (Except.ok.inj h))
  · cases h

theorem Key.require_of_ofId? {id : ObjectId} {k : Key} (h : Key.ofId? id = some k) : Key.require id = .ok k := by
  rw [Key.require, h]

namespace ManagerM

variable {α β γ : Type} {m : Manager} {f : α → β} {x : ManagerM α} {y : ManagerM β}

/-- from a manager, `y` ends as `x` does, up to the audit trail and the counters -/
def Wraps (f : α → β) (m : Manager) (y : ManagerM β) (x : ManagerM α) : Prop :=
  Ends x m (fun a m' => ∃ audit counters, y.run m = (.ok (f a), { m' with audit, counters }))
    (fun e m' => ∃ audit errors,
      y.run m = (.error e, { m' with audit, counters := { m'.counters with errors } }))

namespace Wraps

/-- what holds of the endings of the inner action, and lasts under counting and recording, holds of the outer one -/
theorem ends {P : α → Manager → Prop} {Q : Fault → Manager → Prop} {P' : β → Manager → Prop}
    {Q' : Fault → Manager → Prop} (h : Wraps f m y x) (hx : Ends x m P Q)
    (hp : ∀ a m' audit counters, P a m' → P' (f a) { m' with audit, counters })
    (hq : ∀ e m' audit errors, Q e m' → Q' e { m' with audit, counters := { m'.counters with errors } }) :
    Ends y m P' Q' := by
  rcases hr : x.run m with ⟨e | a, m'⟩
  · obtain ⟨audit, errors, hy⟩ := h.error hr
    exact Ends.of_run_error hy (hq e m' audit errors (hx.error hr))
  · obtain ⟨audit, counters, hy⟩ := h.ok hr
    exact Ends.of_run_ok hy (hp a m' audit counters (hx.ok hr))

theorem trans {g : β → γ} {z : ManagerM γ} (h : Wraps f m y x) (h' : Wraps g m z y) : Wraps (g ∘ f) m z x := by
  unfold Wraps at *
  rcases hr : x.run m with ⟨e | a, m'⟩
  · obtain ⟨audit, errors, hy⟩ := h.error hr
    obtain ⟨audit', errors', hz⟩ := h'.error hy
    exact Ends.of_run_error hr ⟨audit', errors', hz⟩
  · obtain ⟨audit, counters, hy⟩ := h.ok hr
    obtain ⟨audit', counters', hz⟩ := h'.ok hy
    exact Ends.of_run_ok hr ⟨audit', counters', hz⟩

theorem of_run_eq {y : ManagerM α} (h : y.run m = x.run m) : Wraps id m y x := by
  rcases hr : x.run m with ⟨e | a, m'⟩
  · exact Ends.of_run_error hr ⟨m'.audit, m'.counters.errors, h.trans hr⟩
  · exact Ends.of_run_ok hr ⟨m'.audit, m'.counters, h.trans hr⟩

/-- a look whose answer is known -/
theorem reading {r : Manager → Except Fault β} {g : β → ManagerM α} {b : β} (h : r m = .ok b) :
    Wraps id m (reading r >>= g) (g b) := by
  refine of_run_eq (run_bind_ok ?_)
  rw [← h]
  rfl

theorem map (f : α → β) (x : ManagerM α) (m : Manager) : Wraps f m (x >>= fun a => pure (f a)) x := by
  rcases hr : x.run m with ⟨e | a, m'⟩
  · exact Ends.of_run_error hr ⟨m'.audit, m'.counters.errors, run_bind_error hr⟩
  · exact Ends.of_run_ok hr ⟨m'.audit, m'.counters, run_bind_ok hr⟩

/-- both endings go on, to end alike -/
theorem attempt {g : Except Fault α → ManagerM β}
    (hok : ∀ a m, ∃ audit counters, (g (.ok a)).run m = (.ok (f a), { m with audit, counters }))
    (herr : ∀ e m, ∃ audit errors,
      (g (.error e)).run m = (.error e, { m with audit, counters := { m.counters with errors } })) (m : Manager) :
    Wraps f m (attempt x >>= g) x := by
  rcases hr : x.run m with ⟨e | a, m'⟩
  · obtain ⟨audit, errors, hg⟩ := herr e m'
    exact Ends.of_run_error hr ⟨audit, errors, (run_attempt_bind hr).trans hg⟩
  · obtain ⟨audit, counters, hg⟩ := hok a m'
    exact Ends.of_run_ok hr ⟨audit, counters, (run_attempt_bind hr).trans hg⟩

/-- both endings go on, to end alike but for an announcement, which does not depend on what is counted or recorded -/
theorem announcing {e : Event} {g : Except Fault α → ManagerM Unit}
    (hok : ∀ a m, ∃ audit counters, (g (.ok a)).run m = (announce e).run { m with audit, counters })
    (herr : ∀ e m, ∃ audit errors,
      (g (.error e)).run m = (.error e, { m with audit, counters := { m.counters with errors } })) (m : Manager) :
    Wraps id m (ManagerM.attempt x >>= g) (x >>= fun _ => announce e) := by
  rcases hr : x.run m with ⟨e | a, m'⟩
  · obtain ⟨audit, errors, hg⟩ := herr e m'
    exact Ends.of_run_error (run_bind_error hr) ⟨audit, errors, (run_attempt_bind hr).trans hg⟩
  · obtain ⟨audit, counters, hg⟩ := hok a m'
    refine Ends.of_run_ok (run_bind_ok hr) ⟨audit, counters, (run_attempt_bind hr).trans (hg.trans ?_)⟩
    cases hw : m'.watched <;> simp [announce, update, hw]

end Wraps

theorem wraps_counted (x : ManagerM α) (m : Manager) : Wraps id m (counted x) x := by
  unfold counted
  refine Wraps.attempt (fun a m => ?_) (fun e m => ?_) m
  · exact ⟨m.audit, m.counters, rfl⟩
  · exact ⟨m.audit, bump m.counters.errors, rfl⟩

/-- a request that is refused has its refusal counted besides -/
theorem ends_counted {P : α → Manager → Prop} {Q Q' : Fault → Manager → Prop} (h : Ends x m P Q)
    (hq : ∀ e m', Q e m' →
      Q' e { m' with counters := { m'.counters with errors := bump m'.counters.errors } }) :
    Ends (counted x) m P Q' := by
  rcases hr : x.run m with ⟨e | a, m'⟩
  · exact Ends.of_run_error ((run_attempt_bind hr).trans rfl) (hq e m' (h.error hr))
  · exact Ends.of_run_ok ((run_attempt_bind hr).trans rfl) (h.ok hr)

/-! ## Requests on pools -/

theorem wraps_createPoolFrom (attrs : List Attribute) (m : Manager) :
    Wraps id m (createPoolFrom attrs) (tryCreatePool attrs) := by
  unfold createPoolFrom
  refine Wraps.attempt (fun k m => ?_) (fun e m => ?_) m
  · obtain ⟨_, m', hrun, audit, rfl⟩ := (logSnapshot_ends (m := { m with
      counters := { m.counters with poolsCreated := bump m.counters.poolsCreated } }) .poolLifecycle
      "create_buffer_pool" k).exists_ok
    exact ⟨audit, _, (run_bind_ok rfl).trans (run_bind_ok hrun)⟩
  · exact ⟨_, m.counters.errors, rfl⟩

theorem wraps_setPool (k : Key) (a : Attribute) (m : Manager) : Wraps id m (setPool k a) (trySetPool k a) := by
  unfold setPool
  refine Wraps.attempt (fun _ m => ?_) (fun e m => ?_) m
  · obtain ⟨_, m', hrun, audit, rfl⟩ :=
      (logSnapshot_ends (m := m) .attributeChange "set_buffer_pool_attribute" k).exists_ok
    exact ⟨audit, m.counters, hrun⟩
  · exact ⟨_, m.counters.errors, rfl⟩

/-- takes out a pool, and announces that it is gone -/
def dropPool (k : Key) : ManagerM Unit := do
  let _ ← onLists (Store.removeAssociated k)
  announce (.poolRemoved k.id)

theorem wraps_removePool {k : Key} (hk : k.kind = .pool) (m : Manager) : Wraps id m (removePool k) (dropPool k) := by
  unfold removePool
  simp only [announceOf_eq hk]
  refine Wraps.announcing (fun _ m => ?_) (fun e m => ?_) m
  · exact ⟨_, _, (run_bind_ok rfl).trans (run_bind_ok rfl)⟩
  · exact ⟨_, m.counters.errors, rfl⟩

/-! ## Requests on profiles -/

theorem wraps_createProfileFrom (attrs : List Attribute) (m : Manager) :
    Wraps id m (createProfileFrom attrs) (tryCreateProfile attrs) := by
  unfold createProfileFrom
  refine Wraps.attempt (fun k m => ?_) (fun e m => ?_) m
  · obtain ⟨_, m', hrun, audit, rfl⟩ := (logSnapshot_ends (m := { m with
      counters := { m.counters with profilesCreated := bump m.counters.profilesCreated } }) .profileLifecycle
      "create_buffer_profile" k).exists_ok
    exact ⟨audit, _, (run_bind_ok rfl).trans (run_bind_ok hrun)⟩
  · exact ⟨_, m.counters.errors, rfl⟩

theorem wraps_setProfile (k : Key) (a : Attribute) (m : Manager) :
    Wraps id m (setProfile k a) (trySetProfile k a) := by
  unfold setProfile
  refine Wraps.attempt (fun _ m => ?_) (fun e m => ?_) m
  · obtain ⟨_, m', hrun, audit, rfl⟩ :=
      (logSnapshot_ends (m := m) .attributeChange "set_buffer_profile_attribute" k).exists_ok
    exact ⟨audit, m.counters, hrun⟩
  · exact ⟨_, m.counters.errors, rfl⟩

/-- takes out a profile, and announces that it is gone -/
def dropProfile (k : Key) : ManagerM Unit := do
  tryRemoveProfile k
  announce (.profileRemoved k.id)

theorem wraps_removeProfile {k : Key} (hk : k.kind = .profile) (m : Manager) : Wraps id m (removeProfile k) (dropProfile k) := by
  unfold removeProfile
  simp only [announceOf_eq hk]
  refine Wraps.announcing (fun _ m => ?_) (fun e m => ?_) m
  · exact ⟨_, _, (run_bind_ok rfl).trans (run_bind_ok rfl)⟩
  · exact ⟨_, m.counters.errors, rfl⟩

/-! ## Bindings -/

theorem wraps_bindConsumer (k : Key) (profileId : ObjectId) (m : Manager) :
    Wraps (fun _ => ()) m (bindConsumer k profileId) (tryBind k profileId) := by
  unfold bindConsumer
  refine Wraps.attempt (fun r m => ?_) (fun e m => ?_) m
  · cases r with
    | unchanged => exact ⟨m.audit, m.counters, rfl⟩
    | changed target => exact ⟨_, _, rfl⟩
  · exact ⟨_, m.counters.errors, rfl⟩

/-! ## By object id -/

/-- what a set request of a consumer goes on to -/
def bindObject (k : Key) (a : Attribute) : ManagerM Unit :=
  match a.value.asOid? with
  | some profileId => bindConsumer k profileId
  | none => throw (.badValueAt 0 "expected an object id")

/-- what a set request goes on to, by the kind of its object -/
def setObject (k : Key) (a : Attribute) : ManagerM Unit :=
  match k.kind with
  | .pool => setPool k a
  | .profile => setProfile k a
  | .switch => throw (.notSupported "switch attributes")
  | .priorityGroup | .queue | .port => bindObject k a

theorem setObject_consumer {k : Key} {a : Attribute} (hk : Roster.profileConsumers.takes k.kind = true) :
    setObject k a = bindObject k a := by
  unfold setObject
  cases hkind : k.kind <;> simp_all [Roster.takes]

/-- what a create request goes on to, by the kind of object -/
def createObject (kind : ObjectKind) (attrs : List Attribute) : ManagerM ObjectId :=
  match kind with
  | .pool => do return (← createPoolFrom attrs).id
  | .profile => do return (← createProfileFrom attrs).id
  | other => throw (.notSupported ("creating " ++ other.name ++ " objects"))

theorem create_eq (kind : ObjectKind) (attrs : List Attribute) : create kind attrs = counted (do
    reading fun _ => checkCreate kind attrs
    createObject kind attrs) := by cases kind <;> rfl

/-- a removal, by the kind of its object -/
def removeObject (k : Key) : ManagerM Unit :=
  match k.kind with
  | .pool => removePool k
  | .profile => removeProfile k
  | other => throw (.notSupported ("removing " ++ other.name ++ " objects"))

theorem remove_eq (object : ObjectId) : remove object = counted (do
    let k ← reading fun _ => Key.require object
    removeObject k) := rfl

theorem setAttribute_eq (object : ObjectId) (a : Attribute) : setAttribute object a = counted (do
    let k ← reading fun _ => Key.require object
    let _ ← reading fun _ => checkSet k.kind a
    let _ ← readingStore fun s => s.require k
    setObject k a) := rfl

/-- a set request that passes the checks goes on to its object -/
theorem wraps_setAttribute {object : ObjectId} {a : Attribute} {k : Key} {spec : AttributeSpec}
    (hid : Key.ofId? object = some k) (hset : checkSet k.kind a = .ok spec) (hc : m.store.contains k = true) :
    Wraps id m (setAttribute object a) (setObject k a) := by
  obtain ⟨r, hr⟩ := Store.contains_iff.1 hc
  have hkey := Key.require_of_ofId? hid
  have hrec := Store.require_of_get? hr
  rw [setAttribute_eq]
  refine Wraps.trans (Wraps.of_run_eq ?_) (wraps_counted _ m)
  refine (run_bind_ok (a := k) (t := m) ?_).trans ?_
  · rw [← hkey]; rfl
  refine (run_bind_ok (a := spec) (t := m) ?_).trans (run_bind_ok (a := r) (t := m) ?_)
  · rw [← hset]; rfl
  · rw [← hrec]; rfl

/-- a set request is refused by one of the checks, which change nothing, or goes on to its object, which is there -/
theorem setAttribute_ends {object : ObjectId} {a : Attribute} {P : Key → Manager → Prop} {Q Q' : Fault → Manager → Prop}
    (hobject : ∀ k spec, Key.ofId? object = some k → checkSet k.kind a = .ok spec → m.store.contains k = true →
      Ends (setObject k a) m (fun _ m' => P k m') Q)
    (hchecks : ∀ e, Q e m)
    (hcount : ∀ e m', Q e m' →
      Q' e { m' with counters := { m'.counters with errors := bump m'.counters.errors } }) :
    Ends (setAttribute object a) m (fun _ m' => ∃ k spec, Key.ofId? object = some k ∧ checkSet k.kind a = .ok spec ∧
      m.store.contains k = true ∧ P k m') Q' := by
  rw [setAttribute_eq]
  refine ends_counted (ends_reading (fun k hk => ?_) fun e _ => hchecks e) hcount
  refine ends_reading (fun spec hspec => ?_) fun e _ => hchecks e
  refine ends_reading (fun r hr => ?_) fun e _ => hchecks e
  have hid := Key.require_eq_ok hk
  have hc := Store.contains_of_get? (Store.get?_of_require hr)
  exact (hobject k spec hid hspec hc).mono (fun _ _ hp => ⟨k, spec, hid, hspec, hc, hp⟩) fun _ _ hq => hq

/-- a create request that passes the checks goes on to its kind -/
theorem wraps_create {kind : ObjectKind} {attrs : List Attribute} (hcheck : checkCreate kind attrs = .ok ()) :
    Wraps id m (create kind attrs) (createObject kind attrs) := by
  rw [create_eq]
  exact (Wraps.reading hcheck).trans (wraps_counted _ m)

/-- a create request for a pool that passes the checks goes on to its attributes -/
theorem wraps_create_pool {attrs : List Attribute} (hcheck : checkCreate .pool attrs = .ok ()) :
    Wraps Key.id m (create .pool attrs) (tryCreatePool attrs) :=
  ((wraps_createPoolFrom attrs m).trans (Wraps.map Key.id _ m)).trans (wraps_create hcheck)

/-- a create request for a profile that passes the checks goes on to its attributes -/
theorem wraps_create_profile {attrs : List Attribute} (hcheck : checkCreate .profile attrs = .ok ()) :
    Wraps Key.id m (create .profile attrs) (tryCreateProfile attrs) :=
  ((wraps_createProfileFrom attrs m).trans (Wraps.map Key.id _ m)).trans (wraps_create hcheck)

end ManagerM

end SharedBuffer
