/-
Which requests are admitted.

Once a set request asks for a change (`Manager.Requests`), memory alone decides: the request goes through exactly if
every pool can hold what would be reserved from it after the change, in exact numbers; and a pool gets another size only
if the sizes of its direction still fit. A pool is created exactly if its direction has room for it.

Results:
- `setObject_admits`, `create_pool_admits`: the set requests, by what the change makes of the store, and new pools;
- `Call.admits_setting`, `Call.admits_newPool`: the same for calls, by object id or by typed handle.
-/
import SharedBuffer.Proofs.Accounting.Foresight
import SharedBuffer.Proofs.Manager.Capacity
import SharedBuffer.Proofs.Manager.Effects

namespace SharedBuffer

/-- `t`, which a change makes of a store, fits into memory -/
def Change.Fits (c : Change) (hw : Hardware) (t : Store Record) : Prop :=
  t.Holds hw ∧ match c with
    | .poolSize k _ => ∀ p, t.pool? k = some p → t.bytesIn p.direction ≤ hw.totalBytes.toNat
    | _ => True

namespace Change.Made

variable {hw : Hardware} {s t : Store Record} {L : Layout} {c : Change}

theorem holds_of_plan (h : c.Made s t) (hs : Sound hw s L) (hrep : 1 ≤ hw.replication)
    (hplan : ∃ figures, Accounting.plan hw s c = .ok figures) : t.Holds hw := (h.plan_iff hs hrep).1 hplan

theorem not_holds_of_plan (h : c.Made s t) (hs : Sound hw s L) (hrep : 1 ≤ hw.replication) {e : Fault}
    (hplan : Accounting.plan hw s c = .error e) : ¬ t.Holds hw ∧ ∃ reason, e = .insufficientResources reason := by
  refine ⟨fun hholds => ?_, h.insufficient_of_plan hs hplan⟩
  obtain ⟨figures, hok⟩ := (h.plan_iff hs hrep).2 hholds
  rw [hplan] at hok
  cases hok

end Change.Made

namespace ManagerM

variable {α β : Type} {m : Manager} {L : Layout} {k : Key} {a : Attribute} {c : Change} {t : Store Record}

/-- from a manager, an action goes through exactly if a condition holds, and is refused for want of resources alone -/
def Admits (P : Prop) (x : ManagerM α) (m : Manager) : Prop :=
  Ends x m (fun _ _ => P) fun e _ => ¬ P ∧ ∃ reason, e = .insufficientResources reason

theorem Admits.of_wraps {P : Prop} {f : α → β} {x : ManagerM α} {y : ManagerM β} (hx : Admits P x m)
    (h : Wraps f m y x) : Admits P y m :=
  h.ends hx (fun _ _ _ _ hp => hp) fun _ _ _ _ he => he

/-- an admitted action is one that goes through -/
theorem Admits.iff {P : Prop} {x : ManagerM α} (h : Admits P x m) :
    ((∃ a m', x.run m = (.ok a, m')) ↔ P) ∧
      ∀ e m', x.run m = (.error e, m') → ∃ reason, e = .insufficientResources reason := by
  refine ⟨⟨fun ⟨a, m', hr⟩ => h.ok hr, fun hp => ?_⟩, fun e m' hr => (h.error hr).2⟩
  rcases hr : x.run m with ⟨e | a, m'⟩
  · exact absurd hp (h.error hr).1
  · exact ⟨a, m', rfl⟩

/-! ## Set requests -/

/-- where the change decides -/
theorem Admits.of_achieves {x : ManagerM α} (h : Sound m.hardware m.store L) (hrep : 1 ≤ m.hardware.replication)
    (hmade : c.Made m.store t) (hother : ∀ k size, c ≠ .poolSize k size) (hx : Achieves c x m L) :
    Admits (c.Fits m.hardware t) x m := by
  have hfits : c.Fits m.hardware t ↔ t.Holds m.hardware := by
    cases c with
    | poolSize k size => exact absurd rfl (hother k size)
    | _ => exact and_iff_left trivial
  unfold Admits
  rw [hfits]
  refine hx.mono (fun a m' hp => ?_) fun e m' hq => ?_
  · rcases hp.2 with ⟨hidle, -⟩ | ⟨-, -, hout⟩
    · exact hmade.holds_of_isIdle h hidle
    · exact hmade.holds_of_plan h hrep hout.planned
  · rcases hq.2.2 with hplan | hcount | ⟨k, size, rfl, -⟩
    · exact hmade.not_holds_of_plan h hrep hplan
    · exact absurd (hmade.countable h.wired) hcount
    · exact absurd rfl (hother k size)

theorem resizePool_admits (h : Sound m.hardware m.store L) (hrep : 1 ≤ m.hardware.replication)
    (htotal : m.hardware.totalBytes.toNat < UInt64.size - 1) {size : UInt64}
    (hmade : (Change.poolSize k size).Made m.store t) :
    Admits ((Change.poolSize k size).Fits m.hardware t) (resizePool k size) m := by
  obtain ⟨hc, hk⟩ := hmade.buildable
  obtain ⟨p, hp⟩ := h.wired.exists_pool hc hk
  have hroom := Manager.checkDirection_resized_iff h.wired htotal hp hmade.run
  obtain ⟨p', hp', -, hdir⟩ := Change.pool?_of_core ((hmade.applied h.wired).2.core k) hp
  have hfits : (Change.poolSize k size).Fits m.hardware t ↔
      t.Holds m.hardware ∧ t.bytesIn p.direction ≤ m.hardware.totalBytes.toNat := by
    simp only [Change.Fits, hp', Option.some.injEq, forall_eq', hdir]
  unfold Admits
  rw [hfits, ← hroom]
  refine (resizePool_ends h hp size).mono (fun _ _ hf => ⟨hmade.holds_of_plan h hrep hf.2.2.planned, hf.2.1⟩) fun e _ he => ?_
  rcases he.2 with hcheck | ⟨-, hplan⟩
  · refine ⟨fun hf => ?_, Manager.insufficient_of_checkDirection hcheck⟩
    cases hcheck.symm.trans hf.2
  · obtain ⟨hnot, hreason⟩ := hmade.not_holds_of_plan h hrep hplan
    exact ⟨fun hf => hnot hf.1, hreason⟩

/-- a set request of a pool is admitted as what it goes on to -/
theorem Admits.setPool {P : Prop} {x : ManagerM Unit} (hk : k.kind = .pool) (hx : Admits P x m)
    (hw : Wraps id m (trySetPool k a) x) : Admits P (setObject k a) m := by
  simp only [setObject, hk]
  exact (hx.of_wraps hw).of_wraps (wraps_setPool k a m)

/-- **A set request goes through exactly if what it makes of the store fits.** -/
theorem setObject_admits (h : Sound m.hardware m.store L) (hrep : 1 ≤ m.hardware.replication)
    (htotal : m.hardware.totalBytes.toNat < UInt64.size - 1) (hc : m.store.contains k = true) (hask : m.AsksFor k a c)
    (hmade : c.Made m.store t) : Admits (c.Fits m.hardware t) (setObject k a) m := by
  by_cases hsize : ∃ pool size, c = .poolSize pool size
  · obtain ⟨pool, size, rfl⟩ := hsize
    cases hask with
    | @poolSize size hk ha hv =>
      refine Admits.setPool hk (resizePool_admits h hrep htotal hmade) ?_
      unfold trySetPool
      rw [ha]
      exact Wraps.reading (valueOf_eq hv)
  · exact .of_achieves h hrep hmade (fun pool size e => hsize ⟨pool, size, e⟩) (setObject_achieves h hc hask)

theorem setAttribute_admits (h : Sound m.hardware m.store L) (hrep : 1 ≤ m.hardware.replication)
    (htotal : m.hardware.totalBytes.toNat < UInt64.size - 1) {object : ObjectId} (hreq : m.Requests object a c)
    (ht : c.apply.run m.store = (.ok (), t)) : Admits (c.Fits m.hardware t) (setAttribute object a) m := by
  obtain ⟨k, spec, hid, hset, hc, hask⟩ := hreq
  exact (setObject_admits h hrep htotal hc hask ⟨hask.buildable h.wired hc, ht⟩).of_wraps
    (wraps_setAttribute hid hset hc)

/-! ## New pools -/

/-- **A pool is created exactly if its direction has room for it**, as long as a handle is left. -/
theorem create_pool_admits (h : Sound m.hardware m.store L) (htotal : m.hardware.totalBytes.toNat < UInt64.size - 1)
    {attrs : List Attribute} (hcheck : checkCreate .pool attrs = .ok ()) {r : PoolRequest}
    (hr : PoolRequest.ofAttributes attrs = .ok r) :
    Admits (((m.store.poolsIn r.direction).length < m.hardware.maxPoolsPerDirection.toNat ∧
      m.store.bytesIn r.direction + r.size.toNat ≤ m.hardware.totalBytes.toNat) ∧ m.store.HasRoom .pool)
      (create .pool attrs) m := by
  refine Admits.of_wraps ?_ (wraps_create_pool hcheck)
  unfold Admits
  rw [← Manager.checkDirection_new_iff h.wired htotal]
  refine (tryCreatePool_ends h attrs).mono ?_ fun e _ he => ?_
  · rintro _ _ ⟨-, -, r', hr', hroom, -⟩
    obtain rfl := Except.ok.inj (hr.symm.trans hr')
    exact hroom
  · obtain ⟨r', hr', hwhy⟩ := he.2.resolve_left fun hbad => nomatch hr.symm.trans hbad
    obtain rfl := Except.ok.inj (hr.symm.trans hr')
    rcases hwhy with hfull | ⟨rfl, hout⟩
    · refine ⟨fun hf => ?_, Manager.insufficient_of_checkDirection hfull⟩
      cases hfull.symm.trans hf.1
    · exact ⟨fun hf => hout hf.2, _, rfl⟩

/-- creating by handle is admitted as creating is: the id of what was created is always one of a handle -/
theorem Admits.createTyped {P : Prop} (h : Sound m.hardware m.store L) {kind : ObjectKind} {attrs : List Attribute}
    (hx : Admits P (create kind attrs) m) :
    Admits P (create kind attrs >>= fun object => reading fun _ => Handle.requireId kind object) m := by
  rcases hr : (create kind attrs).run m with ⟨e | object, m'⟩
  · exact Ends.of_run_error (run_bind_error hr) (hx.error hr)
  · have hkind := ((create_ends h kind attrs).ok hr).2.1
    refine Ends.of_run_ok (a := ⟨object⟩) (t := m') ((run_bind_ok hr).trans ?_) (hx.ok hr)
    simp only [reading, Handle.requireId, Handle.ofId?, hkind, if_true, ExceptT.run_mk]

end ManagerM

/-! ## Calls -/

namespace Call

/-- the attributes of the pool that a call creates -/
def newPool? : Call → Option (List Attribute)
  | request (.create .pool attrs) => some attrs
  | createPool direction size mode => some (ManagerM.poolAttributes direction size mode)
  | _ => none

/-- a call goes through exactly if a condition holds, and is refused for want of resources alone -/
def AdmittedIff (c : Call) (m : Manager) (P : Prop) : Prop :=
  ((∃ id m', c.perform.run m = (.ok id, m')) ↔ P) ∧
    ∀ e m', c.perform.run m = (.error e, m') → ∃ reason, e = .insufficientResources reason

variable {m : Manager} {L : Layout} {c : Call}

/-- **A call that sets is admitted exactly if what it makes of the store fits.** -/
theorem admits_setting (h : Sound m.hardware m.store L) (hrep : 1 ≤ m.hardware.replication)
    (htotal : m.hardware.totalBytes.toNat < UInt64.size - 1) {object : ObjectId} {a : Attribute}
    (hset : c.setting? = some (object, a)) {change : Change} (hreq : m.Requests object a change) {t : Store Record}
    (ht : change.apply.run m.store = (.ok (), t)) : c.AdmittedIff m (change.Fits m.hardware t) := by
  have hadmits := ManagerM.setAttribute_admits h hrep htotal hreq ht
  refine ManagerM.Admits.iff ?_
  rw [perform_of_setting hset]
  exact hadmits.of_wraps (ManagerM.Wraps.map (fun _ => nullId) _ m)

/-- **A call that creates a pool is admitted exactly if there is room.** -/
theorem admits_newPool (h : Sound m.hardware m.store L) (htotal : m.hardware.totalBytes.toNat < UInt64.size - 1)
    {attrs : List Attribute} (hnew : c.newPool? = some attrs) (hcheck : checkCreate .pool attrs = .ok ())
    {r : PoolRequest} (hr : PoolRequest.ofAttributes attrs = .ok r) :
    c.AdmittedIff m (((m.store.poolsIn r.direction).length < m.hardware.maxPoolsPerDirection.toNat ∧
      m.store.bytesIn r.direction + r.size.toNat ≤ m.hardware.totalBytes.toNat) ∧ m.store.HasRoom .pool) := by
  have hadmits := ManagerM.create_pool_admits h htotal hcheck hr
  refine ManagerM.Admits.iff ?_
  cases c with
  | request r =>
    cases r with
    | create kind attrs =>
      cases kind with
      | pool => cases hnew; exact hadmits
      | _ => cases hnew
    | _ => cases hnew
  | createPool direction size mode =>
    cases hnew
    exact (hadmits.createTyped h).of_wraps (ManagerM.Wraps.map Handle.raw _ m)
  | _ => cases hnew

end Call

end SharedBuffer
