/-
What an accepted set request has done.

A set request that goes through had its ids in order and was about a live object. It has come to the change that it asks
for (`Manager.AsksFor`), which may have been there already, or it has put another threshold into a profile: these are
the ways there are (`Manager.Sets`).

Result: `Call.sets`.
-/
import SharedBuffer.Proofs.Manager.Effects

namespace SharedBuffer

/-- what setting an attribute of an object may make of a manager -/
inductive Manager.Sets (m : Manager) (k : Key) (a : Attribute) (m' : Manager) : Prop where
  | change {c : Change} (asked : m.AsksFor k a c) (obtained : m.Obtains c m')
  /-- the only attributes that no memory depends on -/
  | threshold {threshold : Threshold} (hk : k.kind = .profile) (given : a = ProfileParams.thresholdAttribute threshold)
    (edited : m'.store = m.store.edit k (Record.mapProfile fun p => { p with threshold }))

/-! ## Attributes that decode -/

theorem eq_of_valueOf {α : Type} {a : Attribute} {decode : AttributeValue → Option α} {v : α}
    (h : valueOf a decode = .ok v) : decode a.value = some v := by
  unfold valueOf at h
  split at h
  · rename_i hv
    exact Except.ok.inj h ▸ hv
  · cases h

namespace AttributeValue

variable {v : AttributeValue}

theorem eq_u64 {n : UInt64} (h : v.asU64? = some n) : v = .u64 n := by
  cases v <;> cases h
  rfl

theorem eq_i8 {n : Int8} (h : v.asI8? = some n) : v = .i8 n := by
  cases v <;> cases h
  rfl

theorem eq_oid {id : ObjectId} (h : v.asOid? = some id) : v = .oid id := by
  cases v <;> cases h
  rfl

end AttributeValue

theorem ProfileAttribute.id_of_ofId? {n : UInt32} {a : ProfileAttribute} (h : ofId? n = some a) : n = a.id :=
  (by simpa using List.find?_some h : a.id = n).symm

theorem ProfileParams.eq_dynamic {a : Attribute} {alpha : Int8}
    (ha : ProfileAttribute.ofId? a.id = some .dynamicThreshold) (hv : a.value.asI8? = some alpha) :
    a = thresholdAttribute (.dynamic alpha) :=
  calc a = ⟨a.id, a.value⟩ := rfl
    _ = ⟨ProfileAttribute.dynamicThreshold.id, .i8 alpha⟩ := by
      rw [ProfileAttribute.id_of_ofId? ha, AttributeValue.eq_i8 hv]

theorem ProfileParams.eq_static {a : Attribute} {limit : UInt64}
    (ha : ProfileAttribute.ofId? a.id = some .staticThreshold) (hv : a.value.asU64? = some limit) :
    a = thresholdAttribute (.static limit) :=
  calc a = ⟨a.id, a.value⟩ := rfl
    _ = ⟨ProfileAttribute.staticThreshold.id, .u64 limit⟩ := by
      rw [ProfileAttribute.id_of_ofId? ha, AttributeValue.eq_u64 hv]

/-! ## By the kind of the object -/

namespace ManagerM

variable {α β : Type} {m : Manager} {L : Layout} {k : Key}

/-- from a sound manager, an action that answers has set an attribute -/
def Setting (x : ManagerM α) (m : Manager) (L : Layout) (k : Key) (a : Attribute) : Prop :=
  Ends x m (fun _ m' => Follows m L m' ∧ m.Sets k a m') fun _ _ => True

namespace Setting

variable {a : Attribute} {f : α → β} {x : ManagerM α} {y : ManagerM β}

theorem of_wraps (hx : Setting x m L k a) (h : Wraps f m y x) : Setting y m L k a := by
  refine h.ends hx (fun _ m' _ _ hp => ⟨hp.1.recorded, ?_⟩) fun _ _ _ _ _ => trivial
  cases hp.2 with
  | change asked obtained => exact .change asked obtained
  | threshold hk given edited => exact .threshold hk given edited

theorem throw (e : Fault) : Setting (MonadExcept.throw e : ManagerM α) m L k a := Ends.throw trivial

/-- an action that decodes the attribute's value first -/
theorem decoding {γ : Type} {decode : AttributeValue → Option γ} {g : γ → ManagerM α}
    (h : ∀ v, decode a.value = some v → Setting (g v) m L k a) :
    Setting (reading (fun _ => valueOf a decode) >>= g) m L k a :=
  ends_reading (fun v hv => h v (eq_of_valueOf hv)) fun _ _ => trivial

/-- an action that comes to the change asked for -/
theorem of_ends {P : α → Manager → Prop} {Q : Fault → Manager → Prop} (hx : Ends x m P Q)
    (hp : ∀ b m', P b m' → Follows m L m' ∧ ∃ c, m.AsksFor k a c ∧ m.Obtains c m') : Setting x m L k a := by
  refine hx.mono (fun b m' hb => ?_) fun _ _ _ => trivial
  obtain ⟨hf, c, hask, hdone⟩ := hp b m' hb
  exact ⟨hf, .change hask hdone⟩

end Setting

theorem setting_trySetPool (h : Sound m.hardware m.store L) (hc : m.store.contains k = true) (hk : k.kind = .pool)
    (a : Attribute) : Setting (trySetPool k a) m L k a := by
  obtain ⟨p, hp⟩ := h.wired.exists_pool hc hk
  unfold trySetPool
  split
  · rename_i ha
    refine Setting.decoding fun size hv => .of_ends (resizePool_ends h hp size) fun _ m' hf => ?_
    exact ⟨hf.1, .poolSize k size, .poolSize hk ha hv, .inl hf.2.2⟩
  · exact Setting.throw _
  · exact Setting.throw _

/-- a profile that goes to another pool was compatible with it -/
theorem setting_moveProfile (h : Sound m.hardware m.store L) {p : Profile} {o : Key} {q : Pool}
    (hp : m.store.profile? k = some p) (ho : k ∈ L .poolProfiles o) (hq : m.store.pool? o = some q) {a : Attribute}
    (ha : ProfileAttribute.ofId? a.id = some .poolId) {poolId : ObjectId} (hv : a.value.asOid? = some poolId) :
    Setting (moveProfile k poolId) m L k a := by
  have hk := h.wired.kind_of_profile? hp
  have hpool := (h.wired.mem_poolProfiles_iff hp).1 ho
  refine .of_ends (moveProfile_ends h hp ho hq poolId) fun _ m' hf => ?_
  obtain ⟨hf, target, hid, ⟨rfl, rfl⟩ | ⟨-, hpermit, hout⟩⟩ := hf
  · exact ⟨hf, _, .profilePool hk ha hv hp hpool hq hid hq (.inl rfl),
      .inr ⟨h.wired.linked.ownerOf?_eq_some.2 ho, rfl⟩⟩
  · obtain ⟨q', hq', hcompat⟩ := Change.exists_pool_of_permitted hp hpool hq hpermit
    exact ⟨hf, _, .profilePool hk ha hv hp hpool hq hid hq' (.inr hcompat), .inl hout⟩

theorem setting_trySetProfile (h : Sound m.hardware m.store L) (hc : m.store.contains k = true)
    (hk : k.kind = .profile) (a : Attribute) : Setting (trySetProfile k a) m L k a := by
  obtain ⟨p, hp⟩ := h.wired.exists_profile hc hk
  obtain ⟨o, q, -, ho, hq⟩ := exists_poolOf_run h hp
  have hpool := (h.wired.mem_poolProfiles_iff hp).1 ho
  have hthreshold : ∀ threshold, a = ProfileParams.thresholdAttribute threshold →
      Setting (setThreshold k threshold) m L k a := fun threshold hgiven =>
    (setThreshold_ends h hp ho hq threshold).mono (fun _ _ hf => ⟨hf.1, .threshold hk hgiven hf.2.2⟩)
      fun _ _ _ => trivial
  unfold trySetProfile
  split
  · rename_i ha
    exact Setting.decoding fun id hv => setting_moveProfile h hp ho hq ha hv
  · rename_i ha
    refine Setting.decoding fun size hv => .of_ends (resizeProfile_ends h hp size) fun _ m' hf => ?_
    exact ⟨hf.1, _, .profileSize hk ha hv, .inl hf.2⟩
  · rename_i ha
    exact Setting.decoding fun alpha hv => hthreshold _ (ProfileParams.eq_dynamic ha hv)
  · rename_i ha
    exact Setting.decoding fun limit hv => hthreshold _ (ProfileParams.eq_static ha hv)
  · rename_i ha
    refine Setting.decoding fun xoff hv => .of_ends (setHeadroom_ends h hp ho hq (some xoff) none) fun _ m' hf => ?_
    exact ⟨hf.1, _, .xoff hk ha hv hp hpool hq hf.2.1, .inl hf.2.2⟩
  · rename_i ha
    refine Setting.decoding fun xon hv => .of_ends (setHeadroom_ends h hp ho hq none (some xon)) fun _ m' hf => ?_
    exact ⟨hf.1, _, .xon hk ha hv hp hpool hq hf.2.1, .inl hf.2.2⟩
  · exact Setting.throw _
  · exact Setting.throw _

theorem setting_bindObject (h : Sound m.hardware m.store L) (hc : m.store.contains k = true)
    (hk : Roster.profileConsumers.takes k.kind = true) (a : Attribute) : Setting (bindObject k a) m L k a := by
  unfold bindObject
  cases hv : a.value.asOid? with
  | none => exact Setting.throw _
  | some id =>
    have htry : Setting (tryBind k id) m L k a := .of_ends (tryBind_ends h hc hk id) fun _ m' hf => by
      obtain ⟨hf, target, hto, ⟨hidle, rfl, -⟩ | ⟨-, hout, -⟩⟩ := hf
      · exact ⟨hf, _, .binding hk hv hto, .inr ⟨hidle, rfl⟩⟩
      · exact ⟨hf, _, .binding hk hv hto, .inl hout⟩
    exact htry.of_wraps (wraps_bindConsumer k id m)

theorem setting_setObject (h : Sound m.hardware m.store L) (hc : m.store.contains k = true) (a : Attribute) :
    Setting (setObject k a) m L k a := by
  unfold setObject
  split
  · rename_i hk
    exact (setting_trySetPool h hc hk a).of_wraps (wraps_setPool k a m)
  · rename_i hk
    exact (setting_trySetProfile h hc hk a).of_wraps (wraps_setProfile k a m)
  · exact Setting.throw _
  all_goals
    rename_i hk
    exact setting_bindObject h hc (by rw [hk]; rfl) a

end ManagerM

/-! ## Calls -/

/-- a call that sets an attribute of a live object passed the attribute table -/
theorem ManagerM.setAttribute_ok {m m' : Manager} {object : ObjectId} {a : Attribute} {u : Unit}
    (h : (setAttribute object a).run m = (.ok u, m')) :
    ∃ k spec, Key.ofId? object = some k ∧ checkSet k.kind a = .ok spec ∧ m.store.contains k = true := by
  have hends : Ends (setAttribute object a) m _ fun _ _ => True :=
    setAttribute_ends (P := fun _ _ => True) (fun _ _ _ _ _ => Ends.trivial) (fun _ => trivial) fun _ _ hq => hq
  obtain ⟨k, spec, hid, hspec, hc, -⟩ := hends.ok h
  exact ⟨k, spec, hid, hspec, hc⟩

/-- **What an accepted set request has done**: its ids were in order, its object is live, and the store is as `Sets`
says. -/
theorem Call.sets {m m' : Manager} {L : Layout} {c : Call} {object : ObjectId} {a : Attribute} {id : ObjectId}
    (h : Sound m.hardware m.store L) (hset : c.setting? = some (object, a)) (hrun : c.perform.run m = (.ok id, m')) :
    ∃ k spec, Key.ofId? object = some k ∧ checkSet k.kind a = .ok spec ∧ m.store.contains k = true ∧
      Follows m L m' ∧ m.Sets k a m' := by
  rw [perform_of_setting hset] at hrun
  have hwraps := ManagerM.Wraps.map (fun _ => nullId) (ManagerM.setAttribute object a) m
  rcases hr : (ManagerM.setAttribute object a).run m with ⟨e | u, t⟩
  · rw [run_bind_error hr] at hrun
    cases hrun
  obtain ⟨k, spec, hid, hcheck, hc⟩ := ManagerM.setAttribute_ok hr
  have hsetting := ((ManagerM.setting_setObject h hc a).of_wraps
    (ManagerM.wraps_setAttribute hid hcheck hc)).of_wraps hwraps
  obtain ⟨hf, hsets⟩ := hsetting.ok hrun
  exact ⟨k, spec, hid, hcheck, hc, hf, hsets⟩

end SharedBuffer
