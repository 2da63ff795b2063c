/-
What a set request asks for, and what it makes of the store.

A set request asks for a change once its ids are resolved and what it asks for is compatible with what is there
(`Manager.Requests`). It then comes to the outcome of the change, or to nothing where things are that way already;
`Achieves` says so of each action on the way from the call to the record. Apart from the size of a pool it is refused
for two reasons only: its plan is, or its consumer was lost count of.

Result: `Call.achieves`.
-/
import SharedBuffer.Proofs.Manager.Runs

namespace SharedBuffer

/-! ## What a set request asks for -/

/-- the change that setting an attribute of an object asks for, if nothing but memory stands against it -/
inductive Manager.AsksFor (m : Manager) (k : Key) (a : Attribute) : Change → Prop where
  | binding {id : ObjectId} {target : Option Key} (hk : Roster.profileConsumers.takes k.kind = true)
    (hid : a.value.asOid? = some id) (hto : m.BindsTo k.kind id target) : AsksFor m k a (.bind k target)
  | profileSize {size : UInt64} (hk : k.kind = .profile) (ha : ProfileAttribute.ofId? a.id = some .reservedSize)
    (hv : a.value.asU64? = some size) : AsksFor m k a (.profileSize k size)
  /-- only profiles of ingress pools have headroom -/
  | xoff {p : Profile} {pool : Key} {q : Pool} {xoff : UInt64} (hk : k.kind = .profile)
    (ha : ProfileAttribute.ofId? a.id = some .xoffThreshold) (hv : a.value.asU64? = some xoff)
    (hp : m.store.profile? k = some p) (hpool : p.pool? = some pool) (hq : m.store.pool? pool = some q)
    (hdir : q.direction = .ingress) : AsksFor m k a (.profileHeadroom k xoff p.xon)
  | xon {p : Profile} {pool : Key} {q : Pool} {xon : UInt64} (hk : k.kind = .profile)
    (ha : ProfileAttribute.ofId? a.id = some .xonThreshold) (hv : a.value.asU64? = some xon)
    (hp : m.store.profile? k = some p) (hpool : p.pool? = some pool) (hq : m.store.pool? pool = some q)
    (hdir : q.direction = .ingress) : AsksFor m k a (.profileHeadroom k p.xoff xon)
  /-- a profile stays where it is, or goes to a pool of the same direction and of the mode it has or inherited -/
  | profilePool {p : Profile} {pool target : Key} {q q' : Pool} {id : ObjectId} (hk : k.kind = .profile)
    (ha : ProfileAttribute.ofId? a.id = some .poolId) (hv : a.value.asOid? = some id)
    (hp : m.store.profile? k = some p) (hpool : p.pool? = some pool) (hq : m.store.pool? pool = some q)
    (hid : m.resolve? .pool id = some target) (hq' : m.store.pool? target = some q')
    (hcompat : pool = target ∨ q.direction = q'.direction ∧ q'.mode = p.mode.effective q.mode) :
    AsksFor m k a (.profilePool k target)
  | poolSize {size : UInt64} (hk : k.kind = .pool) (ha : PoolAttribute.ofId? a.id = some .size)
    (hv : a.value.asU64? = some size) : AsksFor m k a (.poolSize k size)

/-- a set request of a live object passes the attribute table and asks for a change -/
def Manager.Requests (m : Manager) (object : ObjectId) (a : Attribute) (c : Change) : Prop :=
  ∃ k spec, Key.ofId? object = some k ∧ checkSet k.kind a = .ok spec ∧ m.store.contains k = true ∧ m.AsksFor k a c

theorem Manager.AsksFor.buildable {m : Manager} {k : Key} {a : Attribute} {c : Change} {L : Layout} {hw : Hardware}
    (h : m.AsksFor k a c) (w : Wired hw m.store L none) (hc : m.store.contains k = true) : c.Buildable m.store := by
  cases h with
  | binding hk hid hto => exact hto.buildable hc hk
  | profileSize hk | xoff hk | xon hk | poolSize hk => exact ⟨hc, hk⟩
  | profilePool hk _ _ _ _ _ hid hq' =>
    exact ⟨⟨hc, hk⟩, Store.contains_of_pool? hq', w.kind_of_pool? hq'⟩

/-! ## What it comes to -/

/-- a change has been made with its figures written, or there was nothing to change -/
def Manager.Obtains (m : Manager) (c : Change) (m' : Manager) : Prop :=
  c.Outcome m.hardware m.store m'.store ∨ c.IsIdle m.store ∧ m'.store = m.store

namespace Manager.Obtains

variable {m m' : Manager} {L : Layout} {c : Change} {k o : Key} {target : Option Key}

theorem contains (h : m.Obtains c m') : m'.store.contains k = m.store.contains k := by
  rcases h with hout | ⟨-, hsame⟩
  · exact hout.contains
  · rw [hsame]

/-- who is bound to what afterwards, whether or not the consumer was bound so before -/
theorem binding (h : m.Obtains (.bind k target) m') (hs : Sound m.hardware m.store L)
    (hb : (Change.bind k target).Buildable m.store) (y : Key) :
    m'.store.ownerOf? .profileConsumers y = if y = k then target else m.store.ownerOf? .profileConsumers y := by
  rcases h with hout | ⟨hidle, hsame⟩
  · exact hout.binding hs hb y
  · rw [hsame]
    by_cases hy : y = k
    · subst hy
      rw [if_pos rfl]
      exact hidle
    · rw [if_neg hy]

/-- which profile belongs to which pool afterwards, whether or not the profile was there before -/
theorem housing (h : m.Obtains (.profilePool k o) m') (hs : Sound m.hardware m.store L)
    (hb : (Change.profilePool k o).Buildable m.store) (y : Key) :
    m'.store.ownerOf? .poolProfiles y = if y = k then some o else m.store.ownerOf? .poolProfiles y := by
  rcases h with hout | ⟨hidle, hsame⟩
  · exact hout.housing hs hb y
  · rw [hsame]
    by_cases hy : y = k
    · subst hy
      rw [if_pos rfl]
      exact hidle
    · rw [if_neg hy]

end Manager.Obtains

namespace ManagerM

variable {α β : Type} {m : Manager} {L : Layout} {k : Key} {a : Attribute} {c : Change}

/-- from a manager, an action makes a change, and nothing of it where it is made already; or it is refused and leaves the
store as it was; but for the size of a pool, which has to fit beside the others, it is the plan that refuses, or a
profile that has lost count -/
def Achieves (c : Change) (x : ManagerM α) (m : Manager) (L : Layout) : Prop :=
  Ends x m
    (fun _ m' => Follows m L m' ∧ (c.IsIdle m.store ∧ m'.store = m.store ∨
      ¬ c.IsIdle m.store ∧ c.Permitted m.hardware m.store ∧ c.Outcome m.hardware m.store m'.store))
    fun e m' => Refused m m' ∧ ¬ c.IsIdle m.store ∧ (Accounting.plan m.hardware m.store c = .error e ∨
      ¬ c.Countable m.store ∨ ∃ pool size, c = .poolSize pool size ∧ ∃ p, m.store.pool? pool = some p ∧
        m.checkDirection p.direction (some pool) size = .error e)

/-- an action that makes a change and answers has come to it -/
theorem Achieves.obtains {x : ManagerM α} (hx : Achieves c x m L) :
    Ends x m (fun _ m' => Follows m L m' ∧ m.Obtains c m') fun _ _ => True :=
  hx.mono (fun _ _ hp => ⟨hp.1, hp.2.symm.imp (fun hdone => hdone.2.2) id⟩) fun _ _ _ => True.intro

theorem Achieves.of_wraps {f : α → β} {x : ManagerM α} {y : ManagerM β} (hx : Achieves c x m L) (h : Wraps f m y x) :
    Achieves c y m L := by
  refine h.ends hx (fun _ _ _ _ hp => ⟨hp.1.recorded, hp.2⟩) fun e _ audit errors hq => ⟨?_, hq.2⟩
  obtain ⟨_, _, rfl⟩ := hq.1
  exact ⟨audit, errors, rfl⟩

/-- where the plan decides -/
theorem Achieves.of_plan {x : ManagerM α} {P : α → Manager → Prop} {Q : Fault → Manager → Prop} (hx : Ends x m P Q)
    (hother : ¬ c.IsIdle m.store) (hpermit : c.Permitted m.hardware m.store)
    (hok : ∀ a m', P a m' → Follows m L m' ∧ c.Outcome m.hardware m.store m'.store)
    (herr : ∀ e m', Q e m' → m' = m ∧ Accounting.plan m.hardware m.store c = .error e) : Achieves c x m L := by
  refine hx.mono (fun a m' hp => ⟨(hok a m' hp).1, .inr ⟨hother, hpermit, (hok a m' hp).2⟩⟩) fun e m' hq => ?_
  obtain ⟨rfl, hplan⟩ := herr e m' hq
  exact ⟨Refused.refl _, hother, .inl hplan⟩

theorem tryBind_achieves (h : Sound m.hardware m.store L) (hc : m.store.contains k = true)
    (hk : Roster.profileConsumers.takes k.kind = true) {id : ObjectId} {target : Option Key}
    (hto : m.BindsTo k.kind id target) : Achieves (.bind k target) (tryBind k id) m L := by
  refine (tryBind_ends h hc hk id).mono ?_ fun e m' he => ?_
  · rintro _ m' ⟨hf, target', hto', hdone⟩
    obtain rfl := hto.unique hto'
    rcases hdone with ⟨hidle, rfl, -⟩ | ⟨hother, hout, -⟩
    · exact ⟨hf, .inl ⟨hidle, rfl⟩⟩
    · refine ⟨hf, .inr ⟨hother, ?_, hout⟩⟩
      rintro p rfl
      exact hto.2.2
  · obtain ⟨rfl, hwhy⟩ := he
    obtain ⟨target', hto', hother, hwhy⟩ := hwhy.resolve_left fun hnone => hnone.2 target hto
    obtain rfl := hto.unique hto'
    exact ⟨Refused.refl _, hother, hwhy.imp_right fun hcount => .inl fun hn => hn hcount⟩

theorem moveProfile_achieves (h : Sound m.hardware m.store L) {p : Profile} (hp : m.store.profile? k = some p)
    {pool target : Key} {q q' : Pool} (hpool : p.pool? = some pool) (hq : m.store.pool? pool = some q) {id : ObjectId}
    (hid : m.resolve? .pool id = some target) (hq' : m.store.pool? target = some q')
    (hcompat : pool = target ∨ q.direction = q'.direction ∧ q'.mode = p.mode.effective q.mode) :
    Achieves (.profilePool k target) (moveProfile k id) m L := by
  have hm := (h.wired.mem_poolProfiles_iff hp).2 hpool
  have howner := h.wired.linked.ownerOf?_eq_some.2 hm
  refine (moveProfile_ends h hp hm hq id).mono ?_ fun e m' he => ?_
  · rintro _ m' ⟨hf, target', hid', hdone⟩
    obtain rfl := Option.some.inj (hid.symm.trans hid')
    rcases hdone with ⟨rfl, rfl⟩ | ⟨hother, hpermit, hout⟩
    · exact ⟨hf, .inl ⟨howner, rfl⟩⟩
    · exact ⟨hf, .inr ⟨fun hidle => absurd (howner.symm.trans hidle) (by simpa using hother), hpermit, hout⟩⟩
  · obtain ⟨rfl, hwhy⟩ := he
    obtain ⟨hnamed, -⟩ := (resolve?_pool_eq_some h).1 hid
    obtain ⟨target', hid', hother, -, hplan⟩ := hwhy.resolve_left fun hnone => hnone.unsuited h hq' hnamed hcompat
    obtain rfl := Option.some.inj (hid.symm.trans hid')
    exact ⟨Refused.refl _, fun hidle => absurd (howner.symm.trans hidle) (by simpa using hother), .inl hplan⟩

theorem setHeadroom_achieves (h : Sound m.hardware m.store L) {p : Profile} (hp : m.store.profile? k = some p)
    {pool : Key} {q : Pool} (hpool : p.pool? = some pool) (hq : m.store.pool? pool = some q)
    (hdir : q.direction = .ingress) (newXoff newXon : Option UInt64) :
    Achieves (.profileHeadroom k (newXoff.getD p.xoff) (newXon.getD p.xon)) (setHeadroom k newXoff newXon) m L := by
  have hm := (h.wired.mem_poolProfiles_iff hp).2 hpool
  refine .of_plan (setHeadroom_ends h hp hm hq newXoff newXon) id ⟨p, pool, q, hp, hpool, hq, hdir⟩
    (fun _ _ hf => ⟨hf.1, hf.2.2⟩) fun e _ he => ⟨he.1, ?_⟩
  rcases he.2 with ⟨hnot, -⟩ | ⟨-, hplan⟩
  · exact absurd hdir hnot
  · exact hplan

theorem valueOf_eq {δ : Type} {decode : AttributeValue → Option δ} {v : δ} (h : decode a.value = some v) :
    valueOf a decode = .ok v := by rw [valueOf, h]

/-- a set request of a profile achieves what it goes on to -/
theorem Achieves.setProfile {x : ManagerM Unit} (hk : k.kind = .profile) (hx : Achieves c x m L)
    (hw : Wraps id m (trySetProfile k a) x) : Achieves c (setObject k a) m L := by
  simp only [setObject, hk]
  exact (hx.of_wraps hw).of_wraps (wraps_setProfile k a m)

/-- **A set request achieves the change that it asks for.** -/
theorem setObject_achieves (h : Sound m.hardware m.store L) (hc : m.store.contains k = true)
    (hask : m.AsksFor k a c) : Achieves c (setObject k a) m L := by
  cases hask with
  | @binding id target hk hid hto =>
    have hbind : setObject k a = bindConsumer k id := by rw [setObject_consumer hk, bindObject, hid]
    rw [hbind]
    exact (tryBind_achieves h hc hk hto).of_wraps (wraps_bindConsumer k id m)
  | @profileSize size hk ha hv =>
    obtain ⟨p, hp⟩ := h.wired.exists_profile hc hk
    refine Achieves.setProfile hk (.of_plan (resizeProfile_ends h hp size) id trivial (fun _ _ hf => hf) fun _ _ he => he) ?_
    unfold trySetProfile
    rw [ha]
    exact Wraps.reading (valueOf_eq hv)
  | @xoff p pool q xoff hk ha hv hp hpool hq hdir =>
    refine Achieves.setProfile hk (setHeadroom_achieves h hp hpool hq hdir (some xoff) none) ?_
    unfold trySetProfile
    rw [ha]
    exact Wraps.reading (g := fun v => setHeadroom k (some v) none) (valueOf_eq hv)
  | @xon p pool q xon hk ha hv hp hpool hq hdir =>
    refine Achieves.setProfile hk (setHeadroom_achieves h hp hpool hq hdir none (some xon)) ?_
    unfold trySetProfile
    rw [ha]
    exact Wraps.reading (g := fun v => setHeadroom k none (some v)) (valueOf_eq hv)
  | @profilePool p pool target q q' id hk ha hv hp hpool hq hid hq' hcompat =>
    refine Achieves.setProfile hk (moveProfile_achieves h hp hpool hq hid hq' hcompat) ?_
    unfold trySetProfile
    rw [ha]
    exact Wraps.reading (valueOf_eq hv)
  | @poolSize size hk ha hv =>
    obtain ⟨p, hp⟩ := h.wired.exists_pool hc hk
    have hresize : Achieves (.poolSize k size) (resizePool k size) m L := by
      refine (resizePool_ends h hp size).mono (fun _ _ hf => ⟨hf.1, .inr ⟨id, ⟨p, hp, hf.2.1⟩, hf.2.2⟩⟩) fun e m' he => ?_
      obtain ⟨rfl, hcheck | ⟨-, hplan⟩⟩ := he
      · exact ⟨Refused.refl _, id, .inr (.inr ⟨k, size, rfl, p, hp, hcheck⟩)⟩
      · exact ⟨Refused.refl _, id, .inl hplan⟩
    have htry : Wraps id m (trySetPool k a) (resizePool k size) := by
      unfold trySetPool
      rw [ha]
      exact Wraps.reading (valueOf_eq hv)
    simp only [setObject, hk]
    exact (hresize.of_wraps htry).of_wraps (wraps_setPool k a m)

end ManagerM

/-! ## Calls -/

namespace Call

/-- the object and the attribute that a call sets -/
def setting? : Call → Option (ObjectId × Attribute)
  | request (.setAttribute object a) => some (object, a)
  | setPoolSize pool size => some (pool.raw, ⟨PoolAttribute.size.id, .u64 size⟩)
  | setProfileAttribute profile a value => some (profile.raw, ⟨a.id, value⟩)
  | bindGroup group profile => some (group.raw, ⟨PriorityGroupAttribute.profile.id, ManagerM.profileOrNull profile⟩)
  | bindQueue queue profile => some (queue.raw, ⟨QueueAttribute.profile.id, ManagerM.profileOrNull profile⟩)
  | bindPort port profile => some (port.raw, ⟨PortAttribute.ingressProfile.id, ManagerM.profileOrNull profile⟩)
  | _ => none

theorem perform_of_setting {c : Call} {object : ObjectId} {a : Attribute} (h : c.setting? = some (object, a)) :
    c.perform = ManagerM.setAttribute object a >>= fun _ => pure nullId := by
  cases c with
  | request r =>
    cases r with
    | setAttribute => cases h; rfl
    | _ => cases h
  | createPool | createProfile | removePool | removeProfile => cases h
  | _ => cases h; rfl

/-- **A call that sets achieves the change that it asks for.** -/
theorem achieves {m : Manager} {L : Layout} {c : Call} (h : Sound m.hardware m.store L) {object : ObjectId}
    {a : Attribute} (hset : c.setting? = some (object, a)) {change : Change} (hreq : m.Requests object a change) :
    ManagerM.Achieves change c.perform m L := by
  obtain ⟨k, spec, hid, hcheck, hc, hask⟩ := hreq
  rw [perform_of_setting hset]
  have hobject := (ManagerM.setObject_achieves h hc hask).of_wraps (ManagerM.wraps_setAttribute hid hcheck hc)
  exact hobject.of_wraps (ManagerM.Wraps.map (fun _ => nullId) _ m)

end Call

end SharedBuffer
