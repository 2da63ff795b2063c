/-
What is counted.

A call is counted once it has ended, and at most once: refused, or by what it has made. `Upshot` says what a call has
come to as far as that is counted, and `Turn.upshot` reads it off the call, its answer and the bindings before and
after. What a request is made of counts nothing; around it each request counts in one place.

Result: `Call.counts`, the counters after a call.
-/
import SharedBuffer.Proofs.Manager.Absent
import SharedBuffer.Proofs.Manager.Keeping
import SharedBuffer.Proofs.Manager.Settings

namespace SharedBuffer

theorem toNat_bump (n : UInt64) : (bump n).toNat = min (n.toNat + 1) (UInt64.size - 1) := toNat_saturatingAdd n 1

/-! ## What there is to count -/

/-- what a call has come to, as far as it is counted -/
inductive Upshot where
  | nothing
  | refused
  | created (kind : ObjectKind)
  | removed (kind : ObjectKind)
  /-- a consumer that had no profile got one -/
  | bound (consumer : ObjectKind)
  /-- a consumer went from one profile to another -/
  | rebound (consumer : ObjectKind)
  | unbound
deriving DecidableEq

/-- what a consumer's profiles before and after come to -/
def Upshot.ofBinding (consumer : ObjectKind) : Option Key → Option Key → Upshot
  | none, none => nothing
  | none, some _ => bound consumer
  | some _, none => unbound
  | some o, some o' => if o = o' then nothing else rebound consumer

/-- whether a consumer got a profile that had none -/
def Upshot.isBound : Upshot → Bool
  | bound _ => true
  | _ => false

/-- whether a consumer went from one profile to another -/
def Upshot.isRebound : Upshot → Bool
  | rebound _ => true
  | _ => false

/-- the counters with one thing more -/
def Counters.enter (c : Counters) : Upshot → Counters
  | .refused => { c with errors := bump c.errors }
  | .created .pool => { c with poolsCreated := bump c.poolsCreated }
  | .created .profile => { c with profilesCreated := bump c.profilesCreated }
  | .removed .pool => { c with poolsRemoved := bump c.poolsRemoved }
  | .removed .profile => { c with profilesRemoved := bump c.profilesRemoved }
  | .bound .priorityGroup | .rebound .priorityGroup => { c with groupBindings := bump c.groupBindings }
  | .bound .queue | .rebound .queue => { c with queueBindings := bump c.queueBindings }
  | .bound _ | .rebound _ => { c with portBindings := bump c.portBindings }
  | .unbound => { c with unbindings := bump c.unbindings }
  | .nothing | .created _ | .removed _ => c

/-- a binding that changes is counted as `countBinding` says -/
theorem Counters.enter_ofBinding (c : Counters) (consumer : ObjectKind) {current target : Option Key}
    (h : current ≠ target) : c.enter (.ofBinding consumer current target) = ManagerM.countBinding consumer target c := by
  cases current <;> cases target
  case none.none => exact absurd rfl h
  case some.some o o' =>
    rw [Upshot.ofBinding, if_neg fun e => h (congrArg some e)]
    cases consumer <;> rfl
  all_goals cases consumer <;> rfl

theorem Upshot.ofBinding_self (consumer : ObjectKind) (o : Option Key) : ofBinding consumer o o = nothing := by
  cases o with
  | none => rfl
  | some o => exact if_pos rfl

/-- how the profile of an object changes, if it is a consumer; other objects have none before and after -/
def Manager.rebound (m m' : Manager) (k : Key) : Upshot :=
  .ofBinding k.kind (m.store.ownerOf? .profileConsumers k) (m'.store.ownerOf? .profileConsumers k)

namespace Call

/-- what a call asks to create -/
def creation? : Call → Option (ObjectKind × List Attribute)
  | request (.create kind attrs) => some (kind, attrs)
  | createPool direction size mode => some (.pool, ManagerM.poolAttributes direction size mode)
  | createProfile params => some (.profile, params.toAttributes)
  | _ => none

/-- what a call comes to where it goes through -/
def upshot (c : Call) (m m' : Manager) : Upshot :=
  match c.creation?, c.removal?.bind Key.ofId?, c.setting?.bind fun s => Key.ofId? s.1 with
  | some (kind, _), _, _ => .created kind
  | none, some k, _ => .removed k.kind
  | none, none, some k => m.rebound m' k
  | none, none, none => .nothing

end Call

/-- a call with the manager that it is made of -/
structure Turn where
  before : Manager
  call : Call

namespace Turn

def answer (e : Turn) : Except Fault ObjectId := (e.call.perform.run e.before).1

def after (e : Turn) : Manager := (e.call.perform.run e.before).2

def isRefused (e : Turn) : Bool := !e.answer.isOk

/-- what a call has come to; a port that is refused is not counted -/
def upshot (e : Turn) : Upshot :=
  if e.isRefused then if e.call.registers then .nothing else .refused else e.call.upshot e.before e.after

end Turn

namespace ManagerM

variable {α β : Type} {x : ManagerM α} {m : Manager}

/-! ## Requests -/

/-- an action that counts something where it goes through, and nothing where it is refused -/
def Counting (u : Upshot) (x : ManagerM α) : Prop :=
  ∀ m, Ends x m (fun _ m' => m'.counters = m.counters.enter u) fun _ m' => m'.counters = m.counters

variable {u : Upshot}

theorem Keeps.counting (h : Keeps Manager.counters x) : Counting .nothing x := h.ends

/-- an action that counts once it knows how another ended, and then cannot end otherwise -/
theorem Counting.attempt (hx : Keeps Manager.counters x) {g : Except Fault α → ManagerM β}
    (hok : ∀ a m, ∃ b m', (g (.ok a)).run m = (.ok b, m') ∧ m'.counters = m.counters.enter u)
    (herr : ∀ e m, ∃ e' m', (g (.error e)).run m = (.error e', m') ∧ m'.counters = m.counters) :
    Counting u (attempt x >>= g) := fun m =>
  hx.ends_attempt m (fun a m₁ hm => (hok a m₁).imp fun _ => Exists.imp fun _ h => ⟨h.1, h.2.trans (by rw [hm])⟩)
    fun e m₁ hm => (herr e m₁).imp fun _ => Exists.imp fun _ h => ⟨h.1, h.2.trans hm⟩

theorem Counting.map (h : Counting u x) (f : α → β) : Counting u (x >>= fun a => pure (f a)) := fun m =>
  Ends.bind (h m) fun _ _ hc => Ends.pure hc

theorem counting_createPoolFrom (attrs : List Attribute) : Counting (.created .pool) (createPoolFrom attrs) :=
  .attempt (keeps_tryCreatePool .counters attrs) (fun k _ => ⟨k, _, rfl, rfl⟩) fun e _ => ⟨e, _, rfl, rfl⟩

theorem counting_createProfileFrom (attrs : List Attribute) :
    Counting (.created .profile) (createProfileFrom attrs) :=
  .attempt (keeps_tryCreateProfile .counters attrs) (fun k _ => ⟨k, _, rfl, rfl⟩) fun e _ => ⟨e, _, rfl, rfl⟩

theorem counting_removePool {k : Key} (hk : k.kind = .pool) : Counting (.removed .pool) (removePool k) := by
  unfold removePool
  simp only [announceOf_eq hk]
  exact .attempt (.onLists .counters _) (fun _ _ => ⟨(), _, rfl, by dsimp only; split <;> rfl⟩)
    fun e _ => ⟨e, _, rfl, rfl⟩

theorem counting_removeProfile {k : Key} (hk : k.kind = .profile) :
    Counting (.removed .profile) (removeProfile k) := by
  unfold removeProfile
  simp only [announceOf_eq hk]
  exact .attempt (keeps_tryRemoveProfile .counters k) (fun _ _ => ⟨(), _, rfl, by dsimp only; split <;> rfl⟩)
    fun e _ => ⟨e, _, rfl, rfl⟩

theorem counting_setPool (k : Key) (a : Attribute) : Counting .nothing (setPool k a) :=
  .attempt (keeps_trySetPool .counters k a) (fun _ _ => ⟨(), _, rfl, rfl⟩) fun e _ => ⟨e, _, rfl, rfl⟩

theorem counting_setProfile (k : Key) (a : Attribute) : Counting .nothing (setProfile k a) :=
  .attempt (keeps_trySetProfile .counters k a) (fun _ _ => ⟨(), _, rfl, rfl⟩) fun e _ => ⟨e, _, rfl, rfl⟩

/-- a request counts its refusal, besides what it counts where it goes through -/
theorem counted_ends {P : α → Manager → Prop} (h : Ends x m P fun _ m' => m'.counters = m.counters) :
    Ends (counted x) m P fun _ m' => m'.counters = m.counters.enter .refused :=
  ends_counted h fun _ m' (hc : m'.counters = m.counters) => by rw [← hc]; rfl

theorem create_counts (kind : ObjectKind) (attrs : List Attribute) (m : Manager) :
    Ends (create kind attrs) m (fun _ m' => m'.counters = m.counters.enter (.created kind))
      fun _ m' => m'.counters = m.counters.enter .refused := by
  rw [create_eq]
  refine counted_ends (ends_reading (fun _ _ => ?_) fun _ _ => rfl)
  unfold createObject
  split
  · exact (counting_createPoolFrom attrs).map Key.id m
  · exact (counting_createProfileFrom attrs).map Key.id m
  · exact Ends.throw rfl

theorem remove_counts (id : ObjectId) (m : Manager) :
    Ends (remove id) m
      (fun _ m' => ∃ k, Key.ofId? id = some k ∧ m'.counters = m.counters.enter (.removed k.kind))
      fun _ m' => m'.counters = m.counters.enter .refused := by
  rw [remove_eq]
  refine counted_ends (ends_reading (fun k hk => ?_) fun _ _ => rfl)
  have hid := Key.require_eq_ok hk
  unfold removeObject
  split
  · rename_i hkind
    exact (counting_removePool hkind m).mono (fun _ _ hc => ⟨k, hid, hkind ▸ hc⟩) fun _ _ hc => hc
  · rename_i hkind
    exact (counting_removeProfile hkind m).mono (fun _ _ hc => ⟨k, hid, hkind ▸ hc⟩) fun _ _ hc => hc
  · exact Ends.throw rfl

/-! ### Bindings -/

variable {L : Layout} {k : Key}

theorem bindConsumer_counts (h : Sound m.hardware m.store L) (hc : m.store.contains k = true)
    (hk : Roster.profileConsumers.takes k.kind = true) (id : ObjectId) :
    Ends (bindConsumer k id) m (fun _ m' => m'.counters = m.counters.enter (m.rebound m' k))
      fun _ m' => m'.counters = m.counters := by
  have hsame := keeps_tryBind .counters k id m
  rcases hr : (tryBind k id).run m with ⟨e | r, m₁⟩ <;> rw [hr] at hsame
  · exact Ends.of_run_error ((run_attempt_bind hr).trans rfl) hsame
  have hrun : (bindConsumer k id).run m = _ := run_attempt_bind hr
  obtain ⟨-, target, hto, ⟨-, rfl, rfl⟩ | ⟨hother, hout, rfl⟩⟩ := (tryBind_ends h hc hk id).ok hr
  · refine Ends.of_run_ok (hrun.trans rfl) ?_
    rw [Manager.rebound, Upshot.ofBinding_self]
    rfl
  · have hb := hto.buildable hc hk
    have hnew : m₁.store.ownerOf? .profileConsumers k = target := (hout.binding h hb k).trans (if_pos rfl)
    refine Ends.of_run_ok (hrun.trans rfl) ?_
    dsimp only at hnew ⊢
    rw [Manager.rebound, hnew, Counters.enter_ofBinding _ _ hother, ← hsame]

/-- what is no consumer is bound to nothing, so that there is nothing to count -/
theorem rebound_of_kind {m' : Manager} (h : Sound m.hardware m.store L) (hf : Follows m L m')
    (hk : Roster.profileConsumers.takes k.kind = false) : m.rebound m' k = .nothing := by
  obtain ⟨L', hs', -⟩ := hf.sound
  rw [Manager.rebound, h.wired.unbound_of_kind hk, hs'.wired.unbound_of_kind hk]
  rfl

theorem setObject_counts (h : Sound m.hardware m.store L) (hc : m.store.contains k = true) (a : Attribute) :
    Ends (setObject k a) m (fun _ m' => m'.counters = m.counters.enter (m.rebound m' k))
      fun _ m' => m'.counters = m.counters := by
  cases hk : Roster.profileConsumers.takes k.kind with
  | true =>
    rw [setObject_consumer hk]
    unfold bindObject
    cases a.value.asOid? with
    | none => exact Ends.throw rfl
    | some id => exact bindConsumer_counts h hc hk id
  | false =>
    have hnone : Counting .nothing (setObject k a) := by
      unfold setObject
      split
      · exact counting_setPool k a
      · exact counting_setProfile k a
      · exact fun _ => Ends.throw rfl
      all_goals simp_all [Roster.takes]
    refine ((hnone m).and (clean_setObject h hc a)).mono (fun _ m' hp => ?_) fun _ _ hq => hq.1
    rw [hp.1, rebound_of_kind h hp.2 hk]

theorem setAttribute_counts (h : Sound m.hardware m.store L) (id : ObjectId) (a : Attribute) :
    Ends (setAttribute id a) m
      (fun _ m' => ∃ k, Key.ofId? id = some k ∧ m'.counters = m.counters.enter (m.rebound m' k))
      fun _ m' => m'.counters = m.counters.enter .refused := by
  refine (setAttribute_ends (fun k _ _ _ hc => setObject_counts h hc a) (fun _ => rfl) fun _ m' hq => ?_).mono
    (fun _ _ ⟨k, _, hid, _, _, hp⟩ => ⟨k, hid, hp⟩) fun _ _ hq => hq
  rw [← hq]
  rfl

end ManagerM

/-! ## Calls -/

namespace Call

open ManagerM

variable {m : Manager} {L : Layout} {c : Call}

/-- a call is of one of four sorts -/
theorem sorts (c : Call) : (∃ number groups queues, c = .request (.registerPort number groups queues)) ∨
    (∃ asked, c.creation? = some asked) ∨ (∃ id, c.removal? = some id) ∨ ∃ set, c.setting? = some set := by
  cases c with
  | request r =>
    cases r with
    | registerPort => exact .inl ⟨_, _, _, rfl⟩
    | create => exact .inr (.inl ⟨_, rfl⟩)
    | remove => exact .inr (.inr (.inl ⟨_, rfl⟩))
    | setAttribute => exact .inr (.inr (.inr ⟨_, rfl⟩))
  | createPool | createProfile => exact .inr (.inl ⟨_, rfl⟩)
  | removePool | removeProfile => exact .inr (.inr (.inl ⟨_, rfl⟩))
  | _ => exact .inr (.inr (.inr ⟨_, rfl⟩))

/-- a call of another sort does not bring up a port -/
theorem registers_eq_false (h : (∃ asked, c.creation? = some asked) ∨ (∃ id, c.removal? = some id) ∨
    ∃ set, c.setting? = some set) : c.registers = false := by
  cases c with
  | request r => cases r <;> simp_all [registers, creation?, removal?, setting?]
  | _ => rfl

variable {m' : Manager} {kind : ObjectKind} {attrs : List Attribute} {id : ObjectId} {a : Attribute} {k : Key}

theorem upshot_of_creation (h : c.creation? = some (kind, attrs)) : c.upshot m m' = .created kind := by rw [upshot, h]

theorem upshot_of_removal (h : c.removal? = some id) (hk : Key.ofId? id = some k) :
    c.upshot m m' = .removed k.kind := by
  have hnone : c.creation? = none := by
    cases c with
    | request r => cases r <;> simp_all [creation?, removal?]
    | _ => simp_all [creation?, removal?]
  rw [upshot, hnone, h, Option.bind_some, hk]

theorem upshot_of_setting (h : c.setting? = some (id, a)) (hk : Key.ofId? id = some k) :
    c.upshot m m' = m.rebound m' k := by
  have hnone : c.creation? = none ∧ c.removal? = none := by
    cases c with
    | request r => cases r <;> simp_all [creation?, removal?, setting?]
    | _ => simp_all [creation?, removal?, setting?]
  rw [upshot, hnone.1, hnone.2, h, Option.bind_some, Option.bind_none, hk]

/-- creating by handle ends as creating does: the id of what is created is one of a handle of its kind -/
theorem run_of_creation (h : Sound m.hardware m.store L) {kind : ObjectKind} {attrs : List Attribute}
    (hc : c.creation? = some (kind, attrs)) : c.perform.run m = (create kind attrs).run m := by
  have htyped : ∀ kind attrs, (create kind attrs >>= fun id => reading (fun _ => Handle.requireId kind id) >>= fun x =>
      pure (Handle.raw x)).run m = (create kind attrs).run m := by
    intro kind attrs
    rcases hr : (create kind attrs).run m with ⟨e | id, m'⟩
    · exact run_bind_error hr
    · have hid := ((create_ends h kind attrs).ok hr).2.1
      rw [run_bind_ok hr, run_bind_ok (a := ⟨id⟩) (t := m')]
      · rfl
      · simp only [reading, Handle.requireId, Handle.ofId?, hid, if_true, ExceptT.run_mk]
  cases c with
  | request r =>
    cases r with
    | create => cases hc; rfl
    | _ => cases hc
  | createPool | createProfile =>
    cases hc
    rw [← htyped]
    simp only [perform, ManagerM.createPool, ManagerM.createProfile, bind_assoc]
  | _ => cases hc

/-- **What a call counts.** -/
theorem counts (h : Sound m.hardware m.store L) (c : Call) :
    Ends c.perform m (fun _ m' => m'.counters = m.counters.enter (c.upshot m m'))
      fun _ m' => m'.counters = m.counters.enter (if c.registers then .nothing else .refused) := by
  rcases sorts c with ⟨number, groups, queues, rfl⟩ | hsort
  · exact ((keeps_registerPort .counters (fun _ _ => rfl) number groups queues).counting.map Handle.raw) m
  rw [registers_eq_false hsort, if_neg Bool.false_ne_true]
  rcases hsort with ⟨⟨kind, attrs⟩, hc⟩ | ⟨id, hc⟩ | ⟨⟨id, a⟩, hc⟩
  · have hcount := create_counts kind attrs m
    unfold Ends at hcount ⊢
    rw [run_of_creation h hc]
    simpa only [upshot_of_creation hc] using hcount
  · rw [perform_of_removal hc]
    refine Ends.bind (remove_counts id m) fun _ m' hp => Ends.pure ?_
    obtain ⟨k, hk, hcount⟩ := hp
    rwa [upshot_of_removal hc hk]
  · rw [perform_of_setting hc]
    refine Ends.bind (setAttribute_counts h id a) fun _ m' hp => Ends.pure ?_
    obtain ⟨k, hk, hcount⟩ := hp
    rwa [upshot_of_setting hc hk]

end Call

end SharedBuffer
