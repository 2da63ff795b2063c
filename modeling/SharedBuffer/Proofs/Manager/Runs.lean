/-
Runs of a manager.

A manager is brought up empty and then lives through acts: calls, whole plans, and the comings and goings of whoever
listens to it and empties its outbox. `Reached hw m` says that some acts lead to `m`. A plan is nothing but calls, and
every call settles, so whatever is reached is sound.

Counts of consumers are exact as long as no profile has more consumers than 32 bits can count. `Tallied hw m` says that
some calls lead to `m` that keep to this, each of them.

Results: `Call.settles`, `Reached.sound`, `IsSound.moves_live` and `Tallied.tight`.
-/
import SharedBuffer.Plan.Apply
import SharedBuffer.Proofs.Manager.Atomicity

namespace SharedBuffer

/-! ## Calls -/

/-- a request, by object id or by typed handle -/
inductive Call where
  | request (r : Request)
  | createPool (direction : Direction) (size : UInt64) (mode : Option ThresholdMode)
  | createProfile (params : ProfileParams)
  | setPoolSize (pool : PoolId) (size : UInt64)
  | setProfileAttribute (profile : ProfileId) (a : ProfileAttribute) (value : AttributeValue)
  | bindGroup (group : PriorityGroupId) (profile : Option ProfileId)
  | bindQueue (queue : QueueId) (profile : Option ProfileId)
  | bindPort (port : PortId) (profile : Option ProfileId)
  | removePool (pool : PoolId)
  | removeProfile (profile : ProfileId)

/-- makes a call; answers the id of what it created, or the null id -/
def Call.perform : Call → ManagerM ObjectId
  | request r => r.perform
  | createPool direction size mode => do return (← ManagerM.createPool direction size mode).raw
  | createProfile params => do return (← ManagerM.createProfile params).raw
  | setPoolSize pool size => do
    ManagerM.setPoolSize pool size
    return nullId
  | setProfileAttribute profile a value => do
    ManagerM.setProfileAttribute profile a value
    return nullId
  | bindGroup group profile => do
    ManagerM.bindGroup group profile
    return nullId
  | bindQueue queue profile => do
    ManagerM.bindQueue queue profile
    return nullId
  | bindPort port profile => do
    ManagerM.bindPort port profile
    return nullId
  | removePool pool => do
    ManagerM.remove pool.raw
    return nullId
  | removeProfile profile => do
    ManagerM.remove profile.raw
    return nullId

namespace ManagerM

variable {m : Manager} {L : Layout}

/-- creating by handle is creating: the id of what was created is always one of a handle -/
theorem createTyped_ends (h : Sound m.hardware m.store L) (kind : ObjectKind) (attrs : List Attribute) :
    Ends (create kind attrs >>= fun object => reading fun _ => Handle.requireId kind object) m
      (fun handle m' => Follows m L m' ∧ ∃ k, k.id = handle.raw ∧ Created m m' kind k ∧ m.Makes attrs k m'.store kind)
      fun _ m' => Refused m m' := by
  refine Ends.bind (create_ends h kind attrs) fun object m' hp => ?_
  refine Ends.of_run_ok (a := ⟨object⟩) (t := m') ?_ ⟨hp.1, hp.2.2⟩
  simp only [reading, Handle.requireId, Handle.ofId?, hp.2.1, if_true, ExceptT.run_mk]

theorem clean_createTyped (h : Sound m.hardware m.store L) (kind : ObjectKind) (attrs : List Attribute) :
    Clean (create kind attrs >>= fun object => reading fun _ => Handle.requireId kind object) m L :=
  (createTyped_ends h kind attrs).mono (fun _ _ hp => hp.1) fun _ _ he => he

theorem settles_registerPort (h : Sound m.hardware m.store L) (hardwareNumber groups queues : UInt32) :
    Settles (registerPort hardwareNumber groups queues) m L :=
  (registerPort_ends h hardwareNumber groups queues).mono (fun _ _ hf => hf.1) fun _ _ he =>
    he.elim Declines.of_eq fun he => .inr ⟨he.1, he.2.1, he.2.2.1⟩

end ManagerM

/-- a port that is brought up by a call -/
theorem Call.registration_ends {m : Manager} {L : Layout} (h : Sound m.hardware m.store L)
    (hardwareNumber groups queues : UInt32) :
    Ends (request (.registerPort hardwareNumber groups queues)).perform m
      (fun id m' => Follows m L m' ∧ ∃ k, k.id = id ∧ Created m m' .port k ∧ m.store.Enlarged m'.store k ∧
        ∃ L', Sound m.hardware m'.store L' ∧ ∀ R j, j ∈ L' R k → m.store.contains j = false)
      fun _ _ => True :=
  Ends.bind ((ManagerM.registerPort_ends h hardwareNumber groups queues).mono (fun _ _ hp => hp) fun _ _ _ => trivial)
    fun _ _ hp => Ends.pure hp

/-- whether a call brings up a port -/
def Call.registers : Call → Bool
  | request (.registerPort ..) => true
  | _ => false

open ManagerM in
/-- **A call that is refused changes nothing**, unless it brings up a port. -/
theorem Call.clean {m : Manager} {L : Layout} (h : Sound m.hardware m.store L) {c : Call}
    (hc : c.registers = false) : Clean c.perform m L := by
  have hset : ∀ object a, Clean (do
      setAttribute object a
      return nullId) m L := fun object a =>
    (clean_setAttribute h object a).of_wraps (Wraps.map (fun _ => nullId) _ m)
  have hremove : ∀ object, Clean (do
      remove object
      return nullId) m L := fun object =>
    (clean_remove h object).of_wraps (Wraps.map (fun _ => nullId) _ m)
  cases c with
  | request r =>
    cases r with
    | registerPort => cases hc
    | create kind attrs => exact (create_ends h kind attrs).mono (fun _ _ hp => hp.1) fun _ _ he => he
    | remove object => exact hremove object
    | setAttribute object a => exact hset object a
  | createPool direction size mode =>
    exact (clean_createTyped h .pool _).of_wraps (Wraps.map Handle.raw _ m)
  | createProfile params =>
    exact (clean_createTyped h .profile _).of_wraps (Wraps.map Handle.raw _ m)
  | removePool pool => exact hremove pool.raw
  | removeProfile profile => exact hremove profile.raw
  | _ => exact hset _ _

open ManagerM in
/-- **Every call settles.** -/
theorem Call.settles {m : Manager} {L : Layout} (h : Sound m.hardware m.store L) (c : Call) :
    Settles c.perform m L := by
  cases hc : c.registers with
  | false => exact (Call.clean h hc).settles
  | true =>
    cases c with
    | request r =>
      cases r with
      | registerPort hardwareNumber groups queues =>
        exact (settles_registerPort h hardwareNumber groups queues).of_wraps (Wraps.map Handle.raw _ m)
      | _ => cases hc
    | _ => cases hc

/-! ## Acts -/

/-- something that happens to a manager -/
inductive Act where
  | call (c : Call)
  | plan (p : Plan)
  /-- a listener comes or goes -/
  | watch (watched : Bool)
  /-- the outbox is emptied -/
  | drain

namespace Manager

/-- a manager without any object, with or without a listener -/
def start (hw : Hardware) (watched : Bool) : Manager := { new hw with watched }

/-- the manager after an act, whatever its answer -/
def act (m : Manager) : Act → Manager
  | .call c => (c.perform.run m).2
  | .plan p => (p.apply m).2
  | .watch watched => { m with watched }
  | .drain => m.cleared

/-- the manager after some acts -/
def live (m : Manager) (acts : List Act) : Manager := acts.foldl act m

/-- a manager that some acts lead to -/
def Reached (hw : Hardware) (m : Manager) : Prop := ∃ watched acts, m = (start hw watched).live acts

/-- a manager whose records hang together and whose pools are accounted for -/
def IsSound (hw : Hardware) (m : Manager) : Prop := m.hardware = hw ∧ ∃ L, Sound hw m.store L

theorem isSound_start (hw : Hardware) (watched : Bool) : (start hw watched).IsSound hw := by
  refine ⟨rfl, fun _ _ => [], Wired.empty hw, fun k p hp => ?_⟩
  cases hp

theorem IsSound.call {hw : Hardware} {m : Manager} (h : m.IsSound hw) (c : Call) : (c.perform.run m).2.IsSound hw := by
  obtain ⟨rfl, L, hs⟩ := h
  rcases (c.settles hs).cases with ⟨audit, errors, hsame⟩ | hf
  · rw [hsame]
    exact ⟨rfl, L, hs⟩
  · obtain ⟨L', hs', -⟩ := hf.sound
    exact ⟨hf.hardware, L', hs'⟩

end Manager

/-! ## Plans -/

namespace PlanM

variable {α β : Type} {I : Manager → Prop} {x : PlanM α} {f : α → PlanM β}

/-- a part of a plan that keeps to a condition on the manager, whether it fails or not -/
def Keeps (I : Manager → Prop) (x : PlanM α) : Prop := ∀ p, I p.manager → I (x.run p).2.manager

namespace Keeps

theorem pure (a : α) : Keeps I (Pure.pure a : PlanM α) := fun _ h => h

theorem throw (e : PlanError) : Keeps I (MonadExcept.throw e : PlanM α) := fun _ h => h

theorem reading (f : Manager → Except PlanError α) : Keeps I (PlanM.reading f) := fun _ h => h

theorem readingApplied (f : AppliedPlan → Except PlanError α) : Keeps I (PlanM.readingApplied f) := fun _ h => h

theorem note (f : AppliedPlan → AppliedPlan) : Keeps I (PlanM.note f) := fun _ h => h

theorem request {step : String} {action : ManagerM α} (h : ∀ m, I m → I (action.run m).2) :
    Keeps I (PlanM.request step action) := fun p hp => h p.manager hp

theorem bind (hx : Keeps I x) (hf : ∀ a, Keeps I (f a)) : Keeps I (x >>= f) := by
  intro p hp
  have hq := hx p hp
  rw [run_bind]
  rcases hr : x.run p with ⟨e | a, q⟩
  · rw [hr] at hq
    exact hq
  · rw [hr] at hq
    exact hf a q hq

theorem forEntries {γ : Type} {apply : γ → PlanM Unit} (h : ∀ entry, Keeps I (apply entry)) (entries : List γ) :
    Keeps I (PlanM.forEntries apply entries) := by
  induction entries with
  | nil => exact Keeps.pure ()
  | cons entry rest ih => exact Keeps.bind (h entry) fun _ => ih

theorem bindRange {kind : ObjectKind} {step what : String} {bind : Handle kind → Option ProfileId → ManagerM Unit}
    {members : List (Handle kind)} {profile : ProfileId}
    (h : ∀ member m, I m → I ((bind member (some profile)).run m).2) (n index : Nat) :
    Keeps I (PlanM.bindRange step what bind members profile n index) := by
  induction n generalizing index with
  | zero => exact Keeps.pure ()
  | succ n ih =>
    unfold PlanM.bindRange
    split
    · exact Keeps.throw _
    · exact Keeps.bind (Keeps.request (h _)) fun _ => ih (index + 1)

end Keeps

theorem keeps_consumersOf (step text : String) : Keeps I (consumersOf step text) := by
  unfold consumersOf
  split
  · exact Keeps.throw _
  · refine Keeps.bind (Keeps.reading _) fun port => ?_
    cases port with
    | none => exact Keeps.throw _
    | some port => exact Keeps.pure _

/-- the manager that an action leaves does not depend on how its answer is put -/
theorem snd_run_map (x : ManagerM α) (g : α → β) (m : Manager) :
    ((x >>= fun a => Pure.pure (g a)).run m).2 = (x.run m).2 := by
  rw [run_bind]
  rcases x.run m with ⟨e | a, m'⟩ <;> rfl

theorem keeps_applyConsumers {kind : ObjectKind} (table what : String)
    (membersOf : Manager → PortId → Except Fault (List (Handle kind)))
    {bind : Handle kind → Option ProfileId → ManagerM Unit}
    (hbind : ∀ member profile m, I m → I ((bind member profile).run m).2) (entry : String × String) :
    Keeps I (applyConsumers table what membersOf bind entry) := by
  refine Keeps.bind (Keeps.readingApplied _) fun profile => Keeps.bind (keeps_consumersOf _ _) fun found => ?_
  refine Keeps.bind (Keeps.reading _) fun members => Keeps.bind ?_ fun _ => Keeps.note _
  exact Keeps.bindRange (fun member m hm => hbind member _ m hm) _ _

section

variable (hcall : ∀ (m : Manager) (c : Call), I m → I (c.perform.run m).2)

include hcall

theorem keeps_applyPool (entry : String × PoolPlan) : Keeps I (applyPool entry) := by
  refine Keeps.bind (Keeps.request fun m hm => ?_) fun id => Keeps.bind (Keeps.note _) fun _ => Keeps.note _
  rw [← snd_run_map _ Handle.raw]
  exact hcall m (.createPool entry.2.direction entry.2.size entry.2.mode) hm

theorem keeps_applyProfile (entry : String × ProfilePlan) : Keeps I (applyProfile entry) := by
  refine Keeps.bind (Keeps.readingApplied _) fun pool => Keeps.bind (Keeps.request fun m hm => ?_) fun id =>
    Keeps.bind (Keeps.note _) fun _ => Keeps.note _
  have hc := hcall m (.request (.create .profile (entry.2.toAttributes pool))) hm
  rw [run_bind]
  change I ((ManagerM.create .profile (entry.2.toAttributes pool)).run m).2 at hc
  rcases hr : (ManagerM.create .profile (entry.2.toAttributes pool)).run m with ⟨e | object, m'⟩ <;>
    rw [hr] at hc <;> exact hc

theorem keeps_applyPort (entry : String × String) : Keeps I (applyPort entry) := by
  refine Keeps.bind (Keeps.readingApplied _) fun profile => ?_
  dsimp only
  split
  · exact Keeps.throw _
  · refine Keeps.bind (Keeps.reading _) fun port => ?_
    cases port with
    | none => exact Keeps.throw _
    | some port =>
      refine Keeps.bind (Keeps.request fun m hm => ?_) fun _ => Keeps.note _
      rw [← snd_run_map _ fun _ => nullId]
      exact hcall m (.bindPort port (some profile)) hm

theorem keeps_applyGroups (entry : String × String) : Keeps I (applyGroups entry) :=
  keeps_applyConsumers _ _ _ (fun group profile m hm => by
    rw [← snd_run_map _ fun _ => nullId]
    exact hcall m (.bindGroup group profile) hm) entry

theorem keeps_applyQueues (entry : String × String) : Keeps I (applyQueues entry) :=
  keeps_applyConsumers _ _ _ (fun queue profile m hm => by
    rw [← snd_run_map _ fun _ => nullId]
    exact hcall m (.bindQueue queue profile) hm) entry

/-- **A plan keeps to whatever every call keeps to.** -/
theorem keeps_applySteps (plan : Plan) : Keeps I (applySteps plan) := by
  refine Keeps.bind (Keeps.forEntries (keeps_applyPool hcall) _) fun _ => ?_
  refine Keeps.bind (Keeps.forEntries (keeps_applyProfile hcall) _) fun _ => ?_
  refine Keeps.bind (Keeps.forEntries (keeps_applyGroups hcall) _) fun _ => ?_
  refine Keeps.bind (Keeps.forEntries (keeps_applyQueues hcall) _) fun _ => ?_
  exact Keeps.forEntries (keeps_applyPort hcall) _

end

end PlanM

namespace Manager

/-- **Every act leaves a sound manager.** -/
theorem IsSound.act {hw : Hardware} {m : Manager} (h : m.IsSound hw) (a : Act) : (m.act a).IsSound hw := by
  cases a with
  | call c => exact h.call c
  | plan p => exact PlanM.keeps_applySteps (I := IsSound hw) (fun m c hm => hm.call c) p { manager := m } h
  | watch watched => exact h
  | drain => exact h

/-- a call changes the store by moves -/
theorem IsSound.moves_call {hw : Hardware} {m : Manager} (h : m.IsSound hw) (c : Call) :
    Moves hw m.store (c.perform.run m).2.store := by
  obtain ⟨rfl, L, hs⟩ := h
  rcases (c.settles hs).cases with ⟨audit, errors, hsame⟩ | hf
  · rw [hsame]
    exact .refl _
  · exact hf.moves

/-- **Every act changes the store by moves.** -/
theorem IsSound.moves_act {hw : Hardware} {m : Manager} (h : m.IsSound hw) (a : Act) :
    Moves hw m.store (m.act a).store := by
  cases a with
  | call c => exact h.moves_call c
  | plan p =>
    have hkeep := PlanM.keeps_applySteps (I := fun m' => m'.IsSound hw ∧ Moves hw m.store m'.store)
      (fun m' c hm => ⟨hm.1.call c, hm.2.trans (hm.1.moves_call c)⟩) p { manager := m } ⟨h, .refl _⟩
    exact hkeep.2
  | watch watched => exact .refl _
  | drain => exact .refl _

theorem IsSound.moves_live {hw : Hardware} {m : Manager} (h : m.IsSound hw) (acts : List Act) :
    (m.live acts).IsSound hw ∧ Moves hw m.store (m.live acts).store := by
  induction acts generalizing m with
  | nil => exact ⟨h, .refl _⟩
  | cons a acts ih =>
    obtain ⟨hs, hm⟩ := ih (h.act a)
    exact ⟨hs, (h.moves_act a).trans hm⟩

/-- **Whatever is reached is sound.** -/
theorem Reached.sound {hw : Hardware} {m : Manager} (h : Reached hw m) : m.IsSound hw := by
  obtain ⟨watched, acts, rfl⟩ := h
  exact ((isSound_start hw watched).moves_live acts).1

end Manager

/-! ## Exact counts -/

namespace Manager

/-- no profile has more consumers than can be counted -/
def Fits (m : Manager) : Prop :=
  ∀ k l, k.kind = .profile → m.store.members .profileConsumers k = .ok l → l.length < UInt32.size

/-- a manager that some calls lead to, each leaving no profile more consumers than can be counted -/
inductive Tallied (hw : Hardware) : Manager → Prop where
  | start (watched : Bool) : Tallied hw (start hw watched)
  | call {m : Manager} (h : Tallied hw m) (c : Call) (hfit : (c.perform.run m).2.Fits) :
    Tallied hw (c.perform.run m).2
  | outbox {m : Manager} (h : Tallied hw m) (watched : Bool) (events : List Event) (audit : List AuditRecord) :
    Tallied hw { m with watched, events, audit }

/-- **Counts stay exact** while no profile gets too many consumers. -/
theorem Tallied.tight {hw : Hardware} {m : Manager} (h : Tallied hw m) :
    m.hardware = hw ∧ ∃ L, Sound hw m.store L ∧ Tight m.store L := by
  induction h with
  | start watched =>
    obtain ⟨hh, -⟩ := isSound_start hw watched
    refine ⟨hh, fun _ _ => [], ⟨Wired.empty hw, fun k p hp => ?_⟩, Tight.empty⟩
    cases hp
  | @call m h c hfit ih =>
    obtain ⟨rfl, L, hs, ht⟩ := ih
    rcases (c.settles hs).cases with ⟨audit, errors, hsame⟩ | hf
    · rw [hsame]
      exact ⟨rfl, L, hs, ht⟩
    · obtain ⟨L', hs', ht'⟩ := hf.sound
      refine ⟨hf.hardware, L', hs', ht' ht fun k hc hk => hfit k _ hk ?_⟩
      obtain ⟨hd, hhd⟩ := hs'.wired.exists_head (R := .profileConsumers) hc hk
      exact hs'.wired.linked.members_eq hhd
  | outbox h watched events audit ih => exact ih

/-- no consumer is lost count of -/
theorem Tallied.countable {hw : Hardware} {m : Manager} (h : Tallied hw m) (c : Change) : c.Countable m.store := by
  obtain ⟨-, L, hs, ht⟩ := h.tight
  cases c with
  | bind consumer target => exact ht.not_uncounted hs.wired
  | _ => trivial

end Manager

end SharedBuffer
