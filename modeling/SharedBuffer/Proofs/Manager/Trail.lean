/-
The audit trail says what happened.

A request does its work first and is put on record afterwards, each kind of request in its own place: with the object as
it stands then, with the object's name only, or, where it was refused, with the fault. What it does itself keeps off the
trail (`ManagerM.Keeps`), and what comes after the record changes no record of the store; so the one entry that a
request makes tells how it ended and of what. One change is never put on record: that of a port for which handles run
out when it is there already.

Results: `AuditRecord.Accepts.unique` and `AuditRecord.Shows.unique`, a record tells objects and snapshots apart;
`reached_trail_matches`; and `overlong_unrecorded`, the change without a record.
-/
import SharedBuffer.Proofs.Manager.Census
import SharedBuffer.Proofs.Manager.Keeping
import SharedBuffer.Proofs.Manager.Ports
import SharedBuffer.Proofs.Manager.Views
import SharedBuffer.Proofs.Snapshot

namespace SharedBuffer

open Manager

/-! ## Records -/

/-- a refusal by admission control: for want of resources, or of an object in use -/
def Fault.IsDenial (e : Fault) : Prop :=
  (∃ reason, e = .insufficientResources reason) ∨ ∃ object, e = .objectInUse object

namespace AuditRecord

/-- a record of something accepted, with the object that it concerns -/
structure Accepts (r : AuditRecord) (k : Key) : Prop where
  outcome : r.outcome = .success
  object : r.object = some k.text
  objectType : r.objectType = some k.kind.name
  status : r.status = none
  error : r.error = none

/-- a record of a refusal, with the status and the text of the fault -/
structure Refuses (r : AuditRecord) (e : Fault) : Prop where
  outcome : r.outcome ≠ .success
  denied : r.outcome = .denied ↔ e.IsDenial
  status : r.status = some e.status.name
  error : r.error = some e.message

/-- a record with an object as it stands in a store for its details -/
def Shows (r : AuditRecord) (s : Store Record) (k : Key) : Prop :=
  ∃ shown, s.snapshot k = .ok shown ∧ r.details = some shown.toJson.sorted

/-- a record concerns one object -/
theorem Accepts.unique {r : AuditRecord} {k j : Key} (h : r.Accepts k) (h' : r.Accepts j) : k = j :=
  Key.eq_of_text (Option.some.inj (h.objectType.symm.trans h'.objectType))
    (Option.some.inj (h.object.symm.trans h'.object))

/-- a record shows one snapshot -/
theorem Shows.unique {r : AuditRecord} {s t : Store Record} {k j : Key} (h : r.Shows s k) (h' : r.Shows t j) :
    t.snapshot j = s.snapshot k := by
  obtain ⟨shown, hshown, hdetails⟩ := h
  obtain ⟨shown', hshown', hdetails'⟩ := h'
  rw [hshown, hshown', Snapshot.eq_of_sorted (Option.some.inj (hdetails.symm.trans hdetails'))]

/-- a record of something accepted, with the object for its details as far as it has a snapshot -/
structure Describes (r : AuditRecord) (s : Store Record) (k : Key) : Prop extends r.Accepts k where
  details : ∀ shown, s.snapshot k = .ok shown → r.details = some shown.toJson.sorted

theorem Describes.shows {r : AuditRecord} {hw : Hardware} {s : Store Record} {L : Layout} {k : Key}
    (h : r.Describes s k) (hs : Sound hw s L) (hc : s.contains k = true) : r.Shows s k := by
  obtain ⟨shown, hshown⟩ := hs.wired.snapshot_eq_ok hc
  exact ⟨shown, hshown, h.details shown hshown⟩

theorem refuses_withRefusal (r : AuditRecord) (e : Fault) : (r.withRefusal e).Refuses e := by
  refine ⟨?_, ?_, rfl, rfl⟩
  · cases e <;> exact fun h => by cases h
  · cases e <;> simp [withRefusal, AuditOutcome.ofRefusal, Fault.status, Fault.IsDenial]

end AuditRecord

/-- one record more on the trail, of which something holds -/
def Manager.Enters (m m' : Manager) (P : AuditRecord → Prop) : Prop :=
  ∃ record, m'.audit = m.audit ++ [record] ∧ P record

theorem Manager.Enters.mono {m m' : Manager} {P Q : AuditRecord → Prop} (h : m.Enters m' P) (hpq : ∀ r, P r → Q r) :
    m.Enters m' Q := h.imp fun r => And.imp_right (hpq r)

/-- what a refusal leaves on the trail: nothing, or a record of it -/
def Manager.NotesRefusal (m : Manager) (e : Fault) (m' : Manager) : Prop :=
  m'.audit = m.audit ∨ m.Enters m' fun record => record.Refuses e

/-- what a creation leaves on the trail: a record of what there is now under the id -/
def Manager.NotesCreation (m : Manager) (object : ObjectId) (m' : Manager) : Prop :=
  ∃ k, Key.ofId? object = some k ∧ m.Enters m' fun record => record.Accepts k ∧ record.Shows m'.store k

/-- what the setting of an attribute leaves on the trail: a record, with the object as it is then if it is a pool or a
profile; or nothing, where a consumer is bound to what it is bound to already -/
def Manager.NotesSetting (m : Manager) (k : Key) (a : Attribute) (m' : Manager) : Prop :=
  (m.Enters m' fun record => record.Accepts k ∧ (k.kind = .pool ∨ k.kind = .profile → record.Shows m'.store k)) ∨
    m' = m ∧ Roster.profileConsumers.takes k.kind = true ∧
      a.value = .oid (idOrNull (m.store.ownerOf? .profileConsumers k))

/-! ## Requests by kind -/

namespace ManagerM

variable {α β : Type} {x : ManagerM α} {m : Manager} {L : Layout} {k : Key} {P : α → Manager → AuditRecord → Prop}

/-- an action that makes one entry: of what it did, or of its refusal -/
def Records (P : α → Manager → AuditRecord → Prop) (x : ManagerM α) : Prop :=
  ∀ m, Ends x m (fun a m' => m.Enters m' (P a m')) fun e m' => m.Enters m' fun record => record.Refuses e

/-- an action that makes its entry once it knows how another ended, which keeps off the trail -/
theorem Records.attempt (hx : Keeps Manager.audit x) {g : Except Fault α → ManagerM β}
    {P : β → Manager → AuditRecord → Prop}
    (hok : ∀ a m, ∃ b m', (g (.ok a)).run m = (.ok b, m') ∧ m.Enters m' (P b m'))
    (herr : ∀ e m, ∃ m', (g (.error e)).run m = (.error e, m') ∧ m.Enters m' fun record => record.Refuses e) :
    Records P (attempt x >>= g) := by
  have hmove : ∀ {m m₁ m' : Manager} {P}, m₁.audit = m.audit → m₁.Enters m' P → m.Enters m' P := fun hm =>
    Exists.imp fun _ h => ⟨h.1.trans (by rw [hm]), h.2⟩
  intro m
  refine hx.ends_attempt m (fun a m₁ hm => ?_) fun e m₁ hm => ?_
  · obtain ⟨b, m', hg, hentry⟩ := hok a m₁
    exact ⟨b, m', hg, hmove hm hentry⟩
  · obtain ⟨m', hg, hentry⟩ := herr e m₁
    exact ⟨e, m', hg, hmove hm hentry⟩

theorem logRefusal_enters (category : AuditCategory) (action : String) (object : Option Key) (e : Fault) (m : Manager) :
    ∃ m', (logRefusal category action object e >>= fun _ => throw e : ManagerM α).run m = (.error e, m') ∧
      m.Enters m' fun record => record.Refuses e :=
  ⟨_, rfl, _, rfl, AuditRecord.refuses_withRefusal _ e⟩

theorem logSnapshot_enters (category : AuditCategory) (action : String) (k : Key) (m : Manager) :
    ∃ m', (logSnapshot category action k).run m = (.ok (), m') ∧
      m.Enters m' fun record => record.Describes m'.store k := by
  refine ⟨_, rfl, _, rfl, ⟨rfl, rfl, rfl, rfl, rfl⟩, fun shown hshown => ?_⟩
  have hsame : m.store.snapshot k = .ok shown := hshown
  simp only [hsame]
  rfl

/-- what is created is counted before it is put on record -/
theorem logCreation_enters (f : Counters → Counters) (category : AuditCategory) (action : String) (k : Key)
    (m : Manager) :
    ∃ a m', (count f >>= fun _ => logSnapshot category action k >>= fun _ => pure k).run m = (.ok a, m') ∧
      m.Enters m' fun record => record.Describes m'.store a := by
  obtain ⟨m', hrun, hentry⟩ := logSnapshot_enters category action k { m with counters := f m.counters }
  exact ⟨k, m', (run_bind_ok rfl).trans (run_bind_ok hrun), hentry⟩

theorem records_createPoolFrom (attrs : List Attribute) :
    Records (fun k m' record => record.Describes m'.store k) (createPoolFrom attrs) :=
  .attempt (keeps_tryCreatePool .audit attrs) (fun k => logCreation_enters _ _ _ k) fun e => logRefusal_enters _ _ _ e

theorem records_createProfileFrom (attrs : List Attribute) :
    Records (fun k m' record => record.Describes m'.store k) (createProfileFrom attrs) :=
  .attempt (keeps_tryCreateProfile .audit attrs) (fun k => logCreation_enters _ _ _ k)
    fun e => logRefusal_enters _ _ _ e

theorem records_setPool (k : Key) (a : Attribute) :
    Records (fun _ m' record => record.Describes m'.store k) (setPool k a) :=
  .attempt (keeps_trySetPool .audit k a) (fun _ m => ⟨(), logSnapshot_enters _ _ k m⟩)
    fun e => logRefusal_enters _ _ _ e

theorem records_setProfile (k : Key) (a : Attribute) :
    Records (fun _ m' record => record.Describes m'.store k) (setProfile k a) :=
  .attempt (keeps_trySetProfile .audit k a) (fun _ m => ⟨(), logSnapshot_enters _ _ k m⟩)
    fun e => logRefusal_enters _ _ _ e

theorem records_removePool (hk : k.kind = .pool) :
    Records (fun _ _ record => record.Accepts k) (removePool k) := by
  unfold removePool
  simp only [announceOf_eq hk]
  exact .attempt (.onLists .audit _)
    (fun _ _ => ⟨(), _, rfl, _, (Keeps.announce .audit (.poolRemoved k.id)) _, rfl, rfl, rfl, rfl, rfl⟩)
    fun e => logRefusal_enters _ _ _ e

theorem records_removeProfile (hk : k.kind = .profile) :
    Records (fun _ _ record => record.Accepts k) (removeProfile k) := by
  unfold removeProfile
  simp only [announceOf_eq hk]
  exact .attempt (keeps_tryRemoveProfile .audit k)
    (fun _ _ => ⟨(), _, rfl, _, (Keeps.announce .audit (.profileRemoved k.id)) _, rfl, rfl, rfl, rfl, rfl⟩)
    fun e => logRefusal_enters _ _ _ e

/-- a binding makes an entry, unless it is there already and nothing is done -/
theorem bindConsumer_records (h : Sound m.hardware m.store L) (hc : m.store.contains k = true)
    (hk : Roster.profileConsumers.takes k.kind = true) (id : ObjectId) :
    Ends (bindConsumer k id) m
      (fun _ m' => (m.Enters m' fun record => record.Accepts k) ∨
        m' = m ∧ id = idOrNull (m.store.ownerOf? .profileConsumers k))
      fun e m' => m.Enters m' fun record => record.Refuses e := by
  have hsame := keeps_tryBind .audit k id m
  rcases hr : (tryBind k id).run m with ⟨e | r, m₁⟩ <;> rw [hr] at hsame
  all_goals have hrun : (bindConsumer k id).run m = _ := run_attempt_bind hr
  · exact Ends.of_run_error (hrun.trans rfl) ⟨_, congrArg (· ++ _) hsame, AuditRecord.refuses_withRefusal _ e⟩
  obtain ⟨-, target, hto, ⟨howner, rfl, rfl⟩ | ⟨-, -, rfl⟩⟩ := (tryBind_ends h hc hk id).ok hr
  · exact Ends.of_run_ok (hrun.trans rfl) (.inr ⟨rfl, by rw [howner, hto.idOrNull_eq]⟩)
  · exact Ends.of_run_ok (hrun.trans rfl) (.inl ⟨_, congrArg (· ++ _) hsame, rfl, rfl, rfl, rfl, rfl⟩)

/-- a port that is brought up is put on record at the end; nothing is where it is not -/
theorem registerPort_records (h : Sound m.hardware m.store L) (number groups queues : UInt32) :
    Ends (registerPort number groups queues) m
      (fun port m' => m.Enters m' fun record => record.Accepts port.key) fun _ m' => m'.audit = m.audit := by
  have hkeep : ∀ {m₁ : Manager} {kind R toRecord port n i}, m₁.audit = m.audit →
      Ends (addSubqueues kind R toRecord port n i) m₁ (fun _ m' => m'.audit = m.audit) fun _ m' => m'.audit = m.audit :=
    fun h₁ => ((keeps_addSubqueues .audit _ _ _ _ _ _).ends _).mono (fun _ _ h' => h'.trans h₁)
      fun _ _ h' => h'.trans h₁
  refine Ends.bind_ok (a := m.findPort? number) (t := m) rfl ?_
  split
  · exact Ends.throw rfl
  refine Ends.bind_ok (a := m.hardware.tileOf number) (t := m) rfl ?_
  refine Ends.bind ((onStore_ends (Store.insertNew_ends h.wired.handed .port _)).mono (fun _ _ hp => hp) ?_)
    fun port m₁ hp => ?_
  · rintro e m' ⟨e', t, rfl, rfl, -⟩
    rfl
  obtain ⟨hkind, h₁⟩ : port.kind = .port ∧ m₁.audit = m.audit := by
    obtain ⟨t, rfl, hins, -⟩ := hp
    exact ⟨hins.kind, rfl⟩
  refine Ends.bind (hkeep h₁) fun _ m₂ h₂ => Ends.bind (hkeep h₂) fun _ m₃ h₃ => ?_
  -- the key is one of a port, so that it can be answered with
  obtain ⟨kind, id⟩ := port
  obtain rfl : kind = .port := hkind
  exact Ends.of_run_ok rfl ⟨_, congrArg (· ++ _) h₃, rfl, rfl, rfl, rfl, rfl⟩

/-! ## Requests by object id -/

/-- what was created and put on record is there, as the record has it, under the id that is answered -/
theorem Records.created {x y : ManagerM Key} {kind : ObjectKind} {P : Key → Manager → Prop}
    {Q : Fault → Manager → Prop} (hy : Records (fun k m' record => record.Describes m'.store k) y)
    (hwraps : Wraps id m y x) (hx : Ends x m (fun k m' => Follows m L m' ∧ Created m m' kind k ∧ P k m') Q) :
    Ends (y >>= fun k => pure k.id) m m.NotesCreation m.NotesRefusal := by
  have hthere : Ends y m (fun k m' => Key.ofId? k.id = some k ∧ ∀ record : AuditRecord, record.Describes m'.store k →
      record.Accepts k ∧ record.Shows m'.store k) fun _ _ => True := by
    refine hwraps.ends hx (fun k m' _ _ hp => ?_) fun _ _ _ _ _ => trivial
    obtain ⟨hf, hcreated, -⟩ := hp
    obtain ⟨L', hs', -⟩ := hf.sound
    exact ⟨hcreated.ofId?, fun record hr => ⟨hr.toAccepts, hr.shows hs' hcreated.live⟩⟩
  exact Ends.bind ((hthere.and (hy m)).mono (fun _ _ hp => hp) fun _ _ hq => .inr hq.2) fun k _ hp =>
    Ends.pure ⟨k, hp.1.1, hp.2.mono hp.1.2⟩

theorem create_records (h : Sound m.hardware m.store L) (kind : ObjectKind) (attrs : List Attribute) :
    Ends (create kind attrs) m m.NotesCreation m.NotesRefusal := by
  rw [create_eq]
  refine ends_counted (ends_reading (fun _ _ => ?_) fun _ _ => .inl rfl) fun _ _ hq => hq
  cases kind
  case pool => exact (records_createPoolFrom attrs).created (wraps_createPoolFrom attrs m) (tryCreatePool_ends h attrs)
  case profile =>
    exact (records_createProfileFrom attrs).created (wraps_createProfileFrom attrs m) (tryCreateProfile_ends h attrs)
  all_goals exact Ends.throw (.inl rfl)

theorem remove_records (id : ObjectId) (m : Manager) :
    Ends (remove id) m (fun _ m' => ∃ k, Key.ofId? id = some k ∧ m.Enters m' fun record => record.Accepts k)
      m.NotesRefusal := by
  rw [remove_eq]
  refine ends_counted (ends_reading (fun k hk => ?_) fun _ _ => .inl rfl) fun _ _ hq => hq
  have hid := Key.require_eq_ok hk
  unfold removeObject
  split
  · rename_i hkind
    exact (records_removePool hkind m).mono (fun _ _ hp => ⟨k, hid, hp⟩) fun _ _ hq => .inr hq
  · rename_i hkind
    exact (records_removeProfile hkind m).mono (fun _ _ hp => ⟨k, hid, hp⟩) fun _ _ hq => .inr hq
  · exact Ends.throw (.inl rfl)

theorem setObject_records (h : Sound m.hardware m.store L) (hc : m.store.contains k = true) (a : Attribute) :
    Ends (setObject k a) m (fun _ => m.NotesSetting k a) m.NotesRefusal := by
  cases hk : Roster.profileConsumers.takes k.kind with
  | true =>
    have hother : ¬ (k.kind = .pool ∨ k.kind = .profile) := by rintro (e | e) <;> rw [e] at hk <;> cases hk
    rw [setObject_consumer hk]
    unfold bindObject
    split
    · rename_i id hid
      refine (bindConsumer_records h hc hk id).mono (fun _ m' hp => ?_) fun _ _ hq => .inr hq
      refine hp.imp (fun hentry => hentry.mono fun _ hr => ⟨hr, fun e => absurd e hother⟩) fun ⟨he, hsame⟩ => ?_
      exact ⟨he, hk, hsame ▸ AttributeValue.eq_oid hid⟩
    · exact Ends.throw (.inl rfl)
  | false =>
    have hrecords : Ends (setObject k a) m (fun _ m' => m.Enters m' fun record => record.Describes m'.store k)
        m.NotesRefusal := by
      unfold setObject
      split
      · exact (records_setPool k a m).mono (fun _ _ hp => hp) fun _ _ hq => .inr hq
      · exact (records_setProfile k a m).mono (fun _ _ hp => hp) fun _ _ hq => .inr hq
      · exact Ends.throw (.inl rfl)
      all_goals simp_all [Roster.takes]
    refine (hrecords.and (setting_setObject h hc a)).mono (fun _ m' hp => .inl ?_) fun _ _ hq => hq.1
    -- the object is there afterwards as it was before, so that it has a snapshot
    obtain ⟨hentry, hf, hsets⟩ := hp
    obtain ⟨L', hs', -⟩ := hf.sound
    have hthere := ((hsets.kept h hc).1 k).trans hc
    exact hentry.mono fun _ hr => ⟨hr.toAccepts, fun _ => hr.shows hs' hthere⟩

theorem setAttribute_records (h : Sound m.hardware m.store L) (object : ObjectId) (a : Attribute) :
    Ends (setAttribute object a) m (fun _ m' => ∃ k, Key.ofId? object = some k ∧ m.NotesSetting k a m')
      m.NotesRefusal := by
  exact (setAttribute_ends (fun k _ _ _ hc => setObject_records h hc a) (fun _ => .inl rfl) fun _ _ hq => hq).mono
    (fun _ _ ⟨k, _, hid, _, _, hp⟩ => ⟨k, hid, hp⟩) fun _ _ hq => hq

end ManagerM

/-! ## Requests -/

/-- the object that a request concerns: the one it names, or the one that it was answered with -/
def Request.object? (r : Request) (answer : ObjectId) : Option Key :=
  match r with
  | .registerPort _ _ _ | .create _ _ => Key.ofId? answer
  | .remove id | .setAttribute id _ => Key.ofId? id

/-- whether a request is put on record with its object as it stands then -/
def Request.IsDetailed (r : Request) (k : Key) : Prop :=
  match r with
  | .create _ _ => True
  | .setAttribute _ _ => k.kind = .pool ∨ k.kind = .profile
  | .registerPort _ _ _ | .remove _ => False

/-- whether a request asks for the binding that a consumer has already -/
def Request.KeepsBinding (r : Request) (m : Manager) : Prop :=
  ∃ object a k, r = .setAttribute object a ∧ Key.ofId? object = some k ∧
    Roster.profileConsumers.takes k.kind = true ∧ a.value = .oid (idOrNull (m.store.ownerOf? .profileConsumers k))

/-- what a request that went through leaves on the trail: one record, of its object; or none, where all that it asks
for is there already -/
def Manager.NotesSuccess (m : Manager) (r : Request) (id : ObjectId) (m' : Manager) : Prop :=
  (∃ k, r.object? id = some k ∧
      m.Enters m' fun record => record.Accepts k ∧ (r.IsDetailed k → record.Shows m'.store k)) ∨
    m' = m ∧ r.KeepsBinding m

open ManagerM in
/-- **What a request leaves on the trail**, by how it ends. -/
theorem Request.records {m : Manager} {L : Layout} (h : Sound m.hardware m.store L) (r : Request) :
    Ends r.perform m (m.NotesSuccess r) m.NotesRefusal := by
  cases r with
  | registerPort number groups queues =>
    have hcreated : Ends (ManagerM.registerPort number groups queues) m
        (fun port _ => Key.ofId? port.raw = some port.key) fun _ _ => True := by
      refine (registerPort_ends h number groups queues).mono ?_ fun _ _ _ => trivial
      rintro port m' ⟨-, k, hid, hnew, -⟩
      rw [Handle.key, ← hid, ← hnew.kind]
      exact hnew.ofId?
    refine Ends.bind (((registerPort_records h number groups queues).and hcreated).mono (fun _ _ hp => hp)
      fun _ _ hq => .inl hq.1) fun port m' hp => ?_
    obtain ⟨hentry, hid⟩ := hp
    exact Ends.pure (.inl ⟨port.key, hid, hentry.mono fun _ hr => ⟨hr, False.elim⟩⟩)
  | create kind attrs =>
    refine (create_records h kind attrs).mono ?_ fun _ _ hq => hq
    rintro id m' ⟨k, hid, hentry⟩
    exact .inl ⟨k, hid, hentry.mono fun _ hr => ⟨hr.1, fun _ => hr.2⟩⟩
  | remove id =>
    refine Ends.bind (remove_records id m) fun _ m' hp => ?_
    obtain ⟨k, hid, hentry⟩ := hp
    exact Ends.pure (.inl ⟨k, hid, hentry.mono fun _ hr => ⟨hr, False.elim⟩⟩)
  | setAttribute object a =>
    refine Ends.bind (setAttribute_records h object a) fun _ m' hp => Ends.pure ?_
    obtain ⟨k, hid, hentry | ⟨hsame, hkeeps⟩⟩ := hp
    · exact .inl ⟨k, hid, hentry⟩
    · exact .inr ⟨hsame, object, a, k, rfl, hid, hkeeps⟩

open ManagerM in
/-- a refusal that changes something is of a port, for which handles ran out halfway, and is not on record -/
theorem Request.exhausted_of_changed {m m' : Manager} {L : Layout} (h : Sound m.hardware m.store L) {r : Request}
    {e : Fault} (hrun : r.perform.run m = (.error e, m')) (hchange : m'.store ≠ m.store) :
    ∃ number groups queues, r = .registerPort number groups queues ∧ e.IsExhausted ∧ m'.audit = m.audit := by
  rcases ((Call.request r).settles h).error hrun with hrefused | ⟨hexhausted, -⟩
  · exact absurd hrefused.store hchange
  cases hreg : (Call.request r).registers with
  | false => exact absurd ((Call.clean h hreg).error hrun).store hchange
  | true =>
    cases r with
    | registerPort number groups queues =>
      have hends : Ends (Request.registerPort number groups queues).perform m (fun _ _ => True)
          fun _ m' => m'.audit = m.audit :=
        Ends.bind ((registerPort_records h number groups queues).mono (fun _ _ hp => hp) fun _ _ hq => hq)
          fun _ _ _ => Ends.pure trivial
      exact ⟨number, groups, queues, rfl, hexhausted, hends.error hrun⟩
    | _ => cases hreg

/-- **The audit trail says what happened.** Whatever is reached and whatever is asked, a request that changes the store
makes one record, of its success and with the object that it concerns, and what it creates or sets is shown as it
stands then; only a port for which handles run out halfway leaves something behind, and makes no record. A request that
is refused makes one record at most, of its refusal: with the status and the text of the fault, and as a denial exactly
where resources or references stand against it. And a request that goes through without a record asks for a binding
that is there already. -/
theorem reached_trail_matches {hw : Hardware} {m m' : Manager} (hm : m.Reached hw) (r : Request)
    {answer : Except Fault ObjectId} (h : r.perform.run m = (answer, m')) :
    ∃ records, m'.audit = m.audit ++ records ∧
      (m'.store ≠ m.store →
        (∃ id k record, answer = .ok id ∧ r.object? id = some k ∧ records = [record] ∧ record.Accepts k ∧
          (r.IsDetailed k → record.Shows m'.store k)) ∨
        ∃ number groups queues e, r = .registerPort number groups queues ∧ answer = .error e ∧ e.IsExhausted ∧
          records = []) ∧
      (∀ e, answer = .error e → records.length ≤ 1 ∧ ∀ record ∈ records, record.Refuses e) ∧
      ∀ id, answer = .ok id → records = [] → r.KeepsBinding m := by
  obtain ⟨rfl, L, hs⟩ := hm.sound
  have hrecords := r.records hs
  cases answer with
  | ok id =>
    rcases hrecords.ok h with ⟨k, hk, record, hentry, haccepts, hshows⟩ | ⟨rfl, hkeeps⟩
    · exact ⟨[record], hentry, fun _ => .inl ⟨id, k, record, rfl, hk, rfl, haccepts, hshows⟩, nofun, nofun⟩
    · exact ⟨[], (List.append_nil _).symm, fun hchange => absurd rfl hchange, nofun, fun _ _ _ => hkeeps⟩
  | error e =>
    have hchanged := Request.exhausted_of_changed hs h
    rcases hrecords.error h with hsame | ⟨record, hentry, hrefuses⟩
    · refine ⟨[], hsame.trans (List.append_nil _).symm, fun hchange => .inr ?_,
        fun _ _ => ⟨Nat.zero_le 1, List.forall_mem_nil _⟩, nofun⟩
      obtain ⟨number, groups, queues, hport, hexhausted, -⟩ := hchanged hchange
      exact ⟨number, groups, queues, e, hport, rfl, hexhausted, rfl⟩
    · refine ⟨[record], hentry, fun hchange => ?_, fun e' he => ⟨le_refl 1, fun r' hr' => ?_⟩, nofun⟩
      · obtain ⟨_, _, _, -, -, hsame⟩ := hchanged hchange
        simp [hsame] at hentry
      · obtain rfl := Except.error.inj he
        exact List.mem_singleton.1 hr' ▸ hrefuses

/-- making the smaller profile smaller is on record with what it has become, binding the group to the larger one as a
denial; binding the group to the profile that it has is not on record -/
theorem crowded_trail_matches :
    let bind (profile : ProfileId) :=
      Request.setAttribute firstGroup.raw ⟨PriorityGroupAttribute.profile.id, .oid profile.raw⟩
    let resize := Request.setAttribute (profileAfter 0).raw ⟨ProfileAttribute.reservedSize.id, .u64 900⟩
    (∃ m' record, resize.perform.run crowded = (.ok nullId, m') ∧ m'.audit = crowded.audit ++ [record] ∧
      record.Accepts (profileAfter 0).key ∧ record.Shows m'.store (profileAfter 0).key) ∧
    (∃ e m' record, (bind (profileAfter 1)).perform.run crowded = (.error e, m') ∧
      m'.audit = crowded.audit ++ [record] ∧ record.Refuses e ∧ record.outcome = .denied) ∧
    ∃ m', (bind (profileAfter 0)).perform.run crowded = (.ok nullId, m') ∧ m'.audit = crowded.audit ∧
      (bind (profileAfter 0)).KeepsBinding crowded := by
  intro bind resize
  have hreached : Reached twoTiles crowded := ⟨true, crowding, rfl⟩
  refine ⟨?_, ?_, ?_⟩
  · have hok : (resize.perform.run crowded).1 = .ok nullId := by decide +kernel
    have hbefore : (crowded.store.profile? (profileAfter 0).key).map Profile.size = some 1000 := by decide +kernel
    have hafter : ((resize.perform.run crowded).2.store.profile? (profileAfter 0).key).map Profile.size = some 900 := by
      decide +kernel
    rcases hr : resize.perform.run crowded with ⟨answer, m'⟩
    rw [hr] at hok hafter
    obtain rfl : answer = .ok nullId := hok
    obtain ⟨records, haudit, hchanged, -⟩ := reached_trail_matches hreached resize hr
    have hchange : m'.store ≠ crowded.store := fun hsame => by
      rw [hsame, hbefore] at hafter
      cases hafter
    obtain ⟨_, k, record, -, hk, rfl, haccepts, hshows⟩ | ⟨_, _, _, _, hother, -⟩ := hchanged hchange
    · obtain rfl : (profileAfter 0).key = k := Option.some.inj hk
      exact ⟨m', record, rfl, haudit, haccepts, hshows (.inr rfl)⟩
    · exact Request.noConfusion hother
  · have hdenied : (match ((bind (profileAfter 1)).perform.run crowded).1 with
        | .error (.insufficientResources _) => true
        | _ => false) = true := by decide +kernel
    have hlonger : ((bind (profileAfter 1)).perform.run crowded).2.audit.length = crowded.audit.length + 1 := by
      decide +kernel
    rcases hr : (bind (profileAfter 1)).perform.run crowded with ⟨answer, m'⟩
    rw [hr] at hdenied hlonger
    obtain ⟨records, haudit, -, hrefused, -⟩ := reached_trail_matches hreached _ hr
    split at hdenied
    · rename_i reason hanswer
      obtain rfl : answer = .error (.insufficientResources reason) := hanswer
      obtain ⟨-, hrefuses⟩ := hrefused _ rfl
      obtain ⟨record, rfl⟩ : ∃ record, records = [record] := by
        rw [haudit, List.length_append, Nat.add_left_cancel_iff] at hlonger
        exact List.length_eq_one_iff.1 hlonger
      have hrecord := hrefuses record List.mem_cons_self
      exact ⟨_, m', record, rfl, haudit, hrecord, hrecord.denied.2 (.inl ⟨reason, rfl⟩)⟩
    · cases hdenied
  · have hok : ((bind (profileAfter 0)).perform.run crowded).1 = .ok nullId := by decide +kernel
    have hsilent : ((bind (profileAfter 0)).perform.run crowded).2.audit.length = crowded.audit.length := by
      decide +kernel
    rcases hr : (bind (profileAfter 0)).perform.run crowded with ⟨answer, m'⟩
    rw [hr] at hok hsilent
    obtain rfl : answer = .ok nullId := hok
    obtain ⟨records, haudit, -, -, hkeeps⟩ := reached_trail_matches hreached _ hr
    obtain rfl : records = [] := by
      rw [haudit, List.length_append, Nat.add_eq_left] at hsilent
      exact List.eq_nil_of_length_eq_zero hsilent
    exact ⟨m', rfl, haudit.trans (List.append_nil _), hkeeps nullId rfl rfl⟩

/-- the port that asked for more groups than there are handles for is there, and the trail is as it was -/
theorem overlong_unrecorded :
    onePort.Reached {} ∧ ∃ e m', (Request.registerPort 1 0xFFFFFFFF 0).perform.run onePort = (.error e, m') ∧
      m'.store ≠ onePort.store ∧ m'.audit = onePort.audit := by
  have hreached : onePort.Reached {} := ⟨true, [.call (.request (.registerPort 0 1 0))], rfl⟩
  obtain ⟨e, m', hrun, -, port, gs, qs, harrives, -⟩ := onePort_overlong
  have hchange : m'.store ≠ onePort.store := fun hsame => by
    cases harrives.new.symm.trans (hsame ▸ harrives.live)
  obtain ⟨hhardware, L, hs⟩ := hreached.sound
  obtain ⟨-, -, -, -, -, hsilent⟩ := Request.exhausted_of_changed (L := L) (hhardware ▸ hs) hrun hchange
  exact ⟨hreached, e, m', hrun, hchange, hsilent⟩

end SharedBuffer
