/-
What attributes read as, by what the views show.

A get request reads records. The snapshot of an object, and the lists that a port is asked for, are taken of the same
records in other ways. `Manager.content?` says of each attribute which part of these views it stands for; a list is
filled in where the request has room for it, and else emptied with a note of the room that it needs.

Results: `Wired.reads` (every attribute of the table is read as its content) and `Wired.getAttributes_eq` (a request with
room for all that it asks for is filled in).
-/
import SharedBuffer.Manager.Reading
import SharedBuffer.Proofs.Manager.History
import SharedBuffer.Proofs.Manager.Readback
import SharedBuffer.Proofs.Manager.Spared

namespace SharedBuffer

open Manager

/-! ## Contents -/

/-- the room that a request gives for a list -/
def AttributeValue.room : AttributeValue → UInt32
  | .objectList l => l.count
  | .u64List l => l.count
  | _ => 0

/-- whether values of a kind are lists -/
def ValueKind.isList : ValueKind → Bool
  | .objectList | .u64List => true
  | _ => false

/-- what an attribute holds: a value, the ids of some objects, or some amounts -/
inductive Content where
  | value (v : AttributeValue)
  | objects (ids : List ObjectId)
  | amounts (ns : List UInt64)
deriving DecidableEq

namespace Content

/-- the kind of value that holds it -/
def kind : Content → ValueKind
  | value v => v.kind
  | objects _ => .objectList
  | amounts _ => .u64List

/-- whether it is a list -/
def isList : Content → Bool
  | value _ => false
  | objects _ | amounts _ => true

/-- the number of elements of a list -/
def size : Content → Nat
  | value _ => 0
  | objects ids => ids.length
  | amounts ns => ns.length

/-- the room that a request has to give for it, as it is reported -/
def needed (c : Content) : UInt32 := UInt32.ofNat c.size

/-- the value of the attribute when it is filled in -/
def filled : Content → AttributeValue
  | value v => v
  | objects ids => .objectList (.ofItems ids)
  | amounts ns => .u64List (.ofItems ns)

/-- the value of the attribute when there was no room -/
def emptied : Content → AttributeValue
  | value v => v
  | objects ids => .objectList (.withRoom (UInt32.ofNat ids.length))
  | amounts ns => .u64List (.withRoom (UInt32.ofNat ns.length))

/-- a value that it can take the place of: a list is only filled into a list of its kind -/
def Suits (c : Content) (v : AttributeValue) : Prop := c.isList = true → v.kind = c.kind

/-- a value with room for all of it -/
def Fits (c : Content) (v : AttributeValue) : Prop := c.Suits v ∧ (c.isList = true → c.size ≤ v.room.toNat)

/-- how an attribute that holds it is read -/
def read (c : Content) (index : Nat) (a : Attribute) : ReadResult :=
  match c with
  | value v => .filled a v
  | objects ids => fillObjects index a ids
  | amounts ns => fillAmounts index a ns

section

variable {c : Content} {v : AttributeValue}

/-- only a list needs room -/
theorem isList_of_short (h : v.room < c.needed) : c.isList = true := by
  cases c with
  | value => simp [needed, size, UInt32.lt_iff_toNat_lt] at h
  | _ => rfl

theorem Fits.not_short (h : c.Fits v) : ¬ v.room < c.needed := fun hshort => by
  have hroom := h.2 (isList_of_short hshort)
  have hneeded : c.needed.toNat ≤ c.size := by
    rw [needed, UInt32.toNat_ofNat']
    exact Nat.mod_le _ _
  rw [UInt32.lt_iff_toNat_lt] at hshort
  omega

/-- a single value takes the place of any -/
theorem fits_value (w v : AttributeValue) : (value w).Fits v :=
  ⟨fun h => (Bool.false_ne_true h).elim, fun h => (Bool.false_ne_true h).elim⟩

/-- what is filled in has room for itself -/
theorem not_short_filled : ¬ c.filled.room < c.needed := fun h => by
  cases c with
  | value => cases isList_of_short h
  | _ => exact UInt32.lt_irrefl _ h

/-- where there was no room, the room that is noted is enough -/
theorem not_short_emptied : ¬ c.emptied.room < c.needed := fun h => by
  cases c with
  | value => cases isList_of_short h
  | _ => exact UInt32.lt_irrefl _ h

theorem suits_filled : c.Suits c.filled := fun _ => by cases c <;> rfl

theorem suits_emptied : c.Suits c.emptied := fun _ => by cases c <;> rfl

/-- **How an attribute is read is told by the room it has.** -/
theorem read_eq (h : c.Suits v) (index : Nat) (id : UInt32) :
    c.read index ⟨id, v⟩ = if v.room < c.needed then
      (⟨id, c.emptied⟩, some (.bufferOverflow (UInt32.ofNat index) c.needed)) else (⟨id, c.filled⟩, none) := by
  cases c with
  | value w => rw [if_neg fun hshort => by cases isList_of_short hshort]; rfl
  | objects ids =>
    obtain ⟨l, rfl⟩ : ∃ l, v = .objectList l := by cases v <;> first | exact ⟨_, rfl⟩ | cases h rfl
    simp only [read, fillObjects, fillList]
    split <;> rename_i hshort
    · exact (if_pos hshort).symm
    · exact (if_neg hshort).symm
  | amounts ns =>
    obtain ⟨l, rfl⟩ : ∃ l, v = .u64List l := by cases v <;> first | exact ⟨_, rfl⟩ | cases h rfl
    simp only [read, fillAmounts, fillList]
    split <;> rename_i hshort
    · exact (if_pos hshort).symm
    · exact (if_neg hshort).symm

end

end Content

/-! ## What the views show -/

/-- the fields of a pool's snapshot that its attributes stand for -/
def PoolSnapshot.content (p : PoolSnapshot) : PoolAttribute → Content
  | .sharedSize => .value (.u64 p.sharedSize)
  | .direction => .value (.s32 p.direction.code)
  | .size => .value (.u64 p.size)
  | .thresholdMode => .value (.s32 p.mode.code)
  | .tilesTotalReserved => .value (.u64 p.tilesTotalReserved)
  | .tileReserved => .amounts p.tileReserved

/-- the exponent that counts for a profile: zero where it is of static mode -/
def ProfileSnapshot.alpha (p : ProfileSnapshot) : Int8 :=
  match p.effectiveMode, p.threshold with
  | .dynamic, .dynamic alpha => alpha
  | _, _ => 0

/-- the limit in bytes that counts for a profile: zero where it is of dynamic mode -/
def ProfileSnapshot.limit (p : ProfileSnapshot) : UInt64 :=
  match p.effectiveMode, p.threshold with
  | .static, .static limit => limit
  | _, _ => 0

/-- the fields of a profile's snapshot that its attributes stand for -/
def ProfileSnapshot.content (p : ProfileSnapshot) : ProfileAttribute → Content
  | .poolId => .value (.oid p.pool)
  | .reservedSize => .value (.u64 p.size)
  | .thresholdMode => .value (.s32 p.mode.code)
  | .dynamicThreshold => .value (.i8 p.alpha)
  | .staticThreshold => .value (.u64 p.limit)
  | .xoffThreshold => .value (.u64 p.xoff)
  | .xonThreshold => .value (.u64 p.xon)
  | .referenceCount => .value (.u32 p.referenceCount)
  | .consumerList => .objects p.consumers

/-- the fields of a priority group's snapshot that its attributes stand for -/
def SubqueueSnapshot.groupContent (g : SubqueueSnapshot) : PriorityGroupAttribute → Content
  | .profile => .value (.oid (g.profile.getD nullId))
  | .port => .value (.oid g.port)
  | .index => .value (.u32 g.index)

/-- the fields of a queue's snapshot that its attributes stand for -/
def SubqueueSnapshot.queueContent (q : SubqueueSnapshot) : QueueAttribute → Content
  | .profile => .value (.oid (q.profile.getD nullId))
  | .port => .value (.oid q.port)
  | .index => .value (.u32 q.index)

/-- the fields of a port's snapshot, and its lists of priority groups and queues, that its attributes stand for -/
def PortSnapshot.content (p : PortSnapshot) (groups : List PriorityGroupId) (queues : List QueueId) :
    PortAttribute → Content
  | .hardwareNumber => .value (.u32 p.hardwareNumber)
  | .groupCount => .value (.u32 p.priorityGroups)
  | .groupList => .objects (groups.map Handle.raw)
  | .queueCount => .value (.u32 p.queues)
  | .queueList => .objects (queues.map Handle.raw)
  | .ingressProfile => .value (.oid (p.profile.getD nullId))
  | .tile => .value (.u32 p.tile)

/-- what the views show for an attribute of an object -/
def Manager.content? (m : Manager) (k : Key) (id : UInt32) : Option Content := do
  match ← (m.store.snapshot k).toOption with
  | .pool p => (PoolAttribute.ofId? id).map p.content
  | .profile p => (ProfileAttribute.ofId? id).map p.content
  | .priorityGroup g => (PriorityGroupAttribute.ofId? id).map g.groupContent
  | .queue q => (QueueAttribute.ofId? id).map q.queueContent
  | .port p =>
    let groups ← (m.priorityGroupsOf ⟨k.id⟩).toOption
    let queues ← (m.queuesOf ⟨k.id⟩).toOption
    (PortAttribute.ofId? id).map (p.content groups queues)

namespace Manager

variable {m : Manager} {k : Key}

theorem content?_pool {p : PoolSnapshot} (h : m.store.snapshot k = .ok (.pool p)) (n : UInt32) :
    m.content? k n = (PoolAttribute.ofId? n).map p.content := by
  simp [content?, h, Except.toOption]

theorem content?_profile {p : ProfileSnapshot} (h : m.store.snapshot k = .ok (.profile p)) (n : UInt32) :
    m.content? k n = (ProfileAttribute.ofId? n).map p.content := by
  simp [content?, h, Except.toOption]

theorem content?_priorityGroup {g : SubqueueSnapshot} (h : m.store.snapshot k = .ok (.priorityGroup g)) (n : UInt32) :
    m.content? k n = (PriorityGroupAttribute.ofId? n).map g.groupContent := by
  simp [content?, h, Except.toOption]

theorem content?_queue {q : SubqueueSnapshot} (h : m.store.snapshot k = .ok (.queue q)) (n : UInt32) :
    m.content? k n = (QueueAttribute.ofId? n).map q.queueContent := by
  simp [content?, h, Except.toOption]

theorem content?_port {p : PortSnapshot} (h : m.store.snapshot k = .ok (.port p)) {groups : List PriorityGroupId}
    {queues : List QueueId} (hgroups : m.priorityGroupsOf ⟨k.id⟩ = .ok groups)
    (hqueues : m.queuesOf ⟨k.id⟩ = .ok queues) (n : UInt32) :
    m.content? k n = (PortAttribute.ofId? n).map (p.content groups queues) := by
  simp [content?, h, hgroups, hqueues, Except.toOption]

end Manager

/-! ## Rows of the tables -/

theorem specIn?_map {α : Type} (spec : α → AttributeSpec) (id : α → UInt32) (hid : ∀ a, (spec a).id = id a)
    (all : List α) (n : UInt32) : specIn? (all.map spec) n = (all.find? fun a => id a == n).map spec := by
  rw [specIn?, List.find?_map]
  congr 2
  funext a
  simp [hid]

theorem attributeSpec?_pool (n : UInt32) :
    attributeSpec? .pool n = (PoolAttribute.ofId? n).map PoolAttribute.spec :=
  specIn?_map _ PoolAttribute.id (fun a => by cases a <;> rfl) _ n

theorem attributeSpec?_profile (n : UInt32) :
    attributeSpec? .profile n = (ProfileAttribute.ofId? n).map ProfileAttribute.spec :=
  specIn?_map _ ProfileAttribute.id (fun a => by cases a <;> rfl) _ n

theorem attributeSpec?_priorityGroup (n : UInt32) :
    attributeSpec? .priorityGroup n = (PriorityGroupAttribute.ofId? n).map PriorityGroupAttribute.spec :=
  specIn?_map _ PriorityGroupAttribute.id (fun a => by cases a <;> rfl) _ n

theorem attributeSpec?_queue (n : UInt32) :
    attributeSpec? .queue n = (QueueAttribute.ofId? n).map QueueAttribute.spec :=
  specIn?_map _ QueueAttribute.id (fun a => by cases a <;> rfl) _ n

theorem attributeSpec?_port (n : UInt32) :
    attributeSpec? .port n = (PortAttribute.ofId? n).map PortAttribute.spec :=
  specIn?_map _ PortAttribute.id (fun a => by cases a <;> rfl) _ n

/-! ## Reading what the views show -/

section

variable {hw : Hardware} {s : Store Record} {m : Manager} {L : Layout} {k : Key} {r : Record} {n : UInt32}
  {spec : AttributeSpec}

theorem Wired.readMembers_eq (w : Wired hw s L none) {R : Roster} (hc : s.contains k = true)
    (hk : k.kind = R.ownerKind) (index : Nat) (a : Attribute) :
    readMembers s R k index a = fillObjects index a ((L R k).map Key.id) := by
  simp only [readMembers, w.requireMembers_eq hc hk]

/-- an attribute of an object is read as what the views show for it, which is of the kind that its table says -/
structure Manager.Reads (m : Manager) (k : Key) (r : Record) (spec : AttributeSpec) (n : UInt32) (c : Content) :
    Prop where
  shown : m.content? k n = some c
  kind : c.kind = spec.kind
  isList : c.isList = spec.kind.isList
  read : ∀ index v, readAttribute m.store k r index ⟨n, v⟩ = c.read index ⟨n, v⟩

theorem Wired.reads_pool {q : Pool} (w : Wired hw m.store L none) (hr : m.store.get? k = some (.pool q))
    (hspec : attributeSpec? k.kind n = some spec) : ∃ c, m.Reads k (.pool q) spec n c := by
  rw [← w.kind_eq hr, Record.kind, attributeSpec?_pool] at hspec
  obtain ⟨a, ha, rfl⟩ := Option.map_eq_some_iff.1 hspec
  refine ⟨(PoolSnapshot.of k q).content a, ?_, ?_, ?_, fun index v => ?_⟩
  · rw [content?_pool (Store.snapshot_of_get? hr), ha]
    rfl
  · cases a <;> rfl
  · cases a <;> rfl
  · simp only [readAttribute, readPool, ha]
    cases a <;> rfl

theorem Wired.reads_profile {p : Profile} (w : Wired hw m.store L none) (hsuited : m.store.Suited)
    (hr : m.store.get? k = some (.profile p)) (hspec : attributeSpec? k.kind n = some spec) :
    ∃ c, m.Reads k (.profile p) spec n c := by
  rw [← w.kind_eq hr, Record.kind, attributeSpec?_profile] at hspec
  obtain ⟨a, ha, rfl⟩ := Option.map_eq_some_iff.1 hspec
  have hp := Store.profile?_eq_some.2 hr
  obtain ⟨o, q, ho, hq⟩ := w.exists_housed hp
  have hmode := (hsuited k p q ⟨hp, o, ho, hq⟩).threshold
  refine ⟨ProfileSnapshot.content ⟨k.id, o.id, p.size, p.mode, p.mode.effective q.mode, p.threshold, p.xoff, p.xon,
    p.refCount, (L .profileConsumers k).map Key.id⟩ a, ?_, ?_, ?_, fun index v => ?_⟩
  · rw [content?_profile (w.snapshot_profile hp ho hq), ha]
    rfl
  · cases a <;> rfl
  · cases a <;> rfl
  · simp only [readAttribute, readProfile, ha]
    cases a
    case poolId => simp only [ho, idOrNull]; rfl
    case dynamicThreshold =>
      simp only [ProfileSnapshot.content, ProfileSnapshot.alpha, ← hmode]
      cases p.threshold <;> rfl
    case staticThreshold =>
      simp only [ProfileSnapshot.content, ProfileSnapshot.limit, ← hmode]
      cases p.threshold <;> rfl
    case consumerList =>
      exact w.readMembers_eq (R := .profileConsumers) (Store.contains_of_get? hr) (w.kind_of_profile? hp) _ _
    all_goals rfl

theorem Wired.reads_priorityGroup {g : Subqueue} (w : Wired hw m.store L none)
    (hr : m.store.get? k = some (.priorityGroup g)) (hspec : attributeSpec? k.kind n = some spec) :
    ∃ c, m.Reads k (.priorityGroup g) spec n c := by
  have hk := w.kind_eq hr
  rw [← hk, Record.kind, attributeSpec?_priorityGroup] at hspec
  obtain ⟨a, ha, rfl⟩ := Option.map_eq_some_iff.1 hspec
  refine ⟨(SubqueueSnapshot.of k g).groupContent a, ?_, ?_, ?_, fun index v => ?_⟩
  · rw [content?_priorityGroup (Store.snapshot_of_get? hr), ha]
    rfl
  · cases a <;> rfl
  · cases a <;> rfl
  · simp only [readAttribute, readSubqueue, ← hk, Record.kind, if_true, ha]
    cases a <;> simp only [SubqueueSnapshot.groupContent, SubqueueSnapshot.of, idOrNull] <;>
      first | rfl | (cases g.profileLink <;> rfl) | (cases g.portLink <;> rfl)

theorem Wired.reads_queue {q : Subqueue} (w : Wired hw m.store L none)
    (hr : m.store.get? k = some (.queue q)) (hspec : attributeSpec? k.kind n = some spec) :
    ∃ c, m.Reads k (.queue q) spec n c := by
  have hk := w.kind_eq hr
  rw [← hk, Record.kind, attributeSpec?_queue] at hspec
  obtain ⟨a, ha, rfl⟩ := Option.map_eq_some_iff.1 hspec
  refine ⟨(SubqueueSnapshot.of k q).queueContent a, ?_, ?_, ?_, fun index v => ?_⟩
  · rw [content?_queue (Store.snapshot_of_get? hr), ha]
    rfl
  · cases a <;> rfl
  · cases a <;> rfl
  · simp only [readAttribute, readSubqueue, ← hk, Record.kind, reduceCtorEq, if_false, ha]
    cases a <;> simp only [SubqueueSnapshot.queueContent, SubqueueSnapshot.of, idOrNull] <;>
      first | rfl | (cases q.profileLink <;> rfl) | (cases q.portLink <;> rfl)

theorem Wired.reads_port {p : Port} (w : Wired hw m.store L none)
    (hr : m.store.get? k = some (.port p)) (hspec : attributeSpec? k.kind n = some spec) :
    ∃ c, m.Reads k (.port p) spec n c := by
  have hk := w.kind_eq hr
  have hc := Store.contains_of_get? hr
  rw [← hk, Record.kind, attributeSpec?_port] at hspec
  obtain ⟨a, ha, rfl⟩ := Option.map_eq_some_iff.1 hspec
  have hmembers : ∀ {R : Roster} {kind : ObjectKind}, R.ownerKind = .port → ∀ index v,
      readMembers m.store R k index ⟨n, v⟩ =
        fillObjects index ⟨n, v⟩ (((L R k).map fun j => (⟨j.id⟩ : Handle kind)).map Handle.raw) := fun hR index v => by
    rw [w.readMembers_eq hc (hk.symm.trans hR.symm), List.map_map]
    rfl
  refine ⟨(PortSnapshot.of k p).content ((L .portPriorityGroups k).map fun j => ⟨j.id⟩)
    ((L .portQueues k).map fun j => ⟨j.id⟩) a, ?_, ?_, ?_, fun index v => ?_⟩
  · rw [content?_port (Store.snapshot_of_get? hr) (w.priorityGroupsOf_eq hc hk.symm) (w.queuesOf_eq hc hk.symm), ha]
    rfl
  · cases a <;> rfl
  · cases a <;> rfl
  · simp only [readAttribute, readPort, ha]
    cases a
    case groupList => exact hmembers (R := .portPriorityGroups) rfl index v
    case queueList => exact hmembers (R := .portQueues) rfl index v
    case ingressProfile =>
      simp only [PortSnapshot.content, PortSnapshot.of, idOrNull]
      cases p.profileLink <;> rfl
    all_goals rfl

/-- **Every attribute of the table is read as its content.** -/
theorem Wired.reads (w : Wired hw m.store L none) (hsuited : m.store.Suited) (hr : m.store.get? k = some r)
    (hspec : attributeSpec? k.kind n = some spec) : ∃ c, m.Reads k r spec n c := by
  cases r with
  | pool q => exact w.reads_pool hr hspec
  | profile p => exact w.reads_profile hsuited hr hspec
  | priorityGroup g => exact w.reads_priorityGroup hr hspec
  | queue q => exact w.reads_queue hr hspec
  | port p => exact w.reads_port hr hspec

end

/-! ## Reading several attributes -/

/-- an attribute that a request may ask for: one of the table, a list with a list of its kind as the value -/
def Attribute.Askable (kind : ObjectKind) (a : Attribute) : Prop :=
  ∃ spec, attributeSpec? kind a.id = some spec ∧ (spec.kind.isList = true → a.value.kind = spec.kind)

/-- an attribute of the table, with room for what it holds -/
def Manager.Ample (m : Manager) (k : Key) (a : Attribute) : Prop :=
  (attributeSpec? k.kind a.id).isSome = true ∧ ∀ c, m.content? k a.id = some c → c.Fits a.value

/-- an attribute filled in -/
def Attribute.filledIn (c : UInt32 → Content) (a : Attribute) : Attribute := ⟨a.id, (c a.id).filled⟩

/-- an attribute of a request that is read as some content, with a value that can take it -/
structure Manager.Holds (m : Manager) (k : Key) (r : Record) (c : UInt32 → Content) (a : Attribute) : Prop where
  reads : ∃ spec, attributeSpec? k.kind a.id = some spec ∧ m.Reads k r spec a.id (c a.id)
  suits : (c a.id).Suits a.value

section

variable {hw : Hardware} {m : Manager} {L : Layout} {k : Key} {r : Record} {a : Attribute} {c : UInt32 → Content}
  {attrs done : List Attribute}

namespace Manager.Holds

theorem replaced (h : m.Holds k r c a) {v : AttributeValue} (hv : (c a.id).Suits v) : m.Holds k r c ⟨a.id, v⟩ :=
  ⟨h.reads, hv⟩

theorem read_eq (h : m.Holds k r c a) (index : Nat) :
    readAttribute m.store k r index a = if a.value.room < (c a.id).needed then
      (⟨a.id, (c a.id).emptied⟩, some (.bufferOverflow (UInt32.ofNat index) (c a.id).needed))
    else (a.filledIn c, none) := by
  obtain ⟨spec, -, hreads⟩ := h.reads
  exact (hreads.read index a.value).trans (Content.read_eq h.suits index a.id)

theorem known (h : m.Holds k r c a) : (attributeSpec? k.kind a.id).isSome = true := by
  obtain ⟨spec, hspec, -⟩ := h.reads
  rw [hspec]
  rfl

end Manager.Holds

/-- what may be asked for has a content -/
theorem Wired.exists_holds (w : Wired hw m.store L none) (hsuited : m.store.Suited) (hr : m.store.get? k = some r) :
    ∃ c, ∀ a : Attribute, a.Askable k.kind → m.Holds k r c a := by
  have hreads : ∀ n, ∃ c, ∀ spec, attributeSpec? k.kind n = some spec → m.Reads k r spec n c := fun n => by
    cases hspec : attributeSpec? k.kind n with
    | none => exact ⟨.amounts [], fun _ h => by cases h⟩
    | some spec =>
      obtain ⟨c, hc⟩ := w.reads hsuited hr hspec
      exact ⟨c, fun _ h => Option.some.inj h ▸ hc⟩
  choose c hc using hreads
  refine ⟨c, fun a ⟨spec, hspec, hkind⟩ => ⟨⟨spec, hspec, hc _ _ hspec⟩, fun hlist => ?_⟩⟩
  have hread := hc _ _ hspec
  exact (hkind (hread.isList.symm.trans hlist)).trans hread.kind.symm

/-- attributes with enough room are filled in, and reading goes on behind them -/
theorem Manager.readAttributes_append (h : ∀ a ∈ done, m.Holds k r c a)
    (hroom : ∀ a ∈ done, ¬ a.value.room < (c a.id).needed) (rest : List Attribute) (index : Nat) :
    readAttributes m.store k r index (done ++ rest) =
      (done.map (Attribute.filledIn c) ++ (readAttributes m.store k r (index + done.length) rest).1,
        (readAttributes m.store k r (index + done.length) rest).2) := by
  induction done generalizing index with
  | nil => rfl
  | cons a done ih =>
    rw [List.forall_mem_cons] at h hroom
    rw [List.cons_append, readAttributes, h.1.read_eq, if_neg hroom.1, ih h.2 hroom.2, List.length_cons,
      Nat.add_right_comm, Nat.add_assoc index]
    rfl

/-- a request for attributes of the table finds its object -/
theorem Wired.readable_eq (w : Wired hw m.store L none) (hr : m.store.get? k = some r)
    (hknown : ∀ a ∈ attrs, (attributeSpec? k.kind a.id).isSome = true) : m.readable k.id attrs = .ok (k, r) := by
  obtain ⟨table, htable⟩ : ∃ table, attributeTable? k.kind = some table := by
    rw [← w.kind_eq hr]
    cases r <;> exact ⟨_, rfl⟩
  have hid := (w.handed.isHandle k (Store.contains_of_get? hr)).ofId?
  refine Manager.readable_eq hid hr (checkGet_eq_ok htable fun a ha => ?_)
  have hspec := hknown a ha
  rwa [attributeSpec?, htable, Option.bind_some] at hspec

/-- **With enough room everything is filled in.** -/
theorem Wired.getAttributes_eq (w : Wired hw m.store L none) (hr : m.store.get? k = some r)
    (h : ∀ a ∈ attrs, m.Holds k r c a) (hroom : ∀ a ∈ attrs, ¬ a.value.room < (c a.id).needed) :
    m.getAttributes k.id attrs = (attrs.map (Attribute.filledIn c), .ok ()) := by
  have hread := readAttributes_append h hroom [] 0
  rw [List.append_nil, readAttributes, List.append_nil] at hread
  rw [getAttributes, w.readable_eq hr fun a ha => (h a ha).known]
  simp only [hread]

/-- with room for what it holds an attribute may be asked for -/
theorem Wired.askable (w : Wired hw m.store L none) (hsuited : m.store.Suited) (hr : m.store.get? k = some r)
    (h : m.Ample k a) : a.Askable k.kind := by
  obtain ⟨spec, hspec⟩ := Option.isSome_iff_exists.1 h.1
  obtain ⟨c, hreads⟩ := w.reads hsuited hr hspec
  exact ⟨spec, hspec, fun hlist => ((h.2 c hreads.shown).1 (hreads.isList.trans hlist)).trans hreads.kind⟩

theorem Manager.Ample.of_content {c : Content} (hknown : (attributeSpec? k.kind a.id).isSome = true)
    (hc : m.content? k a.id = some c) (h : c.Fits a.value) : m.Ample k a :=
  ⟨hknown, fun _ hc' => Option.some.inj (hc.symm.trans hc') ▸ h⟩

theorem Manager.Ample.not_short (h : m.Ample k a) (hc : m.Holds k r c a) : ¬ a.value.room < (c a.id).needed := by
  obtain ⟨spec, -, hreads⟩ := hc.reads
  exact (h.2 _ hreads.shown).not_short

end

end SharedBuffer
