/-
The tables and the handlers agree.

The checks look at a table only; what they let through is dispatched by the handlers' own case distinctions. Nothing but
this module says that the two agree: a request that passes its check never meets a handler's way out for what it does not
know, cannot decode or misses.

Result: `reached_tables_agree`.
-/
import SharedBuffer.Proofs.Manager.Content
import SharedBuffer.Proofs.Manager.Creation

namespace SharedBuffer

open Accounting Manager

/-! ## Creating -/

/-- a refusal of a create request for want of a mandatory attribute, or for a value that is not decoded -/
def Fault.IsUnread (kind : ObjectKind) : Fault → Prop
  | .mandatoryAttributeMissing name =>
    ∃ table, attributeTable? kind = some table ∧ ∃ s ∈ table, s.isMandatory = true ∧ s.name = name
  | .invalidAttributeValue _ reason => ∃ name, reason = "bad value for " ++ name
  | _ => False

section

variable {kind : ObjectKind} {attrs : List Attribute} {e : Fault} {m : Manager} {L : Layout}

/-- what is said of values that are decoded and stand for nothing -/
theorem not_isUnread_of_unknown {i : UInt32} {reason : String} (h : reason.toList.head? = some 'u') :
    ¬ (Fault.invalidAttributeValue i reason).IsUnread kind := by
  rintro ⟨name, rfl⟩
  rw [String.toList_append] at h
  cases h

theorem not_isUnread_of_decodeAt {α : Type} {i : Nat} {what : String} {code : Int32} {v : Option α}
    (hwhat : what.toList.head? = some 'u') (h : decodeAt i what code v = .error e) : ¬ e.IsUnread kind := by
  cases v with
  | some v => cases h
  | none =>
    obtain rfl := Except.error.inj h
    refine not_isUnread_of_unknown ?_
    simp only [String.toList_append, List.append_assoc, List.head?_append, hwhat, Option.some_or]

/-- a pool's attributes are read; what may be wrong with them is a code -/
theorem PoolRequest.error_of_checkCreate (hcheck : checkCreate .pool attrs = .ok ())
    (h : PoolRequest.ofAttributes attrs = .error e) : ¬ e.IsUnread .pool := by
  have hgram := grammatical_of_checkCreate rfl hcheck
  have hrow : ∀ a : PoolAttribute, a.spec ∈ PoolAttribute.all.map PoolAttribute.spec := by
    intro a
    cases a <;> decide
  obtain ⟨i, code, hdirection⟩ : ∃ i code, Gives attrs PoolAttribute.direction.id .s32 (some (i, code)) :=
    hgram.exists_given (hrow .direction) decodes_s32 rfl
  obtain ⟨j, size, hsize⟩ : ∃ j size, Gives attrs PoolAttribute.size.id .u64 (some (j, size)) :=
    hgram.exists_given (hrow .size) decodes_u64 rfl
  obtain ⟨mode, hmode⟩ : ∃ mode, Gives attrs PoolAttribute.thresholdMode.id .s32 mode :=
    hgram.exists_gives (hrow .thresholdMode) decodes_s32
  simp only [PoolRequest.ofAttributes, hdirection.requiredAttribute_eq hgram.distinct decodes_s32.decode,
    hsize.requiredAttribute_eq hgram.distinct decodes_u64.decode,
    hmode.optionalAttribute_eq hgram.distinct decodes_s32.decode, bind, Except.bind] at h
  split at h
  · rename_i hdecode
    exact Except.error.inj h ▸ not_isUnread_of_decodeAt rfl hdecode
  · split at h
    · split at h
      · rename_i hdecode
        exact Except.error.inj h ▸ not_isUnread_of_decodeAt rfl hdecode
      · cases h
    · cases h

/-- a rule for profiles that is broken is none of the table's -/
theorem Manager.RefusesProfile.not_isUnread {position : Option Nat} (h : m.RefusesProfile attrs e position) :
    ¬ e.IsUnread .profile := by
  have hthresholds : ∀ mode : ThresholdMode, ∀ s ∈ ProfileAttribute.all.map ProfileAttribute.spec,
      s.isMandatory = true → s.name ≠ mode.attribute.name := by
    rintro (_ | _) <;> decide +kernel
  cases h with
  | pool | mode =>
    refine not_isUnread_of_unknown ?_
    simp only [String.toList_append, List.head?_append]
    rfl
  | missing =>
    rintro ⟨table, htable, s, hs, hmandatory, hname⟩
    cases htable
    exact hthresholds _ s hs hmandatory hname
  | both | otherMode | headroom => exact id

/-- **A creation whose attributes pass the check is not refused for one of them missing, or of the wrong kind.** -/
theorem create_reads (h : Sound m.hardware m.store L) (hcheck : checkCreate kind attrs = .ok ()) :
    Ends (ManagerM.create kind attrs) m (fun _ _ => True) (fun e _ => ¬ e.IsUnread kind) := by
  cases kind with
  | pool =>
    refine (ManagerM.wraps_create_pool hcheck).ends (ManagerM.tryCreatePool_ends h attrs) (fun _ _ _ _ _ => trivial) ?_
    rintro e m' audit errors ⟨-, hread | ⟨r, -, hfull | ⟨rfl, -⟩⟩⟩
    · exact PoolRequest.error_of_checkCreate hcheck hread
    · obtain ⟨reason, rfl⟩ := insufficient_of_checkDirection hfull
      exact id
    · exact id
  | profile =>
    refine (create_profile_ends h hcheck).mono (fun _ _ _ => trivial) ?_
    rintro e m' (hrefuses | ⟨-, -, rfl⟩)
    · exact hrefuses.not_isUnread
    · exact id
  | _ =>
    refine (ManagerM.wraps_create hcheck).ends (Ends.of_run_error (P := fun _ _ => True) rfl ?_)
      (fun _ _ _ _ _ => trivial) fun _ _ _ _ hq => hq
    exact id

end

/-! ## Setting -/

namespace ManagerM

/-- the handlers of set requests: one for each attribute of an object that can be set, with the value it is set to -/
inductive Handles (k : Key) : Attribute → ManagerM Unit → Prop where
  | poolSize (hk : k.kind = .pool) (size : UInt64) :
    Handles k ⟨PoolAttribute.size.id, .u64 size⟩ (resizePool k size)
  | pool (hk : k.kind = .profile) (id : ObjectId) :
    Handles k ⟨ProfileAttribute.poolId.id, .oid id⟩ (moveProfile k id)
  | profileSize (hk : k.kind = .profile) (size : UInt64) :
    Handles k ⟨ProfileAttribute.reservedSize.id, .u64 size⟩ (resizeProfile k size)
  | threshold (hk : k.kind = .profile) (t : Threshold) :
    Handles k (ProfileParams.thresholdAttribute t) (setThreshold k t)
  | xoff (hk : k.kind = .profile) (mark : UInt64) :
    Handles k ⟨ProfileAttribute.xoffThreshold.id, .u64 mark⟩ (setHeadroom k (some mark) none)
  | xon (hk : k.kind = .profile) (mark : UInt64) :
    Handles k ⟨ProfileAttribute.xonThreshold.id, .u64 mark⟩ (setHeadroom k none (some mark))
  | group (hk : k.kind = .priorityGroup) (id : ObjectId) :
    Handles k ⟨PriorityGroupAttribute.profile.id, .oid id⟩ (bindConsumer k id)
  | queue (hk : k.kind = .queue) (id : ObjectId) : Handles k ⟨QueueAttribute.profile.id, .oid id⟩ (bindConsumer k id)
  | port (hk : k.kind = .port) (id : ObjectId) :
    Handles k ⟨PortAttribute.ingressProfile.id, .oid id⟩ (bindConsumer k id)

variable {k : Key} {a : Attribute} {spec : AttributeSpec} {x : ManagerM Unit} {m : Manager}

/-- every attribute that the tables let be set has its handler -/
theorem exists_handler (h : checkSet k.kind a = .ok spec) : ∃ x, Handles k a x := by
  obtain ⟨table, htable, hmem, hid, hset, hkind⟩ := checkSet_eq_ok h
  obtain ⟨id, v⟩ := a
  dsimp only at hid hkind
  subst hid
  cases hk : k.kind
  all_goals
    rw [hk] at htable
    cases htable
  case pool =>
    obtain ⟨row, -, rfl⟩ := List.mem_map.1 hmem
    cases row <;> cases hset
    obtain ⟨size, rfl⟩ := decodes_u64.total v hkind
    exact ⟨_, .poolSize hk size⟩
  case profile =>
    obtain ⟨row, -, rfl⟩ := List.mem_map.1 hmem
    cases row <;> cases hset
    case poolId =>
      obtain ⟨id, rfl⟩ := decodes_oid.total v hkind
      exact ⟨_, .pool hk id⟩
    case reservedSize =>
      obtain ⟨size, rfl⟩ := decodes_u64.total v hkind
      exact ⟨_, .profileSize hk size⟩
    case dynamicThreshold =>
      obtain ⟨alpha, rfl⟩ := decodes_i8.total v hkind
      exact ⟨_, .threshold hk (.dynamic alpha)⟩
    case staticThreshold =>
      obtain ⟨limit, rfl⟩ := decodes_u64.total v hkind
      exact ⟨_, .threshold hk (.static limit)⟩
    case xoffThreshold =>
      obtain ⟨mark, rfl⟩ := decodes_u64.total v hkind
      exact ⟨_, .xoff hk mark⟩
    case xonThreshold =>
      obtain ⟨mark, rfl⟩ := decodes_u64.total v hkind
      exact ⟨_, .xon hk mark⟩
  case priorityGroup =>
    obtain ⟨row, -, rfl⟩ := List.mem_map.1 hmem
    cases row <;> cases hset
    obtain ⟨id, rfl⟩ := decodes_oid.total v hkind
    exact ⟨_, .group hk id⟩
  case queue =>
    obtain ⟨row, -, rfl⟩ := List.mem_map.1 hmem
    cases row <;> cases hset
    obtain ⟨id, rfl⟩ := decodes_oid.total v hkind
    exact ⟨_, .queue hk id⟩
  case port =>
    obtain ⟨row, -, rfl⟩ := List.mem_map.1 hmem
    cases row <;> cases hset
    obtain ⟨id, rfl⟩ := decodes_oid.total v hkind
    exact ⟨_, .port hk id⟩

/-- a set request goes on to the handler of its attribute -/
theorem Handles.wraps (h : Handles k a x) (m : Manager) : Wraps id m (setObject k a) x := by
  cases h with
  | poolSize hk size => simp only [setObject, hk]; exact wraps_setPool k _ m
  | group hk id => simp only [setObject, hk]; exact .of_run_eq rfl
  | queue hk id => simp only [setObject, hk]; exact .of_run_eq rfl
  | port hk id => simp only [setObject, hk]; exact .of_run_eq rfl
  | threshold hk t => simp only [setObject, hk]; cases t <;> exact wraps_setProfile k _ m
  | _ hk => simp only [setObject, hk]; exact wraps_setProfile k _ m

/-- **A call that sets an attribute runs its handler.** -/
theorem Handles.wraps_call (h : Handles k a x) {c : Call} {object : ObjectId} (hset : c.setting? = some (object, a))
    (hid : Key.ofId? object = some k) (hlive : m.store.contains k = true) (hcheck : checkSet k.kind a = .ok spec) :
    Wraps (fun _ => nullId) m c.perform x := by
  rw [Call.perform_of_setting hset]
  exact (h.wraps m).trans ((wraps_setAttribute hid hcheck hlive).trans (Wraps.map (fun _ => nullId) _ m))

end ManagerM

/-! ## Getting -/

namespace Content

variable {c : Content} {v : AttributeValue}

theorem kind_filled : c.filled.kind = c.kind := by cases c <;> rfl

/-- a list is not filled into a value of another kind -/
theorem read_of_not_suits (h : ¬ c.Suits v) (index : Nat) (id : UInt32) :
    c.isList = true ∧ v.kind ≠ c.kind ∧ ∃ reason, c.read index ⟨id, v⟩ = (⟨id, v⟩, some (.badValueAt index reason)) := by
  obtain ⟨hlist, hkind⟩ := Classical.not_imp.1 h
  refine ⟨hlist, hkind, ?_⟩
  cases c with
  | value w => cases hlist
  | objects ids =>
    cases v with
    | objectList l => exact absurd rfl hkind
    | _ => exact ⟨_, rfl⟩
  | amounts ns =>
    cases v with
    | u64List l => exact absurd rfl hkind
    | _ => exact ⟨_, rfl⟩

end Content

/-- a fault that a get request may end with: a list did not fit, or was asked for with a value that is no list of its
kind -/
inductive Fault.IsMisfit (kind : ObjectKind) (attrs : List Attribute) : Fault → Prop where
  | short {i : Nat} {a : Attribute} {spec : AttributeSpec} {needed : UInt32} (hat : attrs[i]? = some a)
    (hspec : attributeSpec? kind a.id = some spec) (hlist : spec.kind.isList = true) (hkind : a.value.kind = spec.kind) :
    Fault.IsMisfit kind attrs (.bufferOverflow (UInt32.ofNat i) needed)
  | mismatched {i : Nat} {a : Attribute} {spec : AttributeSpec} {reason : String} (hat : attrs[i]? = some a)
    (hspec : attributeSpec? kind a.id = some spec) (hlist : spec.kind.isList = true) (hkind : a.value.kind ≠ spec.kind) :
    Fault.IsMisfit kind attrs (.badValueAt i reason)

/-- an attribute with a value of the kind that its table row declares -/
def Attribute.IsTyped (kind : ObjectKind) (a : Attribute) : Prop :=
  ∃ spec, attributeSpec? kind a.id = some spec ∧ a.value.kind = spec.kind

/-- a get request that passes the check asks for rows of the table -/
theorem exists_spec_of_checkGet {kind : ObjectKind} {attrs : List Attribute} (h : checkGet kind attrs = .ok ()) :
    ∀ a ∈ attrs, ∃ spec, attributeSpec? kind a.id = some spec := by
  unfold checkGet at h
  obtain ⟨table, htable, h⟩ := bind_ok h
  replace htable := attributeTable?_of_requireTable htable
  intro a ha
  obtain ⟨i, hi⟩ := List.mem_iff_getElem?.1 ha
  cases hunknown : attrs.zipIdx.find? fun p => (specIn? table p.1.id).isNone with
  | some p => simp only [hunknown, reduceCtorEq] at h
  | none =>
    have hrow := List.find?_eq_none.1 hunknown (a, i) (List.mem_zipIdx_iff_getElem?.2 hi)
    rw [Bool.not_eq_true, Option.isNone_eq_false_iff] at hrow
    obtain ⟨spec, hspec⟩ := Option.isSome_iff_exists.1 hrow
    exact ⟨spec, by rw [attributeSpec?, htable]; exact hspec⟩

section

variable {hw : Hardware} {m : Manager} {L : Layout} {k : Key} {r : Record} {attrs : List Attribute} {i : Nat}

/-- an attribute of the table is read as a value of its kind, or is a list that is not filled in -/
theorem Wired.readAttribute_ends (w : Wired hw m.store L none) (hsuited : m.store.Suited)
    (hr : m.store.get? k = some r) {a : Attribute} {spec : AttributeSpec} (ha : attrs[i]? = some a)
    (hspec : attributeSpec? k.kind a.id = some spec) :
    (∃ v, v.kind = spec.kind ∧ readAttribute m.store k r i a = (⟨a.id, v⟩, none)) ∨
      ∃ b e, readAttribute m.store k r i a = (b, some e) ∧ e.IsMisfit k.kind attrs := by
  obtain ⟨c, hreads⟩ := w.reads hsuited hr hspec
  rw [hreads.read i a.value]
  by_cases hsuits : c.Suits a.value
  · rw [Content.read_eq hsuits]
    split
    · rename_i hshort
      have hlist := Content.isList_of_short hshort
      exact .inr ⟨_, _, rfl, .short ha hspec (hreads.isList ▸ hlist) ((hsuits hlist).trans hreads.kind)⟩
    · exact .inl ⟨c.filled, Content.kind_filled.trans hreads.kind, rfl⟩
  · obtain ⟨hlist, hkind, reason, hread⟩ := Content.read_of_not_suits hsuits i a.id
    exact .inr ⟨_, _, hread, .mismatched ha hspec (hreads.isList ▸ hlist) (hreads.kind ▸ hkind)⟩

/-- the rest of a request is read as values of their kinds, up to a list that is not filled in -/
theorem Wired.readAttributes_ends (w : Wired hw m.store L none) (hsuited : m.store.Suited)
    (hr : m.store.get? k = some r) (hknown : ∀ a ∈ attrs, ∃ spec, attributeSpec? k.kind a.id = some spec)
    {rest : List Attribute} (hrest : attrs.drop i = rest) :
    (∃ done, readAttributes m.store k r i rest = (done, none) ∧ done.map Attribute.id = rest.map Attribute.id ∧
      ∀ a ∈ done, a.IsTyped k.kind) ∨
      ∃ done e, readAttributes m.store k r i rest = (done, some e) ∧ e.IsMisfit k.kind attrs := by
  induction rest generalizing i with
  | nil => exact .inl ⟨[], rfl, rfl, fun _ h => nomatch h⟩
  | cons a rest ih =>
    obtain ⟨ha, -, -, hdrop⟩ := of_drop_eq_cons hrest
    obtain ⟨spec, hspec⟩ := hknown a (List.mem_of_getElem? ha)
    obtain ⟨v, hv, hread⟩ | ⟨b, e, hread, he⟩ := w.readAttribute_ends hsuited hr ha hspec
    · obtain ⟨done, hdone, hids, htyped⟩ | ⟨done, e, hdone, he⟩ := ih hdrop
      · refine .inl ⟨⟨a.id, v⟩ :: done, by simp only [readAttributes, hread, hdone], by simp [hids], ?_⟩
        exact List.forall_mem_cons.2 ⟨⟨spec, hspec, hv⟩, htyped⟩
      · exact .inr ⟨⟨a.id, v⟩ :: done, e, by simp only [readAttributes, hread, hdone], he⟩
    · exact .inr ⟨b :: rest, e, by simp only [readAttributes, hread], he⟩

end

/-! ## Every state -/

/-- **The tables and the handlers agree.** A creation whose attributes pass the check is not refused for one of them
missing, or of the wrong kind. A set request that passes the check for a live object runs the handler of its attribute, on
the value that it gives. A get request that passes the check answers values of the kinds that the table declares, or
stops at a list that is not filled in: for want of room, or because the request gave a value that is no list of its
kind. -/
theorem reached_tables_agree {hw : Hardware} {m : Manager} (hm : m.Reached hw) :
    (∀ (c : Call) kind attrs e m', c.creation? = some (kind, attrs) → checkCreate kind attrs = .ok () →
      c.perform.run m = (.error e, m') → ¬ e.IsUnread kind) ∧
    (∀ (c : Call) object a k spec, c.setting? = some (object, a) → Key.ofId? object = some k →
      m.store.contains k = true → checkSet k.kind a = .ok spec →
      ∃ x, ManagerM.Handles k a x ∧ ManagerM.Wraps (fun _ => nullId) m c.perform x) ∧
    ∀ object k attrs, Key.ofId? object = some k → m.store.contains k = true → checkGet k.kind attrs = .ok () →
      (∃ done, m.getAttributes object attrs = (done, .ok ()) ∧ done.map Attribute.id = attrs.map Attribute.id ∧
        ∀ a ∈ done, a.IsTyped k.kind) ∨
      ∃ done e, m.getAttributes object attrs = (done, .error e) ∧ e.IsMisfit k.kind attrs := by
  have hsuited := hm.suited
  obtain ⟨rfl, L, hs⟩ := hm.sound
  refine ⟨fun c kind attrs e m' hc hcheck hr => ?_, fun c object a k spec hset hid hlive hcheck => ?_,
    fun object k attrs hid hlive hcheck => ?_⟩
  · rw [Call.run_of_creation hs hc] at hr
    exact (create_reads hs hcheck).error hr
  · obtain ⟨x, hx⟩ := ManagerM.exists_handler hcheck
    exact ⟨x, hx, hx.wraps_call hset hid hlive hcheck⟩
  · obtain ⟨r, hr⟩ := Store.contains_iff.1 hlive
    simp only [getAttributes, readable_eq hid hr hcheck]
    obtain ⟨done, hdone, hids, htyped⟩ | ⟨done, e, hdone, he⟩ :=
      hs.wired.readAttributes_ends hsuited hr (exists_spec_of_checkGet hcheck) List.drop_zero
    · exact .inl ⟨done, by rw [hdone], hids, htyped⟩
    · exact .inr ⟨done, e, by rw [hdone], he⟩

/-- a pool of a mode that is none -/
def modeless : List Attribute :=
  [⟨PoolAttribute.direction.id, .s32 0⟩, ⟨PoolAttribute.size.id, .u64 1⟩, ⟨PoolAttribute.thresholdMode.id, .s32 2⟩]

/-- a mode that is none is refused, but it is read; a size is set by the handler of sizes; and a list that is asked for
with a number is not filled in -/
theorem crowded_tables_agree :
    (∃ e m', (Call.request (.create .pool modeless)).perform.run crowded = (.error e, m') ∧
      e = .badValueAt 2 "unknown threshold mode 2" ∧ ¬ e.IsUnread .pool) ∧
    (∃ x, ManagerM.Handles firstPool.key ⟨PoolAttribute.size.id, .u64 1⟩ x ∧
      ManagerM.Wraps (fun _ => nullId) crowded (Call.setPoolSize firstPool 1).perform x) ∧
    ∃ done e, crowded.getAttributes firstPool.raw [⟨PoolAttribute.tileReserved.id, .u64 0⟩] = (done, .error e) ∧
      e.IsMisfit .pool [⟨PoolAttribute.tileReserved.id, .u64 0⟩] := by
  have hm : crowded.Reached twoTiles := ⟨true, crowding, rfl⟩
  have hlive : crowded.store.contains firstPool.key = true := by decide +kernel
  refine ⟨?_, (@reached_tables_agree twoTiles crowded hm).2.1 (.setPoolSize firstPool 1) _ _ _ PoolAttribute.size.spec
    rfl (by decide) hlive rfl, ?_⟩
  · have hrefused : ((Call.request (.create .pool modeless)).perform.run crowded).1 =
        .error (.badValueAt 2 "unknown threshold mode 2") := by decide +kernel
    rcases hr : (Call.request (.create .pool modeless)).perform.run crowded with ⟨e | id, m'⟩
    · rw [hr] at hrefused
      exact ⟨e, m', rfl, Except.error.inj hrefused,
        (@reached_tables_agree twoTiles crowded hm).1 _ .pool _ e m' rfl rfl hr⟩
    · rw [hr] at hrefused
      cases hrefused
  · have hshort : (crowded.getAttributes firstPool.raw [⟨PoolAttribute.tileReserved.id, .u64 0⟩]).2 ≠ .ok () := by
      decide +kernel
    obtain ⟨done, hdone, -⟩ | hends := (@reached_tables_agree twoTiles crowded hm).2.2 firstPool.raw firstPool.key
      [⟨PoolAttribute.tileReserved.id, .u64 0⟩] (by decide) hlive rfl
    · exact absurd (congrArg Prod.snd hdone) hshort
    · exact hends

end SharedBuffer
