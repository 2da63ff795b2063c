/-
Reading back what was set.

Setting and reading take an attribute apart separately, and keep it in different places: in fields of the record, in the
one threshold that a profile has, or as the link to another record. What an accepted set request was given is what the
next get request of that attribute answers, whatever it was sent with.

Result: `reached_reads_back`.
-/
import SharedBuffer.Manager.Reading
import SharedBuffer.Proofs.Manager.Absent
import SharedBuffer.Proofs.Manager.Guarantees
import SharedBuffer.Proofs.Manager.Settings
import SharedBuffer.Proofs.Manager.Terms

namespace SharedBuffer

open Manager

/-! ## Get requests that reach their object -/

/-- a get request for attributes of the table passes the check -/
theorem checkGet_eq_ok {kind : ObjectKind} {attrs : List Attribute} {table : List AttributeSpec}
    (htable : attributeTable? kind = some table) (hknown : ∀ a ∈ attrs, (specIn? table a.id).isSome = true) :
    checkGet kind attrs = .ok () := by
  have hnone : attrs.zipIdx.find? (fun p => (specIn? table p.1.id).isNone) = none := by
    rw [List.find?_eq_none]
    intro p hp
    rw [Bool.not_eq_true, Option.isNone_eq_false_iff]
    exact hknown p.1 (List.fst_mem_of_mem_zipIdx hp)
  simp [checkGet, requireTable, htable, hnone, bind, Except.bind]

/-- a get request that passes the check finds its object -/
theorem Manager.readable_eq {m : Manager} {object : ObjectId} {k : Key} {r : Record} {attrs : List Attribute}
    (hid : Key.ofId? object = some k) (hr : m.store.get? k = some r) (hget : checkGet k.kind attrs = .ok ()) :
    m.readable object attrs = .ok (k, r) := by
  simp only [readable, Key.require_of_ofId? hid, hget, Store.require_of_get? hr, bind, Except.bind, pure, Except.pure]

/-- an object is shown with a value under an attribute -/
def Manager.Shows (m : Manager) (k : Key) (a : Attribute) : Prop :=
  ∃ r, m.store.get? k = some r ∧ ∀ v, readAttribute m.store k r 0 { a with value := v } = (a, none)

/-- an attribute of the table is read as it is shown -/
theorem Manager.Shows.getAttributes_eq {m : Manager} {k : Key} {a : Attribute} (h : m.Shows k a) {object : ObjectId}
    {spec : AttributeSpec} (hid : Key.ofId? object = some k) (hcheck : checkSet k.kind a = .ok spec)
    (v : AttributeValue) : m.getAttributes object [{ a with value := v }] = ([a], .ok ()) := by
  obtain ⟨r, hr, hread⟩ := h
  obtain ⟨table, htable, hmem, hspec, -⟩ := checkSet_eq_ok hcheck
  have hrow : (specIn? table a.id).isSome = true := by
    rw [specIn?, List.find?_isSome]
    exact ⟨spec, hmem, by simpa using hspec⟩
  have hget : checkGet k.kind [{ a with value := v }] = .ok () :=
    checkGet_eq_ok htable fun b hb => List.mem_singleton.1 hb ▸ hrow
  simp only [getAttributes, readable_eq hid hr hget, readAttributes, hread v]

/-! ## What a record is read as -/

section

variable {hw : Hardware} {s t : Store Record} {m m' : Manager} {L : Layout} {k : Key} {a : Attribute} {p : Profile}
  {c : Change}

theorem shows_size {q : Pool} (hq : m.store.pool? k = some q) (ha : PoolAttribute.ofId? a.id = some .size)
    (hv : a.value = .u64 q.size) : m.Shows k a := by
  refine ⟨.pool q, Store.pool?_eq_some.1 hq, fun v => ?_⟩
  simp only [readAttribute, readPool, ha, ReadResult.filled, ← hv]

theorem shows_profile (hp : m.store.profile? k = some p)
    (hv : ∀ v, readProfile m.store k p 0 { a with value := v } = .filled { a with value := v } a.value) :
    m.Shows k a := ⟨.profile p, Store.profile?_eq_some.1 hp, hv⟩

/-- the one attribute of a consumer that can be set is the profile it is bound to -/
theorem readAttribute_binding {r : Record} {spec : AttributeSpec} (hr : r.kind = k.kind)
    (htakes : Roster.profileConsumers.takes k.kind = true) (hcheck : checkSet k.kind a = .ok spec)
    (v : AttributeValue) : readAttribute s k r 0 { a with value := v } =
      .filled { a with value := v } (.oid (idOrNull r.boundProfile?)) := by
  obtain ⟨table, htable, hmem, hid, hset, -⟩ := checkSet_eq_ok hcheck
  cases r with
  | pool | profile =>
    rw [← hr] at htakes
    cases htakes
  | priorityGroup g =>
    rw [← hr] at htable
    obtain rfl := Option.some.inj htable
    have hprofile : ∀ row ∈ PriorityGroupAttribute.all.map PriorityGroupAttribute.spec, row.isSettable = true →
        PriorityGroupAttribute.ofId? row.id = some .profile := by decide
    have ha := hid ▸ hprofile spec hmem hset
    simp only [readAttribute, readSubqueue, ← hr, Record.kind, if_true, ha]
    rfl
  | queue q =>
    rw [← hr] at htable
    obtain rfl := Option.some.inj htable
    have hprofile : ∀ row ∈ QueueAttribute.all.map QueueAttribute.spec, row.isSettable = true →
        QueueAttribute.ofId? row.id = some .profile := by decide
    have ha := hid ▸ hprofile spec hmem hset
    simp only [readAttribute, readSubqueue, ← hr, Record.kind, reduceCtorEq, if_false, ha]
    rfl
  | port p =>
    rw [← hr] at htable
    obtain rfl := Option.some.inj htable
    have hprofile : ∀ row ∈ PortAttribute.all.map PortAttribute.spec, row.isSettable = true →
        PortAttribute.ofId? row.id = some .ingressProfile := by decide
    have ha := hid ▸ hprofile spec hmem hset
    simp only [readAttribute, readPort, ha]
    rfl

/-- a consumer shows the profile it is bound to -/
theorem Wired.shows_binding (w : Wired hw m.store L none) {spec : AttributeSpec} (hc : m.store.contains k = true)
    (htakes : Roster.profileConsumers.takes k.kind = true) (hcheck : checkSet k.kind a = .ok spec)
    (hv : a.value = .oid (idOrNull (m.store.ownerOf? .profileConsumers k))) : m.Shows k a := by
  obtain ⟨r, hr⟩ := Store.contains_iff.1 hc
  refine ⟨r, hr, fun v => ?_⟩
  have hbound : m.store.ownerOf? .profileConsumers k = r.boundProfile? := by rw [Store.ownerOf?, hr]; rfl
  rw [readAttribute_binding (w.kind_eq hr) htakes hcheck, ReadResult.filled, ← hbound, ← hv]

/-! ## What was set is shown -/

/-- the profile that a binding asks for is the one its id states -/
theorem Manager.BindsTo.idOrNull_eq {kind : ObjectKind} {id : ObjectId} {target : Option Key}
    (h : m.BindsTo kind id target) : idOrNull target = id := by
  cases target with
  | none => exact h.symm
  | some profile => exact Key.id_of_ofId? (ManagerM.resolve?_eq_some h.2.1).1

/-- **What was set is shown.** -/
theorem Manager.Sets.shows (h : m.Sets k a m') (hs : Sound m.hardware m.store L) (hc : m.store.contains k = true)
    {L' : Layout} (hs' : Sound m.hardware m'.store L') {spec : AttributeSpec}
    (hcheck : checkSet k.kind a = .ok spec) : m'.Shows k a := by
  cases h with
  | @threshold threshold hk given edited =>
    obtain ⟨p, hp⟩ := hs.wired.exists_profile hc hk
    have hp' : m'.store.profile? k = some { p with threshold } := by
      rw [edited, Store.profile?, Store.get?_edit, if_pos rfl, Store.profile?_eq_some.1 hp]
      rfl
    refine shows_profile hp' fun v => ?_
    subst given
    cases threshold <;> rfl
  | @change c asked obtained =>
    have hb := asked.buildable hs.wired hc
    cases asked with
    | @binding id target htakes hid hto =>
      have hbound : m'.store.ownerOf? .profileConsumers k = target := by rw [obtained.binding hs hb, if_pos rfl]
      refine hs'.wired.shows_binding (obtained.contains.trans hc) htakes hcheck ?_
      rw [hbound, hto.idOrNull_eq, AttributeValue.eq_oid hid]
    | @profileSize size hk ha hv =>
      obtain ⟨p, hp⟩ := hs.wired.exists_profile hc hk
      obtain ⟨p', hp', hsize, -⟩ := (obtained.resolve_right fun hidle => hidle.1).exists_profile hs hb hp
      have hshown : p'.size = size := by rw [hsize, Change.recharge, if_pos rfl]
      refine shows_profile hp' fun v => ?_
      simp only [readProfile, ha, hshown, AttributeValue.eq_u64 hv]
    | @xoff p pool q xoff hk ha hv hp hpool hq hdir =>
      obtain ⟨p', hp', -, hterms⟩ := (obtained.resolve_right fun hidle => hidle.1).exists_profile hs hb hp
      have hshown : p'.xoff = xoff := by
        rw [Change.recharge, if_pos rfl] at hterms
        exact congrArg Terms.xoff hterms
      refine shows_profile hp' fun v => ?_
      simp only [readProfile, ha, hshown, AttributeValue.eq_u64 hv]
    | @xon p pool q xon hk ha hv hp hpool hq hdir =>
      obtain ⟨p', hp', -, hterms⟩ := (obtained.resolve_right fun hidle => hidle.1).exists_profile hs hb hp
      have hshown : p'.xon = xon := by
        rw [Change.recharge, if_pos rfl] at hterms
        exact congrArg Terms.xon hterms
      refine shows_profile hp' fun v => ?_
      simp only [readProfile, ha, hshown, AttributeValue.eq_u64 hv]
    | @profilePool p pool target q q' id hk ha hv hp hpool hq hid hq' hcompat =>
      obtain ⟨p', hp'⟩ := hs'.wired.exists_profile (obtained.contains.trans hc) hk
      have howner : m'.store.ownerOf? .poolProfiles k = some target := by rw [obtained.housing hs hb, if_pos rfl]
      rw [Store.ownerOf?_of_profile? hp'] at howner
      refine shows_profile hp' fun v => ?_
      simp only [readProfile, ha, howner, idOrNull, Option.elim_some, AttributeValue.eq_oid hv,
        Key.id_of_ofId? (ManagerM.resolve?_eq_some hid).1]
    | @poolSize size hk ha hv =>
      obtain ⟨q, hq⟩ := hs.wired.exists_pool hc hk
      obtain ⟨q', hq', hsize, -⟩ := (obtained.resolve_right fun hidle => hidle.1).exists_pool hs hb hq
      refine shows_size hq' ha ?_
      rw [hsize, Change.resize, if_pos rfl, AttributeValue.eq_u64 hv]

end

/-- **Set, then get.** Whatever is reached, an attribute that a call has set, of whatever object, is read back as it was
set, whatever value the get request carries in its place. -/
theorem reached_reads_back {hw : Hardware} {m m' : Manager} (hm : m.Reached hw) {c : Call} {object id : ObjectId}
    {a : Attribute} (hset : c.setting? = some (object, a)) (h : c.perform.run m = (.ok id, m')) (v : AttributeValue) :
    m'.getAttributes object [{ a with value := v }] = ([a], .ok ()) := by
  obtain ⟨rfl, L, hs⟩ := hm.sound
  obtain ⟨k, spec, hid, hcheck, hc, hf, hsets⟩ := c.sets hs hset h
  obtain ⟨L', hs', -⟩ := hf.sound
  exact (hsets.shows hs hc hs' hcheck).getAttributes_eq hid hcheck v

/-- a group that is unbound reads as bound to the null id, also where a number stands in the place of the id -/
theorem crowded_reads_back :
    let c := Call.bindGroup firstGroup none
    let a : Attribute := ⟨PriorityGroupAttribute.profile.id, .oid nullId⟩
    ∃ id m', c.setting? = some (firstGroup.raw, a) ∧ c.perform.run crowded = (.ok id, m') ∧
      m'.getAttributes firstGroup.raw [{ a with value := .u64 5 }] = ([a], .ok ()) := by
  intro c a
  have hset : c.setting? = some (firstGroup.raw, a) := rfl
  have haccepted : (c.perform.run crowded).1.isOk = true := by decide +kernel
  rcases hr : c.perform.run crowded with ⟨e | id, m'⟩
  · rw [hr] at haccepted
    cases haccepted
  · exact ⟨id, m', hset, rfl, reached_reads_back (m := crowded) ⟨true, crowding, rfl⟩ hset hr (.u64 5)⟩

end SharedBuffer
