/-
Ids that nothing answers to.

Every request begins by looking for the object it is about, and a request that names another object as a value looks
for that one before it changes anything. So if no record is filed under an id (`Manager.Lacks`), all of them are
refused: removing it, setting or reading its attributes and taking its snapshot, and also setting an attribute of some
other object to it.

Result: `Manager.Lacks.disowns`.
-/
import SharedBuffer.Manager.Reading
import SharedBuffer.Proofs.Manager.Admission

namespace SharedBuffer

open Accounting

/-- something is not there -/
def Fault.IsNotFound (e : Fault) : Prop := ∃ item, e = .notFound item

/-- an attribute has a value that is not acceptable -/
def Fault.IsBadValue (e : Fault) : Prop := ∃ index reason, e = .invalidAttributeValue index reason

/-! ## Looking in the store -/

namespace Store

variable {s : Store Record} {k : Key}

/-- a look is in vain if it ends because something is not there -/
def InVain {α : Type} (x : Except Fault α) : Prop := ∃ e, x = .error e ∧ e.IsNotFound

theorem InVain.bind {α β : Type} {x : Except Fault α} (h : InVain x) (f : α → Except Fault β) : InVain (x >>= f) := by
  obtain ⟨e, rfl, he⟩ := h
  exact ⟨e, rfl, he⟩

theorem inVain_require (h : s.contains k = false) : InVain (s.require k) :=
  ⟨.notFound k.label, require_of_absent h, k.label, rfl⟩

/-- no view is taken of a record that is not there -/
theorem inVain_snapshots (h : s.contains k = false) :
    InVain (s.snapshot k) ∧ InVain (s.poolSnapshot k) ∧ InVain (s.profileSnapshot k) :=
  ⟨(inVain_require h).bind _, ((inVain_require h).bind _).bind _, ((inVain_require h).bind _).bind _⟩

end Store

/-! ## Refused in any case -/

namespace ManagerM

variable {α β : Type} {m : Manager} {f : α → β} {x : ManagerM α} {y : ManagerM β} {P : Fault → Prop}

/-- from a manager, an action is refused with a fault of some sort -/
def Rejects (P : Fault → Prop) (x : ManagerM α) (m : Manager) : Prop := Ends x m (fun _ _ => False) fun e _ => P e

theorem Rejects.exists_error (h : Rejects P x m) : ∃ e m', x.run m = (.error e, m') ∧ P e := by
  rcases hr : x.run m with ⟨e | a, m'⟩
  · exact ⟨e, m', rfl, h.error hr⟩
  · exact (h.ok hr).elim

theorem Rejects.of_wraps (h : Rejects P x m) (hy : Wraps f m y x) : Rejects P y m :=
  hy.ends h (fun _ _ _ _ hf => hf) fun _ _ _ _ he => he

/-- where a look fails, the action goes no further -/
theorem Rejects.reading {r : Manager → Except Fault β} {g : β → ManagerM α} (h : ∃ e, r m = .error e ∧ P e) :
    Rejects P (reading r >>= g) m := by
  obtain ⟨e, hr, he⟩ := h
  refine ends_reading (fun b hb => ?_) fun e' he' => ?_
  · cases hr.symm.trans hb
  · exact Except.error.inj (hr.symm.trans he') ▸ he

end ManagerM

/-! ## What an attribute may be set to -/

/-- the null id states no key -/
theorem Key.ne_nullId_of_ofId? {id : ObjectId} {k : Key} (h : Key.ofId? id = some k) : id ≠ nullId := by
  rintro rfl
  cases h

theorem attributeTable?_of_requireTable {kind : ObjectKind} {table : List AttributeSpec}
    (h : requireTable kind = .ok table) : attributeTable? kind = some table := by
  unfold requireTable at h
  split at h
  · rename_i hsome
    exact hsome.trans (congrArg some (Except.ok.inj h))
  · cases h

/-- the row of a set request that passes its table -/
theorem checkSet_eq_ok {kind : ObjectKind} {a : Attribute} {spec : AttributeSpec} (h : checkSet kind a = .ok spec) :
    ∃ table, attributeTable? kind = some table ∧ spec ∈ table ∧ spec.id = a.id ∧ spec.isSettable = true ∧
      a.value.kind = spec.kind := by
  unfold checkSet at h
  obtain ⟨table, htable, h⟩ := bind_ok h
  replace htable := attributeTable?_of_requireTable htable
  cases hspec : specIn? table a.id with
  | none =>
    rw [hspec] at h
    cases h
  | some row =>
    rw [hspec] at h
    dsimp only at h
    split at h
    · cases h
    · rename_i hset
      split at h
      · cases h
      · rename_i hkind
        obtain rfl := Except.ok.inj h
        have hid : row.id = a.id := by simpa using List.find?_some hspec
        exact ⟨table, htable, List.mem_of_find?_eq_some hspec, hid, by simpa using hset, by simpa using hkind⟩

/-- the only attribute of a profile that is set to an object is its pool, and none of a pool is -/
theorem settable_oid {kind : ObjectKind} {a : Attribute} {spec : AttributeSpec} (h : checkSet kind a = .ok spec)
    (ha : a.value.kind = .oid) :
    kind = .profile ∧ ProfileAttribute.ofId? a.id = some .poolId ∨ Roster.profileConsumers.takes kind = true := by
  obtain ⟨table, htable, hmem, hid, hset, hkind⟩ := checkSet_eq_ok h
  rw [ha] at hkind
  cases kind
  case pool =>
    obtain rfl := Option.some.inj htable
    have hnone : ∀ row ∈ PoolAttribute.all.map PoolAttribute.spec, row.isSettable = true → row.kind ≠ .oid := by decide
    exact absurd hkind.symm (hnone spec hmem hset)
  case profile =>
    obtain rfl := Option.some.inj htable
    have hpool : ∀ row ∈ ProfileAttribute.all.map ProfileAttribute.spec, row.isSettable = true → row.kind = .oid →
        ProfileAttribute.ofId? row.id = some .poolId := by decide
    exact .inl ⟨rfl, hid ▸ hpool spec hmem hset hkind.symm⟩
  case switch => cases htable
  all_goals exact .inr rfl

/-! ## Ids without a record -/

/-- no record is filed under an id, of whatever kind -/
def Manager.Lacks (m : Manager) (id : ObjectId) : Prop := ∀ k, k.id = id → m.store.contains k = false

namespace Manager.Lacks

open ManagerM

variable {m : Manager} {id : ObjectId} {k : Key} {L : Layout}

theorem of_ofId? (h : Sound m.hardware m.store L) (hk : Key.ofId? id = some k) (hc : m.store.contains k = false) :
    m.Lacks id := by
  rintro j rfl
  by_contra hj
  rw [Bool.not_eq_false] at hj
  have hsame : some j = some k := (h.wired.handed.isHandle j hj).ofId?.symm.trans hk
  rw [Option.some.inj hsame] at hj
  rw [hc] at hj
  cases hj

theorem contains_of_ofId? (h : m.Lacks id) (hk : Key.ofId? id = some k) : m.store.contains k = false := by
  obtain ⟨kind, -, rfl⟩ := Option.map_eq_some_iff.1 hk
  exact h _ rfl

theorem resolve?_eq_none (h : m.Lacks id) (kind : ObjectKind) : m.resolve? kind id = none := by
  cases hr : m.resolve? kind id with
  | none => rfl
  | some k =>
    obtain ⟨hk, -, hc⟩ := resolve?_eq_some hr
    cases hc.symm.trans (h.contains_of_ofId? hk)

/-- looking an object up by its id, as a value that names it -/
theorem exists_badValue (h : m.Lacks id) (kind : ObjectKind) (text : String) :
    ∃ e : Fault, (match m.resolve? kind id with
      | some k => Except.ok k
      | none => Except.error (Fault.badValueAt 0 text)) = .error e ∧ e.IsBadValue := by
  rw [h.resolve?_eq_none]
  exact ⟨.badValueAt 0 text, rfl, _, _, rfl⟩

/-! ### The object itself -/

theorem rejects_remove (h : m.Lacks id) (hs : Sound m.hardware m.store L) :
    Rejects (fun _ => True) (remove id) m := by
  refine (remove_ends hs id).mono ?_ fun _ _ _ => trivial
  rintro _ _ ⟨-, k, hk, hc, -⟩
  cases hc.symm.trans (h.contains_of_ofId? hk)

theorem rejects_setAttribute (h : m.Lacks id) (a : Attribute) : Rejects (fun _ => True) (setAttribute id a) m := by
  rw [setAttribute_eq]
  refine Rejects.of_wraps (ends_reading (fun k hk => ?_) fun _ _ => trivial) (wraps_counted _ m)
  refine ends_reading (fun spec _ => ?_) fun _ _ => trivial
  obtain ⟨e, he, -⟩ := Store.inVain_require (h.contains_of_ofId? (Key.require_eq_ok hk))
  exact Rejects.reading ⟨e, he, trivial⟩

theorem inVain_getAttributes (h : m.Lacks id) (hk : Key.ofId? id = some k) {attrs : List Attribute}
    (hget : checkGet k.kind attrs = .ok ()) :
    (m.getAttributes id attrs).1 = attrs ∧ Store.InVain (m.getAttributes id attrs).2 := by
  obtain ⟨e, he, hnot⟩ := Store.inVain_require (h.contains_of_ofId? hk)
  have hread : m.readable id attrs = .error e := by
    simp only [readable, Key.require, hk, hget, he, bind, Except.bind]
  rw [getAttributes, hread]
  exact ⟨rfl, e, rfl, hnot⟩

/-! ### The object as a value -/

theorem rejects_tryBind (h : m.Lacks id) (hid : id ≠ nullId) (consumer : Key) :
    Rejects Fault.IsBadValue (tryBind consumer id) m := by
  have htarget : Rejects Fault.IsBadValue (bindingTarget consumer.kind id) m := by
    unfold bindingTarget
    rw [if_neg hid]
    exact Rejects.reading (h.exists_badValue .profile _)
  exact Ends.bind htarget fun _ _ hf => hf.elim

theorem rejects_moveProfile (h : m.Lacks id) (profile : Key) :
    Rejects Fault.IsBadValue (moveProfile profile id) m := Rejects.reading (h.exists_badValue .pool _)

/-- an attribute of some object cannot be set to an id without a record -/
theorem rejects_setObject (h : m.Lacks id) (hid : id ≠ nullId) {a : Attribute} {spec : AttributeSpec}
    (hset : checkSet k.kind a = .ok spec) (ha : a.value = .oid id) :
    Rejects Fault.IsBadValue (setObject k a) m := by
  rcases settable_oid hset (by rw [ha]; rfl) with ⟨hk, hpool⟩ | hk
  · have hmove : Rejects Fault.IsBadValue (trySetProfile k a) m := by
      unfold trySetProfile
      rw [hpool]
      refine (h.rejects_moveProfile k).of_wraps (Wraps.reading (valueOf_eq ?_))
      rw [ha]
      rfl
    simp only [setObject, hk]
    exact hmove.of_wraps (wraps_setProfile k a m)
  · have hbind : setObject k a = bindConsumer k id := by
      unfold setObject
      cases hkind : k.kind <;> simp_all [Roster.takes, bindObject, AttributeValue.asOid?]
    rw [hbind]
    exact (h.rejects_tryBind hid k).of_wraps (wraps_bindConsumer k id m)

end Manager.Lacks

/-! ## All that is asked of an id -/

namespace Call

/-- the object that a call removes -/
def removal? : Call → Option ObjectId
  | request (.remove object) => some object
  | removePool pool => some pool.raw
  | removeProfile profile => some profile.raw
  | _ => none

theorem perform_of_removal {c : Call} {object : ObjectId} (h : c.removal? = some object) :
    c.perform = ManagerM.remove object >>= fun _ => pure nullId := by
  cases c with
  | request r =>
    cases r with
    | remove => cases h; rfl
    | _ => cases h
  | removePool | removeProfile => cases h; rfl
  | _ => cases h

/-- a call that sets an attribute of a live object to an id, as its table allows -/
def Points (c : Call) (m : Manager) (id : ObjectId) : Prop :=
  ∃ object a k spec, c.setting? = some (object, a) ∧ Key.ofId? object = some k ∧ m.store.contains k = true ∧
    checkSet k.kind a = .ok spec ∧ a.value = .oid id

end Call

/-- a manager that answers no request about an id, and takes it for no other object -/
structure Manager.Disowns (m : Manager) (id : ObjectId) : Prop where
  remove : ∀ c : Call, c.removal? = some id → ∃ e m', c.perform.run m = (.error e, m')
  set : ∀ (c : Call) a, c.setting? = some (id, a) → ∃ e m', c.perform.run m = (.error e, m')
  snapshot : ∀ k, k.id = id →
    Store.InVain (m.store.snapshot k) ∧ Store.InVain (m.store.poolSnapshot k) ∧ Store.InVain (m.store.profileSnapshot k)
  /-- reading attributes that there are -/
  get : ∀ k attrs, Key.ofId? id = some k → checkGet k.kind attrs = .ok () →
    (m.getAttributes id attrs).1 = attrs ∧ Store.InVain (m.getAttributes id attrs).2
  /-- binding a live consumer to it, and moving a live profile to it -/
  target : ∀ c : Call, c.Points m id → ∃ e m', c.perform.run m = (.error e, m') ∧ e.IsBadValue

open ManagerM in
/-- **An id without a record is refused** wherever it is used. -/
theorem Manager.Lacks.disowns {m : Manager} {id : ObjectId} {L : Layout} (h : m.Lacks id) (hid : id ≠ nullId)
    (hs : Sound m.hardware m.store L) : m.Disowns id := by
  have hfails : ∀ {c : Call} {x : ManagerM Unit}, c.perform = (x >>= fun _ => pure nullId) →
      Rejects (fun _ => True) x m → ∃ e m', c.perform.run m = (.error e, m') := by
    intro c x hc hx
    obtain ⟨e, m', hr, -⟩ := (hx.of_wraps (Wraps.map (fun _ => nullId) x m)).exists_error
    exact ⟨e, m', hc ▸ hr⟩
  refine ⟨fun c hc => ?_, fun c a hc => ?_, fun k hk => ?_, fun k attrs hk hget => ?_, fun c hc => ?_⟩
  · exact hfails (Call.perform_of_removal hc) (h.rejects_remove hs)
  · exact hfails (Call.perform_of_setting hc) (h.rejects_setAttribute a)
  · exact Store.inVain_snapshots (h k hk)
  · exact h.inVain_getAttributes hk hget
  · obtain ⟨object, a, k, spec, hset, hobject, hk, hcheck, ha⟩ := hc
    have hrejects : Rejects Fault.IsBadValue (setAttribute object a) m :=
      (h.rejects_setObject hid hcheck ha).of_wraps (wraps_setAttribute hobject hcheck hk)
    rw [Call.perform_of_setting hset]
    exact (hrejects.of_wraps (Wraps.map (fun _ => nullId) _ m)).exists_error

end SharedBuffer
