/-
Creation from the same attributes in another order.

The check walks along a list, and the readers look attributes up in an order of their own and remember where they stood.
But in a list that passes the check no id repeats, so that the list in another order gives the same values, at other
positions; and a position goes nowhere but into a refusal. So two orders of a list are both accepted or both not, and a
creation from either ends alike: with the same object in the same manager, or with the same fault but for its position,
which the audit trail repeats.

Result: `create_perm`.
-/
import SharedBuffer.Proofs.Manager.Guarantees
import SharedBuffer.Proofs.Manager.Orders

namespace SharedBuffer

variable {α β γ : Type} {attrs attrs' : List Attribute} {e e' : Fault}

/-- a fault without the position it states -/
def Fault.unplaced : Fault → Fault
  | invalidAttribute _ reason => invalidAttribute 0 reason
  | invalidAttributeValue _ reason => invalidAttributeValue 0 reason
  | unknownAttribute _ => unknownAttribute 0
  | bufferOverflow _ required => bufferOverflow 0 required
  | other => other

/-- a position is no part of the cause -/
theorem Fault.label_eq_of_unplaced (h : e.unplaced = e'.unplaced) : e.label = e'.label := by
  have hlabel : ∀ e : Fault, e.unplaced.label = e.label := fun e => by cases e <;> rfl
  rw [← hlabel e, h, hlabel e']

/-! ## The check -/

theorem Grammatical.perm {table : List AttributeSpec} (h : Grammatical table attrs) (hperm : attrs.Perm attrs') :
    Grammatical table attrs' where
  known a ha := h.known a (hperm.mem_iff.2 ha)
  writable a ha := h.writable a (hperm.mem_iff.2 ha)
  distinct := (hperm.map Attribute.id).nodup_iff.1 h.distinct
  typed a ha := h.typed a (hperm.mem_iff.2 ha)
  complete s hs hmandatory := by
    obtain ⟨a, ha, hid⟩ := h.complete s hs hmandatory
    exact ⟨a, hperm.mem_iff.1 ha, hid⟩

/-- a list that is accepted is so in any order -/
theorem checkCreate_perm {kind : ObjectKind} (hperm : attrs.Perm attrs') (h : checkCreate kind attrs = .ok ()) :
    checkCreate kind attrs' = .ok () := by
  cases htable : attributeTable? kind with
  | none =>
    rw [checkCreate, requireTable, htable] at h
    cases h
  | some table => exact checkCreate_of_grammatical htable ((grammatical_of_checkCreate htable h).perm hperm)

/-! ## Readers -/

/-- two readers read the same, or refuse with the same fault but for its position -/
def ReadAlike (r r' : Except Fault α) : Prop := r.mapError Fault.unplaced = r'.mapError Fault.unplaced

namespace ReadAlike

variable {r r' : Except Fault α} {g g' : α → Except Fault β}

@[refl] theorem refl (r : Except Fault α) : ReadAlike r r := rfl

theorem of_error (h : e.unplaced = e'.unplaced) : ReadAlike (.error e : Except Fault α) (.error e') :=
  congrArg Except.error h

/-- readers that read alike in sequence -/
theorem bind (h : ReadAlike r r') (hg : ∀ a, ReadAlike (g a) (g' a)) : ReadAlike (r >>= g) (r' >>= g') := by
  cases r with
  | ok a =>
    cases r' with
    | ok a' =>
      obtain rfl := Except.ok.inj h
      exact hg a
    | error e' => cases h
  | error e =>
    cases r' with
    | ok a' => cases h
    | error e' => exact of_error (Except.error.inj h)

/-- one value, decoded at two positions -/
theorem decodeAt (i j : Nat) (what : String) (code : Int32) (v : Option α) :
    ReadAlike (SharedBuffer.decodeAt i what code v) (SharedBuffer.decodeAt j what code v) := by
  cases v <;> rfl

end ReadAlike

/-- what a list gives under an id it gives in any order, at some position -/
theorem Gives.perm {id : UInt32} {encode : α → AttributeValue} {found : Option (Nat × α)}
    (h : Gives attrs id encode found) (hperm : attrs.Perm attrs') :
    ∃ found', Gives attrs' id encode found' ∧ found'.map Prod.snd = found.map Prod.snd := by
  cases found with
  | none => exact ⟨none, fun hid => h ((hperm.map Attribute.id).mem_iff.2 hid), rfl⟩
  | some p =>
    obtain ⟨j, hj⟩ := List.mem_iff_getElem?.1 (hperm.mem_iff.1 h.mem)
    exact ⟨some (j, p.2), hj, rfl⟩

theorem Gives.perm_some {id : UInt32} {encode : α → AttributeValue} {p : Nat × α}
    (h : Gives attrs id encode (some p)) (hperm : attrs.Perm attrs') :
    ∃ p', Gives attrs' id encode (some p') ∧ p'.2 = p.2 := by
  obtain ⟨j, hj⟩ := List.mem_iff_getElem?.1 (hperm.mem_iff.1 h.mem)
  exact ⟨(j, p.2), hj, rfl⟩

/-- a code that need not be given, decoded where it stands -/
theorem ReadAlike.decodeGiven {given given' : Option (Nat × Int32)} (h : given'.map Prod.snd = given.map Prod.snd)
    (default : α) (what : String) (decode : Int32 → Option α) :
    ReadAlike (given.elim (.ok default) fun (i, code) => SharedBuffer.decodeAt i what code (decode code))
      (given'.elim (.ok default) fun (i, code) => SharedBuffer.decodeAt i what code (decode code)) := by
  rcases given with - | ⟨i, code⟩ <;> rcases given' with - | ⟨j, code'⟩
  · rfl
  · cases h
  · cases h
  · obtain rfl : code' = code := Option.some.inj h
    exact .decodeAt i j what code' (decode code')

/-! ## Pools -/

/-- what a list gives for a pool, each with its position -/
structure PoolOrder where
  direction : Nat × Int32
  size : Nat × UInt64
  mode : Option (Nat × Int32)

/-- a list gives just this for a pool -/
structure PoolOrder.Given (o : PoolOrder) (attrs : List Attribute) : Prop where
  distinct : (attrs.map Attribute.id).Nodup
  direction : Gives attrs PoolAttribute.direction.id .s32 (some o.direction)
  size : Gives attrs PoolAttribute.size.id .u64 (some o.size)
  mode : Gives attrs PoolAttribute.thresholdMode.id .s32 o.mode

namespace PoolOrder.Given

variable {o : PoolOrder}

/-- a list that passes the check gives a pool's direction and size, and a mode of the right kind or none -/
theorem exists_of_checkCreate (hcheck : checkCreate .pool attrs = .ok ()) : ∃ o : PoolOrder, o.Given attrs := by
  have hgram := grammatical_of_checkCreate rfl hcheck
  have hrow : ∀ a : PoolAttribute, a.spec ∈ PoolAttribute.all.map PoolAttribute.spec := by
    intro a
    cases a <;> decide
  obtain ⟨_, _, hdirection⟩ := hgram.exists_given (hrow .direction) decodes_s32 rfl
  obtain ⟨_, _, hsize⟩ := hgram.exists_given (hrow .size) decodes_u64 rfl
  obtain ⟨mode, hmode⟩ := hgram.exists_gives (hrow .thresholdMode) decodes_s32
  exact ⟨⟨_, _, mode⟩, hgram.distinct, hdirection, hsize, hmode⟩

/-- nothing is refused for its form once it is read -/
theorem ofAttributes_eq (h : o.Given attrs) : PoolRequest.ofAttributes attrs = (do
    let direction ← decodeAt o.direction.1 "unknown pool type" o.direction.2 (Direction.ofCode? o.direction.2)
    let mode ← o.mode.elim (.ok .dynamic) fun (i, code) =>
      decodeAt i "unknown threshold mode" code (ThresholdMode.ofCode? code)
    .ok ⟨direction, o.size.2, mode⟩) := by
  simp only [PoolRequest.ofAttributes, h.direction.requiredAttribute_eq h.distinct decodes_s32.decode,
    h.size.requiredAttribute_eq h.distinct decodes_u64.decode,
    h.mode.optionalAttribute_eq h.distinct decodes_s32.decode, bind, Except.bind]
  cases o.mode <;> rfl

end PoolOrder.Given

/-- what is asked of a pool does not depend on the order -/
theorem PoolRequest.ofAttributes_perm (hperm : attrs.Perm attrs') (hcheck : checkCreate .pool attrs = .ok ()) :
    ReadAlike (PoolRequest.ofAttributes attrs) (PoolRequest.ofAttributes attrs') := by
  obtain ⟨o, ho⟩ := PoolOrder.Given.exists_of_checkCreate hcheck
  obtain ⟨⟨i, code⟩, hdirection, rfl⟩ := ho.direction.perm_some hperm
  obtain ⟨⟨j, size⟩, hsize, rfl⟩ := ho.size.perm_some hperm
  obtain ⟨mode, hmode, hcode⟩ := ho.mode.perm hperm
  have ho' : PoolOrder.Given ⟨(i, o.direction.2), (j, o.size.2), mode⟩ attrs' :=
    ⟨(hperm.map Attribute.id).nodup_iff.1 ho.distinct, hdirection, hsize, hmode⟩
  rw [ho.ofAttributes_eq, ho'.ofAttributes_eq]
  refine ReadAlike.bind (.decodeAt _ _ _ _ _) fun direction => ?_
  exact ReadAlike.bind (.decodeGiven hcode _ _ _) fun mode => .refl _

/-! ## Profiles -/

section

variable {dynamic dynamic' : Option (Nat × Int8)} {fixed fixed' xoff xoff' xon xon' : Option (Nat × UInt64)}

/-- thresholds are resolved by their values -/
theorem ReadAlike.resolveThreshold (mode : ThresholdMode) (hdynamic : dynamic'.map Prod.snd = dynamic.map Prod.snd)
    (hfixed : fixed'.map Prod.snd = fixed.map Prod.snd) :
    ReadAlike (SharedBuffer.resolveThreshold mode dynamic fixed)
      (SharedBuffer.resolveThreshold mode dynamic' fixed') := by
  rcases dynamic with - | ⟨i, alpha⟩ <;> rcases dynamic' with - | ⟨i', alpha'⟩ <;> cases hdynamic <;>
    rcases fixed with - | ⟨j, limit⟩ <;> rcases fixed' with - | ⟨j', limit'⟩ <;> cases hfixed <;>
    cases mode <;> rfl

/-- headroom is given at a first position, or it is not -/
theorem isSome_firstHeadroom? (xoff xon : Option (Nat × UInt64)) :
    (firstHeadroom? xoff xon).isSome = ((xoff.map Prod.snd).isSome || (xon.map Prod.snd).isSome) := by
  cases xoff <;> cases xon <;> rfl

/-- headroom in an egress pool is refused, wherever it is given -/
theorem ReadAlike.headroom (direction : Direction) (first first' : Option Nat) (x : α) :
    first'.isSome = first.isSome → ReadAlike
      (match direction, first with
      | .egress, some i => .error (.badAttributeAt i headroomReason)
      | _, _ => .ok x)
      (match direction, first' with
      | .egress, some i => .error (.badAttributeAt i headroomReason)
      | _, _ => .ok x) := by
  intro h
  cases direction <;> cases first <;> cases first' <;> first | rfl | cases h

/-- the value that is given, or another one -/
theorem elim_snd_eq {x : α} {given : Option (Nat × α)} : given.elim x Prod.snd = (given.map Prod.snd).getD x := by
  cases given <;> rfl

end

/-- the profile that is asked for does not depend on the order -/
theorem profileOfAttributes_perm (m : Manager) (hperm : attrs.Perm attrs')
    (hcheck : checkCreate .profile attrs = .ok ()) :
    ReadAlike (m.profileOfAttributes attrs) (m.profileOfAttributes attrs') := by
  obtain ⟨o, ho⟩ := exists_order hcheck
  obtain ⟨⟨i, pool⟩, hpool, rfl⟩ := ho.pool.perm_some hperm
  obtain ⟨⟨j, size⟩, hsize, rfl⟩ := ho.size.perm_some hperm
  obtain ⟨mode, hmode, hcode⟩ := ho.mode.perm hperm
  obtain ⟨dynamic, hdynamic, halpha⟩ := ho.dynamic.perm hperm
  obtain ⟨fixed, hfixed, hlimit⟩ := ho.fixed.perm hperm
  obtain ⟨xoff, hxoff, hoff⟩ := ho.xoff.perm hperm
  obtain ⟨xon, hxon, hon⟩ := ho.xon.perm hperm
  have ho' : ProfileOrder.Given ⟨(i, o.pool.2), (j, o.size.2), mode, dynamic, fixed, xoff, xon⟩ attrs' :=
    ⟨(hperm.map Attribute.id).nodup_iff.1 ho.distinct, hpool, hsize, hmode, hdynamic, hfixed, hxoff, hxon⟩
  rw [ho.profileOfAttributes_eq, ho'.profileOfAttributes_eq]
  refine ReadAlike.bind ?_ fun pool => ReadAlike.bind (.refl _) fun owner => ?_
  · cases m.resolve? .pool o.pool.2 <;> rfl
  refine ReadAlike.bind (.decodeGiven hcode _ _ _) fun mode => ?_
  refine ReadAlike.bind (.resolveThreshold _ halpha hlimit) fun threshold => ?_
  simp only [ProfileOrder.profile, elim_snd_eq, hoff, hon]
  refine ReadAlike.headroom _ _ _ _ ?_
  rw [isSome_firstHeadroom?, isSome_firstHeadroom?, hoff, hon]

/-! ## Actions -/

namespace ManagerM

/-- two runs end alike: with one answer in one manager, or refused with the same fault but for its position, in
managers that agree but for their audit trails -/
inductive EndAlike : Except Fault α × Manager → Except Fault α × Manager → Prop
  | ok (a : α) (m : Manager) : EndAlike (.ok a, m) (.ok a, m)
  | error {e e' : Fault} (m : Manager) (audit : List AuditRecord) (h : e.unplaced = e'.unplaced) :
    EndAlike (.error e, m) (.error e', { m with audit })

namespace EndAlike

variable {m : Manager} {x x' : ManagerM α} {g : α → ManagerM β}

@[refl] theorem refl (r : Except Fault α × Manager) : EndAlike r r := by
  rcases r with ⟨e | a, m⟩
  · exact .error m m.audit rfl
  · exact .ok a m

/-- what goes on from an answer goes on alike -/
theorem bind (h : EndAlike (x.run m) (x'.run m)) : EndAlike ((x >>= g).run m) ((x' >>= g).run m) := by
  rw [run_bind, run_bind]
  generalize x.run m = r, x'.run m = r' at h
  cases h with
  | ok a m => rfl
  | error m audit h => exact .error m audit h

/-- readers that read alike leave a manager as it is -/
theorem reading {r r' : Manager → Except Fault α} (h : ReadAlike (r m) (r' m)) :
    EndAlike ((ManagerM.reading r).run m) ((ManagerM.reading r').run m) := by
  change EndAlike (r m, m) (r' m, m)
  generalize r m = s, r' m = s' at h
  cases s with
  | ok a =>
    cases s' with
    | ok a' => exact Except.ok.inj h ▸ .refl _
    | error e' => cases h
  | error e =>
    cases s' with
    | ok a' => cases h
    | error e' => exact .error m m.audit (Except.error.inj h)

/-- what is done after a refusal, and refuses again, may add to the audit trail what the refusal says -/
theorem attempt {g : Except Fault α → ManagerM β} (h : EndAlike (x.run m) (x'.run m))
    (hg : ∀ e e' n audit, e.unplaced = e'.unplaced →
      EndAlike ((g (.error e)).run n) ((g (.error e')).run { n with audit })) :
    EndAlike ((ManagerM.attempt x >>= g).run m) ((ManagerM.attempt x' >>= g).run m) := by
  have hrun : ∀ y : ManagerM α, (ManagerM.attempt y >>= g).run m = (g (y.run m).1).run (y.run m).2 :=
    fun y => run_attempt_bind (x := y) rfl
  rw [hrun, hrun]
  generalize x.run m = r, x'.run m = r' at h
  cases h with
  | ok a m => rfl
  | error n audit h => exact hg _ _ n audit h

theorem counted (h : EndAlike (x.run m) (x'.run m)) :
    EndAlike ((ManagerM.counted x).run m) ((ManagerM.counted x').run m) :=
  h.attempt fun _ _ _ _ h => .error _ _ h

end EndAlike

variable (m : Manager)

theorem createPoolFrom_perm (hperm : attrs.Perm attrs') (hcheck : checkCreate .pool attrs = .ok ()) :
    EndAlike ((createPoolFrom attrs).run m) ((createPoolFrom attrs').run m) :=
  .attempt (.bind (.reading (PoolRequest.ofAttributes_perm hperm hcheck))) fun _ _ _ _ h => .error _ _ h

theorem createProfileFrom_perm (hperm : attrs.Perm attrs') (hcheck : checkCreate .profile attrs = .ok ()) :
    EndAlike ((createProfileFrom attrs).run m) ((createProfileFrom attrs').run m) :=
  .attempt (.bind (.reading (profileOfAttributes_perm m hperm hcheck))) fun _ _ _ _ h => .error _ _ h

/-- a creation from attributes that pass the check ends alike in any order of them -/
theorem create_endAlike {kind : ObjectKind} (hperm : attrs.Perm attrs') (hcheck : checkCreate kind attrs = .ok ()) :
    EndAlike ((create kind attrs).run m) ((create kind attrs').run m) := by
  have hpass : ∀ {attrs}, checkCreate kind attrs = .ok () →
      (reading (fun _ => checkCreate kind attrs) >>= fun _ => createObject kind attrs).run m =
        (createObject kind attrs).run m := fun h => run_bind_ok (reading_run_ok h)
  rw [create_eq, create_eq]
  refine EndAlike.counted ?_
  rw [hpass hcheck, hpass (checkCreate_perm hperm hcheck)]
  cases kind with
  | pool => exact .bind (createPoolFrom_perm m hperm hcheck)
  | profile => exact .bind (createProfileFrom_perm m hperm hcheck)
  | _ => rfl

/-- **The order of attributes does not matter to a creation.** Of two orders of a list both pass the check or neither
does. If they do, then from any manager both create the same object and leave the same manager, or both are refused for
the same cause, with the same fault but for the position it states, and leave the same manager but for that fault in
the audit trail. -/
theorem create_perm (kind : ObjectKind) {attrs attrs' : List Attribute} (hperm : attrs.Perm attrs') :
    (checkCreate kind attrs = .ok () ↔ checkCreate kind attrs' = .ok ()) ∧
    (checkCreate kind attrs = .ok () →
      (∃ id m', (create kind attrs).run m = (.ok id, m') ∧ (create kind attrs').run m = (.ok id, m')) ∨
      ∃ e e' m' audit, (create kind attrs).run m = (.error e, m') ∧
        (create kind attrs').run m = (.error e', { m' with audit }) ∧
        e.label = e'.label ∧ e.unplaced = e'.unplaced) := by
  refine ⟨⟨checkCreate_perm hperm, checkCreate_perm hperm.symm⟩, fun hcheck => ?_⟩
  have halike := create_endAlike m hperm hcheck
  generalize (create kind attrs).run m = r, (create kind attrs').run m = r' at halike
  cases halike with
  | ok id m' => exact .inl ⟨id, m', rfl, rfl⟩
  | error m' audit h => exact .inr ⟨_, _, m', audit, rfl, rfl, Fault.label_eq_of_unplaced h, h⟩

/-- the attributes of a pool, its direction given by a code -/
def poolOfDirection (code : Int32) : List Attribute :=
  [⟨PoolAttribute.direction.id, .s32 code⟩, ⟨PoolAttribute.size.id, .u64 1024⟩]

/-- turned around, the attributes of a pool make the same one; a direction that is none is refused, first or last -/
theorem create_perm_reverse :
    (∃ id m', (create .pool (poolOfDirection 0)).run (Manager.new twoTiles) = (.ok id, m') ∧
      (create .pool (poolOfDirection 0).reverse).run (Manager.new twoTiles) = (.ok id, m')) ∧
    ∃ e e' m' audit, (create .pool (poolOfDirection 9)).run (Manager.new twoTiles) = (.error e, m') ∧
      (create .pool (poolOfDirection 9).reverse).run (Manager.new twoTiles) = (.error e', { m' with audit }) ∧
      e.unplaced = e'.unplaced := by
  constructor
  · have hmade : ((create .pool (poolOfDirection 0)).run (Manager.new twoTiles)).1.isOk = true := by decide +kernel
    obtain hok | ⟨e, m', _, _, he, -⟩ :=
      (create_perm (Manager.new twoTiles) .pool (List.reverse_perm (poolOfDirection 0)).symm).2 (by decide)
    · exact hok
    · rw [he] at hmade
      cases hmade
  · have hrefused : ((create .pool (poolOfDirection 9)).run (Manager.new twoTiles)).1.isOk = false := by decide +kernel
    obtain ⟨id, m', hid, -⟩ | ⟨e, e', m', audit, he, he', -, hsame⟩ :=
      (create_perm (Manager.new twoTiles) .pool (List.reverse_perm (poolOfDirection 9)).symm).2 (by decide)
    · rw [hid] at hrefused
      cases hrefused
    · exact ⟨e, e', m', audit, he, he', hsame⟩

end ManagerM

end SharedBuffer
