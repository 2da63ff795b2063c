/-
Well-formed profiles: what the attributes of a create request have to say.

A list in the grammar of the profile table may still ask for a profile that cannot be: in a pool that is not there, with a
mode that is none, with no threshold or two or one of the other mode, or with headroom outside ingress pools. These
rules are met in this order, and the first that is broken refuses the request; each says which position is to blame.

Result: `profileOfAttributes_judged` (a request is well formed and read as it says, or refused by a rule).
-/
import SharedBuffer.Proofs.Attribute.Given
import SharedBuffer.Proofs.Manager.Readback
import SharedBuffer.Proofs.Manager.Refusals

namespace SharedBuffer

open Manager

/-! ## The rules -/

/-- the attribute that gives thresholds of a mode -/
def ThresholdMode.attribute : ThresholdMode → ProfileAttribute
  | .static => .staticThreshold
  | .dynamic => .dynamicThreshold

/-- the attribute is a threshold -/
def Attribute.IsThreshold (a : Attribute) : Prop := ∃ mode : ThresholdMode, a.id = mode.attribute.id

/-- the attribute is a mark for headroom -/
def Attribute.IsHeadroom (a : Attribute) : Prop :=
  a.id = ProfileAttribute.xoffThreshold.id ∨ a.id = ProfileAttribute.xonThreshold.id

section

variable {α : Type}

/-- a list gives a value under an id, or the value is the one that is taken where it gives none -/
def StatedOr (attrs : List Attribute) (id : UInt32) (encode : α → AttributeValue) (default x : α) : Prop :=
  ⟨id, encode x⟩ ∈ attrs ∨ id ∉ attrs.map Attribute.id ∧ x = default

end

/-- a list states a profile's mode; one that is not given is inherited -/
def StatesMode (attrs : List Attribute) (mode : ProfileMode) : Prop :=
  StatedOr attrs ProfileAttribute.thresholdMode.id (fun mode => .s32 mode.code) .inherited mode

/-- a list gives one threshold -/
def GivesThreshold (attrs : List Attribute) (t : Threshold) : Prop :=
  ProfileParams.thresholdAttribute t ∈ attrs ∧ ∀ a ∈ attrs, a.IsThreshold → a = ProfileParams.thresholdAttribute t

namespace Manager

/-- a list names a pool that is there -/
def Names (m : Manager) (attrs : List Attribute) (k : Key) (q : Pool) : Prop :=
  ⟨ProfileAttribute.poolId.id, .oid k.id⟩ ∈ attrs ∧ m.store.pool? k = some q

/-- a list asks for a profile that can be: in a pool that is there, with one threshold, of the mode that counts, and with
headroom in an ingress pool only -/
structure WellFormed (m : Manager) (attrs : List Attribute) (k : Key) (q : Pool) (mode : ProfileMode) (t : Threshold) :
    Prop where
  names : m.Names attrs k q
  states : StatesMode attrs mode
  gives : GivesThreshold attrs t
  effective : t.mode = mode.effective q.mode
  headroom : q.direction = .ingress ∨ ∀ a ∈ attrs, ¬ a.IsHeadroom

/-- why a list of attributes does not describe a profile that can be, with the position that is to blame -/
inductive RefusesProfile (m : Manager) (attrs : List Attribute) : Fault → Option Nat → Prop where
  | pool {i : Nat} {id : ObjectId} (hat : attrs[i]? = some ⟨ProfileAttribute.poolId.id, .oid id⟩)
    (hgone : ∀ k q, m.store.pool? k = some q → k.id ≠ id) :
    m.RefusesProfile attrs (.badValueAt i ("unknown buffer pool " ++ hexText id.toNat)) (some i)
  | mode {k : Key} {q : Pool} {i : Nat} {n : Int32} (hpool : m.Names attrs k q)
    (hat : attrs[i]? = some ⟨ProfileAttribute.thresholdMode.id, .s32 n⟩) (hcode : n ≠ 0 ∧ n ≠ 1 ∧ n ≠ 2) :
    m.RefusesProfile attrs (.badValueAt i ("unknown threshold mode " ++ toString n.toInt)) (some i)
  | both {k : Key} {q : Pool} {mode : ProfileMode} (hpool : m.Names attrs k q) (hmode : StatesMode attrs mode)
    (hboth : GivesBothThresholds attrs) :
    m.RefusesProfile attrs (.invalidParameter "static and dynamic thresholds are mutually exclusive") none
  | missing {k : Key} {q : Pool} {mode : ProfileMode} (hpool : m.Names attrs k q) (hmode : StatesMode attrs mode)
    (hnone : ∀ a ∈ attrs, ¬ a.IsThreshold) :
    m.RefusesProfile attrs (.mandatoryAttributeMissing (mode.effective q.mode).attribute.name) none
  | otherMode {k : Key} {q : Pool} {mode : ProfileMode} {i : Nat} {t : Threshold} (hpool : m.Names attrs k q)
    (hmode : StatesMode attrs mode) (hat : attrs[i]? = some (ProfileParams.thresholdAttribute t))
    (hgives : GivesThreshold attrs t) (hother : t.mode ≠ mode.effective q.mode) :
    m.RefusesProfile attrs
      (.badAttributeAt i (t.mode.name ++ " threshold on a " ++ (mode.effective q.mode).name ++ " profile")) (some i)
  | headroom {k : Key} {q : Pool} {mode : ProfileMode} {t : Threshold} {i : Nat} {a : Attribute}
    (hpool : m.Names attrs k q) (hmode : StatesMode attrs mode) (hgives : GivesThreshold attrs t)
    (heffective : t.mode = mode.effective q.mode) (hegress : q.direction = .egress) (hat : attrs[i]? = some a)
    (hhead : a.IsHeadroom) (hfirst : ∀ j < i, ∀ b, attrs[j]? = some b → ¬ b.IsHeadroom) :
    m.RefusesProfile attrs (.badAttributeAt i headroomReason) (some i)

end Manager

/-! ## What is given -/

/-- what a list gives for a profile, each with its position -/
structure ProfileOrder where
  pool : Nat × ObjectId
  size : Nat × UInt64
  mode : Option (Nat × Int32)
  dynamic : Option (Nat × Int8)
  fixed : Option (Nat × UInt64)
  xoff : Option (Nat × UInt64)
  xon : Option (Nat × UInt64)

/-- the profile that is ordered, with its mode and threshold; marks for headroom that are not given are zero -/
def ProfileOrder.profile (o : ProfileOrder) (mode : ProfileMode) (threshold : Threshold) : Profile :=
  { size := o.size.2, mode, threshold, xoff := o.xoff.elim 0 Prod.snd, xon := o.xon.elim 0 Prod.snd }

/-- a list gives just this for a profile -/
structure ProfileOrder.Given (o : ProfileOrder) (attrs : List Attribute) : Prop where
  distinct : (attrs.map Attribute.id).Nodup
  pool : Gives attrs ProfileAttribute.poolId.id .oid (some o.pool)
  size : Gives attrs ProfileAttribute.reservedSize.id .u64 (some o.size)
  mode : Gives attrs ProfileAttribute.thresholdMode.id .s32 o.mode
  dynamic : Gives attrs ProfileAttribute.dynamicThreshold.id .i8 o.dynamic
  fixed : Gives attrs ProfileAttribute.staticThreshold.id .u64 o.fixed
  xoff : Gives attrs ProfileAttribute.xoffThreshold.id .u64 o.xoff
  xon : Gives attrs ProfileAttribute.xonThreshold.id .u64 o.xon

section

variable {m : Manager} {L : Layout} {attrs : List Attribute} {o : ProfileOrder}

/-- a list that passes the check gives a profile's pool and size, and whatever else it gives is of the right kind -/
theorem exists_order (hcheck : checkCreate .profile attrs = .ok ()) : ∃ o : ProfileOrder, o.Given attrs := by
  have hgram := grammatical_of_checkCreate rfl hcheck
  have hrow : ∀ a : ProfileAttribute, a.spec ∈ ProfileAttribute.all.map ProfileAttribute.spec := by
    intro a
    cases a <;> decide
  obtain ⟨_, _, hpool⟩ := hgram.exists_given (hrow .poolId) decodes_oid rfl
  obtain ⟨_, _, hsize⟩ := hgram.exists_given (hrow .reservedSize) decodes_u64 rfl
  obtain ⟨mode, hmode⟩ := hgram.exists_gives (hrow .thresholdMode) decodes_s32
  obtain ⟨dynamic, hdynamic⟩ := hgram.exists_gives (hrow .dynamicThreshold) decodes_i8
  obtain ⟨fixed, hfixed⟩ := hgram.exists_gives (hrow .staticThreshold) decodes_u64
  obtain ⟨xoff, hxoff⟩ := hgram.exists_gives (hrow .xoffThreshold) decodes_u64
  obtain ⟨xon, hxon⟩ := hgram.exists_gives (hrow .xonThreshold) decodes_u64
  exact ⟨⟨_, _, mode, dynamic, fixed, xoff, xon⟩, hgram.distinct, hpool, hsize, hmode, hdynamic, hfixed, hxoff, hxon⟩

/-- nothing is refused for its form once it is read: what is left to judge is what it says -/
theorem ProfileOrder.Given.profileOfAttributes_eq (h : o.Given attrs) (m : Manager) :
    m.profileOfAttributes attrs = (do
      let pool ← (m.resolve? .pool o.pool.2).elim
        (.error (.badValueAt o.pool.1 ("unknown buffer pool " ++ hexText o.pool.2.toNat))) .ok
      let owner ← m.store.poolAt pool
      let mode ← o.mode.elim (.ok .inherited) fun (index, code) =>
        decodeAt index "unknown threshold mode" code (ProfileMode.ofCode? code)
      let threshold ← resolveThreshold (mode.effective owner.mode) o.dynamic o.fixed
      match owner.direction, firstHeadroom? o.xoff o.xon with
      | .egress, some index => .error (.badAttributeAt index headroomReason)
      | _, _ => .ok (pool, o.profile mode threshold)) := by
  simp only [profileOfAttributes, h.pool.requiredAttribute_eq h.distinct decodes_oid.decode,
    h.size.requiredAttribute_eq h.distinct decodes_u64.decode, h.mode.optionalAttribute_eq h.distinct decodes_s32.decode,
    h.dynamic.optionalAttribute_eq h.distinct decodes_i8.decode,
    h.fixed.optionalAttribute_eq h.distinct decodes_u64.decode,
    h.xoff.optionalAttribute_eq h.distinct decodes_u64.decode,
    h.xon.optionalAttribute_eq h.distinct decodes_u64.decode, bind, Except.bind]
  cases m.resolve? .pool o.pool.2 with
  | none => rfl
  | some k => cases o.mode <;> rfl

/-! ## Judging -/

/-- the pool is there, or its id is to blame -/
theorem pool_judged (hs : Sound m.hardware m.store L) {i : Nat} {id : ObjectId}
    (hgiven : Gives attrs ProfileAttribute.poolId.id .oid (some (i, id))) :
    (∃ k q, m.resolve? .pool id = some k ∧ m.store.poolAt k = .ok q ∧ m.Names attrs k q) ∨
      m.resolve? .pool id = none ∧ ∀ k q, m.store.pool? k = some q → k.id ≠ id := by
  cases hres : m.resolve? .pool id with
  | some k =>
    obtain ⟨rfl, q, hq⟩ := (ManagerM.resolve?_pool_eq_some hs).1 hres
    exact .inl ⟨k, q, rfl, Store.poolAt_eq hq, List.mem_of_getElem? hgiven, hq⟩
  | none =>
    refine .inr ⟨rfl, fun k q hq hid => ?_⟩
    cases ((ManagerM.resolve?_pool_eq_some hs).2 ⟨hid, q, hq⟩).symm.trans hres

/-- the mode is one, or its attribute is to blame -/
theorem mode_judged {given : Option (Nat × Int32)} (hgiven : Gives attrs ProfileAttribute.thresholdMode.id .s32 given) :
    (∃ mode, (given.elim (.ok .inherited) fun (index, code) =>
      decodeAt index "unknown threshold mode" code (ProfileMode.ofCode? code)) = .ok mode ∧ StatesMode attrs mode) ∨
    ∃ i n, given = some (i, n) ∧ ProfileMode.ofCode? n = none := by
  rcases given with - | ⟨i, n⟩
  · exact .inl ⟨.inherited, rfl, .inr ⟨hgiven, rfl⟩⟩
  · cases hcode : ProfileMode.ofCode? n with
    | some mode =>
      obtain rfl : mode.code = n := by simpa using List.find?_some hcode
      exact .inl ⟨mode, by simp only [Option.elim_some, hcode, decodeAt], .inl hgiven.mem⟩
    | none => exact .inr ⟨i, n, rfl, hcode⟩

theorem ProfileMode.code_inj {mode mode' : ProfileMode} (h : mode.code = mode'.code) : mode = mode' := by
  have hcode : ∀ mode : ProfileMode, ofCode? mode.code = some mode := fun mode => by cases mode <;> rfl
  exact Option.some.inj ((hcode mode).symm.trans (h ▸ hcode mode'))

/-- the codes of modes -/
theorem ProfileMode.ofCode?_eq_none {n : Int32} (h : ofCode? n = none) : n ≠ 0 ∧ n ≠ 1 ∧ n ≠ 2 := by
  have hcodes := List.find?_eq_none.1 h
  refine ⟨?_, ?_, ?_⟩ <;> rintro rfl
  · exact hcodes .static (by decide) rfl
  · exact hcodes .dynamic (by decide) rfl
  · exact hcodes .inherited (by decide) rfl

theorem GivesThreshold.of_at {i : Nat} {t : Threshold} (hnodup : (attrs.map Attribute.id).Nodup)
    (hat : attrs[i]? = some (ProfileParams.thresholdAttribute t))
    (hother : ∀ mode, mode ≠ t.mode → ∀ a ∈ attrs, a.id ≠ mode.attribute.id) : GivesThreshold attrs t := by
  refine ⟨List.mem_of_getElem? hat, ?_⟩
  rintro a ha ⟨mode, hid⟩
  obtain rfl : mode = t.mode := not_not.1 fun hne => hother mode hne a ha hid
  obtain ⟨j, hj⟩ := List.mem_iff_getElem?.1 ha
  exact (eq_of_id_eq hnodup hj hat (hid.trans (by cases t <;> rfl))).2

section

variable {k : Key} {q : Pool} {mode : ProfileMode} {dynamic : Option (Nat × Int8)} {fixed : Option (Nat × UInt64)}

/-- a single threshold is of the mode that counts, or its attribute is to blame -/
theorem single_judged {i : Nat} {t : Threshold} (hpool : m.Names attrs k q) (hmode : StatesMode attrs mode)
    (hat : attrs[i]? = some (ProfileParams.thresholdAttribute t)) (hgives : GivesThreshold attrs t)
    (hread : ∀ mode', resolveThreshold mode' dynamic fixed = if t.mode = mode' then .ok t else
      .error (.badAttributeAt i (t.mode.name ++ " threshold on a " ++ mode'.name ++ " profile"))) :
    (∃ t, resolveThreshold (mode.effective q.mode) dynamic fixed = .ok t ∧ GivesThreshold attrs t ∧
      t.mode = mode.effective q.mode) ∨
    ∃ e i, resolveThreshold (mode.effective q.mode) dynamic fixed = .error e ∧ m.RefusesProfile attrs e i := by
  by_cases heffective : t.mode = mode.effective q.mode
  · exact .inl ⟨t, (hread _).trans (if_pos heffective), hgives, heffective⟩
  · exact .inr ⟨_, _, (hread _).trans (if_neg heffective), .otherMode hpool hmode hat hgives heffective⟩

/-- there is one threshold, of the mode that counts, or the refusal says what is wrong with them -/
theorem threshold_judged (hnodup : (attrs.map Attribute.id).Nodup)
    (hdynamic : Gives attrs ProfileAttribute.dynamicThreshold.id .i8 dynamic)
    (hfixed : Gives attrs ProfileAttribute.staticThreshold.id .u64 fixed) (hpool : m.Names attrs k q)
    (hmode : StatesMode attrs mode) :
    (∃ t, resolveThreshold (mode.effective q.mode) dynamic fixed = .ok t ∧ GivesThreshold attrs t ∧
      t.mode = mode.effective q.mode) ∨
    ∃ e i, resolveThreshold (mode.effective q.mode) dynamic fixed = .error e ∧ m.RefusesProfile attrs e i := by
  rcases dynamic with - | ⟨i, alpha⟩ <;> rcases fixed with - | ⟨j, limit⟩
  · have hnone : ∀ a ∈ attrs, ¬ a.IsThreshold := by
      rintro a ha ⟨mode, hid⟩
      cases mode
      · exact hfixed.none_ne a ha hid
      · exact hdynamic.none_ne a ha hid
    refine .inr ⟨_, _, ?_, .missing hpool hmode hnone⟩
    cases mode.effective q.mode <;> rfl
  · have hgives : GivesThreshold attrs (.static limit) := .of_at hnodup hfixed fun mode hne => by
      cases mode
      · exact absurd rfl hne
      · exact hdynamic.none_ne
    exact single_judged (t := .static limit) hpool hmode hfixed hgives fun mode' => by cases mode' <;> rfl
  · have hgives : GivesThreshold attrs (.dynamic alpha) := .of_at hnodup hdynamic fun mode hne => by
      cases mode
      · exact hfixed.none_ne
      · exact absurd rfl hne
    exact single_judged (t := .dynamic alpha) hpool hmode hdynamic hgives fun mode' => by cases mode' <;> rfl
  · refine .inr ⟨_, _, ?_, .both hpool hmode ⟨⟨_, hdynamic.mem, rfl⟩, ⟨_, hfixed.mem, rfl⟩⟩⟩
    cases mode.effective q.mode <;> rfl

end

/-- the first position at which headroom is given, if it is -/
theorem headroom_judged {xoff xon : Option (Nat × UInt64)} (hnodup : (attrs.map Attribute.id).Nodup)
    (hxoff : Gives attrs ProfileAttribute.xoffThreshold.id .u64 xoff)
    (hxon : Gives attrs ProfileAttribute.xonThreshold.id .u64 xon) :
    (firstHeadroom? xoff xon = none ∧ ∀ a ∈ attrs, ¬ a.IsHeadroom) ∨
      ∃ i a, firstHeadroom? xoff xon = some i ∧ attrs[i]? = some a ∧ a.IsHeadroom ∧
        ∀ j < i, ∀ b, attrs[j]? = some b → ¬ b.IsHeadroom := by
  have hpositions : ∀ j b, attrs[j]? = some b → b.IsHeadroom → (∃ x, xoff = some (j, x)) ∨ ∃ x, xon = some (j, x) :=
    fun j b hb hhead => hhead.imp (hxoff.exists_position hnodup hb) (hxon.exists_position hnodup hb)
  rcases xoff with - | ⟨i, x⟩ <;> rcases xon with - | ⟨j, y⟩
  · refine .inl ⟨rfl, fun a ha hhead => ?_⟩
    obtain ⟨n, hn⟩ := List.mem_iff_getElem?.1 ha
    rcases hpositions n a hn hhead with ⟨x, hx⟩ | ⟨x, hx⟩ <;> cases hx
  · refine .inr ⟨j, _, rfl, hxon, .inr rfl, fun n hn b hb hhead => ?_⟩
    rcases hpositions n b hb hhead with ⟨x, hx⟩ | ⟨x, hx⟩ <;> cases hx
    exact Nat.lt_irrefl _ hn
  · refine .inr ⟨i, _, rfl, hxoff, .inl rfl, fun n hn b hb hhead => ?_⟩
    rcases hpositions n b hb hhead with ⟨x, hx⟩ | ⟨x, hx⟩ <;> cases hx
    exact Nat.lt_irrefl _ hn
  · have hfirst : ∀ n < min i j, ∀ b, attrs[n]? = some b → ¬ b.IsHeadroom := fun n hn b hb hhead => by
      rcases hpositions n b hb hhead with ⟨x, hx⟩ | ⟨x, hx⟩ <;> cases hx <;> omega
    rcases Nat.le_total i j with hle | hle
    · exact .inr ⟨min i j, _, rfl, by rw [Nat.min_eq_left hle]; exact hxoff, .inl rfl, hfirst⟩
    · exact .inr ⟨min i j, _, rfl, by rw [Nat.min_eq_right hle]; exact hxon, .inr rfl, hfirst⟩

/-- **A request is well formed and read as it says, or refused by the first rule that it breaks.** -/
theorem ProfileOrder.Given.judged (h : o.Given attrs) (hs : Sound m.hardware m.store L) :
    (∃ k q mode t, m.profileOfAttributes attrs = .ok (k, o.profile mode t) ∧ m.WellFormed attrs k q mode t) ∨
      ∃ e i, m.profileOfAttributes attrs = .error e ∧ m.RefusesProfile attrs e i := by
  rw [h.profileOfAttributes_eq]
  obtain ⟨k, q, hres, hq, hnames⟩ | ⟨hres, hgone⟩ := pool_judged hs h.pool
  · simp only [hres, hq, Option.elim_some, bind, Except.bind]
    obtain ⟨mode, hdecode, hmode⟩ | ⟨i, n, hgiven, hcode⟩ := mode_judged h.mode
    · simp only [hdecode]
      obtain ⟨t, hresolve, hgives, heffective⟩ | ⟨e, i, hresolve, hrefuses⟩ :=
        threshold_judged h.distinct h.dynamic h.fixed hnames hmode
      · simp only [hresolve]
        obtain ⟨hnone, hclean⟩ | ⟨i, a, hfirst, hat, hhead, hclean⟩ := headroom_judged h.distinct h.xoff h.xon
        · simp only [hnone]
          exact .inl ⟨k, q, mode, t, by cases q.direction <;> rfl, hnames, hmode, hgives, heffective, .inr hclean⟩
        · simp only [hfirst]
          cases hdir : q.direction with
          | ingress => exact .inl ⟨k, q, mode, t, rfl, hnames, hmode, hgives, heffective, .inl hdir⟩
          | egress => exact .inr ⟨_, _, rfl, .headroom hnames hmode hgives heffective hdir hat hhead hclean⟩
      · simp only [hresolve]
        exact .inr ⟨e, i, rfl, hrefuses⟩
    · have hat := h.mode
      rw [hgiven] at hat
      simp only [hgiven, Option.elim_some, hcode, decodeAt]
      exact .inr ⟨_, _, rfl, .mode hnames hat (ProfileMode.ofCode?_eq_none hcode)⟩
  · simp only [hres, Option.elim_none, bind, Except.bind]
    exact .inr ⟨_, _, rfl, .pool h.pool hgone⟩

/-! ## One verdict -/

namespace Manager

/-- a list names one pool -/
theorem Names.eq {k k' : Key} {q q' : Pool} (h : m.Names attrs k q) (h' : m.Names attrs k' q')
    (hs : Sound m.hardware m.store L) (hnodup : (attrs.map Attribute.id).Nodup) : k = k' ∧ q = q' := by
  have hid : k.id = k'.id := by
    have hsame := List.inj_on_of_nodup_map hnodup h.1 h'.1 rfl
    simpa using hsame
  exact hs.wired.pool_unique h.2 h'.2 hid

end Manager

/-- a list states one mode -/
theorem StatesMode.eq {mode mode' : ProfileMode} (h : StatesMode attrs mode) (h' : StatesMode attrs mode')
    (hnodup : (attrs.map Attribute.id).Nodup) : mode = mode' := by
  rcases h with h | ⟨h, rfl⟩ <;> rcases h' with h' | ⟨h', rfl⟩
  · have hsame := List.inj_on_of_nodup_map hnodup h h' rfl
    exact ProfileMode.code_inj (by simpa using hsame)
  · exact absurd (List.mem_map_of_mem h) h'
  · exact absurd (List.mem_map_of_mem h') h
  · rfl

theorem GivesThreshold.eq {t t' : Threshold} (h : GivesThreshold attrs t) (h' : GivesThreshold attrs t') : t = t' := by
  have hsame := h'.2 _ h.1 ⟨t.mode, by cases t <;> rfl⟩
  cases t <;> cases t' <;> simp_all [ProfileParams.thresholdAttribute]

namespace Manager.RefusesProfile

variable {e : Fault} {position : Option Nat}

/-- what is refused is not well formed -/
theorem not_wellFormed (h : m.RefusesProfile attrs e position) (hs : Sound m.hardware m.store L)
    (hnodup : (attrs.map Attribute.id).Nodup) {k : Key} {q : Pool} {mode : ProfileMode} {t : Threshold} :
    ¬ m.WellFormed attrs k q mode t := by
  rintro ⟨hnames, hstates, hgives, heffective, hheadroom⟩
  cases h with
  | pool hat hgone =>
    have hsame := List.inj_on_of_nodup_map hnodup (List.mem_of_getElem? hat) hnames.1 rfl
    exact hgone k q hnames.2 (by simpa using hsame.symm)
  | @mode _ _ _ n _ hat hcode =>
    rcases hstates with hstated | ⟨habsent, -⟩
    · have hsame := List.inj_on_of_nodup_map hnodup (List.mem_of_getElem? hat) hstated rfl
      obtain rfl : n = mode.code := by simpa using hsame
      cases mode
      · exact hcode.2.2 rfl
      · exact hcode.1 rfl
      · exact hcode.2.1 rfl
    · exact habsent (List.mem_map_of_mem (List.mem_of_getElem? hat))
  | both _ _ hboth =>
    obtain ⟨⟨a, ha, hdynamic⟩, b, hb, hstatic⟩ := hboth
    have hsame := (hgives.2 a ha ⟨.dynamic, hdynamic⟩).trans (hgives.2 b hb ⟨.static, hstatic⟩).symm
    rw [hsame, hstatic] at hdynamic
    cases hdynamic
  | missing _ _ hnone => exact hnone _ hgives.1 ⟨t.mode, by cases t <;> rfl⟩
  | otherMode hpool hmode hat hgives' hother =>
    obtain ⟨-, rfl⟩ := hpool.eq hnames hs hnodup
    obtain rfl := hmode.eq hstates hnodup
    exact hother (hgives'.eq hgives ▸ heffective)
  | headroom hpool _ _ _ hegress hat hhead _ =>
    obtain ⟨-, rfl⟩ := hpool.eq hnames hs hnodup
    rcases hheadroom with hingress | hclean
    · cases hingress.symm.trans hegress
    · exact hclean _ (List.mem_of_getElem? hat) hhead

/-- a refusal states the position that is to blame -/
theorem position_eq (h : m.RefusesProfile attrs e position) (hlen : attrs.length < UInt32.size) :
    e.position? = position := by
  have hcut : ∀ {i : Nat} {a : Attribute}, attrs[i]? = some a → (UInt32.ofNat i).toNat = i := fun hat =>
    UInt32.toNat_ofNat_of_lt' (Nat.lt_trans (List.getElem?_eq_some_iff.1 hat).1 hlen)
  cases h with
  | both => rfl
  | missing => rfl
  | pool hat => exact congrArg some (hcut hat)
  | mode _ hat => exact congrArg some (hcut hat)
  | otherMode _ _ hat => exact congrArg some (hcut hat)
  | headroom _ _ _ _ _ hat => exact congrArg some (hcut hat)

end Manager.RefusesProfile

end

end SharedBuffer
