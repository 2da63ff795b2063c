/-
The grammar of create requests.

A table is a grammar for lists of attributes: which ids there are, which of them a request may give, each at most once,
with which kind of value, and which it has to give. Whether an attribute breaks a rule is told by itself and by the
attributes before it; the check walks along the list and stops at the first that does.

Result: `checkCreate_judges` (exactly the lists of the grammar are accepted, and a refusal blames the first attribute
that breaks a rule, or names the first that is missing).
-/
import Mathlib.Data.List.Perm.Subperm
import Mathlib.Data.List.Nodup
import SharedBuffer.Attribute.Table

namespace SharedBuffer

/-- the position of the attribute that a fault is about -/
def Fault.position? : Fault → Option Nat
  | .invalidAttribute i _ | .invalidAttributeValue i _ | .unknownAttribute i | .bufferOverflow i _ => some i.toNat
  | _ => none

/-! ## Rules -/

/-- an attribute breaks a rule of its table, after the attributes before it -/
inductive Breaks (table : List AttributeSpec) (before : List Attribute) (a : Attribute) : Prop
  | unknown (h : a.id ∉ table.map AttributeSpec.id)
  | readOnly {s : AttributeSpec} (hs : s ∈ table) (hid : s.id = a.id) (h : s.isReadOnly = true)
  | repeated (h : a.id ∈ before.map Attribute.id)
  | mistyped {s : AttributeSpec} (hs : s ∈ table) (hid : s.id = a.id) (h : a.value.kind ≠ s.kind)

/-- the fault of an attribute that breaks a rule. Of several rules the first counts: that there is such an attribute,
that it is one to give and not given yet, and the kind of its value. -/
inductive Blamed (table : List AttributeSpec) (before : List Attribute) (a : Attribute) : Fault → Prop
  | unknown (h : a.id ∉ table.map AttributeSpec.id) : Blamed table before a (.unknownAt before.length)
  | readOnly {s : AttributeSpec} (hs : s ∈ table) (hid : s.id = a.id) (h : s.isReadOnly = true) :
    Blamed table before a (.badAttributeAt before.length (s.name ++ " is read-only"))
  | repeated {s : AttributeSpec} (hs : s ∈ table) (hid : s.id = a.id) (hwritable : s.isReadOnly = false)
    (h : a.id ∈ before.map Attribute.id) :
    Blamed table before a (.badAttributeAt before.length (s.name ++ " given more than once"))
  | mistyped {s : AttributeSpec} (hs : s ∈ table) (hid : s.id = a.id) (hwritable : s.isReadOnly = false)
    (hnew : a.id ∉ before.map Attribute.id) (h : a.value.kind ≠ s.kind) :
    Blamed table before a (.badValueAt before.length (s.name ++ " expects " ++ s.kind.label))

/-- the attribute at a position of a list breaks a rule -/
def ViolatesAt (table : List AttributeSpec) (attrs : List Attribute) (i : Nat) : Prop :=
  ∃ a, attrs[i]? = some a ∧ Breaks table (attrs.take i) a

/-- the first mandatory attribute of a table that a list lacks -/
structure FirstLacking (table : List AttributeSpec) (attrs : List Attribute) (s : AttributeSpec) : Prop where
  mandatory : s.isMandatory = true
  absent : s.id ∉ attrs.map Attribute.id
  first : ∃ before after, table = before ++ s :: after ∧
    ∀ t ∈ before, t.isMandatory = true → t.id ∈ attrs.map Attribute.id

/-- the lists of attributes that a table lets an object be created from -/
structure Grammatical (table : List AttributeSpec) (attrs : List Attribute) : Prop where
  known : ∀ a ∈ attrs, ∃ s ∈ table, s.id = a.id
  writable : ∀ a ∈ attrs, ∀ s ∈ table, s.id = a.id → s.isReadOnly = false
  distinct : (attrs.map Attribute.id).Nodup
  typed : ∀ a ∈ attrs, ∀ s ∈ table, s.id = a.id → a.value.kind = s.kind
  complete : ∀ s ∈ table, s.isMandatory = true → ∃ a ∈ attrs, a.id = s.id

/-! ## Tables -/

section

variable {kind : ObjectKind} {table : List AttributeSpec} {id : UInt32} {s : AttributeSpec}

/-- a table has one row for an id -/
theorem nodup_ids_of_table (h : attributeTable? kind = some table) : (table.map AttributeSpec.id).Nodup := by
  cases kind
  case switch => cases h
  all_goals
    obtain rfl := Option.some.inj h
    decide

theorem requireTable_of (h : attributeTable? kind = some table) : requireTable kind = .ok table := by
  rw [requireTable, h]

theorem specIn?_eq_none : specIn? table id = none ↔ id ∉ table.map AttributeSpec.id := by
  simp only [specIn?, List.find?_eq_none, beq_iff_eq, List.mem_map, not_exists, not_and]

theorem of_specIn? (h : specIn? table id = some s) : s ∈ table ∧ s.id = id :=
  ⟨List.mem_of_find?_eq_some h, by simpa using List.find?_some h⟩

/-- the row of an id is the only one with it -/
theorem specIn?_eq_some (hnodup : (table.map AttributeSpec.id).Nodup) :
    specIn? table id = some s ↔ s ∈ table ∧ s.id = id := by
  refine ⟨of_specIn?, fun ⟨hs, hid⟩ => ?_⟩
  cases hrow : specIn? table id with
  | none => exact absurd (hid ▸ List.mem_map_of_mem hs) (specIn?_eq_none.1 hrow)
  | some t =>
    obtain ⟨ht, htid⟩ := of_specIn? hrow
    exact congrArg some (List.inj_on_of_nodup_map hnodup ht hs (htid.trans hid.symm))

end

/-! ## One attribute -/

section

variable {table : List AttributeSpec} {before attrs : List Attribute} {a : Attribute} {e : Fault} {i : Nat}
  {s : AttributeSpec}

theorem Blamed.breaks (h : Blamed table before a e) : Breaks table before a := by
  cases h with
  | unknown h => exact .unknown h
  | readOnly hs hid h => exact .readOnly hs hid h
  | repeated _ _ _ h => exact .repeated h
  | mistyped hs hid _ _ h => exact .mistyped hs hid h

/-- blame falls on the attribute's own position -/
theorem Blamed.position (h : Blamed table before a e) (hlen : before.length < UInt32.size) :
    e.position? = some before.length := by
  have hcut : (UInt32.ofNat before.length).toNat = before.length := UInt32.toNat_ofNat_of_lt' hlen
  cases h <;> exact congrArg some hcut

/-- an attribute in which the check finds a fault is to blame for it -/
theorem blamed_of_createViolation (h : createViolation? table (before.map Attribute.id) before.length a = some e) :
    Blamed table before a e := by
  unfold createViolation? at h
  cases hrow : specIn? table a.id with
  | none =>
    simp only [hrow, Option.some.injEq] at h
    exact h ▸ .unknown (specIn?_eq_none.1 hrow)
  | some s =>
    obtain ⟨hs, hid⟩ := of_specIn? hrow
    simp only [hrow] at h
    split_ifs at h with hread hseen hkind
    · exact Option.some.inj h ▸ .readOnly hs hid hread
    · exact Option.some.inj h ▸ .repeated hs hid (eq_false_of_ne_true hread) hseen
    · exact Option.some.inj h ▸ .mistyped hs hid (eq_false_of_ne_true hread) hseen hkind

/-- an attribute in which the check finds no fault breaks no rule -/
theorem not_breaks_of_createViolation (hnodup : (table.map AttributeSpec.id).Nodup)
    (h : createViolation? table (before.map Attribute.id) before.length a = none) : ¬ Breaks table before a := by
  unfold createViolation? at h
  cases hrow : specIn? table a.id with
  | none => simp only [hrow, reduceCtorEq] at h
  | some s =>
    obtain ⟨hs, hid⟩ := of_specIn? hrow
    have huniq : ∀ {t : AttributeSpec}, t ∈ table → t.id = a.id → t = s := fun ht htid =>
      Option.some.inj (((specIn?_eq_some hnodup).2 ⟨ht, htid⟩).symm.trans hrow)
    simp only [hrow] at h
    split_ifs at h with hread hseen hkind
    rintro (hunknown | ⟨ht, htid, hbad⟩ | hagain | ⟨ht, htid, hbad⟩)
    · exact hunknown (hid ▸ List.mem_map_of_mem hs)
    · exact hread (huniq ht htid ▸ hbad)
    · exact hseen hagain
    · exact hkind (huniq ht htid ▸ hbad)

/-- where the check finds no fault in an attribute, its position is in order -/
theorem not_violatesAt_of_createViolation (hnodup : (table.map AttributeSpec.id).Nodup) (ha : attrs[i]? = some a)
    (h : createViolation? table ((attrs.take i).map Attribute.id) (attrs.take i).length a = none) :
    ¬ ViolatesAt table attrs i := by
  rintro ⟨b, hb, hbreaks⟩
  obtain rfl := Option.some.inj (ha.symm.trans hb)
  exact not_breaks_of_createViolation hnodup h hbreaks

/-! ## The walk along the list -/

theorem of_drop_eq_cons {rest : List Attribute} (h : attrs.drop i = a :: rest) :
    attrs[i]? = some a ∧ (attrs.take i).length = i ∧ attrs.take (i + 1) = attrs.take i ++ [a] ∧
      attrs.drop (i + 1) = rest := by
  have ha : attrs[i]? = some a := by rw [← List.head?_drop, h, List.head?_cons]
  have hlt : i < attrs.length := (List.getElem?_eq_some_iff.1 ha).1
  refine ⟨ha, by rw [List.length_take]; omega, by rw [List.take_add_one, ha]; rfl, ?_⟩
  rw [← List.tail_drop, h, List.tail_cons]

/-- a walk that stops does so at the first attribute from there on that breaks a rule -/
theorem blamed_of_firstCreateViolation (hnodup : (table.map AttributeSpec.id).Nodup) {rest : List Attribute}
    (hrest : attrs.drop i = rest)
    (h : firstCreateViolation? table ((attrs.take i).map Attribute.id) i rest = some e) :
    ∃ j a, attrs[j]? = some a ∧ Blamed table (attrs.take j) a e ∧ ∀ n, i ≤ n → n < j → ¬ ViolatesAt table attrs n := by
  induction rest generalizing i with
  | nil => cases h
  | cons a rest ih =>
    obtain ⟨ha, hlen, htake, hdrop⟩ := of_drop_eq_cons hrest
    rw [firstCreateViolation?] at h
    cases hcheck : createViolation? table ((attrs.take i).map Attribute.id) i a with
    | some fault =>
      simp only [hcheck, Option.some.injEq] at h
      subst h
      exact ⟨i, a, ha, blamed_of_createViolation (by rwa [hlen]), fun n hfrom hto => absurd hto (by omega)⟩
    | none =>
      simp only [hcheck] at h
      obtain ⟨j, b, hb, hblame, hclean⟩ := ih hdrop (by rwa [htake, List.map_append])
      refine ⟨j, b, hb, hblame, fun n hfrom hto => ?_⟩
      obtain rfl | hlater := Nat.eq_or_lt_of_le hfrom
      · exact not_violatesAt_of_createViolation hnodup ha (by rwa [hlen])
      · exact hclean n hlater hto

/-- a walk to the end has met no attribute that breaks a rule -/
theorem not_violatesAt_of_firstCreateViolation (hnodup : (table.map AttributeSpec.id).Nodup) {rest : List Attribute}
    (hrest : attrs.drop i = rest)
    (h : firstCreateViolation? table ((attrs.take i).map Attribute.id) i rest = none) :
    ∀ n, i ≤ n → ¬ ViolatesAt table attrs n := by
  induction rest generalizing i with
  | nil =>
    rintro n hfrom ⟨a, ha, -⟩
    have hlt : n < attrs.length := (List.getElem?_eq_some_iff.1 ha).1
    exact absurd (List.drop_eq_nil_iff.1 hrest) (by omega)
  | cons a rest ih =>
    obtain ⟨ha, hlen, htake, hdrop⟩ := of_drop_eq_cons hrest
    rw [firstCreateViolation?] at h
    cases hcheck : createViolation? table ((attrs.take i).map Attribute.id) i a with
    | some fault => simp only [hcheck, reduceCtorEq] at h
    | none =>
      simp only [hcheck] at h
      intro n hfrom
      obtain rfl | hlater := Nat.eq_or_lt_of_le hfrom
      · exact not_violatesAt_of_createViolation hnodup ha (by rwa [hlen])
      · exact ih hdrop (by rwa [htake, List.map_append]) n hlater

/-! ## Whole lists -/

/-- ids are distinct if none of them is among those before it -/
theorem nodup_ids_iff : (attrs.map Attribute.id).Nodup ↔
    ∀ i a, attrs[i]? = some a → a.id ∉ (attrs.take i).map Attribute.id := by
  simp only [List.map_take, List.nodup_iff_getElem?_ne_getElem?, List.length_map, List.mem_take_iff_getElem,
    List.getElem_map, not_exists]
  constructor
  · intro h i a ha j hj hid
    obtain ⟨hi, rfl⟩ := List.getElem?_eq_some_iff.1 ha
    refine h j i (by omega) hi ?_
    rw [List.getElem?_map, List.getElem?_map, ha, List.getElem?_eq_getElem (by omega)]
    exact congrArg some hid
  · intro h i j hij hj hsame
    refine h j attrs[j] (List.getElem?_eq_getElem hj) i (by omega) ?_
    rw [List.getElem?_map, List.getElem?_map, List.getElem?_eq_getElem hj, List.getElem?_eq_getElem (by omega)] at hsame
    exact Option.some.inj hsame

theorem known_of_clean (h : ∀ n, ¬ ViolatesAt table attrs n) : ∀ a ∈ attrs, a.id ∈ table.map AttributeSpec.id := by
  intro a ha
  obtain ⟨n, hn⟩ := List.mem_iff_getElem?.1 ha
  exact not_not.1 fun hunknown => h n ⟨a, hn, .unknown hunknown⟩

theorem distinct_of_clean (h : ∀ n, ¬ ViolatesAt table attrs n) : (attrs.map Attribute.id).Nodup :=
  nodup_ids_iff.2 fun n a ha hagain => h n ⟨a, ha, .repeated hagain⟩

/-- a list is in the grammar if no position breaks a rule and nothing mandatory is missing -/
theorem grammatical_iff : Grammatical table attrs ↔
    (∀ n, ¬ ViolatesAt table attrs n) ∧ ∀ s ∈ table, s.isMandatory = true → s.id ∈ attrs.map Attribute.id := by
  constructor
  · rintro ⟨hknown, hwritable, hdistinct, htyped, hcomplete⟩
    refine ⟨?_, fun s hs hmandatory => List.mem_map.2 (hcomplete s hs hmandatory)⟩
    rintro n ⟨a, ha, hbreaks⟩
    have hmem : a ∈ attrs := List.mem_of_getElem? ha
    cases hbreaks with
    | unknown h => exact h (List.mem_map.2 (hknown a hmem))
    | readOnly hs hid h => exact Bool.false_ne_true ((hwritable a hmem _ hs hid).symm.trans h)
    | repeated h => exact nodup_ids_iff.1 hdistinct n a ha h
    | mistyped hs hid h => exact h (htyped a hmem _ hs hid)
  · rintro ⟨hclean, hcomplete⟩
    have hrows : ∀ a ∈ attrs, ∀ s ∈ table, s.id = a.id → s.isReadOnly = false ∧ a.value.kind = s.kind := by
      intro a ha s hs hid
      obtain ⟨n, hn⟩ := List.mem_iff_getElem?.1 ha
      exact ⟨eq_false_of_ne_true fun hread => hclean n ⟨a, hn, .readOnly hs hid hread⟩,
        not_not.1 fun hkind => hclean n ⟨a, hn, .mistyped hs hid hkind⟩⟩
    exact {
      known := fun a ha => List.mem_map.1 (known_of_clean hclean a ha)
      writable := fun a ha s hs hid => (hrows a ha s hs hid).1
      distinct := distinct_of_clean hclean
      typed := fun a ha s hs hid => (hrows a ha s hs hid).2
      complete := fun s hs hmandatory => List.mem_map.1 (hcomplete s hs hmandatory) }

theorem FirstLacking.mem (h : FirstLacking table attrs s) : s ∈ table := by
  obtain ⟨before, after, rfl, -⟩ := h.first
  simp

theorem firstMissing?_eq_some : firstMissing? table (attrs.map Attribute.id) = some s ↔ FirstLacking table attrs s := by
  rw [firstMissing?, List.find?_eq_some_iff_append]
  constructor
  · rintro ⟨hlacking, before, after, htable, hearlier⟩
    rw [Bool.and_eq_true] at hlacking
    refine ⟨hlacking.1, by simpa using hlacking.2, before, after, htable, fun t ht hmandatory => ?_⟩
    simpa [hmandatory] using hearlier t ht
  · rintro ⟨hmandatory, habsent, before, after, htable, hearlier⟩
    refine ⟨by simpa [hmandatory] using habsent, before, after, htable, fun t ht => ?_⟩
    cases hneeded : t.isMandatory with
    | false => rfl
    | true => simpa using hearlier t ht hneeded

theorem firstMissing?_eq_none : firstMissing? table (attrs.map Attribute.id) = none ↔
    ∀ s ∈ table, s.isMandatory = true → s.id ∈ attrs.map Attribute.id := by
  simp [firstMissing?]

/-- rules look back only, so a list starts as wrongly as its beginning does -/
theorem ViolatesAt.of_take {n : Nat} (h : ViolatesAt table (attrs.take i) n) : n < i ∧ ViolatesAt table attrs n := by
  obtain ⟨a, ha, hbreaks⟩ := h
  have hlt : n < i := by
    have hshort := (List.getElem?_eq_some_iff.1 ha).1
    rw [List.length_take] at hshort
    omega
  rw [List.getElem?_take_of_lt hlt] at ha
  rw [List.take_take, Nat.min_eq_left (Nat.le_of_lt hlt)] at hbreaks
  exact ⟨hlt, a, ha, hbreaks⟩

/-- a list that breaks no rule is no longer than the table -/
theorem length_le_of_clean (h : ∀ n, ¬ ViolatesAt table attrs n) : attrs.length ≤ table.length := by
  have hsub : attrs.map Attribute.id ⊆ table.map AttributeSpec.id := by
    intro id hid
    obtain ⟨a, ha, rfl⟩ := List.mem_map.1 hid
    exact known_of_clean h a ha
  simpa using (List.subperm_of_subset (distinct_of_clean h) hsub).length_le

end

/-! ## The check -/

section

variable {kind : ObjectKind} {table : List AttributeSpec} {attrs : List Attribute}

theorem length_table_lt (h : attributeTable? kind = some table) : table.length < UInt32.size := by
  cases kind
  case switch => cases h
  all_goals
    obtain rfl := Option.some.inj h
    decide

theorem checkCreate_eq (htable : attributeTable? kind = some table) : checkCreate kind attrs =
    match firstCreateViolation? table [] 0 attrs, firstMissing? table (attrs.map Attribute.id) with
    | some fault, _ => .error fault
    | none, some spec => .error (.mandatoryAttributeMissing spec.name)
    | none, none => .ok () := by
  simp only [checkCreate, requireTable_of htable, bind, Except.bind]
  cases firstCreateViolation? table [] 0 attrs with
  | some fault => rfl
  | none => cases firstMissing? table (attrs.map Attribute.id) <;> rfl

/-- a list is judged by its first attribute that breaks a rule, and else by what it lacks -/
theorem checkCreate_cases (htable : attributeTable? kind = some table) (attrs : List Attribute) :
    (∃ i a e, checkCreate kind attrs = .error e ∧ attrs[i]? = some a ∧ Blamed table (attrs.take i) a e ∧
      e.position? = some i ∧ ∀ n < i, ¬ ViolatesAt table attrs n) ∨
    (∀ n, ¬ ViolatesAt table attrs n) ∧
      ((∃ s, checkCreate kind attrs = .error (.mandatoryAttributeMissing s.name) ∧ FirstLacking table attrs s) ∨
        checkCreate kind attrs = .ok () ∧ ∀ s ∈ table, s.isMandatory = true → s.id ∈ attrs.map Attribute.id) := by
  have hnodup := nodup_ids_of_table htable
  rw [checkCreate_eq htable]
  cases hwalk : firstCreateViolation? table [] 0 attrs with
  | some e =>
    obtain ⟨i, a, ha, hblame, hclean⟩ := blamed_of_firstCreateViolation hnodup List.drop_zero hwalk
    have hstart : ∀ n, ¬ ViolatesAt table (attrs.take i) n := fun n hbad =>
      hclean n (Nat.zero_le n) hbad.of_take.1 hbad.of_take.2
    have hlen : (attrs.take i).length < UInt32.size :=
      Nat.lt_of_le_of_lt (length_le_of_clean hstart) (length_table_lt htable)
    have hi : (attrs.take i).length = i := by
      have hlt := (List.getElem?_eq_some_iff.1 ha).1
      rw [List.length_take]
      omega
    exact .inl ⟨i, a, e, rfl, ha, hblame, hi ▸ hblame.position hlen, fun n => hclean n (Nat.zero_le n)⟩
  | none =>
    refine .inr ⟨fun n => not_violatesAt_of_firstCreateViolation hnodup List.drop_zero hwalk n (Nat.zero_le n), ?_⟩
    cases hmissing : firstMissing? table (attrs.map Attribute.id) with
    | some s => exact .inl ⟨s, rfl, firstMissing?_eq_some.1 hmissing⟩
    | none => exact .inr ⟨rfl, firstMissing?_eq_none.1 hmissing⟩

/-- an accepted list is in the grammar -/
theorem grammatical_of_checkCreate (htable : attributeTable? kind = some table)
    (h : checkCreate kind attrs = .ok ()) : Grammatical table attrs := by
  obtain ⟨i, a, e, he, -⟩ | ⟨hclean, ⟨s, hs, -⟩ | ⟨-, hcomplete⟩⟩ := checkCreate_cases htable attrs
  · cases h.symm.trans he
  · cases h.symm.trans hs
  · exact grammatical_iff.2 ⟨hclean, hcomplete⟩

/-- a list of the grammar is accepted -/
theorem checkCreate_of_grammatical (htable : attributeTable? kind = some table) (h : Grammatical table attrs) :
    checkCreate kind attrs = .ok () := by
  obtain ⟨hclean, hcomplete⟩ := grammatical_iff.1 h
  obtain ⟨i, a, e, -, ha, hblame, -⟩ | ⟨-, ⟨s, -, hs⟩ | ⟨hok, -⟩⟩ := checkCreate_cases htable attrs
  · exact absurd ⟨a, ha, hblame.breaks⟩ (hclean i)
  · exact absurd (hcomplete s hs.mem hs.mandatory) hs.absent
  · exact hok

/-- an accepted list is short: its positions are within 32 bits -/
theorem length_lt_of_checkCreate (htable : attributeTable? kind = some table) (h : checkCreate kind attrs = .ok ()) :
    attrs.length < UInt32.size :=
  Nat.lt_of_le_of_lt (length_le_of_clean (grammatical_iff.1 (grammatical_of_checkCreate htable h)).1)
    (length_table_lt htable)

/-- **A create request is judged by the grammar of its table.** Accepted are the lists of the grammar. If some attribute
breaks a rule, the first that does is blamed, at its position; else the first mandatory attribute that the list lacks is
named. -/
theorem checkCreate_judges (htable : attributeTable? kind = some table) (attrs : List Attribute) :
    (checkCreate kind attrs = .ok () ↔ Grammatical table attrs) ∧
    (∀ i, ViolatesAt table attrs i → (∀ n < i, ¬ ViolatesAt table attrs n) →
      ∃ a e, attrs[i]? = some a ∧ checkCreate kind attrs = .error e ∧ Blamed table (attrs.take i) a e ∧
        e.position? = some i) ∧
    ∀ name, checkCreate kind attrs = .error (.mandatoryAttributeMissing name) ↔
      (∀ i, ¬ ViolatesAt table attrs i) ∧ ∃ s, FirstLacking table attrs s ∧ s.name = name := by
  refine ⟨⟨grammatical_of_checkCreate htable, fun h => ?_⟩, fun i hbad hclean => ?_, fun name => ⟨fun h => ?_, ?_⟩⟩
  · obtain ⟨hclean, hcomplete⟩ := grammatical_iff.1 h
    obtain ⟨i, a, e, -, ha, hblame, -⟩ | ⟨-, ⟨s, -, hs⟩ | ⟨hok, -⟩⟩ := checkCreate_cases htable attrs
    · exact absurd ⟨a, ha, hblame.breaks⟩ (hclean i)
    · exact absurd (hcomplete s hs.mem hs.mandatory) hs.absent
    · exact hok
  · obtain ⟨j, a, e, he, ha, hblame, hposition, hfirst⟩ | ⟨hnone, -⟩ := checkCreate_cases htable attrs
    · obtain rfl : i = j := by
        have hle : ¬ i < j := fun hlt => hfirst i hlt hbad
        have hge : ¬ j < i := fun hlt => hclean j hlt ⟨a, ha, hblame.breaks⟩
        omega
      exact ⟨a, e, ha, he, hblame, hposition⟩
    · exact absurd hbad (hnone i)
  · obtain ⟨i, a, e, he, -, -, hposition, -⟩ | ⟨hclean, ⟨s, he, hs⟩ | ⟨hok, -⟩⟩ := checkCreate_cases htable attrs
    · cases h.symm.trans he
      cases hposition
    · exact ⟨hclean, s, hs, Fault.mandatoryAttributeMissing.inj (Except.error.inj (he.symm.trans h))⟩
    · cases h.symm.trans hok
  · rintro ⟨hclean, s, hs, rfl⟩
    obtain ⟨i, a, e, -, ha, hblame, -⟩ | ⟨-, ⟨t, he, ht⟩ | ⟨-, hcomplete⟩⟩ := checkCreate_cases htable attrs
    · exact absurd ⟨a, ha, hblame.breaks⟩ (hclean i)
    · obtain rfl := Option.some.inj ((firstMissing?_eq_some.2 hs).symm.trans (firstMissing?_eq_some.2 ht))
      exact he
    · exact absurd (hcomplete s hs.mem hs.mandatory) hs.absent

/-- a read-only attribute of the wrong kind, given twice: the first of the two is to blame, for being read-only -/
theorem checkCreate_judges_derived : ∃ a e,
    checkCreate .pool [⟨PoolAttribute.size.id, .u64 1⟩, ⟨PoolAttribute.sharedSize.id, .u32 1⟩,
      ⟨PoolAttribute.sharedSize.id, .u32 1⟩] = .error e ∧ e.position? = some 1 ∧
      Blamed (PoolAttribute.all.map PoolAttribute.spec) [⟨PoolAttribute.size.id, .u64 1⟩] a e := by
  obtain ⟨a, e, -, he, hblame, hposition⟩ := (@checkCreate_judges .pool _ rfl [⟨PoolAttribute.size.id, .u64 1⟩,
    ⟨PoolAttribute.sharedSize.id, .u32 1⟩, ⟨PoolAttribute.sharedSize.id, .u32 1⟩]).2.1 1
    ⟨⟨PoolAttribute.sharedSize.id, .u32 1⟩, rfl, .readOnly (s := PoolAttribute.sharedSize.spec) (by decide) rfl rfl⟩
    fun n hn => by
      obtain rfl : n = 0 := by omega
      exact not_violatesAt_of_createViolation (@nodup_ids_of_table .pool _ rfl) rfl (by decide)
  exact ⟨a, e, he, hposition, hblame⟩

end

end SharedBuffer
