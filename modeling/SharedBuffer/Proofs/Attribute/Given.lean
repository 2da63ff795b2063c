/-
What a list of attributes in the grammar of its table gives.

No id repeats in such a list and every value is of its attribute's kind, so what a reader finds under an id is what stands
there, and it is decoded. A reader that needs a mandatory attribute finds one.

Results: `Gives.optionalAttribute_eq` (what is given is read) and `Grammatical.exists_gives` (under each id of the table
a list gives a value of the right kind, or nothing).
-/
import SharedBuffer.Manager.Pool
import SharedBuffer.Proofs.Attribute.Grammar

namespace SharedBuffer

/-! ## Decoding -/

/-- a decoder reads the values of a kind, and these are what an encoder makes -/
structure Decodes {α : Type} (kind : ValueKind) (encode : α → AttributeValue) (decode : AttributeValue → Option α) :
    Prop where
  total : ∀ v, v.kind = kind → ∃ x, v = encode x
  decode : ∀ x, decode (encode x) = some x

theorem decodes_u64 : Decodes .u64 AttributeValue.u64 AttributeValue.asU64? where
  total v h := by
    cases v with
    | u64 x => exact ⟨x, rfl⟩
    | _ => cases h
  decode _ := rfl

theorem decodes_i8 : Decodes .i8 AttributeValue.i8 AttributeValue.asI8? where
  total v h := by
    cases v with
    | i8 x => exact ⟨x, rfl⟩
    | _ => cases h
  decode _ := rfl

theorem decodes_s32 : Decodes .s32 AttributeValue.s32 AttributeValue.asS32? where
  total v h := by
    cases v with
    | s32 x => exact ⟨x, rfl⟩
    | _ => cases h
  decode _ := rfl

theorem decodes_oid : Decodes .oid AttributeValue.oid AttributeValue.asOid? where
  total v h := by
    cases v with
    | oid x => exact ⟨x, rfl⟩
    | _ => cases h
  decode _ := rfl

/-! ## Looking up -/

section

variable {attrs : List Attribute} {id : UInt32} {a b : Attribute} {i j : Nat}

theorem findAttribute?_eq_none (h : id ∉ attrs.map Attribute.id) : findAttribute? attrs id = none := by
  rw [findAttribute?, Option.map_eq_none_iff, List.find?_eq_none]
  intro p hp
  rw [beq_iff_eq]
  exact fun hid => h (hid ▸ List.mem_map_of_mem (List.fst_mem_of_mem_zipIdx hp))

theorem of_findAttribute? (h : findAttribute? attrs id = some (i, a)) : attrs[i]? = some a ∧ a.id = id := by
  obtain ⟨⟨b, j⟩, hfound, hp⟩ := Option.map_eq_some_iff.1 h
  obtain ⟨rfl, rfl⟩ := Prod.mk.inj hp
  exact ⟨List.mem_zipIdx_iff_getElem?.1 (List.mem_of_find?_eq_some hfound), by simpa using List.find?_some hfound⟩

/-- where no id repeats, an id stands at one position -/
theorem eq_of_id_eq (hnodup : (attrs.map Attribute.id).Nodup) (ha : attrs[i]? = some a) (hb : attrs[j]? = some b)
    (hid : a.id = b.id) : i = j ∧ a = b := by
  obtain ⟨hi, -⟩ := List.getElem?_eq_some_iff.1 ha
  have hij : i = j := by
    refine (List.getElem?_inj (by rwa [List.length_map]) hnodup).1 ?_
    rw [List.getElem?_map, List.getElem?_map, ha, hb, Option.map_some, Option.map_some, hid]
  subst hij
  exact ⟨rfl, Option.some.inj (ha.symm.trans hb)⟩

theorem findAttribute?_eq_some (hnodup : (attrs.map Attribute.id).Nodup) (ha : attrs[i]? = some a) (hid : a.id = id) :
    findAttribute? attrs id = some (i, a) := by
  cases hfound : findAttribute? attrs id with
  | none =>
    rw [findAttribute?, Option.map_eq_none_iff, List.find?_eq_none] at hfound
    exact absurd (beq_iff_eq.2 hid) (hfound (a, i) (List.mem_zipIdx_iff_getElem?.2 ha))
  | some p =>
    obtain ⟨hp, hpid⟩ := of_findAttribute? hfound
    obtain ⟨hi, ha'⟩ := eq_of_id_eq hnodup hp ha (hpid.trans hid.symm)
    exact congrArg some (Prod.ext hi ha')

end

/-! ## Reading -/

section

variable {α : Type} {table : List AttributeSpec} {attrs : List Attribute} {s : AttributeSpec}
  {encode : α → AttributeValue} {decode : AttributeValue → Option α} {i : Nat} {x : α} {id : UInt32}

/-- a list gives something under an id, at a position, or nothing -/
def Gives (attrs : List Attribute) (id : UInt32) (encode : α → AttributeValue) : Option (Nat × α) → Prop
  | some (i, x) => attrs[i]? = some ⟨id, encode x⟩
  | none => id ∉ attrs.map Attribute.id

namespace Gives

variable {p : Nat × α} {a : Attribute}

theorem mem (h : Gives attrs id encode (some p)) : ⟨id, encode p.2⟩ ∈ attrs := List.mem_of_getElem? h

theorem none_ne (h : Gives attrs id encode none) : ∀ a ∈ attrs, a.id ≠ id :=
  fun _ ha hid => h (hid ▸ List.mem_map_of_mem ha)

/-- whatever stands under an id is what is given there -/
theorem exists_position (hnodup : (attrs.map Attribute.id).Nodup) {found : Option (Nat × α)}
    (h : Gives attrs id encode found) (ha : attrs[i]? = some a) (hid : a.id = id) : ∃ x, found = some (i, x) := by
  cases found with
  | none => exact absurd hid (h.none_ne a (List.mem_of_getElem? ha))
  | some p =>
    obtain ⟨rfl, -⟩ := eq_of_id_eq hnodup ha h hid
    exact ⟨p.2, rfl⟩

end Gives

/-- what is given is read -/
theorem Gives.optionalAttribute_eq (hnodup : (attrs.map Attribute.id).Nodup) (hdecode : ∀ x, decode (encode x) = some x)
    (name : String) {found : Option (Nat × α)} (h : Gives attrs id encode found) :
    optionalAttribute attrs id name decode = .ok found := by
  cases found with
  | none => rw [optionalAttribute, findAttribute?_eq_none h]
  | some p =>
    simp only [optionalAttribute, findAttribute?_eq_some hnodup h rfl, hdecode]

theorem Gives.requiredAttribute_eq (hnodup : (attrs.map Attribute.id).Nodup) (hdecode : ∀ x, decode (encode x) = some x)
    (name : String) (h : Gives attrs id encode (some (i, x))) :
    requiredAttribute attrs id name decode = .ok (i, x) := by
  rw [requiredAttribute, h.optionalAttribute_eq hnodup hdecode]
  rfl

namespace Grammatical

/-- under the id of a row a list gives a value of the row's kind, or nothing -/
theorem exists_gives (h : Grammatical table attrs) (hs : s ∈ table) (d : Decodes s.kind encode decode) :
    ∃ found, Gives attrs s.id encode found := by
  by_cases hgiven : s.id ∈ attrs.map Attribute.id
  · obtain ⟨a, ha, hid⟩ := List.mem_map.1 hgiven
    obtain ⟨i, hi⟩ := List.mem_iff_getElem?.1 ha
    obtain ⟨x, hx⟩ := d.total a.value (h.typed a ha s hs hid.symm)
    exact ⟨some (i, x), hi.trans (congrArg some (by cases a; exact hid ▸ hx ▸ rfl))⟩
  · exact ⟨none, hgiven⟩

theorem exists_given (h : Grammatical table attrs) (hs : s ∈ table) (d : Decodes s.kind encode decode)
    (hmandatory : s.isMandatory = true) : ∃ i x, Gives attrs s.id encode (some (i, x)) := by
  obtain ⟨found, hfound⟩ := h.exists_gives hs d
  cases found with
  | none =>
    obtain ⟨a, ha, hid⟩ := h.complete s hs hmandatory
    exact absurd (hid ▸ List.mem_map_of_mem ha) hfound
  | some p => exact ⟨p.1, p.2, hfound⟩

end Grammatical

end

end SharedBuffer
