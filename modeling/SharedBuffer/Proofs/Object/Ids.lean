/-
Object ids and the keys that they state.

An id packs the code of a kind, a generation and an index, and has eight bits in front that state nothing. A key that is
read from an id keeps all of its bits. So reading undoes packing, and packing what was read gives the id back without
its front bits; on ids where these are clear, the two are inverse to each other. Handles sort by kind, then by
generation, then by index.

Result: `Key.ids_state_keys`.
-/
import Mathlib.Tactic
import SharedBuffer.Object.Key

namespace SharedBuffer

/-- an id with its eight front bits cleared -/
def frontCleared (id : ObjectId) : ObjectId := id &&& 0x00FFFFFFFFFFFFFF

theorem toNat_frontCleared (id : ObjectId) : (frontCleared id).toNat = id.toNat % 2 ^ 56 := by
  rw [frontCleared, UInt64.toNat_and]
  exact Nat.and_two_pow_sub_one_eq_mod id.toNat 56

/-- the code of an id's kind -/
theorem ObjectKind.ofId?_eq_some {id : ObjectId} {kind : ObjectKind} :
    ofId? id = some kind ↔ id.toNat / kindUnit % 256 = kind.code :=
  ⟨fun h => (code_of_ofCode? h).symm, fun h => by rw [ofId?, h, ofCode?_code]⟩

namespace Key

variable (kind kind' : ObjectKind) (generation generation' : UInt16) (i i' : UInt32)

/-! ## Packing -/

/-- a shift that drops no bits -/
theorem toNat_shiftLeft_of_lt {a n : UInt64} {v places : Nat} (ha : a.toNat = v) (hn : n.toNat = places)
    (hplaces : places < 64) (h : v * 2 ^ places < 2 ^ 64) : (a <<< n).toNat = v <<< places := by
  rw [UInt64.toNat_shiftLeft, ha, hn, Nat.mod_eq_of_lt hplaces, Nat.shiftLeft_eq, Nat.mod_eq_of_lt h]

theorem toNat_id_make : (make kind generation i).id.toNat =
    kind.code * kindUnit + generation.toNat * generationUnit + i.toNat := by
  have hk := kind.code_lt
  have hg := generation.toNat_lt
  have hi := i.toNat_lt
  simp only [make, kindUnit, generationUnit, UInt64.toNat_ofNat']
  refine Nat.mod_eq_of_lt ?_
  omega

/-- the three parts of an id do not overlap: it is put together bit by bit -/
theorem id_make_eq_or : (make kind generation i).id =
    UInt64.ofNat kind.code <<< 48 ||| generation.toUInt64 <<< 32 ||| i.toUInt64 := by
  have hk := kind.code_lt
  have hg := generation.toNat_lt
  have hi := i.toNat_lt
  have hkind : (UInt64.ofNat kind.code <<< 48).toNat = kind.code <<< 48 :=
    toNat_shiftLeft_of_lt (UInt64.toNat_ofNat_of_lt' (Nat.lt_trans hk (by decide))) rfl (by decide) (by omega)
  have hgen : (generation.toUInt64 <<< 32).toNat = generation.toNat <<< 32 :=
    toNat_shiftLeft_of_lt generation.toNat_toUInt64 rfl (by decide) (by omega)
  have hlow : generation.toNat <<< 32 + i.toNat < 2 ^ 48 := by
    rw [Nat.shiftLeft_eq]
    omega
  rw [← UInt64.toNat_inj, toNat_id_make, UInt64.toNat_or, UInt64.toNat_or, hkind, hgen, UInt32.toNat_toUInt64,
    Nat.or_assoc, ← Nat.shiftLeft_add_eq_or_of_lt hi, ← Nat.shiftLeft_add_eq_or_of_lt hlow, Nat.shiftLeft_eq,
    Nat.shiftLeft_eq]
  exact Nat.add_assoc ..

@[simp] theorem kind_make : (make kind generation i).kind = kind := rfl

@[simp] theorem index_make : (make kind generation i).index = i := by
  have hi := i.toNat_lt
  rw [← UInt32.toNat_inj, index, UInt32.toNat_ofNat', toNat_id_make]
  simp only [kindUnit, generationUnit]
  omega

@[simp] theorem generation_make : (make kind generation i).generation = generation := by
  have hg := generation.toNat_lt
  have hi := i.toNat_lt
  rw [← UInt16.toNat_inj, Key.generation, UInt16.toNat_ofNat', toNat_id_make]
  simp only [kindUnit, generationUnit]
  omega

/-! ## Reading -/

variable {kind kind' generation generation' i i'} {id : ObjectId} {j k : Key}

/-- an id is read as the key that has it and is filed under the kind that its bits state -/
theorem ofId?_eq_some : ofId? id = some k ↔ k.id = id ∧ ObjectKind.ofId? id = some k.kind := by
  rw [ofId?, Option.map_eq_some_iff]
  constructor
  · rintro ⟨kind, hkind, rfl⟩
    exact ⟨rfl, hkind⟩
  · rintro ⟨rfl, hkind⟩
    exact ⟨k.kind, hkind, rfl⟩

/-- an id is taken for a key that has it -/
theorem id_of_ofId? (h : ofId? id = some k) : k.id = id := (ofId?_eq_some.1 h).1

/-- the id of a handle states its kind -/
theorem ofId?_id_make (kind : ObjectKind) (generation : UInt16) (i : UInt32) :
    ofId? (make kind generation i).id = some (make kind generation i) := by
  have hk := kind.code_lt
  have hg := generation.toNat_lt
  have hi := i.toNat_lt
  rw [ofId?_eq_some, ObjectKind.ofId?_eq_some, toNat_id_make]
  refine ⟨rfl, ?_⟩
  simp only [kind_make, kindUnit, generationUnit]
  omega

/-- the parts of a key packed again: the bits of its id below the kind, and its own kind above them -/
theorem toNat_id_remake (k : Key) :
    (make k.kind k.generation k.index).id.toNat = k.kind.code * kindUnit + k.id.toNat % kindUnit := by
  rw [toNat_id_make, generation, index, UInt16.toNat_ofNat', UInt32.toNat_ofNat']
  simp only [kindUnit, generationUnit]
  omega

/-- **What is read of an id gives the id back**, but for the front bits; and no other key does. -/
theorem ofId?_iff_remake :
    ofId? id = some k ↔ k.id = id ∧ (make k.kind k.generation k.index).id = frontCleared id := by
  have hk := k.kind.code_lt
  rw [ofId?_eq_some, ObjectKind.ofId?_eq_some]
  refine and_congr_right fun hid => ?_
  rw [← UInt64.toNat_inj, toNat_id_remake, toNat_frontCleared, hid]
  simp only [kindUnit]
  omega

/-! ## Handles -/

/-- whether the id of a key is that of a handle of the key's kind -/
def IsHandle (k : Key) : Prop := k = make k.kind k.generation k.index

theorem isHandle_make (kind : ObjectKind) (generation : UInt16) (i : UInt32) : (make kind generation i).IsHandle := by
  simp [IsHandle]

theorem IsHandle.ofId? (h : k.IsHandle) : Key.ofId? k.id = some k := by
  rw [h]
  exact ofId?_id_make ..

/-- handles are told apart by their ids -/
theorem IsHandle.eq_of_id_eq (hj : j.IsHandle) (hk : k.IsHandle) (h : j.id = k.id) : j = k := by
  have hof := hj.ofId?
  rw [h, hk.ofId?] at hof
  exact (Option.some.inj hof).symm

/-- handles are those keys that their ids state, where the front bits are clear -/
theorem isHandle_iff : k.IsHandle ↔ Key.ofId? k.id = some k ∧ frontCleared k.id = k.id := by
  constructor
  · intro h
    exact ⟨h.ofId?, (ofId?_iff_remake.1 h.ofId?).2.symm.trans (congrArg Key.id h.symm)⟩
  · rintro ⟨hread, hclear⟩
    obtain ⟨-, hremake⟩ := ofId?_iff_remake.1 hread
    exact congrArg (Key.mk k.kind) (hclear.symm.trans hremake.symm)

/-- handles with one id have the same parts -/
theorem id_make_inj : (make kind generation i).id = (make kind' generation' i').id ↔
    kind = kind' ∧ generation = generation' ∧ i = i' := by
  constructor
  · intro h
    have heq := (isHandle_make kind generation i).eq_of_id_eq (isHandle_make kind' generation' i') h
    refine ⟨congrArg Key.kind heq, ?_, ?_⟩
    · simpa using congrArg Key.generation heq
    · simpa using congrArg Key.index heq
  · rintro ⟨rfl, rfl, rfl⟩
    rfl

/-- handles sort by kind, then by generation, then by index -/
theorem make_lt_make : make kind generation i < make kind' generation' i' ↔ kind.code < kind'.code ∨
    kind = kind' ∧ (generation < generation' ∨ generation = generation' ∧ i < i') := by
  have hi := i.toNat_lt
  have hi' := i'.toNat_lt
  rw [lt_iff]
  refine or_congr_right ⟨fun ⟨hcode, hid⟩ => ?_, fun ⟨hkind, hrest⟩ => ?_⟩
  · obtain rfl : kind = kind' := ObjectKind.code_inj hcode
    refine ⟨rfl, ?_⟩
    rw [UInt64.lt_iff_toNat_lt, toNat_id_make, toNat_id_make, generationUnit] at hid
    rw [UInt16.lt_iff_toNat_lt, UInt32.lt_iff_toNat_lt, ← UInt16.toNat_inj]
    omega
  · subst hkind
    refine ⟨rfl, ?_⟩
    rw [UInt64.lt_iff_toNat_lt, toNat_id_make, toNat_id_make, generationUnit]
    rw [UInt16.lt_iff_toNat_lt, UInt32.lt_iff_toNat_lt, ← UInt16.toNat_inj] at hrest
    omega

end Key

namespace Handle

variable {kind : ObjectKind} {id : ObjectId} {h : Handle kind} {k : Key}

/-- an id is a handle of the kind under which it is read as a key -/
theorem ofId?_eq_some : ofId? kind id = some h ↔ Key.ofId? id = some h.key := by
  obtain ⟨raw⟩ := h
  rw [Key.ofId?_eq_some, ofId?]
  split
  case isTrue hkind => simp [key, hkind, eq_comm]
  case isFalse hkind => simp [key, hkind]

theorem ofKey?_eq_some : ofKey? kind k = some h ↔ h.key = k := by
  obtain ⟨raw⟩ := h
  obtain ⟨kind', id⟩ := k
  rw [ofKey?]
  split
  case isTrue hkind =>
    obtain rfl : kind' = kind := hkind
    simp [key, eq_comm]
  case isFalse hkind => simp [key, Ne.symm hkind]

/-- an id is the handle of a key where it is read as that key -/
theorem exists_ofId?_iff : (∃ h, ofId? kind id = some h ∧ h.key = k) ↔ Key.ofId? id = some k ∧ k.kind = kind := by
  constructor
  · rintro ⟨h, hread, rfl⟩
    exact ⟨ofId?_eq_some.1 hread, rfl⟩
  · rintro ⟨hread, rfl⟩
    exact ⟨⟨k.id⟩, ofId?_eq_some.2 hread, rfl⟩

end Handle

/-! ## Ids and keys -/

/-- **Ids state keys.** A handle's id is its kind's code, its generation and its index side by side, and is read as this
handle, part by part. What is read of any id has its bits, and packed again they are the id but for the front bits,
which holds of no other key. So handles are told apart by their ids, and are what is read of ids with clear front bits.
An id or a key is a typed handle just of its own kind, whose key it is then. Handles sort by kind, generation and
index. -/
theorem Key.ids_state_keys :
    (∀ kind generation i, (make kind generation i).id =
        UInt64.ofNat kind.code <<< 48 ||| generation.toUInt64 <<< 32 ||| i.toUInt64 ∧
      ofId? (make kind generation i).id = some (make kind generation i) ∧
      (make kind generation i).generation = generation ∧ (make kind generation i).index = i) ∧
    (∀ id k, ofId? id = some k ↔ k.id = id ∧ (make k.kind k.generation k.index).id = frontCleared id) ∧
    (∀ kind kind' generation generation' i i', (make kind generation i).id = (make kind' generation' i').id ↔
      kind = kind' ∧ generation = generation' ∧ i = i') ∧
    (∀ id k, ofId? id = some k ∧ frontCleared id = id ↔
      ∃ kind generation i, k = make kind generation i ∧ k.id = id) ∧
    (∀ kind id k, (∃ h : Handle kind, Handle.ofId? kind id = some h ∧ h.key = k) ↔ ofId? id = some k ∧ k.kind = kind) ∧
    (∀ kind k (h : Handle kind), Handle.ofKey? kind k = some h ↔ h.key = k) ∧
    ∀ kind kind' generation generation' i i', make kind generation i < make kind' generation' i' ↔
      kind.code < kind'.code ∨ kind = kind' ∧ (generation < generation' ∨ generation = generation' ∧ i < i') := by
  refine ⟨fun kind generation i => ⟨id_make_eq_or .., ofId?_id_make .., generation_make .., index_make ..⟩,
    fun _ _ => ofId?_iff_remake, fun _ _ _ _ _ _ => id_make_inj, fun id k => ?_,
    fun _ _ _ => Handle.exists_ofId?_iff, fun _ _ _ => Handle.ofKey?_eq_some, fun _ _ _ _ _ _ => make_lt_make⟩
  constructor
  · rintro ⟨hread, hclear⟩
    obtain rfl := id_of_ofId? hread
    exact ⟨_, _, _, isHandle_iff.2 ⟨hread, hclear⟩, rfl⟩
  · rintro ⟨kind, generation, i, rfl, rfl⟩
    exact isHandle_iff.1 (isHandle_make ..)

example : Key.ofId? 0xFF18000300000002 = some ⟨.pool, 0xFF18000300000002⟩ := by decide

end SharedBuffer
