/-
Object ids, store keys and typed handles.

A 64-bit object id packs four fields, most significant first: eight reserved bits, the kind's code (8 bits), a
generation (16 bits) and an index (32 bits). The generation tells a handle from an earlier one on the same index. A
key is an id together with the kind it is filed under, and keys are ordered by the kind's code first.
-/
import SharedBuffer.Object.Kind
import SharedBuffer.Text.Hex

namespace SharedBuffer

/-- an object id as it travels -/
abbrev ObjectId := UInt64

/-- the id that names no object -/
def nullId : ObjectId := 0

/-- the weight of the generation inside an id: it stands above the 32 bits of the index -/
def generationUnit : Nat := 0x100000000

/-- the weight of the kind's code inside an id: it stands above the 16 bits of the generation -/
def kindUnit : Nat := 0x1000000000000

/-- the kind that an id's own bits state, if they state one -/
def ObjectKind.ofId? (id : ObjectId) : Option ObjectKind := ObjectKind.ofCode? (id.toNat / kindUnit % 256)

/-- a store key: a kind and an id, which need not agree -/
structure Key where
  kind : ObjectKind
  id : ObjectId
deriving DecidableEq

namespace Key

/-- the key of the handle with this kind, generation and index -/
def make (kind : ObjectKind) (generation : UInt16) (index : UInt32) : Key :=
  ⟨kind, UInt64.ofNat (kind.code * kindUnit + generation.toNat * generationUnit + index.toNat)⟩

/-- the key that an id's own bits state; none for the null id and for unknown kinds -/
def ofId? (id : ObjectId) : Option Key := (ObjectKind.ofId? id).map fun kind => ⟨kind, id⟩

/-- the low 32 bits of the id -/
def index (k : Key) : UInt32 := UInt32.ofNat k.id.toNat

/-- the 16 bits above the index -/
def generation (k : Key) : UInt16 := UInt16.ofNat (k.id.toNat / generationUnit)

/-- the id in sixteen hexadecimal digits -/
def text (k : Key) : String := paddedHexText 16 k.id.toNat

/-- the kind's label and the id -/
def label (k : Key) : String := k.kind.label ++ "(" ++ k.text ++ ")"

/-- order by the kind's code, then by the id -/
instance : LT Key := ⟨fun a b => a.kind.code < b.kind.code ∨ a.kind.code = b.kind.code ∧ a.id < b.id⟩

theorem lt_iff {a b : Key} :
    a < b ↔ a.kind.code < b.kind.code ∨ a.kind.code = b.kind.code ∧ a.id < b.id := Iff.rfl

instance (a b : Key) : Decidable (a < b) := decidable_of_iff _ lt_iff.symm

theorem lt_irrefl (a : Key) : ¬ a < a := by
  simp [lt_iff]

theorem ne_of_lt {a b : Key} (h : a < b) : a ≠ b := fun e => lt_irrefl b (e ▸ h)

theorem lt_trans {a b c : Key} (h : a < b) (g : b < c) : a < c := by
  simp only [lt_iff, UInt64.lt_iff_toNat_lt] at h g ⊢
  omega

theorem lt_asymm {a b : Key} (h : a < b) : ¬ b < a := fun g => lt_irrefl a (lt_trans h g)

/-- two keys neither of which precedes the other are equal -/
theorem eq_of_not_lt {a b : Key} (h : ¬ a < b) (g : ¬ b < a) : a = b := by
  simp only [lt_iff, UInt64.lt_iff_toNat_lt] at h g
  obtain ⟨ka, ia⟩ := a
  obtain ⟨kb, ib⟩ := b
  have hk : ka = kb := ObjectKind.code_inj (by simp only at h g; omega)
  have hi : ia = ib := UInt64.toNat_inj.1 (by simp only at h g; omega)
  rw [hk, hi]

/-- the keys in ascending order -/
def sort (keys : List Key) : List Key := keys.mergeSort fun a b => !decide (b < a)

end Key

/-! ## Typed handles -/

/-- an id that is used as an object of one kind; the null handle is one of every kind -/
structure Handle (kind : ObjectKind) where
  raw : ObjectId
deriving DecidableEq

namespace Handle

variable {kind : ObjectKind}

/-- the handle that names no object -/
def null : Handle kind := ⟨nullId⟩

/-- an id as a handle, if its own bits state the kind -/
def ofId? (kind : ObjectKind) (id : ObjectId) : Option (Handle kind) :=
  if ObjectKind.ofId? id = some kind then some ⟨id⟩ else none

/-- a key as a handle, if it is filed under the kind -/
def ofKey? (kind : ObjectKind) (k : Key) : Option (Handle kind) :=
  if k.kind = kind then some ⟨k.id⟩ else none

/-- the store key of a handle -/
def key (h : Handle kind) : Key := ⟨kind, h.raw⟩

/-- the low 32 bits of the id -/
def index (h : Handle kind) : UInt32 := h.key.index

/-- whether this is the null handle -/
def isNull (h : Handle kind) : Bool := h.raw == nullId

end Handle

/-- a handle on a port -/
abbrev PortId := Handle .port
/-- a handle on a queue -/
abbrev QueueId := Handle .queue
/-- a handle on a buffer pool -/
abbrev PoolId := Handle .pool
/-- a handle on a buffer profile -/
abbrev ProfileId := Handle .profile
/-- a handle on an ingress priority group -/
abbrev PriorityGroupId := Handle .priorityGroup

end SharedBuffer
