/-
Statuses and their codes.

Sixteen plain statuses have a code of their own. The others carry a position and share three ranges of codes: a range
begins at a base whose lower half is clear, and a position has the place that its own lower half says. No plain code
lies in a range, and ranges do not overlap; so a code tells its status, but for the upper half of a position.

Result: `Status.codes_told_apart`.
-/
import Mathlib.Data.Set.Function
import SharedBuffer.Status

namespace SharedBuffer

namespace Status

/-- a code is known by the number that its bits are without a sign -/
theorem eq_of_toNat_eq {c d : Int32} (h : c.toUInt32.toNat = d.toUInt32.toNat) : c = d := by
  obtain ⟨c⟩ := c
  obtain ⟨d⟩ := d
  exact congrArg Int32.ofUInt32 (UInt32.toNat_inj.1 h)

/-! ## Ranges -/

/-- the ranges of codes that tell a position -/
inductive Range where
  | invalidAttribute
  | invalidAttributeValue
  | unknownAttribute
deriving DecidableEq

namespace Range

/-- the first code of a range -/
def base : Range → UInt32
  | invalidAttribute => invalidAttributeBase
  | invalidAttributeValue => invalidAttributeValueBase
  | unknownAttribute => unknownAttributeBase

/-- the status of a range with a position -/
def status : Range → UInt32 → Status
  | invalidAttribute => Status.invalidAttribute
  | invalidAttributeValue => Status.invalidAttributeValue
  | unknownAttribute => Status.unknownAttribute

/-- a code that lies in a range, as a number without a sign -/
def Holds (r : Range) (c : Int32) : Prop :=
  r.base.toNat ≤ c.toUInt32.toNat ∧ c.toUInt32.toNat < r.base.toNat + 0x10000

instance (r : Range) (c : Int32) : Decidable (r.Holds c) := inferInstanceAs (Decidable (_ ∧ _))

variable {r r' : Range} {c : Int32} {i : UInt32}

/-- ranges begin where the lower half is clear, and stay apart -/
theorem base_toNat (r : Range) : r.base.toNat % 0x10000 = 0 ∧ r.base.toNat ≤ 0xFFFE0000 := by cases r <;> decide

theorem base_inj (h : r.base = r'.base) : r = r' := by
  revert h
  cases r <;> cases r' <;> decide

/-- the upper half of a code tells its range -/
theorem holds_iff : r.Holds c ↔ c.toUInt32 - c.toUInt32 % rangeSize = r.base := by
  have hbase := r.base_toNat
  have hle : c.toUInt32 % rangeSize ≤ c.toUInt32 := by
    rw [UInt32.le_iff_toNat_le, UInt32.toNat_mod]
    exact Nat.mod_le ..
  rw [Holds, ← UInt32.toNat_inj, UInt32.toNat_sub_of_le _ _ hle, UInt32.toNat_mod]
  change _ ↔ c.toUInt32.toNat - c.toUInt32.toNat % 0x10000 = r.base.toNat
  omega

/-- a code lies in one range at most -/
theorem Holds.unique (h : r.Holds c) (h' : r'.Holds c) : r = r' :=
  base_inj ((holds_iff.1 h).symm.trans (holds_iff.1 h'))

/-- a position has its place behind the base, by its lower half -/
theorem toNat_code (r : Range) (i : UInt32) :
    (r.status i).code.toUInt32.toNat = r.base.toNat + i.toNat % 0x10000 := by
  have hbase := r.base_toNat
  have hcode : (r.status i).code.toUInt32 = r.base + i % rangeSize := by cases r <;> rfl
  rw [hcode, UInt32.toNat_add, UInt32.toNat_mod]
  change (r.base.toNat + i.toNat % 0x10000) % 2 ^ 32 = _
  omega

theorem holds_code (r : Range) (i : UInt32) : r.Holds (r.status i).code := by
  rw [Holds, toNat_code]
  omega

/-- a code in a range is that of its lower half -/
theorem Holds.code_eq (h : r.Holds c) : (r.status (c.toUInt32 % rangeSize)).code = c := by
  have hbase := r.base_toNat
  refine eq_of_toNat_eq ?_
  rw [toNat_code, UInt32.toNat_mod]
  change r.base.toNat + c.toUInt32.toNat % 0x10000 % 0x10000 = _
  rw [Holds] at h
  omega

end Range

/-- the range that the code of a status lies in -/
def range? : Status → Option Range
  | invalidAttribute _ => some .invalidAttribute
  | invalidAttributeValue _ => some .invalidAttributeValue
  | unknownAttribute _ => some .unknownAttribute
  | _ => none

variable {s t : Status} {c : Int32}

/-- a status is plain, or one of a range with a position -/
theorem plain_or_range (s : Status) :
    s ∈ plain ∧ s.range? = none ∨ ∃ r i, s = Range.status r i ∧ s.range? = some r := by
  cases s
  case invalidAttribute i => exact .inr ⟨.invalidAttribute, i, rfl, rfl⟩
  case invalidAttributeValue i => exact .inr ⟨.invalidAttributeValue, i, rfl, rfl⟩
  case unknownAttribute i => exact .inr ⟨.unknownAttribute, i, rfl, rfl⟩
  all_goals exact .inl ⟨by decide, rfl⟩

/-- no plain code lies in a range -/
theorem not_holds_of_plain (h : s ∈ plain) (r : Range) : ¬ r.Holds s.code := by
  have hall : ∀ s ∈ plain, ¬ r.Holds s.code := by cases r <;> decide
  exact hall s h

/-- **A code lies in the range of its status**, and in no other. -/
theorem holds_code_iff (r : Range) : r.Holds s.code ↔ s.range? = some r := by
  rcases s.plain_or_range with ⟨hplain, hnone⟩ | ⟨r', i, rfl, hsome⟩
  · simp [not_holds_of_plain hplain r, hnone]
  · rw [hsome, Option.some.injEq]
    exact ⟨fun h => (Range.holds_code r' i).unique h, fun h => h ▸ Range.holds_code r' i⟩

/-! ## Reading a code -/

theorem ofCode_plain (h : s ∈ plain) : ofCode s.code = s := by
  have hall : ∀ s ∈ plain, ofCode s.code = s := by decide
  exact hall s h

theorem ofCode_range {r : Range} (h : r.Holds c) : ofCode c = r.status (c.toUInt32 % rangeSize) := by
  have hnone : plain.find? (fun s => s.code == c) = none := by
    refine List.find?_eq_none.2 fun s hs hcode => not_holds_of_plain hs r ?_
    rwa [eq_of_beq hcode]
  have hupper := Range.holds_iff.1 h
  simp only [ofCode, hnone, hupper]
  cases r <;> rfl

/-- a code that means nothing is taken for a failure -/
theorem ofCode_other (hplain : ∀ s ∈ plain, s.code ≠ c) (hrange : ∀ r : Range, ¬ r.Holds c) : ofCode c = failure := by
  have hnone : plain.find? (fun s => s.code == c) = none :=
    List.find?_eq_none.2 fun s hs hcode => hplain s hs (eq_of_beq hcode)
  simp only [Range.holds_iff] at hrange
  simp only [ofCode, hnone]
  exact (if_neg (hrange .invalidAttribute)).trans
    ((if_neg (hrange .invalidAttributeValue)).trans (if_neg (hrange .unknownAttribute)))

/-- a code is read as a status that has it, or as a failure -/
theorem code_ofCode (c : Int32) : (ofCode c).code = c ∨ ofCode c = failure := by
  by_cases hplain : ∃ s ∈ plain, s.code = c
  · obtain ⟨s, hs, rfl⟩ := hplain
    exact .inl (by rw [ofCode_plain hs])
  by_cases hrange : ∃ r : Range, r.Holds c
  · obtain ⟨r, hr⟩ := hrange
    exact .inl (by rw [ofCode_range hr, hr.code_eq])
  · exact .inr (ofCode_other (fun s hs hc => hplain ⟨s, hs, hc⟩) fun r hr => hrange ⟨r, hr⟩)

/-! ## What a code leaves of a status -/

/-- a status with the lower half of its position -/
def trimmed : Status → Status
  | invalidAttribute i => invalidAttribute (i % rangeSize)
  | invalidAttributeValue i => invalidAttributeValue (i % rangeSize)
  | unknownAttribute i => unknownAttribute (i % rangeSize)
  | s => s

/-- a status whose position fits the lower half of a code, if it has one -/
def Fits (s : Status) : Prop := ∀ i ∈ s.attributeIndex?, i ≤ 0xFFFF

theorem trimmed_plain (h : s ∈ plain) : s.trimmed = s := by
  have hall : ∀ s ∈ plain, s.trimmed = s := by decide
  exact hall s h

theorem trimmed_range (r : Range) (i : UInt32) : (r.status i).trimmed = r.status (i % rangeSize) := by cases r <;> rfl

/-- what fits is all that is left as it is -/
theorem trimmed_eq_self_iff : s.trimmed = s ↔ s.Fits := by
  have hmod : ∀ i : UInt32, i % rangeSize = i ↔ i ≤ 0xFFFF := fun i => by
    rw [← UInt32.toNat_inj, UInt32.toNat_mod, UInt32.le_iff_toNat_le]
    change i.toNat % 0x10000 = i.toNat ↔ i.toNat ≤ 0xFFFF
    omega
  cases s <;> simp [trimmed, Fits, attributeIndex?, hmod]

/-- **A code is read as its status**, but for the upper half of a position. -/
theorem ofCode_code (s : Status) : ofCode s.code = s.trimmed := by
  rcases s.plain_or_range with ⟨hplain, -⟩ | ⟨r, i, rfl, -⟩
  · rw [ofCode_plain hplain, trimmed_plain hplain]
  · have hbase := r.base_toNat
    rw [ofCode_range (r.holds_code i), trimmed_range]
    refine congrArg r.status ?_
    rw [← UInt32.toNat_inj, UInt32.toNat_mod, UInt32.toNat_mod, r.toNat_code]
    change (r.base.toNat + i.toNat % 0x10000) % 0x10000 = i.toNat % 0x10000
    omega

theorem code_trimmed (s : Status) : s.trimmed.code = s.code := by
  rcases s.plain_or_range with ⟨hplain, -⟩ | ⟨r, i, rfl, -⟩
  · rw [trimmed_plain hplain]
  · refine eq_of_toNat_eq ?_
    rw [trimmed_range, r.toNat_code, r.toNat_code, UInt32.toNat_mod]
    change r.base.toNat + i.toNat % 0x10000 % 0x10000 = _
    omega

/-- **Codes tell statuses apart.** The code of a status is read as this status exactly if its position fits 16 bits, and
whatever the position, statuses with one code are the same but for its upper half. Any code is read as a status that has
it, or as a failure if none has. A range holds the codes of its own statuses and of no others, plain or with a position,
each at the place that the lower half of the position says. -/
theorem codes_told_apart :
    (∀ s : Status, ofCode s.code = s ↔ s.Fits) ∧
    (∀ c, (ofCode c).code = c ∨ ofCode c = failure) ∧ (∀ c, (ofCode c).code = c ↔ ∃ s : Status, s.code = c) ∧
    Set.InjOn code {s | s.Fits} ∧ (∀ s t : Status, s.code = t.code ↔ s.trimmed = t.trimmed) ∧
    (∀ (r : Range) (s : Status), r.Holds s.code ↔ s.range? = some r) ∧
    ∀ (r : Range) i, (r.status i).code.toUInt32.toNat = r.base.toNat + i.toNat % 0x10000 := by
  have hcode : ∀ s t : Status, s.code = t.code ↔ s.trimmed = t.trimmed := fun s t =>
    ⟨fun h => by rw [← ofCode_code, h, ofCode_code], fun h => by rw [← code_trimmed, h, code_trimmed]⟩
  refine ⟨fun s => by rw [ofCode_code, trimmed_eq_self_iff], code_ofCode, fun c => ⟨fun h => ⟨_, h⟩, ?_⟩,
    fun s hs t ht h => ?_, hcode, fun r s => holds_code_iff r, Range.toNat_code⟩
  · rintro ⟨s, rfl⟩
    rw [ofCode_code, code_trimmed]
  · rwa [hcode, trimmed_eq_self_iff.2 hs, trimmed_eq_self_iff.2 ht] at h

example : ofCode (unknownAttribute 0x10007).code = unknownAttribute 7 := by decide

end Status

end SharedBuffer
