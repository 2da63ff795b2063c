/-
What a scan over one kind meets.

Keys are in order of their kinds first, so the records of a kind stand together: reading them from the first to the
last possible key of the kind meets all of them and nothing else.

Results: `Store.ofKind_eq`, and `Store.keysOf_congr`: the keys that a scan meets depend on nothing but what is there.
-/
import Mathlib.Tactic
import SharedBuffer.Store.Basic

namespace SharedBuffer

variable {R : Type}

namespace KeyMap

/-- from a key on means not below it -/
theorem dropWhile_eq_filter {es : List (Key × R)} (hs : es.Pairwise (fun a b => a.1 < b.1)) (low : Key) :
    es.dropWhile (fun e => decide (e.1 < low)) = es.filter fun e => !decide (e.1 < low) := by
  induction es with
  | nil => rfl
  | cons e es ih =>
    obtain ⟨hup, hs⟩ := List.pairwise_cons.1 hs
    by_cases hlow : e.1 < low
    · simp only [List.dropWhile_cons, List.filter_cons, hlow, decide_true, if_true, Bool.not_true, Bool.false_eq_true,
        if_false]
      exact ih hs
    · have hall : ∀ x ∈ es, (!decide (x.1 < low)) = true := by
        intro x hx
        have hx' : ¬ x.1 < low := fun hlt => hlow (Key.lt_trans (hup x hx) hlt)
        simpa using hx'
      rw [List.dropWhile_cons_of_neg (by simpa using hlow), List.filter_cons_of_pos (by simpa using hlow),
        List.filter_eq_self.2 hall]

/-- up to a key means not above it -/
theorem takeWhile_eq_filter {es : List (Key × R)} (hs : es.Pairwise (fun a b => a.1 < b.1)) (high : Key) :
    es.takeWhile (fun e => !decide (high < e.1)) = es.filter fun e => !decide (high < e.1) := by
  induction es with
  | nil => rfl
  | cons e es ih =>
    obtain ⟨hup, hs⟩ := List.pairwise_cons.1 hs
    by_cases hhigh : high < e.1
    · have hall : ∀ x ∈ es, ¬ (!decide (high < x.1)) = true := by
        intro x hx
        have hx' : high < x.1 := Key.lt_trans hhigh (hup x hx)
        simpa using hx'
      rw [List.takeWhile_cons_of_neg (by simpa using hhigh), List.filter_cons_of_neg (by simpa using hhigh),
        List.filter_eq_nil_iff.2 hall]
    · rw [List.takeWhile_cons_of_pos (by simpa using hhigh), List.filter_cons_of_pos (by simpa using hhigh), ih hs]

/-- a scan meets every entry in its range -/
theorem between_eq_filter (m : KeyMap R) (low high : Key) :
    m.between low high = m.entries.filter fun e => !decide (e.1 < low) && !decide (high < e.1) := by
  rw [between, dropWhile_eq_filter m.ascending, takeWhile_eq_filter (m.ascending.filter _), List.filter_filter]
  exact List.filter_congr fun e _ => Bool.and_comm ..

end KeyMap

/-- the keys of a kind lie between its least and its greatest -/
theorem Key.within_kind_iff (kind : ObjectKind) (k : Key) :
    (¬ k < ⟨kind, 0⟩ ∧ ¬ (⟨kind, 0xFFFFFFFFFFFFFFFF⟩ : Key) < k) ↔ k.kind = kind := by
  have hid := k.id.toNat_lt
  have hmax : (0xFFFFFFFFFFFFFFFF : UInt64).toNat = 2 ^ 64 - 1 := rfl
  constructor
  · rintro ⟨hlow, hhigh⟩
    refine ObjectKind.code_inj ?_
    simp only [Key.lt_iff] at hlow hhigh
    omega
  · rintro rfl
    simp only [Key.lt_iff, UInt64.lt_iff_toNat_lt, UInt64.toNat_zero, hmax]
    omega

/-- **A scan over a kind meets its records and no others.** -/
theorem Store.ofKind_eq (s : Store R) (kind : ObjectKind) :
    s.ofKind kind = s.entries.filter fun e => e.1.kind = kind := by
  rw [Store.ofKind, KeyMap.between_eq_filter]
  refine List.filter_congr fun e _ => ?_
  rw [Bool.eq_iff_iff, decide_eq_true_iff, ← Key.within_kind_iff]
  simp

namespace Store

variable {s t : Store R} {k : Key} {kind : ObjectKind}

/-- the keys of a kind that are there -/
def keysOf (s : Store R) (kind : ObjectKind) : List Key := (s.ofKind kind).map Prod.fst

theorem mem_keysOf : k ∈ s.keysOf kind ↔ s.contains k = true ∧ k.kind = kind := by
  simp only [keysOf, ofKind_eq, List.mem_map, List.mem_filter, decide_eq_true_eq]
  constructor
  · rintro ⟨⟨j, r⟩, ⟨hmem, hkind⟩, rfl⟩
    exact ⟨Option.isSome_iff_exists.2 ⟨r, KeyMap.get?_eq_some.2 hmem⟩, hkind⟩
  · rintro ⟨hc, hkind⟩
    obtain ⟨r, hr⟩ := Option.isSome_iff_exists.1 hc
    exact ⟨(k, r), ⟨KeyMap.get?_eq_some.1 hr, hkind⟩, rfl⟩

theorem keysOf_ascending (s : Store R) (kind : ObjectKind) : (s.keysOf kind).Pairwise (· < ·) := by
  rw [keysOf, ofKind_eq, List.pairwise_map]
  exact s.records.ascending.filter _

theorem nodup_keysOf (s : Store R) (kind : ObjectKind) : (s.keysOf kind).Nodup :=
  (s.keysOf_ascending kind).imp Key.ne_of_lt

theorem keysOf_congr (h : ∀ k : Key, k.kind = kind → t.contains k = s.contains k) : t.keysOf kind = s.keysOf kind := by
  refine List.Perm.eq_of_pairwise (fun a b _ _ hab hba => absurd hba (Key.lt_asymm hab)) (t.keysOf_ascending kind)
    (s.keysOf_ascending kind) ?_
  refine (List.perm_ext_iff_of_nodup (t.nodup_keysOf kind) (s.nodup_keysOf kind)).2 fun k => ?_
  rw [mem_keysOf, mem_keysOf]
  exact and_congr_left fun hk => by rw [h k hk]

end Store

end SharedBuffer
