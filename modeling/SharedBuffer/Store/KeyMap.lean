/-
Finite maps from keys, as lists of entries in strictly ascending key order.

The order is part of the type, so a map has one representation (`ext`). Main statements: what `get?` answers after each
operation (`get?_insert`, `get?_erase`, `get?_modify`), and what a scan meets (`mem_keys`, `next?_eq_some`).
-/
import SharedBuffer.Object.Key

namespace SharedBuffer

/-- entries in strictly ascending key order -/
structure KeyMap (R : Type) where
  entries : List (Key × R)
  ascending : entries.Pairwise (fun a b => a.1 < b.1)

namespace KeyMap

variable {R : Type}

/-- two maps with the same entries are the same -/
theorem ext {m n : KeyMap R} (h : m.entries = n.entries) : m = n := by
  cases m; cases n; cases h; rfl

/-- the map without entries -/
def empty : KeyMap R := ⟨[], List.Pairwise.nil⟩

/-- the number of entries -/
def size (m : KeyMap R) : Nat := m.entries.length

/-- the keys, ascending -/
def keys (m : KeyMap R) : List Key := m.entries.map Prod.fst

/-! ## Look-up -/

/-- the record of a key in a list of entries -/
def lookup (k : Key) : List (Key × R) → Option R
  | [] => none
  | (k', r) :: rest => if k = k' then some r else lookup k rest

/-- the record of a key -/
def get? (m : KeyMap R) (k : Key) : Option R := lookup k m.entries

/-- whether a key has a record -/
def contains (m : KeyMap R) (k : Key) : Bool := (m.get? k).isSome

theorem mem_of_lookup {k : Key} {r : R} {es : List (Key × R)} (h : lookup k es = some r) : (k, r) ∈ es := by
  induction es with
  | nil => simp [lookup] at h
  | cons e es ih =>
    obtain ⟨k', r'⟩ := e
    rw [lookup] at h
    split at h
    · rename_i hk; subst hk; simp only [Option.some.injEq] at h; subst h; simp
    · exact List.mem_cons_of_mem _ (ih h)

theorem lookup_of_mem {k : Key} {r : R} {es : List (Key × R)} (hs : es.Pairwise (fun a b => a.1 < b.1))
    (h : (k, r) ∈ es) : lookup k es = some r := by
  induction es with
  | nil => simp at h
  | cons e es ih =>
    obtain ⟨k', r'⟩ := e
    rw [List.pairwise_cons] at hs
    rw [lookup]
    rcases List.mem_cons.1 h with h | h
    · cases h; simp
    · have hne : k ≠ k' := fun e => Key.lt_irrefl k' (e ▸ hs.1 _ h)
      rw [if_neg hne]
      exact ih hs.2 h

theorem get?_eq_some {m : KeyMap R} {k : Key} {r : R} : m.get? k = some r ↔ (k, r) ∈ m.entries :=
  ⟨mem_of_lookup, lookup_of_mem m.ascending⟩

theorem mem_keys {m : KeyMap R} {k : Key} : k ∈ m.keys ↔ m.contains k = true := by
  constructor
  · intro h
    obtain ⟨⟨k', r⟩, he, rfl⟩ := List.mem_map.1 h
    simp [contains, get?_eq_some.2 he]
  · intro h
    obtain ⟨r, hr⟩ := Option.isSome_iff_exists.1 h
    exact List.mem_map.2 ⟨(k, r), get?_eq_some.1 hr, rfl⟩

/-- maps that answer alike are the same -/
theorem ext_get? {m n : KeyMap R} (h : ∀ k, m.get? k = n.get? k) : m = n := by
  apply ext
  obtain ⟨es, hs⟩ := m
  obtain ⟨fs, ht⟩ := n
  have hmem : ∀ e, e ∈ es ↔ e ∈ fs := by
    intro e
    have := h e.1
    constructor
    · intro he
      have h1 : (KeyMap.mk es hs).get? e.1 = some e.2 := get?_eq_some.2 he
      rw [this] at h1
      exact get?_eq_some.1 h1
    · intro he
      have h1 : (KeyMap.mk fs ht).get? e.1 = some e.2 := get?_eq_some.2 he
      rw [← this] at h1
      exact get?_eq_some.1 h1
  clear h
  simp only
  induction es generalizing fs with
  | nil =>
    cases fs with
    | nil => rfl
    | cons f fs => exact absurd ((hmem f).2 (by simp)) (by simp)
  | cons e es ih =>
    cases fs with
    | nil => exact absurd ((hmem e).1 (by simp)) (by simp)
    | cons f fs =>
      rw [List.pairwise_cons] at hs ht
      have hef : e = f := by
        rcases List.mem_cons.1 ((hmem e).1 (by simp)) with h1 | h1
        · exact h1
        · rcases List.mem_cons.1 ((hmem f).2 (by simp)) with h2 | h2
          · exact h2.symm
          · exact absurd (hs.1 f h2) (Key.lt_asymm (ht.1 e h1))
      subst hef
      have hne : ∀ x, x ∈ es ∨ x ∈ fs → x ≠ e := by
        rintro x (hx | hx) rfl
        · exact Key.lt_irrefl _ (hs.1 _ hx)
        · exact Key.lt_irrefl _ (ht.1 _ hx)
      rw [ih hs.2 fs ht.2 fun x => ?_]
      constructor
      · intro hx
        rcases List.mem_cons.1 ((hmem x).1 (List.mem_cons_of_mem _ hx)) with h1 | h1
        · exact absurd h1 (hne x (.inl hx))
        · exact h1
      · intro hx
        rcases List.mem_cons.1 ((hmem x).2 (List.mem_cons_of_mem _ hx)) with h1 | h1
        · exact absurd h1 (hne x (.inr hx))
        · exact h1

/-! ## Insertion -/

/-- puts an entry in its place, over one with the same key -/
def insertEntry (k : Key) (r : R) : List (Key × R) → List (Key × R)
  | [] => [(k, r)]
  | (k', r') :: rest =>
    if k < k' then (k, r) :: (k', r') :: rest
    else if k = k' then (k, r) :: rest
    else (k', r') :: insertEntry k r rest

theorem mem_insertEntry {k : Key} {r : R} {e : Key × R} {es : List (Key × R)} (h : e ∈ insertEntry k r es) :
    e = (k, r) ∨ e ∈ es := by
  induction es with
  | nil => exact .inl (by simpa [insertEntry] using h)
  | cons e' es ih =>
    obtain ⟨k', r'⟩ := e'
    rw [insertEntry] at h
    split at h
    · rcases List.mem_cons.1 h with h | h
      · exact .inl h
      · exact .inr h
    · split at h
      · rcases List.mem_cons.1 h with h | h
        · exact .inl h
        · exact .inr (List.mem_cons_of_mem _ h)
      · rcases List.mem_cons.1 h with h | h
        · exact .inr (by simp [h])
        · rcases ih h with h | h
          · exact .inl h
          · exact .inr (List.mem_cons_of_mem _ h)

theorem ascending_insertEntry {k : Key} {r : R} {es : List (Key × R)}
    (hs : es.Pairwise (fun a b => a.1 < b.1)) : (insertEntry k r es).Pairwise (fun a b => a.1 < b.1) := by
  induction es with
  | nil => simp [insertEntry]
  | cons e es ih =>
    obtain ⟨k', r'⟩ := e
    have hc := List.pairwise_cons.1 hs
    rw [insertEntry]
    split
    · rename_i hlt
      refine List.pairwise_cons.2 ⟨fun b hb => ?_, hs⟩
      rcases List.mem_cons.1 hb with rfl | hb
      · exact hlt
      · exact Key.lt_trans hlt (hc.1 b hb)
    · split
      · rename_i hk; subst hk; exact List.pairwise_cons.2 ⟨hc.1, hc.2⟩
      · rename_i hlt hk
        refine List.pairwise_cons.2 ⟨fun b hb => ?_, ih hc.2⟩
        rcases mem_insertEntry hb with rfl | hb
        · simp only
          by_cases hgt : k' < k
          · exact hgt
          · exact absurd (Key.eq_of_not_lt hlt hgt) hk
        · exact hc.1 b hb

/-- the map with a record under a key, over one already there -/
def insert (m : KeyMap R) (k : Key) (r : R) : KeyMap R :=
  ⟨insertEntry k r m.entries, ascending_insertEntry m.ascending⟩

theorem lookup_insertEntry (k j : Key) (r : R) (es : List (Key × R)) :
    lookup j (insertEntry k r es) = if j = k then some r else lookup j es := by
  induction es with
  | nil => simp [insertEntry, lookup]
  | cons e es ih =>
    obtain ⟨k', r'⟩ := e
    rw [insertEntry]
    split
    · rw [lookup]
    · split
      · rename_i hk; subst hk; rw [lookup, lookup]; split <;> rfl
      · rename_i hk
        rw [lookup, lookup, ih]
        by_cases h1 : j = k'
        · have h2 : j ≠ k := fun h2 => hk (h2 ▸ h1)
          rw [if_pos h1, if_pos h1, if_neg h2]
        · rw [if_neg h1, if_neg h1]

theorem get?_insert (m : KeyMap R) (k j : Key) (r : R) :
    (m.insert k r).get? j = if j = k then some r else m.get? j := lookup_insertEntry k j r m.entries

/-! ## Removal -/

/-- the map without a key -/
def erase (m : KeyMap R) (k : Key) : KeyMap R :=
  ⟨m.entries.filter (fun e => !decide (e.1 = k)), m.ascending.filter _⟩

theorem lookup_filter (k j : Key) (es : List (Key × R)) :
    lookup j (es.filter (fun e => !decide (e.1 = k))) = if j = k then none else lookup j es := by
  induction es with
  | nil => simp [lookup]
  | cons e es ih =>
    obtain ⟨k', r'⟩ := e
    rw [List.filter_cons]
    by_cases hk : k' = k
    · subst hk
      simp only [decide_true, Bool.not_true, Bool.false_eq_true, if_false, ih, lookup]
      split <;> rfl
    · simp only [hk, decide_false, Bool.not_false, if_true, lookup, ih]
      by_cases h1 : j = k'
      · have h2 : j ≠ k := fun h2 => hk (h2 ▸ h1.symm)
        rw [if_pos h1, if_pos h1, if_neg h2]
      · rw [if_neg h1, if_neg h1]

theorem get?_erase (m : KeyMap R) (k j : Key) :
    (m.erase k).get? j = if j = k then none else m.get? j := lookup_filter k j m.entries

/-! ## Change in place -/

/-- changes the record of a key in a list of entries -/
def modifyEntry (k : Key) (f : R → R) : List (Key × R) → List (Key × R)
  | [] => []
  | (k', r) :: rest => if k = k' then (k', f r) :: rest else (k', r) :: modifyEntry k f rest

theorem keys_modifyEntry (k : Key) (f : R → R) (es : List (Key × R)) :
    (modifyEntry k f es).map Prod.fst = es.map Prod.fst := by
  induction es with
  | nil => rfl
  | cons e es ih =>
    obtain ⟨k', r⟩ := e
    rw [modifyEntry]
    split
    · rfl
    · rw [List.map_cons, ih]; rfl

theorem ascending_modifyEntry {k : Key} {f : R → R} {es : List (Key × R)}
    (hs : es.Pairwise (fun a b => a.1 < b.1)) : (modifyEntry k f es).Pairwise (fun a b => a.1 < b.1) := by
  have h : ((modifyEntry k f es).map Prod.fst).Pairwise (fun a b => a < b) := by
    rw [keys_modifyEntry]
    exact List.pairwise_map.2 hs
  exact List.pairwise_map.1 h

/-- the map with one record changed, where there is one -/
def modify (m : KeyMap R) (k : Key) (f : R → R) : KeyMap R :=
  ⟨modifyEntry k f m.entries, ascending_modifyEntry m.ascending⟩

theorem lookup_modifyEntry (k j : Key) (f : R → R) (es : List (Key × R)) :
    lookup j (modifyEntry k f es) = if j = k then (lookup j es).map f else lookup j es := by
  induction es with
  | nil => simp [modifyEntry, lookup]
  | cons e es ih =>
    obtain ⟨k', r⟩ := e
    rw [modifyEntry]
    split
    · rename_i hk; subst hk
      simp only [lookup]
      by_cases h1 : j = k
      · rw [if_pos h1, if_pos h1, if_pos h1]; rfl
      · rw [if_neg h1, if_neg h1, if_neg h1]
    · rename_i hk
      simp only [lookup, ih]
      by_cases h1 : j = k'
      · have h2 : j ≠ k := fun h2 => hk (h2 ▸ h1)
        rw [if_pos h1, if_pos h1, if_neg h2]
      · rw [if_neg h1, if_neg h1]

theorem get?_modify (m : KeyMap R) (k j : Key) (f : R → R) :
    (m.modify k f).get? j = if j = k then (m.get? j).map f else m.get? j := lookup_modifyEntry k j f m.entries

/-! ## Scans in key order -/

/-- the smallest key -/
def first? (m : KeyMap R) : Option Key := m.entries.head?.map Prod.fst

/-- the smallest key above a given one, which need not be in the map -/
def next? (m : KeyMap R) (k : Key) : Option Key :=
  (m.entries.find? (fun e => decide (k < e.1))).map Prod.fst

/-- the entries from one key on and up to another, both included -/
def between (m : KeyMap R) (low high : Key) : List (Key × R) :=
  (m.entries.dropWhile (fun e => decide (e.1 < low))).takeWhile (fun e => !decide (high < e.1))

/-- a scan that went on to `n` skipped nothing between -/
theorem next?_eq_some {m : KeyMap R} {k n : Key} :
    m.next? k = some n ↔ n ∈ m.keys ∧ k < n ∧ ∀ j ∈ m.keys, k < j → ¬ j < n := by
  obtain ⟨es, hs⟩ := m
  simp only [next?, keys]
  induction es with
  | nil => simp
  | cons e es ih =>
    obtain ⟨k', r⟩ := e
    have hc := List.pairwise_cons.1 hs
    have hup : ∀ j ∈ es.map Prod.fst, k' < j := by
      intro j hj
      obtain ⟨e, he, rfl⟩ := List.mem_map.1 hj
      exact hc.1 e he
    rw [List.find?_cons]
    by_cases hlt : k < k'
    · simp only [hlt, decide_true, Option.map_some, Option.some.injEq, List.map_cons, List.mem_cons]
      constructor
      · rintro rfl
        refine ⟨.inl rfl, hlt, ?_⟩
        rintro j (rfl | hj) _
        · exact Key.lt_irrefl _
        · exact Key.lt_asymm (hup j hj)
      · rintro ⟨hn | hn, _, hmin⟩
        · exact hn.symm
        · exact absurd (hup n hn) (hmin k' (.inl rfl) hlt)
    · simp only [hlt, decide_false, List.map_cons, List.mem_cons]
      rw [ih hc.2]
      constructor
      · rintro ⟨hn, hkn, hmin⟩
        refine ⟨.inr hn, hkn, ?_⟩
        rintro j (rfl | hj) hkj
        · exact absurd hkj hlt
        · exact hmin j hj hkj
      · rintro ⟨hn | hn, hkn, hmin⟩
        · subst hn; exact absurd hkn hlt
        · exact ⟨hn, hkn, fun j hj => hmin j (.inr hj)⟩

end KeyMap

end SharedBuffer
