/-
Scans that go from key to key while the store changes.

A scan starts at the least key and goes on, each time, to the least key above the one it met last, which may be gone by
then. So it only ever climbs, and ends because there are finitely many keys; and what it goes past was not there when it
went past.

Result: `Store.scan_complete`.
-/
import SharedBuffer.Proofs.Store.Scans

namespace SharedBuffer

variable {R : Type}

/-! ## Keys in order -/

namespace Key

/-- the place of a key among all keys -/
def rank (k : Key) : Nat := k.kind.code * 2 ^ 64 + k.id.toNat

/-- the number of places for keys -/
def rankBound : Nat := 256 * 2 ^ 64

theorem rank_lt (k : Key) : k.rank < rankBound := by
  have hcode := k.kind.code_lt
  have hid := k.id.toNat_lt
  simp only [rank, rankBound]
  omega

theorem rank_lt_rank {a b : Key} (h : a < b) : a.rank < b.rank := by
  have ha := a.id.toNat_lt
  have hb := b.id.toNat_lt
  simp only [Key.lt_iff, UInt64.lt_iff_toNat_lt] at h
  simp only [rank]
  omega

/-- a key is above the last one that was met, if one was -/
def Above (last : Option Key) (k : Key) : Prop := ∀ j ∈ last, j < k

theorem above_none (k : Key) : Above none k := fun j hj => absurd hj (Option.not_mem_none j)

/-- how far a scan can still climb -/
def headroom : Option Key → Nat
  | none => rankBound + 1
  | some k => rankBound - k.rank

theorem headroom_lt {last : Option Key} {k : Key} (h : Above last k) : headroom (some k) < headroom last := by
  have hk := k.rank_lt
  cases last with
  | none =>
    simp only [headroom]
    omega
  | some j =>
    have hjk := rank_lt_rank (h j rfl)
    simp only [headroom]
    omega

/-- in ascending order there is one way to list what is there -/
theorem eq_of_ascending {α : Type} (key : α → Key) {l l' : List α} (hl : l.Pairwise fun a b => key a < key b)
    (hl' : l'.Pairwise fun a b => key a < key b) (hmem : ∀ a, a ∈ l ↔ a ∈ l') : l = l' := by
  have hne : ∀ {a b : α}, key a < key b → a ≠ b := fun h heq => Key.ne_of_lt h (congrArg key heq)
  refine List.Perm.eq_of_pairwise (fun a b _ _ hab hba => absurd hba (Key.lt_asymm hab)) hl hl' ?_
  exact (List.perm_ext_iff_of_nodup (hl.imp hne) (hl'.imp hne)).2 hmem

end Key

namespace Store

variable {s : Store R} {looks : Nat → Store R} {last : Option Key} {k : Key} {n : Nat}

/-! ## One step -/

/-- the key that a scan meets after the last one, or first -/
def seek (s : Store R) : Option Key → Option Key
  | none => s.first?
  | some k => s.next? k

/-- a step goes to the least key above -/
theorem of_seek (h : s.seek last = some k) :
    s.contains k = true ∧ Key.Above last k ∧ ∀ j, s.contains j = true → Key.Above last j → ¬ j < k := by
  simp only [contains, ← KeyMap.mem_keys]
  cases last with
  | some i =>
    obtain ⟨hk, hik, hleast⟩ := KeyMap.next?_eq_some.1 h
    exact ⟨hk, fun _ hj => Option.some.inj hj ▸ hik, fun j hj habove => hleast j hj (habove i rfl)⟩
  | none =>
    obtain ⟨e, hhead, rfl⟩ := Option.map_eq_some_iff.1 h
    obtain ⟨es, hes⟩ := List.head?_eq_some_iff.1 hhead
    have hs := s.records.ascending
    rw [hes, List.pairwise_cons] at hs
    rw [KeyMap.keys, hes, List.map_cons]
    refine ⟨List.mem_cons_self, Key.above_none _, fun j hj _ => ?_⟩
    obtain rfl | hj := List.mem_cons.1 hj
    · exact Key.lt_irrefl _
    · obtain ⟨x, hx, rfl⟩ := List.mem_map.1 hj
      exact Key.lt_asymm (hs.1 x hx)

/-- a scan ends where nothing is above -/
theorem of_seek_none (h : s.seek last = none) (hk : s.contains k = true) : ¬ Key.Above last k := by
  obtain ⟨e, he, rfl⟩ := List.mem_map.1 (KeyMap.mem_keys.2 hk)
  intro habove
  cases last with
  | some i =>
    have hnone := List.find?_eq_none.1 (Option.map_eq_none_iff.1 h) e he
    exact hnone (decide_eq_true (habove i rfl))
  | none =>
    have hnil : s.records.entries = [] := List.head?_eq_none_iff.1 (Option.map_eq_none_iff.1 h)
    rw [hnil] at he
    exact List.not_mem_nil he

/-! ## Whole scans -/

/-- the keys that a scan still meets after the last one, when the store it looks at is another one each time -/
def scanFrom (looks : Nat → Store R) (n : Nat) (last : Option Key) : List Key :=
  match h : (looks n).seek last with
  | none => []
  | some k => k :: scanFrom looks (n + 1) (some k)
termination_by Key.headroom last
decreasing_by exact Key.headroom_lt (of_seek h).2.1

theorem scanFrom_none (h : (looks n).seek last = none) : scanFrom looks n last = [] := by
  rw [scanFrom]
  split
  · rfl
  · rename_i k hk
    cases h.symm.trans hk

theorem scanFrom_some (h : (looks n).seek last = some k) :
    scanFrom looks n last = k :: scanFrom looks (n + 1) (some k) := by
  rw [scanFrom]
  split
  · rename_i hk
    cases h.symm.trans hk
  · rename_i j hj
    cases h.symm.trans hj
    rfl

/-- a scan only climbs -/
theorem scanFrom_ascending (looks : Nat → Store R) (n : Nat) (last : Option Key) :
    (∀ k ∈ scanFrom looks n last, Key.Above last k) ∧ (scanFrom looks n last).Pairwise (· < ·) := by
  induction n, last using scanFrom.induct looks with
  | case1 n last h =>
    rw [scanFrom_none h]
    exact ⟨fun k hk => absurd hk List.not_mem_nil, .nil⟩
  | case2 n last k h ih =>
    obtain ⟨-, habove, -⟩ := of_seek h
    rw [scanFrom_some h]
    refine ⟨fun j hj => ?_, List.pairwise_cons.2 ⟨fun j hj => ih.1 j hj k rfl, ih.2⟩⟩
    obtain rfl | hj := List.mem_cons.1 hj
    · exact habove
    · exact fun i hi => Key.lt_trans (habove i hi) (ih.1 j hj k rfl)

/-- what a scan meets was there when it looked -/
theorem contains_of_scanFrom (looks : Nat → Store R) (n : Nat) (last : Option Key) {i : Nat}
    (h : (scanFrom looks n last)[i]? = some k) : (looks (n + i)).contains k = true := by
  induction n, last using scanFrom.induct looks generalizing i with
  | case1 n last hseek =>
    rw [scanFrom_none hseek] at h
    cases h
  | case2 n last j hseek ih =>
    rw [scanFrom_some hseek] at h
    cases i with
    | zero =>
      rw [List.getElem?_cons_zero] at h
      exact Option.some.inj h ▸ (of_seek hseek).1
    | succ i =>
      rw [List.getElem?_cons_succ] at h
      rw [← Nat.succ_add_eq_add_succ]
      exact ih h

/-- what a scan does not meet, though it is above, is missing when it looks somewhere: the scan would have to go past it -/
theorem mem_scanFrom (looks : Nat → Store R) (n : Nat) (last : Option Key) (habove : Key.Above last k)
    (h : ∀ i ≤ (scanFrom looks n last).length, (looks (n + i)).contains k = true) : k ∈ scanFrom looks n last := by
  induction n, last using scanFrom.induct looks with
  | case1 n last hseek => exact absurd habove (of_seek_none hseek (h 0 (Nat.zero_le _)))
  | case2 n last j hseek ih =>
    rw [scanFrom_some hseek] at h ⊢
    rw [List.length_cons] at h
    obtain ⟨-, -, hleast⟩ := of_seek hseek
    by_cases hjk : j < k
    · refine List.mem_cons_of_mem _ (ih (fun i hi => Option.some.inj hi ▸ hjk) fun i hi => ?_)
      rw [Nat.succ_add_eq_add_succ]
      exact h (i + 1) (Nat.succ_le_succ hi)
    · obtain rfl := Key.eq_of_not_lt hjk (hleast k (h 0 (Nat.zero_le _)) habove)
      exact List.mem_cons_self

/-! ## Edits between the steps -/

/-- a change that others make to a store while it is scanned -/
inductive Edit (R : Type) where
  | insert (k : Key) (r : R)
  | remove (k : Key)

/-- the store after an edit; an insertion that is refused leaves it as it was -/
def Edit.apply (s : Store R) : Edit R → Store R
  | .insert k r => ((Store.insert k r).run s).2
  | .remove k => s.remove k

/-- the store after some rounds of edits -/
def edited (s : Store R) (edits : Nat → List (Edit R)) : Nat → Store R
  | 0 => s
  | n + 1 => (edits n).foldl Edit.apply (s.edited edits n)

/-- the keys that a scan meets, with a round of edits after each step -/
def scan (s : Store R) (edits : Nat → List (Edit R)) : List Key := scanFrom (s.edited edits) 0 none

theorem edited_nil (s : Store R) (n : Nat) : s.edited (fun _ => []) n = s := by
  induction n with
  | zero => rfl
  | succ n ih => exact ih

/-- undisturbed, a scan meets what is there -/
theorem scan_undisturbed (s : Store R) : s.scan (fun _ => []) = s.entries.map Prod.fst := by
  refine Key.eq_of_ascending id (scanFrom_ascending _ 0 none).2 (List.pairwise_map.2 s.records.ascending)
    fun k => ?_
  change _ ↔ k ∈ s.records.keys
  rw [KeyMap.mem_keys]
  constructor
  · intro hk
    obtain ⟨i, hi⟩ := List.mem_iff_getElem?.1 hk
    exact s.edited_nil _ ▸ contains_of_scanFrom _ 0 none hi
  · exact fun hk => mem_scanFrom _ 0 none (Key.above_none k) fun i _ => (s.edited_nil _).symm ▸ hk

/-- the kinds one after the other are everything -/
theorem flatMap_ofKind (s : Store R) : ObjectKind.all.flatMap s.ofKind = s.entries := by
  have hkinds : ObjectKind.all.Pairwise fun a b => a.code < b.code := by decide
  have hof : ∀ {kind e}, e ∈ s.ofKind kind ↔ e ∈ s.entries ∧ e.1.kind = kind := by
    simp only [ofKind_eq, List.mem_filter, decide_eq_true_eq, implies_true]
  refine Key.eq_of_ascending Prod.fst (List.pairwise_flatMap.2 ⟨fun kind _ => ?_, ?_⟩) s.records.ascending
    fun e => ?_
  · rw [ofKind_eq]
    exact s.records.ascending.filter _
  · refine hkinds.imp fun {a b} hab x hx y hy => .inl ?_
    rwa [(hof.1 hx).2, (hof.1 hy).2]
  · rw [List.mem_flatMap]
    refine ⟨fun ⟨_, _, he⟩ => (hof.1 he).1, fun he => ⟨e.1.kind, ?_, hof.2 ⟨he, rfl⟩⟩⟩
    cases e.1.kind <;> decide

/-- **A scan is complete, whatever happens to the store meanwhile.** Whatever is put in or taken out between its steps,
the keys that a scan meets ascend, so that it meets none twice; each was there when the scan looked; and a key that is
there whenever the scan looks, until nothing is left above the last, is met. If nothing happens, a scan meets just the
entries in their order. The entries of a kind are those filed under it, whatever its bits say of an id, and the kinds one
after the other make up all entries. -/
theorem scan_complete (s : Store R) (edits : Nat → List (Edit R)) :
    (s.scan edits).Pairwise (· < ·) ∧
    (∀ n k, (s.scan edits)[n]? = some k → (s.edited edits n).contains k = true) ∧
    (∀ k, (∀ n ≤ (s.scan edits).length, (s.edited edits n).contains k = true) → k ∈ s.scan edits) ∧
    s.scan (fun _ => []) = s.entries.map Prod.fst ∧
    (∀ kind, s.ofKind kind = s.entries.filter fun e => e.1.kind = kind) ∧
    ObjectKind.all.flatMap s.ofKind = s.entries := by
  refine ⟨(scanFrom_ascending _ 0 none).2, fun n k hk => ?_, fun k hk => ?_, s.scan_undisturbed, s.ofKind_eq,
    s.flatMap_ofKind⟩
  · exact Nat.zero_add n ▸ contains_of_scanFrom _ 0 none hk
  · exact mem_scanFrom _ 0 none (Key.above_none k) fun n hn => (Nat.zero_add n).symm ▸ hk n hn

end Store

end SharedBuffer
