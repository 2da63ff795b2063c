/-
The memory of a direction, in exact numbers.

The sizes of a direction's pools are added up with a sum that stops at the largest 64-bit amount. A switch has less
memory than that, so the sum is refused exactly if the exact one does not fit.

Results:
- `checkDirection_new_iff`: a new pool has room exactly if there are few enough pools, and enough bytes;
- `checkDirection_resized_iff`: another size has room exactly if the sizes fit once the pool has it;
- `checkDirection_resized_again`: whether a size has room does not depend on the size that the pool has.
-/
import SharedBuffer.Proofs.Manager.Changes
import SharedBuffer.Proofs.Store.Scans

namespace SharedBuffer

namespace Store

/-- the pools of a direction among some records -/
def poolsAmong (direction : Direction) (es : List (Key × Record)) : List Pool :=
  es.filterMap fun e => e.2.asPool?.filter fun p => p.direction = direction

/-- the live pools of a direction -/
def poolsIn (s : Store Record) (direction : Direction) : List Pool := poolsAmong direction s.entries

/-- the sizes of some pools together -/
def bytes (pools : List Pool) : Nat := (pools.map fun p => p.size.toNat).sum

/-- the sizes of the live pools of a direction together -/
def bytesIn (s : Store Record) (direction : Direction) : Nat := bytes (s.poolsIn direction)

end Store

namespace Manager

variable {m : Manager} {direction : Direction} {resized : Option Key} {size : UInt64}

/-- a pool is found under a key of its kind -/
theorem poolsOf_eq {hw : Hardware} {L : Layout} (w : Wired hw m.store L none) (direction : Direction)
    (resized : Option Key) :
    m.poolsOf direction resized = Store.poolsAmong direction (m.store.entries.filter fun e => resized ≠ some e.1) := by
  have hkind : ∀ e ∈ m.store.entries, e.2.asPool? ≠ none → e.1.kind = .pool := by
    rintro ⟨k, r⟩ he hr
    rw [← w.kind_eq (KeyMap.get?_eq_some.2 he)]
    cases r
    case pool => rfl
    all_goals exact absurd rfl hr
  rw [poolsOf, Store.ofKind_eq, Store.poolsAmong, List.filterMap_filter, List.filterMap_filter]
  refine List.filterMap_congr fun e he => ?_
  cases hp : e.2.asPool? with
  | none => simp [hp]
  | some p =>
    have hk := hkind e he (by simp [hp])
    by_cases hex : resized = some e.1
    · simp [hk, hex]
    · simp [hk, hex, hp]

/-- with no pool left out, the pools that are checked are the live ones -/
theorem poolsOf_none {hw : Hardware} {L : Layout} (w : Wired hw m.store L none) (direction : Direction) :
    m.poolsOf direction none = m.store.poolsIn direction := by
  rw [poolsOf_eq w, Store.poolsIn, List.filter_eq_self.2 fun e _ => by simp]

/-- however much memory there is, a new pool needs a place of its own -/
theorem lt_limit_of_checkDirection {hw : Hardware} {L : Layout} (w : Wired hw m.store L none)
    (h : m.checkDirection direction none size = .ok ()) :
    (m.store.poolsIn direction).length < m.hardware.maxPoolsPerDirection.toNat := by
  unfold checkDirection at h
  simp only [Option.isNone_none, Bool.true_and, decide_eq_true_eq] at h
  split at h
  · cases h
  · rename_i hlt
    rw [← poolsOf_none w]
    exact Nat.lt_of_not_le hlt

/-- the check of a direction in exact numbers -/
theorem checkDirection_ok_iff (htotal : m.hardware.totalBytes.toNat < UInt64.size - 1) :
    m.checkDirection direction resized size = .ok () ↔
      (resized = none → (m.poolsOf direction none).length < m.hardware.maxPoolsPerDirection.toNat) ∧
        Store.bytes (m.poolsOf direction resized) + size.toNat ≤ m.hardware.totalBytes.toNat := by
  have hsum : ((m.poolsOf direction resized).foldl (fun sum p => saturatingAdd sum p.size) size).toNat =
      min (size.toNat + Store.bytes (m.poolsOf direction resized)) (UInt64.size - 1) := by
    have hmap := toNat_foldl_saturatingAdd ((m.poolsOf direction resized).map Pool.size) size
    rwa [List.foldl_map, List.map_map] at hmap
  have hfit : m.hardware.totalBytes <
      (m.poolsOf direction resized).foldl (fun sum p => saturatingAdd sum p.size) size ↔
      m.hardware.totalBytes.toNat < Store.bytes (m.poolsOf direction resized) + size.toNat := by
    rw [UInt64.lt_iff_toNat_lt, hsum]
    omega
  cases resized with
  | none =>
    simp only [checkDirection, Option.isNone_none, Bool.true_and, decide_eq_true_eq, hfit]
    split
    · simp only [reduceCtorEq, forall_const, false_iff]
      omega
    · split
      · simp only [reduceCtorEq, forall_const, false_iff]
        omega
      · simp only [forall_const, true_iff]
        omega
  | some k =>
    simp only [checkDirection, Option.isNone_some, Bool.false_and, Bool.false_eq_true, if_false, hfit, reduceCtorEq,
      false_implies, true_and]
    split
    · simp only [reduceCtorEq, false_iff]
      omega
    · simp only [true_iff]
      omega

/-- where a direction has no room, resources are insufficient -/
theorem insufficient_of_checkDirection {e : Fault} (h : m.checkDirection direction resized size = .error e) :
    ∃ reason, e = .insufficientResources reason := by
  unfold checkDirection at h
  dsimp only at h
  split at h
  · exact ⟨_, (Except.error.inj h).symm⟩
  · split at h
    · exact ⟨_, (Except.error.inj h).symm⟩
    · cases h

/-- **A new pool has room exactly if its direction has few enough pools and enough bytes.** -/
theorem checkDirection_new_iff {hw : Hardware} {L : Layout} (w : Wired hw m.store L none)
    (htotal : m.hardware.totalBytes.toNat < UInt64.size - 1) :
    m.checkDirection direction none size = .ok () ↔
      (m.store.poolsIn direction).length < m.hardware.maxPoolsPerDirection.toNat ∧
        m.store.bytesIn direction + size.toNat ≤ m.hardware.totalBytes.toNat := by
  rw [checkDirection_ok_iff htotal, poolsOf_none w]
  simp only [forall_const, Store.bytesIn]

end Manager

namespace Store

variable {k : Key} {p : Pool} {size : UInt64}

theorem poolsAmong_cons (direction : Direction) (e : Key × Record) (es : List (Key × Record)) :
    bytes (poolsAmong direction (e :: es)) =
      ((e.2.asPool?.filter fun p => p.direction = direction).elim 0 fun p => p.size.toNat) +
        bytes (poolsAmong direction es) := by
  rw [poolsAmong, List.filterMap_cons]
  cases e.2.asPool?.filter fun p => p.direction = direction with
  | none => simp [poolsAmong]
  | some p => simp [poolsAmong, bytes]

/-- resizing a pool takes its old size from the sum and adds the new one -/
theorem bytes_modifyEntry {es : List (Key × Record)} (hs : es.Pairwise (fun a b => a.1 < b.1))
    (hp : (k, .pool p) ∈ es) :
    bytes (poolsAmong p.direction (KeyMap.modifyEntry k (Record.mapPool fun p => { p with size }) es)) =
      bytes (poolsAmong p.direction (es.filter fun e => some k ≠ some e.1)) + size.toNat := by
  induction es with
  | nil => simp at hp
  | cons e es ih =>
    obtain ⟨k', r⟩ := e
    obtain ⟨hup, hs⟩ := List.pairwise_cons.1 hs
    rw [KeyMap.modifyEntry]
    by_cases hk : k = k'
    · subst hk
      have hr : r = .pool p := by
        rcases List.mem_cons.1 hp with he | he
        · exact (Prod.mk.inj he).2.symm
        · exact absurd (hup _ he) (Key.lt_irrefl k)
      have hrest : ∀ e ∈ es, (some k ≠ some e.1) := fun e he hke =>
        Key.lt_irrefl k (by simpa [← Option.some.inj hke] using hup e he)
      subst hr
      rw [if_pos rfl, poolsAmong_cons, List.filter_cons_of_neg (by simp),
        List.filter_eq_self.2 fun e he => by simpa using hrest e he]
      simp [Record.mapPool, Record.asPool?, Option.filter_some, Nat.add_comm]
    · have hp : (k, Record.pool p) ∈ es := by
        rcases List.mem_cons.1 hp with he | he
        · exact absurd (Prod.mk.inj he).1 hk
        · exact he
      rw [if_neg hk, poolsAmong_cons, ih hs hp, List.filter_cons_of_pos (by simpa using hk), poolsAmong_cons,
        Nat.add_assoc]

end Store

/-- **Another size of a pool has room exactly if the sizes of its direction fit once it has it.** -/
theorem Manager.checkDirection_resized_iff {m : Manager} {hw : Hardware} {L : Layout} (w : Wired hw m.store L none)
    (htotal : m.hardware.totalBytes.toNat < UInt64.size - 1) {k : Key} {p : Pool} (hp : m.store.pool? k = some p)
    {size : UInt64} {t : Store Record} (ht : (Change.poolSize k size).apply.run m.store = (.ok (), t)) :
    m.checkDirection p.direction (some k) size = .ok () ↔
      t.bytesIn p.direction ≤ m.hardware.totalBytes.toNat := by
  rw [Change.apply, Store.ofStore_modify_run (Store.contains_of_pool? hp), Prod.mk.injEq] at ht
  have hbytes : t.bytesIn p.direction = Store.bytes (m.poolsOf p.direction (some k)) + size.toNat := by
    rw [← ht.2, poolsOf_eq w]
    exact Store.bytes_modifyEntry m.store.records.ascending (KeyMap.get?_eq_some.1 (Store.pool?_eq_some.1 hp))
  rw [checkDirection_ok_iff htotal, hbytes]
  simp only [reduceCtorEq, false_implies, true_and]

/-! ## The other pools -/

/-- changing the record under a key changes no entry but its own -/
theorem KeyMap.others_modifyEntry {R : Type} (k : Key) (f : R → R) (es : List (Key × R)) :
    ((modifyEntry k f es).filter fun e => some k ≠ some e.1) = es.filter fun e => some k ≠ some e.1 := by
  induction es with
  | nil => rfl
  | cons e es ih =>
    obtain ⟨j, r⟩ := e
    rw [modifyEntry]
    by_cases hk : k = j
    · rw [if_pos hk, List.filter_cons_of_neg (by simp [hk]), List.filter_cons_of_neg (by simp [hk])]
    · rw [if_neg hk, List.filter_cons_of_pos (by simp [hk]), List.filter_cons_of_pos (by simp [hk]), ih]

/-- the figures of one pool are written into no other record -/
theorem Store.others_written {s : Store Record} {k : Key} {figures : List (Key × Totals)}
    (h : figures.map Prod.fst = [k]) :
    ((s.written figures).entries.filter fun e => some k ≠ some e.1) = s.entries.filter fun e => some k ≠ some e.1 := by
  obtain ⟨⟨j, tot⟩, rfl, rfl⟩ := List.map_eq_singleton_iff.1 h
  exact KeyMap.others_modifyEntry j _ s.entries

/-- **Whether a size has room does not depend on the size that the pool has.** -/
theorem Manager.checkDirection_resized_again {m m' : Manager} {L : Layout} {k : Key} {size : UInt64}
    (hs : Sound m.hardware m.store L) (hb : (Change.poolSize k size).Buildable m.store)
    (h : (Change.poolSize k size).Outcome m.hardware m.store m'.store) (hhw : m'.hardware = m.hardware)
    (direction : Direction) (size' : UInt64) :
    m'.checkDirection direction (some k) size' = m.checkDirection direction (some k) size' := by
  have hothers : m'.poolsOf direction (some k) = m.poolsOf direction (some k) := by
    rw [poolsOf_eq (h.applied hs hb).1, poolsOf_eq hs.wired]
    obtain ⟨figures, u, hplan, hrun, ht⟩ := h
    have hkeys : figures.map Prod.fst = [k] := (Except.ok.inj (Accounting.plan_ok hplan).1).symm
    rw [Change.apply, Store.ofStore_modify_run hb.1, Prod.mk.injEq] at hrun
    rw [ht, Store.others_written hkeys, ← hrun.2]
    exact congrArg (Store.poolsAmong direction) (KeyMap.others_modifyEntry k _ m.store.entries)
  rw [checkDirection, checkDirection, hothers, hhw]

end SharedBuffer
