/-
What a store has handed out, over a whole history of calls.

An allocator forgets what it handed out. A `Ledger` keeps it beside the store: the handles that were answered, the
latest first, through any calls that allocate, insert, remove and release. A handle is stale once a later one was handed
out on its index. Releasing a stale handle while its index is in use puts a used generation in line again, and the store
takes no notice of it; a history in which no release does that is `Orderly`.

Results:
- `issued_once`: an orderly history hands out no handle twice, never finds a record under a handle it has just
  allocated, and never revives a handle whose record is gone;
- `stale_release_repeats`: one release of a stale handle while its index is in use breaks all three.
-/
import SharedBuffer.Proofs.Store.Handles

namespace SharedBuffer

/-- a call that hands out handles or takes them back, with any arguments -/
inductive HandleCall (R : Type) where
  | allocate (kind : ObjectKind)
  | insertNew (kind : ObjectKind) (r : R)
  | remove (k : Key)
  | release (k : Key)

/-- makes a call; answers the handle that it hands out, if it is one that does -/
def HandleCall.perform {R : Type} : HandleCall R → StoreM R (Option Key)
  | allocate kind => do return some (← Store.allocate kind)
  | insertNew kind r => do return some (← Store.insertNew kind r)
  | remove k => do
    modifyThe (Store R) fun s => s.remove k
    return none
  | release k => do
    modifyThe (Store R) fun s => s.release k
    return none

/-- a store with the handles it has handed out, the latest first -/
structure Ledger (R : Type) where
  store : Store R := {}
  issued : List Key := []

namespace Ledger

variable {R : Type} {l : Ledger R} {k j : Key} {kind : ObjectKind}

/-- the ledger after a call, whatever its answer -/
def enter (l : Ledger R) (c : HandleCall R) : Ledger R :=
  match c.perform.run l.store with
  | (.ok (some k), s) => ⟨s, k :: l.issued⟩
  | (_, s) => { l with store := s }

/-- the ledger after some calls -/
def run (l : Ledger R) (calls : List (HandleCall R)) : Ledger R := calls.foldl enter l

/-- whether a later handle was handed out on a handle's index -/
def Stale (l : Ledger R) (k : Key) : Prop :=
  ∃ j ∈ l.issued, j.kind = k.kind ∧ j.index = k.index ∧ k.generation < j.generation

instance (l : Ledger R) (k : Key) : Decidable (l.Stale k) :=
  inferInstanceAs (Decidable (∃ j ∈ l.issued, j.kind = k.kind ∧ j.index = k.index ∧ k.generation < j.generation))

/-- whether a call leaves stale handles alone: it releases none, or to no effect -/
def Minds (l : Ledger R) : HandleCall R → Prop
  | .release k => l.Stale k → (l.store.release k).allocators = l.store.allocators
  | _ => True

instance (l : Ledger R) : (c : HandleCall R) → Decidable (l.Minds c)
  | .release k => inferInstanceAs (Decidable (l.Stale k → (l.store.release k).allocators = l.store.allocators))
  | .allocate _ => .isTrue trivial
  | .insertNew _ _ => .isTrue trivial
  | .remove _ => .isTrue trivial

/-- whether every call of a history leaves stale handles alone -/
def Orderly (l : Ledger R) : List (HandleCall R) → Prop
  | [] => True
  | c :: calls => l.Minds c ∧ (l.enter c).Orderly calls

instance decidableOrderly (l : Ledger R) : (calls : List (HandleCall R)) → Decidable (l.Orderly calls)
  | [] => .isTrue trivial
  | c :: calls =>
    have := decidableOrderly (l.enter c) calls
    inferInstanceAs (Decidable (l.Minds c ∧ (l.enter c).Orderly calls))

theorem run_append (l : Ledger R) (pre post : List (HandleCall R)) : l.run (pre ++ post) = (l.run pre).run post :=
  List.foldl_append

theorem orderly_append {pre post : List (HandleCall R)} :
    l.Orderly (pre ++ post) ↔ l.Orderly pre ∧ (l.run pre).Orderly post := by
  induction pre generalizing l with
  | nil => simp [Orderly, run]
  | cons c pre ih => simp [Orderly, run, ih, and_assoc]

/-! ## What the allocators know of it -/

/-- the allocators are ahead of everything that was handed out -/
structure Ahead (l : Ledger R) : Prop where
  nodup : l.issued.Nodup
  isHandle : ∀ k ∈ l.issued, k.IsHandle
  below : ∀ k ∈ l.issued, k.index < (l.store.allocators.get k.kind).next
  /-- the next handle on an index is later than all before -/
  older : ∀ k ∈ l.issued, ∀ g, (k.index, g) ∈ (l.store.allocators.get k.kind).free → k.generation < g
  freeNodup : ∀ kind, ((l.store.allocators.get kind).free.map Prod.fst).Nodup
  freeBelow : ∀ kind, ∀ i ∈ (l.store.allocators.get kind).free.map Prod.fst, i < (l.store.allocators.get kind).next
  live : ∀ k, l.store.contains k = true → k ∈ l.issued

theorem ahead_start : ({} : Ledger R).Ahead := by
  have ha : ∀ kind, ({} : Store R).allocators.get kind = {} := fun kind => PerKind.get_const ..
  have hc : ∀ k, ({} : Store R).contains k = false := fun k => rfl
  constructor <;> simp [ha, hc]

/-! ## One call -/

/-- an index that is handed out takes its next generation, which no handle before it had -/
theorem Ahead.handOut (h : l.Ahead) {i : UInt32} {g : UInt16} {a : Allocator} {t : Store R}
    (htake : (l.store.allocators.get kind).take? = some ((i, g), a)) (ha : t.allocators = l.store.allocators.set kind a)
    (hlive : ∀ j, t.contains j = true → j = Key.make kind g i ∨ l.store.contains j = true) :
    Key.make kind g i ∉ l.issued ∧ Ahead ⟨t, Key.make kind g i :: l.issued⟩ := by
  obtain ⟨hnext, hi, hfree, hout, hfrom⟩ := Allocator.of_take? (h.freeNodup kind) (h.freeBelow kind) htake
  have hget : ∀ x, t.allocators.get x = if x = kind then a else l.store.allocators.get x := fun x => by
    rw [ha, PerKind.get_set]
  -- what was issued on this index is older than the generation that was next
  have hlater : ∀ j ∈ l.issued, j.kind = kind → j.index = i → j.generation < g := by
    intro j hj hk he
    rcases hfrom with hmem | hfresh
    · exact h.older j hj g (by rw [hk, he]; exact hmem)
    · exact absurd (hk ▸ h.below j hj) (by rw [he, hfresh]; exact UInt32.lt_irrefl _)
  have hnew : Key.make kind g i ∉ l.issued := by
    intro hmem
    have hlt := hlater _ hmem (Key.kind_make ..) (Key.index_make ..)
    rw [Key.generation_make] at hlt
    exact UInt16.lt_irrefl g hlt
  have hnext' : ∀ x, (l.store.allocators.get x).next ≤ (t.allocators.get x).next := by
    intro x
    rw [hget]
    split
    · rename_i hx
      exact hx ▸ hnext
    · exact UInt32.le_refl _
  have hfree' : ∀ x, (t.allocators.get x).free.Sublist (l.store.allocators.get x).free := by
    intro x
    rw [hget]
    split
    · rename_i hx
      exact hx ▸ hfree
    · exact List.Sublist.refl _
  refine ⟨hnew, ?_⟩
  constructor
  case nodup => exact List.nodup_cons.2 ⟨hnew, h.nodup⟩
  case isHandle =>
    intro j hj
    rcases List.mem_cons.1 hj with rfl | hj
    · exact Key.isHandle_make ..
    · exact h.isHandle j hj
  case below =>
    intro j hj
    rcases List.mem_cons.1 hj with rfl | hj
    · rw [Key.kind_make, Key.index_make, hget, if_pos rfl]
      exact hi
    · exact UInt32.lt_of_lt_of_le (h.below j hj) (hnext' _)
  case older =>
    intro j hj g' hg'
    rcases List.mem_cons.1 hj with rfl | hj
    · rw [Key.kind_make, Key.index_make, hget, if_pos rfl] at hg'
      exact absurd (List.mem_map_of_mem hg') hout
    · exact h.older j hj g' ((hfree' _).subset hg')
  case freeNodup => exact fun x => (h.freeNodup x).sublist ((hfree' x).map Prod.fst)
  case freeBelow =>
    intro x f hf
    exact UInt32.lt_of_lt_of_le (h.freeBelow x f (((hfree' x).map Prod.fst).subset hf)) (hnext' x)
  case live =>
    intro j hj
    rcases hlive j hj with rfl | hj
    · exact List.mem_cons_self
    · exact List.mem_cons_of_mem _ (h.live j hj)

/-- a record that is taken out leaves the allocators as they are -/
theorem Ahead.remove (h : l.Ahead) (k : Key) : Ahead { l with store := l.store.remove k } := by
  refine ⟨h.nodup, h.isHandle, h.below, h.older, h.freeNodup, h.freeBelow, fun j hj => ?_⟩
  rw [Store.contains_drop (Store.get?_remove l.store k), Bool.and_eq_true] at hj
  exact h.live j hj.2

/-- a handle that is not stale comes back under a generation later than all before -/
theorem Ahead.release (h : l.Ahead) (hk : ¬ l.Stale k) : Ahead { l with store := l.store.release k } := by
  have hlatest : ∀ j ∈ l.issued, j.kind = k.kind → j.index = k.index → j.generation ≤ k.generation :=
    fun j hj hkind hidx => UInt16.not_lt.1 fun hlt => hk ⟨j, hj, hkind, hidx, hlt⟩
  constructor
  case nodup => exact h.nodup
  case isHandle => exact h.isHandle
  case below =>
    intro j hj
    rw [Store.next_release]
    exact h.below j hj
  case older =>
    intro j hj g hg
    rcases Store.mem_free_release hg with hg | ⟨hkind, hidx, hlt⟩
    · exact h.older j hj g hg
    · exact UInt16.lt_of_le_of_lt (hlatest j hj hkind hidx) hlt
  case freeNodup => exact fun x => Store.nodup_release (h.freeNodup x)
  case freeBelow => exact fun x => Store.freeBelow_release (h.freeBelow x)
  case live =>
    intro j hj
    rw [Store.contains_release] at hj
    exact h.live j hj

/-- a call answers a handle that was not issued before, or no handle at all, or finds no index left -/
inductive Answers (l : Ledger R) : HandleCall R → Except StoreError (Option Key) → Store R → Prop
  | handle {c t k} (new : k ∉ l.issued) (ahead : Ahead ⟨t, k :: l.issued⟩)
      (live : ∀ j, t.contains j = true → j = k ∨ l.store.contains j = true) : Answers l c (.ok (some k)) t
  | none {c t} (ahead : l.Minds c → Ahead { l with store := t })
      (live : ∀ j, t.contains j = true → l.store.contains j = true) : Answers l c (.ok none) t
  | exhausted {c} (kind : ObjectKind) : Answers l c (.error (.exhausted kind)) l.store

theorem Ahead.perform (h : l.Ahead) (c : HandleCall R) :
    l.Answers c (c.perform.run l.store).1 (c.perform.run l.store).2 := by
  cases c with
  | allocate kind =>
    cases htake : (l.store.allocators.get kind).take? with
    | none =>
      have hrun : (Store.allocate kind).run l.store = (.error (.exhausted kind), l.store) := by
        simp [Store.allocate, htake]
      rw [HandleCall.perform, run_bind_error hrun]
      exact .exhausted kind
    | some taken =>
      obtain ⟨⟨i, g⟩, a⟩ := taken
      have hrun : (Store.allocate kind).run l.store = (.ok (Key.make kind g i),
          { l.store with allocators := l.store.allocators.set kind a }) := by simp [Store.allocate, htake]
      rw [HandleCall.perform, run_bind_ok hrun]
      obtain ⟨hnew, hahead⟩ := h.handOut htake (t := { l.store with allocators := _ }) rfl fun j hj => .inr hj
      exact .handle hnew hahead fun j hj => .inr hj
  | insertNew kind r =>
    cases htake : (l.store.allocators.get kind).take? with
    | none =>
      have hrun : (Store.insertNew kind r).run l.store = (.error (.exhausted kind), l.store) :=
        run_bind_error (by simp [Store.allocate, htake])
      rw [HandleCall.perform, run_bind_error hrun]
      exact .exhausted kind
    | some taken =>
      obtain ⟨⟨i, g⟩, a⟩ := taken
      set k := Key.make kind g i with hk
      set t : Store R := { records := l.store.records.insert k r, allocators := l.store.allocators.set kind a }
      have hget : ∀ j, t.get? j = if j = k then some r else l.store.get? j := fun j => KeyMap.get?_insert ..
      have hlive : ∀ j, t.contains j = true → j = k ∨ l.store.contains j = true := by
        intro j hj
        rw [Store.contains_put hget] at hj
        simpa using hj
      obtain ⟨hnew, hahead⟩ := h.handOut htake (t := t) rfl hlive
      have hrun : (Store.insertNew kind r).run l.store = (.ok k, t) :=
        Store.insertNew_run htake fun hc => hnew (h.live k hc)
      rw [HandleCall.perform, run_bind_ok hrun]
      exact .handle hnew hahead hlive
  | remove k =>
    refine .none (fun _ => h.remove k) fun j hj => ?_
    change (l.store.remove k).contains j = true at hj
    rw [Store.contains_drop (Store.get?_remove l.store k), Bool.and_eq_true] at hj
    exact hj.2
  | release k =>
    refine .none (fun hm => ?_) fun j hj => ?_
    · by_cases hk : l.Stale k
      · change Ahead { l with store := l.store.release k }
        rw [Store.release_eq_self (hm hk)]
        exact h
      · exact h.release hk
    · change (l.store.release k).contains j = true at hj
      rwa [Store.contains_release] at hj

theorem Ahead.enter (h : l.Ahead) {c : HandleCall R} (hc : l.Minds c) : (l.enter c).Ahead := by
  have hp := h.perform c
  unfold Ledger.enter
  cases hr : c.perform.run l.store with
  | mk r t =>
    rw [hr] at hp
    cases hp with
    | handle _ hahead _ => exact hahead
    | none hahead _ => exact hahead hc
    | exhausted _ => exact h

/-- a call that hands out a handle never hands out one whose record is gone -/
theorem Ahead.gone_enter (h : l.Ahead) {c : HandleCall R} (hk : k ∈ l.issued) (hd : l.store.contains k = false) :
    k ∈ (l.enter c).issued ∧ (l.enter c).store.contains k = false := by
  have hp := h.perform c
  unfold Ledger.enter
  cases hr : c.perform.run l.store with
  | mk r t =>
    rw [hr] at hp
    cases hp with
    | handle hnew _ hlive =>
      refine ⟨List.mem_cons_of_mem _ hk, Bool.eq_false_iff.2 fun hj => ?_⟩
      rcases hlive k hj with rfl | hj
      · exact hnew hk
      · exact Bool.false_ne_true (hd.symm.trans hj)
    | none _ hlive => exact ⟨hk, Bool.eq_false_iff.2 fun hj => Bool.false_ne_true (hd.symm.trans (hlive k hj))⟩
    | exhausted _ => exact ⟨hk, hd⟩

/-! ## A history -/

theorem Ahead.run {calls : List (HandleCall R)} (h : l.Ahead) (ho : l.Orderly calls) : (l.run calls).Ahead := by
  induction calls generalizing l with
  | nil => exact h
  | cons c calls ih => exact ih (h.enter ho.1) ho.2

/-- a handle whose record is gone stays without one -/
theorem Ahead.gone {calls : List (HandleCall R)} (h : l.Ahead) (ho : l.Orderly calls) (hk : k ∈ l.issued)
    (hd : l.store.contains k = false) : (l.run calls).store.contains k = false := by
  induction calls generalizing l with
  | nil => exact hd
  | cons c calls ih =>
    obtain ⟨hk, hd⟩ := h.gone_enter (c := c) hk hd
    exact ih (h.enter ho.1) ho.2 hk hd

/-- **A handle is issued once.** In a history in which no release puts a used generation in line again, no handle is
handed out twice, a new record always finds its handle free, and a handle whose record is gone never leads to a later
one. -/
theorem issued_once {calls : List (HandleCall R)} (h : ({} : Ledger R).Orderly calls) :
    (({} : Ledger R).run calls).issued.Nodup ∧
      (∀ pre c post, calls = pre ++ c :: post → ∀ k t,
        c.perform.run (({} : Ledger R).run pre).store ≠ (.error (.duplicateKey k), t)) ∧
      ∀ pre post, calls = pre ++ post → ∀ k ∈ (({} : Ledger R).run pre).issued,
        (({} : Ledger R).run pre).store.contains k = false → (({} : Ledger R).run calls).store.contains k = false := by
  refine ⟨(ahead_start.run h).nodup, ?_, ?_⟩
  · rintro pre c post rfl k t hrun
    have hp := (ahead_start.run (orderly_append.1 h).1).perform c
    rw [hrun] at hp
    cases hp
  · rintro pre post rfl k hk hd
    rw [run_append]
    exact (ahead_start.run (orderly_append.1 h).1).gone (orderly_append.1 h).2 hk hd

/-- a pool's handle goes out, comes back twice and goes out again under the next generation, and again after a release
of the first to no effect -/
def turns : List (HandleCall Nat) :=
  [.insertNew .pool 1, .remove (.make .pool 0 0), .release (.make .pool 0 0), .release (.make .pool 0 0),
    .insertNew .pool 2, .remove (.make .pool 1 0), .release (.make .pool 1 0), .release (.make .pool 0 0),
    .insertNew .pool 3, .allocate .pool]

theorem turns_issued_once : ({} : Ledger Nat).Orderly turns ∧
    (({} : Ledger Nat).run turns).issued =
      [.make .pool 0 1, .make .pool 2 0, .make .pool 1 0, .make .pool 0 0] ∧
    (({} : Ledger Nat).run turns).issued.Nodup ∧
    (({} : Ledger Nat).run turns).store.contains (.make .pool 1 0) = false :=
  have ho : ({} : Ledger Nat).Orderly turns := by decide
  have h := issued_once ho
  ⟨ho, by decide, h.1, h.2.2 (turns.take 7) (turns.drop 7) (List.take_append_drop ..).symm _ (by decide) (by decide)⟩

/-- the first handle of a pool's index is released once more while the second one is in use -/
def staleRelease : List (HandleCall Nat) :=
  [.insertNew .pool 1, .remove (.make .pool 0 0), .release (.make .pool 0 0), .insertNew .pool 2,
    .release (.make .pool 0 0)]

/-- **A stale release repeats a handle.** The handle in use is handed out again; a new record finds it taken; and when
its record is gone, it leads to the record of another. -/
theorem stale_release_repeats :
    ¬ (({} : Ledger Nat).run (staleRelease ++ [.allocate .pool])).issued.Nodup ∧
      ((HandleCall.insertNew .pool 3).perform.run (({} : Ledger Nat).run staleRelease).store).1 =
        .error (.duplicateKey (.make .pool 1 0)) ∧
      (({} : Ledger Nat).run staleRelease).store.get? (.make .pool 1 0) = some 2 ∧
      (({} : Ledger Nat).run (staleRelease ++ [.remove (.make .pool 1 0), .insertNew .pool 3])).store.get?
        (.make .pool 1 0) = some 3 := by decide

end Ledger

end SharedBuffer
