/-
Handles: which have been handed out, and that none is handed out twice.

The allocators do not keep what they handed out, but it can be read off them. An index below `next` was used; it may
have come back, and then the next handle on it has a later generation than any before. `Issued s k` says of a key that
`s` may have handed it out before; every live key was, and a new key never was.

Results:
- `insertNew_ends`: a new record gets a key that was not issued before, unless the kind has run out of indexes, and
  then nothing changes;
- `Handed.retire`: taking a record out and its handle back keeps all of this;
- `Handed.length_le`: no kind has more live keys than a reference count can count.
-/
import SharedBuffer.Proofs.Action
import SharedBuffer.Proofs.Object.Ids

namespace SharedBuffer

namespace Store

variable {R : Type} {s t : Store R} {k j o : Key} {kind : ObjectKind}

/-- a key that the store may have handed out -/
structure Issued (s : Store R) (k : Key) : Prop where
  isHandle : k.IsHandle
  below : k.index < (s.allocators.get k.kind).next
  /-- the next handle on its index is later -/
  older : ∀ g, (k.index, g) ∈ (s.allocators.get k.kind).free → k.generation < g
  /-- the live handle on its index is no earlier -/
  latest : ∀ j, s.contains j = true → j.kind = k.kind → j.index = k.index → k.generation ≤ j.generation

/-- the allocators know which indexes are in use -/
structure Handed (s : Store R) : Prop where
  nodup : ∀ kind, ((s.allocators.get kind).free.map Prod.fst).Nodup
  freeBelow : ∀ kind, ∀ i ∈ (s.allocators.get kind).free.map Prod.fst, i < (s.allocators.get kind).next
  isHandle : ∀ k, s.contains k = true → k.IsHandle
  below : ∀ k, s.contains k = true → k.index < (s.allocators.get k.kind).next
  inUse : ∀ k, s.contains k = true → k.index ∉ (s.allocators.get k.kind).free.map Prod.fst
  distinct : ∀ k j, s.contains k = true → s.contains j = true → k.kind = j.kind → k.index = j.index → k = j

namespace Handed

/-- what is live was issued -/
theorem issued (h : s.Handed) (hk : s.contains k = true) : s.Issued k :=
  ⟨h.isHandle k hk, h.below k hk, fun g hg => absurd (List.mem_map_of_mem hg) (h.inUse k hk),
    fun j hj hkind hidx => by rw [h.distinct j k hj hk hkind hidx]; exact UInt16.le_refl _⟩

theorem congr (h : s.Handed) (hc : ∀ k, t.contains k = s.contains k) (ha : t.allocators = s.allocators) :
    t.Handed := by
  refine ⟨?_, ?_, ?_, ?_, ?_, ?_⟩
  · rw [ha]; exact h.nodup
  · rw [ha]; exact h.freeBelow
  · exact fun k hk => h.isHandle k (hc k ▸ hk)
  · rw [ha]; exact fun k hk => h.below k (hc k ▸ hk)
  · rw [ha]; exact fun k hk => h.inUse k (hc k ▸ hk)
  · exact fun k j hk hj => h.distinct k j (hc k ▸ hk) (hc j ▸ hj)

end Handed

theorem Issued.congr (h : s.Issued k) (hc : ∀ k, t.contains k = s.contains k) (ha : t.allocators = s.allocators) :
    t.Issued k := by
  refine ⟨h.isHandle, ?_, ?_, fun j hj => h.latest j (hc j ▸ hj)⟩
  · rw [ha]; exact h.below
  · rw [ha]; exact h.older

/-- **No kind has more live keys than can be counted.** -/
theorem Handed.length_le (h : s.Handed) {l : List Key} (hn : l.Nodup)
    (hl : ∀ k ∈ l, s.contains k = true ∧ k.kind = kind) : l.length < UInt32.size := by
  have hinj : (l.map fun k => k.index.toNat).Nodup := by
    refine hn.map_on fun k hk j hj e => ?_
    have hkj : k.kind = j.kind := (hl k hk).2.trans (hl j hj).2.symm
    exact h.distinct k j (hl k hk).1 (hl j hj).1 hkj (UInt32.toNat_inj.1 e)
  have hsub : (l.map fun k => k.index.toNat) ⊆ List.range (s.allocators.get kind).next.toNat := by
    intro n hn
    obtain ⟨k, hk, rfl⟩ := List.mem_map.1 hn
    have hb := h.below k (hl k hk).1
    rw [(hl k hk).2] at hb
    exact List.mem_range.2 (UInt32.lt_iff_toNat_lt.1 hb)
  have hle := (List.subperm_of_subset hinj hsub).length_le
  rw [List.length_map, List.length_range] at hle
  exact Nat.lt_of_le_of_lt hle (UInt32.toNat_lt _)

end Store

namespace Allocator

variable {a b : Allocator} {i : UInt32} {g : UInt16}

/-- what is handed out is the first index that came back, or the next that was never used -/
theorem of_take? (hn : (a.free.map Prod.fst).Nodup) (hb : ∀ j ∈ a.free.map Prod.fst, j < a.next)
    (h : a.take? = some ((i, g), b)) :
    a.next ≤ b.next ∧ i < b.next ∧ b.free.Sublist a.free ∧ i ∉ b.free.map Prod.fst ∧
      ((i, g) ∈ a.free ∨ i = a.next) := by
  unfold take? at h
  cases hfree : a.free with
  | cons slot rest =>
    rw [hfree] at h hn hb
    obtain ⟨rfl, rfl⟩ := Prod.mk.inj (Option.some.inj h)
    rw [List.map_cons, List.nodup_cons] at hn
    exact ⟨UInt32.le_refl _, hb i (by simp), List.sublist_cons_self .., hn.1, .inl (by simp)⟩
  | nil =>
    rw [hfree] at h
    dsimp only at h
    split at h
    · rename_i hnext
      obtain ⟨hslot, rfl⟩ := Prod.mk.inj (Option.some.inj h)
      obtain ⟨rfl, rfl⟩ := Prod.mk.inj hslot
      have hlt : a.next < a.next + 1 := by
        rw [UInt32.lt_iff_toNat_lt, UInt32.toNat_add]
        simp only [UInt32.size, UInt32.toNat_one] at hnext ⊢
        omega
      exact ⟨UInt32.le_of_lt hlt, hlt, by simp, by simp, .inr rfl⟩
    · cases h

/-- an index that was in use comes back at most once, for a later generation -/
theorem mem_give {f : UInt32 × UInt16} (hf : f ∈ (a.give i g).free) : f ∈ a.free ∨ f.1 = i ∧ g < f.2 := by
  unfold give at hf
  split at hf
  · exact .inl hf
  · split at hf
    · rename_i hg
      rcases List.mem_cons.1 hf with rfl | hf
      · refine .inr ⟨rfl, ?_⟩
        rw [UInt16.lt_iff_toNat_lt, UInt16.toNat_add]
        simp only [UInt16.size, UInt16.toNat_one] at hg ⊢
        omega
      · exact .inl hf
    · exact .inl hf

theorem nodup_give (h : (a.free.map Prod.fst).Nodup) : ((a.give i g).free.map Prod.fst).Nodup := by
  unfold give
  split
  · exact h
  · rename_i hi
    split
    · exact List.nodup_cons.2 ⟨fun hmem => hi (.inr hmem), h⟩
    · exact h

theorem next_give : (a.give i g).next = a.next := by
  unfold give
  split
  · rfl
  · split <;> rfl

theorem freeBelow_give (h : ∀ j ∈ a.free.map Prod.fst, j < a.next) :
    ∀ j ∈ (a.give i g).free.map Prod.fst, j < (a.give i g).next := by
  intro j hj
  rw [next_give]
  unfold give at hj
  split at hj
  · exact h j hj
  · rename_i hi
    split at hj
    · rcases List.mem_cons.1 hj with rfl | hj
      · exact UInt32.not_le.1 fun hle => hi (.inl hle)
      · exact h j hj
    · exact h j hj

end Allocator

namespace Store

variable {R : Type} {s t : Store R} {k j o : Key} {kind : ObjectKind}

/-- a record under a key adds that key -/
theorem contains_put {r : R} (h : ∀ j, t.get? j = if j = k then some r else s.get? j) (j : Key) :
    t.contains j = (decide (j = k) || s.contains j) := by
  change (t.get? j).isSome = (decide (j = k) || (s.get? j).isSome)
  rw [h]
  by_cases hj : j = k <;> simp [hj]

/-- a record taken from a key takes that key away -/
theorem contains_drop (h : ∀ j, t.get? j = if j = k then none else s.get? j) (j : Key) :
    t.contains j = (!decide (j = k) && s.contains j) := by
  change (t.get? j).isSome = (!decide (j = k) && (s.get? j).isSome)
  rw [h]
  by_cases hj : j = k <;> simp [hj]

theorem contains_release (s : Store R) (k j : Key) : (s.release k).contains j = s.contains j :=
  congrArg Option.isSome (get?_release s k j)

/-! ## Handing out -/

/-- whether a kind has an index left -/
def HasRoom (s : Store R) (kind : ObjectKind) : Prop := ((s.allocators.get kind).take?).isSome

instance (s : Store R) (kind : ObjectKind) : Decidable (s.HasRoom kind) := inferInstanceAs (Decidable (_ = true))

/-- `t` is `s` with a new record under a key that was never issued -/
structure Inserted (s t : Store R) (kind : ObjectKind) (k : Key) (r : R) : Prop where
  kind : k.kind = kind
  new : ¬ s.Issued k
  get : ∀ j, t.get? j = if j = k then some r else s.get? j
  handed : t.Handed
  issued : ∀ j, s.Issued j → t.Issued j

theorem Inserted.contains {r : R} (h : Inserted s t kind k r) : t.contains j = (decide (j = k) || s.contains j) :=
  contains_put h.get j

/-- a key of a generation later than any issued on its index, when its index is taken out of what is free -/
theorem inserted_of_later (h : s.Handed) {g : UInt16} {i : UInt32} {rest : Allocator} (r : R)
    (hnew : ∀ j, s.Issued j → j.kind = kind → j.index = i → j.generation < g)
    (hidle : ∀ j, s.contains j = true → j.kind = kind → j.index ≠ i)
    (hnext : (s.allocators.get kind).next ≤ rest.next) (hi : i < rest.next)
    (hfree : rest.free.Sublist (s.allocators.get kind).free) (hout : i ∉ rest.free.map Prod.fst) :
    Inserted s { records := s.records.insert (Key.make kind g i) r, allocators := s.allocators.set kind rest } kind
      (Key.make kind g i) r := by
  set k := Key.make kind g i with hk
  set t : Store R := { records := s.records.insert k r, allocators := s.allocators.set kind rest }
  have hget : ∀ j, t.get? j = if j = k then some r else s.get? j := fun j => KeyMap.get?_insert ..
  have hlive : ∀ j, t.contains j = true → j = k ∨ s.contains j = true := by
    intro j hj
    rw [contains_put hget] at hj
    simpa using hj
  have hkind : k.kind = kind := by simp [hk]
  have hidx : k.index = i := by simp [hk]
  have hgen : k.generation = g := by simp [hk]
  have halloc : ∀ x, (t.allocators.get x) = if x = kind then rest else s.allocators.get x :=
    fun x => PerKind.get_set ..
  have hnext' : ∀ x, (s.allocators.get x).next ≤ (t.allocators.get x).next := by
    intro x
    rw [halloc]
    split
    · rename_i hx
      exact hx ▸ hnext
    · exact UInt32.le_refl _
  have hfree' : ∀ x, (t.allocators.get x).free.Sublist (s.allocators.get x).free := by
    intro x
    rw [halloc]
    split
    · rename_i hx
      exact hx ▸ hfree
    · exact List.Sublist.refl _
  refine ⟨hkind, fun hiss => ?_, hget, ⟨fun x => ?_, fun x f hf => ?_, fun j hj => ?_, fun j hj => ?_, fun j hj => ?_,
    fun j j' hj hj' hjk hji => ?_⟩, fun o ho => ⟨ho.isHandle, ?_, fun g' hg' => ?_, fun j hj hjk hji => ?_⟩⟩
  · have := hnew k hiss hkind hidx
    rw [hgen] at this
    exact absurd this (UInt16.lt_irrefl g)
  · exact (h.nodup x).sublist ((hfree' x).map Prod.fst)
  · exact UInt32.lt_of_lt_of_le (h.freeBelow x f (((hfree' x).map Prod.fst).subset hf)) (hnext' x)
  · rcases hlive j hj with rfl | hj
    · exact Key.isHandle_make ..
    · exact h.isHandle j hj
  · rcases hlive j hj with rfl | hj
    · rw [hkind, hidx, halloc, if_pos rfl]
      exact hi
    · exact UInt32.lt_of_lt_of_le (h.below j hj) (hnext' _)
  · rcases hlive j hj with rfl | hj
    · rw [hkind, hidx, halloc, if_pos rfl]
      exact hout
    · exact fun hf => h.inUse j hj (((hfree' _).map Prod.fst).subset hf)
  · rcases hlive j hj with rfl | hj <;> rcases hlive j' hj' with rfl | hj'
    · rfl
    · exact absurd (hji.symm.trans hidx) (hidle j' hj' (hjk.symm.trans hkind))
    · exact absurd (hji.trans hidx) (hidle j hj (hjk.trans hkind))
    · exact h.distinct j j' hj hj' hjk hji
  · exact UInt32.lt_of_lt_of_le ho.below (hnext' _)
  · exact ho.older g' ((hfree' _).subset hg')
  · rcases hlive j hj with rfl | hj
    · rw [hgen]
      exact UInt16.le_of_lt (hnew o ho (hjk.symm.trans hkind) (hji.symm.trans hidx))
    · exact ho.latest j hj hjk hji

/-- an index that is handed out under a key without a record gets its record -/
theorem insertNew_run {r : R} {g : UInt16} {i : UInt32} {a : Allocator}
    (htake : (s.allocators.get kind).take? = some ((i, g), a)) (hc : ¬ s.contains (Key.make kind g i) = true) :
    (insertNew kind r).run s = (.ok (Key.make kind g i),
      { records := s.records.insert (Key.make kind g i) r, allocators := s.allocators.set kind a }) := by
  unfold insertNew
  refine (run_bind_ok (a := Key.make kind g i) (t := { s with allocators := s.allocators.set kind a }) ?_).trans ?_
  · simp [allocate, htake]
  · refine (run_bind_ok (a := ())
      (t := { records := s.records.insert (Key.make kind g i) r, allocators := s.allocators.set kind a }) ?_).trans rfl
    unfold insert
    simp only [ExceptT.run_mk]
    exact if_neg hc

/-- **A new record gets a key that was not issued before.** -/
theorem insertNew_ends (h : s.Handed) (kind : ObjectKind) (r : R) :
    Ends (insertNew kind r) s (fun k t => Inserted s t kind k r ∧ s.HasRoom kind)
      (fun e t => e = .exhausted kind ∧ t = s ∧ ¬ s.HasRoom kind) := by
  cases htake : (s.allocators.get kind).take? with
  | none =>
    refine Ends.of_run_error (e := .exhausted kind) (t := s) ?_ ⟨rfl, rfl, by simp [HasRoom, htake]⟩
    exact run_bind_error (by simp [allocate, htake])
  | some taken =>
    obtain ⟨⟨i, g⟩, rest⟩ := taken
    obtain ⟨hnext, hi, hfree, hout, hfrom⟩ := Allocator.of_take? (h.nodup kind) (h.freeBelow kind) htake
    have hins : Inserted s
        { records := s.records.insert (Key.make kind g i) r, allocators := s.allocators.set kind rest } kind
        (Key.make kind g i) r := by
      refine inserted_of_later h r (fun j hj hk he => ?_) (fun j hj hk he => ?_) hnext hi hfree hout
      · rcases hfrom with hmem | hfresh
        · exact hj.older g (by rw [hk, he]; exact hmem)
        · exact absurd (hk ▸ hj.below) (by rw [he, hfresh]; exact UInt32.lt_irrefl _)
      · rcases hfrom with hmem | hfresh
        · exact h.inUse j hj (by rw [hk, he]; exact List.mem_map_of_mem hmem)
        · exact absurd (hk ▸ h.below j hj) (by rw [he, hfresh]; exact UInt32.lt_irrefl _)
    exact Ends.of_run_ok (insertNew_run htake fun hc => hins.new (h.issued hc)) ⟨hins, by simp [HasRoom, htake]⟩

/-! ## Taking back -/

/-- `t` is `s` without a record, its handle taken back -/
structure Retired (s t : Store R) (k : Key) : Prop where
  get : ∀ j, t.get? j = if j = k then none else s.get? j
  handed : t.Handed
  issued : ∀ j, s.Issued j → t.Issued j

theorem Retired.contains (h : Retired s t k) : t.contains j = (!decide (j = k) && s.contains j) :=
  contains_drop h.get j

/-- a released handle goes back to the allocator of its kind, or nowhere -/
theorem allocators_release (s : Store R) (k : Key) (kind : ObjectKind) :
    (s.release k).allocators.get kind = s.allocators.get kind ∨
      kind = k.kind ∧ (s.release k).allocators.get kind = (s.allocators.get kind).give k.index k.generation := by
  unfold release
  split
  · exact .inl rfl
  · rw [PerKind.get_set]
    split
    · rename_i hk
      exact .inr ⟨hk, by rw [hk]⟩
    · exact .inl rfl

/-- a release that no allocator takes notice of changes nothing -/
theorem release_eq_self (h : (s.release k).allocators = s.allocators) : s.release k = s := by
  have hrec : (s.release k).records = s.records := by
    unfold release
    split <;> rfl
  exact congr (congrArg Store.mk hrec) h

theorem next_release (s : Store R) (k : Key) (kind : ObjectKind) :
    ((s.release k).allocators.get kind).next = (s.allocators.get kind).next := by
  rcases allocators_release s k kind with h | ⟨-, h⟩
  · rw [h]
  · rw [h, Allocator.next_give]

theorem mem_free_release {f : UInt32 × UInt16} (hf : f ∈ ((s.release k).allocators.get kind).free) :
    f ∈ (s.allocators.get kind).free ∨ kind = k.kind ∧ f.1 = k.index ∧ k.generation < f.2 := by
  rcases allocators_release s k kind with h | ⟨hk, h⟩
  · exact .inl (h ▸ hf)
  · rw [h] at hf
    exact (Allocator.mem_give hf).imp_right fun hg => ⟨hk, hg⟩

theorem nodup_release (hn : ((s.allocators.get kind).free.map Prod.fst).Nodup) :
    (((s.release k).allocators.get kind).free.map Prod.fst).Nodup := by
  rcases allocators_release s k kind with h | ⟨-, h⟩
  · rwa [h]
  · rw [h]
    exact Allocator.nodup_give hn

theorem freeBelow_release
    (hb : ∀ i ∈ (s.allocators.get kind).free.map Prod.fst, i < (s.allocators.get kind).next) :
    ∀ i ∈ ((s.release k).allocators.get kind).free.map Prod.fst, i < ((s.release k).allocators.get kind).next := by
  rcases allocators_release s k kind with h | ⟨-, h⟩
  · rwa [h]
  · rw [h]
    exact Allocator.freeBelow_give hb

/-- **A record can be taken out, and its handle back.** -/
theorem Handed.retire (h : s.Handed) (hk : s.contains k = true) : Retired s ((s.remove k).release k) k := by
  set t := (s.remove k).release k with ht
  have hget : ∀ j, t.get? j = if j = k then none else s.get? j := fun j => by
    rw [ht, get?_release, get?_remove]
  have hlive : ∀ j, t.contains j = true → j ≠ k ∧ s.contains j = true := by
    intro j hj
    rw [contains_drop hget] at hj
    simpa using hj
  have hnext : ∀ x, (t.allocators.get x).next = (s.allocators.get x).next := next_release (s.remove k) k
  have hfree : ∀ x f, f ∈ (t.allocators.get x).free →
      f ∈ (s.allocators.get x).free ∨ x = k.kind ∧ f.1 = k.index ∧ k.generation < f.2 := fun x f hf =>
    mem_free_release (s := s.remove k) hf
  refine ⟨hget, ⟨fun x => nodup_release (h.nodup x), fun x => freeBelow_release (h.freeBelow x),
    fun j hj => h.isHandle j (hlive j hj).2, fun j hj => ?_, fun j hj hi => ?_,
    fun j j' hj hj' => h.distinct j j' (hlive j hj).2 (hlive j' hj').2⟩,
    fun o ho => ⟨ho.isHandle, ?_, fun g hg => ?_, fun j hj => ho.latest j (hlive j hj).2⟩⟩
  · rw [hnext]
    exact h.below j (hlive j hj).2
  · obtain ⟨f, hf, hfi⟩ := List.mem_map.1 hi
    rcases hfree _ f hf with hf | ⟨hkind, hf, -⟩
    · exact h.inUse j (hlive j hj).2 (hfi ▸ List.mem_map_of_mem hf)
    · exact (hlive j hj).1 (h.distinct j k (hlive j hj).2 hk hkind (hfi.symm.trans hf))
  · rw [hnext]
    exact ho.below
  · rcases hfree _ _ hg with hg | ⟨hkind, hidx, hlt⟩
    · exact ho.older g hg
    · exact UInt16.lt_of_le_of_lt (ho.latest k hk hkind.symm hidx.symm) hlt

theorem handed_empty : ({} : Store R).Handed := by
  have hc : ∀ k, ({} : Store R).contains k = false := fun k => rfl
  have ha : ∀ kind, ({} : Store R).allocators.get kind = {} := fun kind => PerKind.get_const ..
  refine ⟨fun kind => ?_, fun kind => ?_, ?_, ?_, ?_, ?_⟩
  · simp [ha]
  · simp [ha]
  all_goals simp [hc]

end Store

end SharedBuffer
