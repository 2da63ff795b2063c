/-
What the single steps of an operation on lists do: one record rewritten, or one count moved.

Results:
- `editLink_run`, `editHead_run`, `incrementRef_run`, `decrementRef_run`: each step on a live key succeeds and is an
  edit of that record alone;
- `refsAt_edit_retain`, `refsAt_edit_lowered`: what the two steps on a count leave of it.
-/
import SharedBuffer.Proofs.Lists.Linked

namespace SharedBuffer

/-- the largest reference count -/
def maxRefs : Nat := UInt32.size - 1

namespace Record

/-- the record with one reference less -/
def lowered (r : Record) : Record := r.setRefCount (r.refCount - 1)

theorem toNat_refCount_retain {r : Record} (h : r.countsRefs = true) :
    r.retain.refCount.toNat = min (r.refCount.toNat + 1) maxRefs := by
  have hlt := r.refCount.toNat_lt
  unfold retain maxRefs
  simp only [UInt32.size]
  split
  · rename_i hs
    rw [refCount_setRefCount _ h, UInt32.toNat_add]
    simp only [UInt32.toNat_one]
    omega
  · omega

theorem toNat_refCount_lowered {r : Record} (h : r.countsRefs = true) (hp : r.refCount ≠ 0) :
    r.lowered.refCount.toNat + 1 = r.refCount.toNat := by
  have hpos : (1 : UInt32).toNat ≤ r.refCount.toNat := UInt32.lt_iff_toNat_lt.1 (UInt32.pos_iff_ne_zero.2 hp)
  unfold lowered
  rw [refCount_setRefCount _ h, UInt32.toNat_sub_of_le _ _ (UInt32.le_iff_toNat_le.2 hpos)]
  exact Nat.sub_add_cancel hpos

end Record

/-- only the last of a sequence is its end -/
theorem getLast?_eq_some_iff {pre post : List Key} {x : Key} (hn : (pre ++ x :: post).Nodup) :
    (pre ++ x :: post).getLast? = some x ↔ post = [] := by
  constructor
  · intro hx
    rcases List.eq_nil_or_concat post with rfl | ⟨post', y, rfl⟩
    · rfl
    · have hy : x = y := by simpa [List.getLast?_append, List.getLast?_cons] using hx.symm
      rw [hy] at hn
      simp [List.nodup_append] at hn
  · rintro rfl
    simp

/-- only the first of a sequence is its start -/
theorem head?_eq_some_iff {pre post : List Key} {x : Key} (hn : (pre ++ x :: post).Nodup) :
    (pre ++ x :: post).head? = some x ↔ pre = [] := by
  cases pre with
  | nil => simp
  | cons y pre' =>
    have hy : y ≠ x := by
      rintro rfl
      simp at hn
    simp [hy]

namespace Store

variable {s : Store Record} {R R' : Roster} {k o m : Key} {h : ListHead} {l : Link}

/-! ## Single steps -/

theorem reading_run {α : Type} {f : Store Record → Except LinkError α} {a : α} (h : f s = .ok a) :
    (LinkM.reading f).run s = (.ok a, s) := by
  rw [← h]; rfl

theorem reading_run_error {α : Type} {f : Store Record → Except LinkError α} {e : LinkError} (h : f s = .error e) :
    (LinkM.reading f).run s = (.error e, s) := by
  rw [← h]; rfl

theorem ofStore_modify_run {f : Record → Record} (h : s.contains k = true) :
    (LinkM.ofStore (modify k f)).run s = (.ok (), s.edit k f) := by
  simp [LinkM.ofStore, modify, h, edit]

theorem ofStore_modify_absent {f : Record → Record} (h : s.contains k = false) :
    (LinkM.ofStore (modify k f)).run s = (.error (.store (.notFound k)), s) := by
  simp [LinkM.ofStore, modify, h]

/-- a record that was changed was there -/
theorem of_ofStore_modify {f : Record → Record} {t : Store Record}
    (h : (LinkM.ofStore (modify k f)).run s = (.ok (), t)) : s.contains k = true ∧ t = s.edit k f := by
  cases hk : s.contains k with
  | true =>
    rw [ofStore_modify_run hk, Prod.mk.injEq] at h
    exact ⟨rfl, h.2.symm⟩
  | false =>
    rw [ofStore_modify_absent hk] at h
    cases h

theorem editLink_run {f : Option Link → Option Link} (h : s.contains k = true) :
    (editLink R k f).run s = (.ok (), s.edit k (Record.mapLink R f)) := ofStore_modify_run h

theorem editHead_run {f : ListHead → ListHead} (h : s.contains k = true) :
    (editHead R k f).run s = (.ok (), s.edit k (Record.mapHead R f)) := ofStore_modify_run h

theorem incrementRef_run (h : s.contains k = true) :
    ∃ n, (LinkM.ofStore (incrementRef k)).run s = (.ok n, s.edit k Record.retain) := by
  refine ⟨((s.edit k Record.retain).get? k).elim 0 Record.refCount, ?_⟩
  unfold incrementRef LinkM.ofStore modify
  simp [run_bind, h, edit]

theorem decrementRef_run {r : Record} (hr : s.get? k = some r) (hc : r.countsRefs = true) (hp : r.refCount ≠ 0) :
    ∃ n, (LinkM.ofStore (decrementRef k)).run s = (.ok n, s.edit k Record.lowered) := by
  have hpos : 0 < r.refCount := UInt32.pos_iff_ne_zero.2 hp
  refine ⟨r.lowered.refCount, ?_⟩
  have hmod : s.records.modify k (fun _ => r.lowered) = s.records.modify k Record.lowered := by
    refine KeyMap.ext_get? fun j => ?_
    rw [KeyMap.get?_modify, KeyMap.get?_modify]
    split
    · rename_i hj
      subst hj
      change (s.get? j).map _ = (s.get? j).map _
      rw [hr]
      rfl
    · rfl
  unfold LinkM.ofStore decrementRef edit
  rw [← hmod]
  simp [hr, Record.giveBack?, hc, hpos, Record.lowered]

/-- a key with a list has a record that counts its members -/
theorem counted_of_headAt (hh : s.headAt R k = some h) : ∃ r, s.get? k = some r ∧ r.countsRefs = true := by
  unfold headAt at hh
  cases hg : s.get? k with
  | none => simp [hg] at hh
  | some r =>
    rw [hg, Option.bind_some] at hh
    exact ⟨r, rfl, Record.countsRefs_of_head? hh⟩

theorem refsAt_edit_retain (hh : s.headAt R o = some h) :
    (s.edit o Record.retain).refsAt k = if k = o then min (s.refsAt k + 1) maxRefs else s.refsAt k := by
  obtain ⟨r, hr, hc⟩ := counted_of_headAt hh
  unfold refsAt
  rw [get?_edit]
  split
  · rename_i hk
    subst hk
    simp [hr, Record.toNat_refCount_retain hc]
  · rfl

theorem refsAt_edit_lowered (hh : s.headAt R o = some h) (hp : s.refsAt o ≠ 0) :
    (s.edit o Record.lowered).refsAt k = if k = o then s.refsAt k - 1 else s.refsAt k := by
  obtain ⟨r, hr, hc⟩ := counted_of_headAt hh
  have hne : r.refCount ≠ 0 := by
    intro e
    simp [refsAt, hr, e] at hp
  have hlow := Record.toNat_refCount_lowered hc hne
  unfold refsAt
  rw [get?_edit]
  split
  · rename_i hk
    subst hk
    simp only [hr, Option.map_some, Option.elim_some]
    omega
  · rfl

end Store

end SharedBuffer
