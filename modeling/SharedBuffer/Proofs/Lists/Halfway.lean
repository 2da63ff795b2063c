/-
What a refused operation on lists leaves behind.

A `StoreCall` is any call on a store, with any arguments: one on lists and blank records (`ListCall`), or one that knows
nothing of lists and files a record as it is, takes one out from among its neighbours, or moves a count. A history of
such calls may leave a list whose end is gone, and there attaching stops halfway. `StoreCall.Gentle` calls file blank
records and leave those that are there in their places.

Results:
- `refused_leaves`: where a refused operation on lists stops, in whatever store calls have left; that it changes nothing
  after a gentle history, removals apart that cannot leave all lists; and nothing at all where only lists were used;
- `severed_halfway`: after records were taken out from their lists, or a count was moved, all three stop halfway.
-/
import SharedBuffer.Proofs.Lists.Coherent
import SharedBuffer.Proofs.Lists.Paired

namespace SharedBuffer

/-- a call on a store -/
inductive StoreCall where
  | list (c : ListCall)
  | insertNew (kind : ObjectKind) (r : Record)
  | insert (k : Key) (r : Record)
  | remove (k : Key)
  | incrementRef (k : Key)
  | decrementRef (k : Key)

namespace StoreCall

/-- the store that a call leaves, whether it answers or is refused -/
def leaves : StoreCall → Store Record → Store Record
  | list c, s => c.leaves s
  | insertNew kind r, s => ((Store.insertNew kind r).run s).2
  | insert k r, s => ((Store.insert k r).run s).2
  | remove k, s => s.remove k
  | incrementRef k, s => ((Store.incrementRef k).run s).2
  | decrementRef k, s => ((Store.decrementRef k).run s).2

/-- whether a call files nothing that claims a place, and takes nothing out of a place -/
def Gentle : StoreCall → Prop
  | list _ | incrementRef _ | decrementRef _ => True
  | insertNew _ r | insert _ r => r.Blank
  | remove _ => False

instance : DecidablePred Gentle
  | list _ | incrementRef _ | decrementRef _ => .isTrue trivial
  | insertNew _ r | insert _ r => inferInstanceAs (Decidable r.Blank)
  | remove _ => .isFalse id

end StoreCall

/-- the store that a history of calls leaves -/
def Store.left (calls : List StoreCall) : Store Record := calls.foldl (fun s c => c.leaves s) {}

theorem Store.left_concat (calls : List StoreCall) (c : StoreCall) : left (calls ++ [c]) = c.leaves (left calls) := by
  unfold left
  rw [List.foldl_append]
  rfl

/-- calls on lists leave what they leave among other calls -/
theorem Store.left_list (calls : List ListCall) : left (calls.map .list) = after calls := by
  unfold left after
  rw [List.foldl_map]
  rfl

/-! ## One call -/

namespace Paired

variable {s : Store Record}

/-- what moves a count alone is nothing to neighbours -/
theorem counting (p : Paired s) {α : Type} {op : StoreM Record α}
    (hlink : ∀ R k, LinkM.Keeps (fun s => s.linkAt R k) (.ofStore op))
    (hhead : ∀ R k, LinkM.Keeps (fun s => s.headAt R k) (.ofStore op)) : Paired (op.run s).2 := by
  have hsame : ((LinkM.ofStore op).run s).2 = (op.run s).2 := by
    unfold LinkM.ofStore
    rw [ExceptT.run_mk]
    rcases op.run s with ⟨e | a, t⟩ <;> rfl
  rw [← hsame]
  exact fun R => (p R).congr (fun k => hlink R k s) fun k => hhead R k s

theorem incrementRef (p : Paired s) (k : Key) : Paired ((Store.incrementRef k).run s).2 :=
  p.counting (fun _ _ => .incrementRef fun _ => Store.linkAt_edit fun r => by simp) fun _ _ =>
    .incrementRef fun _ => Store.headAt_edit fun r => by simp

theorem decrementRef (p : Paired s) (k : Key) : Paired ((Store.decrementRef k).run s).2 :=
  p.counting (fun _ _ => .decrementRef fun _ => Store.linkAt_edit fun r => by simp [Record.lowered]) fun _ _ =>
    .decrementRef fun _ => Store.headAt_edit fun r => by simp [Record.lowered]

end Paired

/-- **Calls on lists keep neighbours in pairs**, whatever the counts and whoever owns the lists. -/
theorem ListCall.paired {s : Store Record} (p : Paired s) (c : ListCall) : Paired (c.leaves s) := by
  cases c with
  | insertNew kind r blank =>
    rcases Store.get?_leaves_insertNew s kind r with hget | ⟨k, hk, hget⟩
    · exact p.congr hget
    · exact p.insert blank hk hget
  | insert k r blank =>
    rcases Store.get?_leaves_insert s k r with hget | ⟨hk, hget⟩
    · exact p.congr hget
    · exact p.insert blank hk hget
  | allocate kind => exact p.congr (Store.get?_leaves_allocate s kind)
  | release k => exact p.congr (Store.get?_release s k)
  | attach R owner member => exact ((p.attach_ends R owner member).mono (fun _ _ h => h) fun _ _ h => h ▸ p).leaves
  | detach R owner member =>
    exact ((p.detach_ends R owner member).mono (fun _ _ h => h.1) fun _ _ h => h.1 ▸ p).leaves
  | removeAssociated k => exact ((p.removeAssociated_ends k).mono (fun _ _ h => h) fun _ _ h => h.1).leaves

theorem StoreCall.Gentle.paired {s : Store Record} {c : StoreCall} (hc : c.Gentle) (p : Paired s) :
    Paired (c.leaves s) := by
  cases c with
  | list c => exact c.paired p
  | incrementRef k => exact p.incrementRef k
  | decrementRef k => exact p.decrementRef k
  | insertNew kind r => exact (ListCall.insertNew kind r hc).paired p
  | insert k r => exact (ListCall.insert k r hc).paired p
  | remove => cases hc

/-! ## A history -/

theorem left_paired {calls : List StoreCall} (h : ∀ c ∈ calls, c.Gentle) : Paired (Store.left calls) := by
  induction calls using List.reverseRecOn with
  | nil => exact .empty
  | append_singleton calls c ih =>
    rw [Store.left_concat]
    exact (h c (by simp)).paired (ih fun c' hc' => h c' (by simp [hc']))

/-- whether an operation that is refused changes nothing -/
def LinkM.AllOrNothing {α : Type} (x : LinkM α) (s : Store Record) : Prop := ∀ e t, x.run s = (.error e, t) → t = s

open Store

/-- **What a refused operation on lists leaves.** Whatever calls were made, all is as before, or attaching has placed
the member behind one that is gone, or detaching has closed one side of the gap and found the other side gone, or the
record to be removed has left some of its lists and not the next. If the calls were gentle, attaching and detaching are
all or nothing, and so is removal, but for an owner that is gone or has its count used up. If they were calls on lists
alone, removal is all or nothing as well. -/
theorem refused_leaves (calls : List StoreCall) :
    let s := left calls
    (∀ R o m e t, (attach R o m).run s = (.error e, t) → t = s ∨ s.AttachStuck R o m e t) ∧
      (∀ R o m e t, (detach R o m).run s = (.error e, t) → t = s ∨ s.DetachStuck R o m e t) ∧
      (∀ k e t, (removeAssociated k).run s = (.error e, t) → t = s ∨ s.RemovalStuck k e t) ∧
      ((∀ c ∈ calls, c.Gentle) → (∀ R o m, (attach R o m).AllOrNothing s ∧ (detach R o m).AllOrNothing s) ∧
        ∀ k e t, (removeAssociated k).run s = (.error e, t) → t = s ∨ s.HalfRemoved k t) ∧
      ∀ lists, Roomy lists → calls = lists.map .list → ∀ k, (removeAssociated k).AllOrNothing s := by
  intro s
  refine ⟨fun R o m _ _ => (attach_ends s R o m).error, fun R o m _ _ => (detach_ends s R o m).error,
    fun k _ _ => (removeAssociated_ends s k).error, fun hgentle => ?_, fun lists hroomy hcalls k e t h => ?_⟩
  · have p : Paired s := left_paired hgentle
    refine ⟨fun R o m => ⟨fun _ _ => (p.attach_ends R o m).error, fun _ _ h => ((p.detach_ends R o m).error h).1⟩,
      fun k _ _ h => ((p.removeAssociated_ends k).error h).2⟩
  · obtain ⟨L, w⟩ := after_threaded hroomy
    rw [← left_list, ← hcalls] at w
    exact ((w.removeAssociated_ends k).error h).1

/-- a pool with three profiles, of which the middle one is taken out from its list, and the last one is in no list of
the pool; a priority group that is in a list of the last one, and of a port whose count is given back -/
def severed : List StoreCall :=
  let profile : Record := .profile { size := 1, mode := .inherited, threshold := .dynamic 0 }
  [.insertNew .pool (.pool (Pool.fresh .ingress 8 .dynamic 0)), .insertNew .profile profile,
    .insertNew .profile profile, .insertNew .profile profile,
    .insertNew .priorityGroup (.priorityGroup { index := 0 }),
    .insertNew .port (.port { hardwareNumber := 0, tile := 0 }),
    .list (.attach .poolProfiles (.make .pool 0 0) (.make .profile 0 0)),
    .list (.attach .poolProfiles (.make .pool 0 0) (.make .profile 0 1)),
    .list (.attach .profileConsumers (.make .profile 0 2) (.make .priorityGroup 0 0)),
    .list (.attach .portPriorityGroups (.make .port 0 0) (.make .priorityGroup 0 0)),
    .remove (.make .profile 0 1), .decrementRef (.make .port 0 0)]

/-- once the pool's last profile is gone, attaching another gets no further than its place; before, it is refused only
for one that is attached, and changes nothing -/
theorem severed_leaves :
    (∃ e t, (left severed).AttachStuck .poolProfiles (.make .pool 0 0) (.make .profile 0 2) e t) ∧
      ∃ e, (attach .poolProfiles (.make .pool 0 0) (.make .profile 0 0)).run (left (severed.take 10)) =
        (.error e, left (severed.take 10)) := by
  have hchanged : ((attach .poolProfiles (.make .pool 0 0) (.make .profile 0 2)).run (left severed)).1.isOk = false ∧
      ((attach .poolProfiles (.make .pool 0 0) (.make .profile 0 2)).run (left severed)).2.get? (.make .profile 0 2) ≠
        (left severed).get? (.make .profile 0 2) := by decide +kernel
  have hrefused : ((attach .poolProfiles (.make .pool 0 0) (.make .profile 0 0)).run
      (left (severed.take 10))).1.isOk = false := by decide +kernel
  constructor
  · rcases hr : (attach .poolProfiles (.make .pool 0 0) (.make .profile 0 2)).run (left severed) with ⟨e | ⟨⟩, t⟩
    · rw [hr] at hchanged
      refine ⟨e, t, ((refused_leaves severed).1 _ _ _ e t hr).resolve_left ?_⟩
      rintro rfl
      exact hchanged.2 rfl
    · rw [hr] at hchanged
      cases hchanged.1
  · obtain ⟨-, -, -, hgentle, -⟩ := refused_leaves (severed.take 10)
    obtain ⟨hwhole, -⟩ := hgentle (by decide +kernel)
    rcases hr : (attach .poolProfiles (.make .pool 0 0) (.make .profile 0 0)).run (left (severed.take 10)) with
      ⟨e | ⟨⟩, t⟩
    · obtain rfl := (hwhole _ _ _).1 e t hr
      exact ⟨e, rfl⟩
    · rw [hr] at hrefused
      cases hrefused

/-- **Operations on lists stop halfway.** Refused for a record that was taken out, or for a count that was moved,
attaching leaves the member's place changed, detaching the owner's head, and removal the list it was in. -/
theorem severed_halfway :
    let s := left severed
    let attaching := (attach .poolProfiles (.make .pool 0 0) (.make .profile 0 2)).run s
    let detaching := (detach .poolProfiles (.make .pool 0 0) (.make .profile 0 0)).run s
    let removing := (removeAssociated (.make .priorityGroup 0 0)).run s
    (attaching.1 = .error (.store (.notFound (.make .profile 0 1))) ∧
        attaching.2.get? (.make .profile 0 2) ≠ s.get? (.make .profile 0 2)) ∧
      (detaching.1 = .error (.store (.notFound (.make .profile 0 1))) ∧
        detaching.2.get? (.make .pool 0 0) ≠ s.get? (.make .pool 0 0)) ∧
      removing.1 = .error (.store (.refCountUnderflow (.make .port 0 0))) ∧
        removing.2.get? (.make .profile 0 2) ≠ s.get? (.make .profile 0 2) := by
  decide +kernel

end SharedBuffer
