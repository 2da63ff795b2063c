/-
What can be seen of a store, apart from each other: the heads, the links, the counts, and the rest of each record.

A list operation is a few edits of single records (`Store.edit`). What an edit does is said once for each of the four
views `headAt`, `linkAt`, `refsAt` and `bareAt`; nothing after this module opens a record to follow a list operation.
-/
import Mathlib.Tactic
import SharedBuffer.Store.Roster

namespace SharedBuffer

namespace Record

/-- the kind of object a record describes -/
def kind : Record → ObjectKind
  | pool _ => .pool
  | profile _ => .profile
  | priorityGroup _ => .priorityGroup
  | queue _ => .queue
  | port _ => .port

/-- the record without its lists, its places in lists and its count -/
def bare : Record → Record
  | pool p => pool { p with profiles := {}, refCount := 0 }
  | profile p => profile { p with poolLink := none, consumers := {}, refCount := 0 }
  | priorityGroup g => priorityGroup { g with portLink := none, profileLink := none }
  | queue q => queue { q with portLink := none, profileLink := none }
  | port p => port { p with priorityGroups := {}, queues := {}, profileLink := none, refCount := 0 }

variable (r : Record) (R R' : Roster) (f : ListHead → ListHead) (g : Option Link → Option Link) (n : UInt32)

@[simp] theorem kind_bare : r.bare.kind = r.kind := by cases r <;> rfl

@[simp] theorem bare_mapHead : (r.mapHead R f).bare = r.bare := by cases r <;> cases R <;> rfl

@[simp] theorem bare_mapLink : (r.mapLink R g).bare = r.bare := by cases r <;> cases R <;> rfl

@[simp] theorem bare_setRefCount : (r.setRefCount n).bare = r.bare := by cases r <;> rfl

@[simp] theorem refCount_mapHead : (r.mapHead R f).refCount = r.refCount := by cases r <;> cases R <;> rfl

@[simp] theorem refCount_mapLink : (r.mapLink R g).refCount = r.refCount := by cases r <;> cases R <;> rfl

@[simp] theorem head?_setRefCount : (r.setRefCount n).head? R = r.head? R := by cases r <;> rfl

@[simp] theorem link?_setRefCount : (r.setRefCount n).link? R = r.link? R := by cases r <;> rfl

/-- a record with a list counts its members -/
theorem countsRefs_of_head? {r : Record} {R : Roster} {h : ListHead} (hh : r.head? R = some h) :
    r.countsRefs = true := by
  cases r <;> simp_all [head?, countsRefs]

theorem refCount_setRefCount {r : Record} (h : r.countsRefs = true) : (r.setRefCount n).refCount = n := by
  cases r <;> simp_all [countsRefs, setRefCount, refCount]

@[simp] theorem head?_retain : r.retain.head? R = r.head? R := by
  unfold retain; split <;> simp

@[simp] theorem link?_retain : r.retain.link? R = r.link? R := by
  unfold retain; split <;> simp

@[simp] theorem bare_retain : r.retain.bare = r.bare := by
  unfold retain; split <;> simp

/-- the port of a priority group or a queue is the owner of the port's list it is in -/
theorem parentPort?_eq : r.parentPort? = (r.ownerIn? .portPriorityGroups).or (r.ownerIn? .portQueues) := by
  cases r <;> simp [parentPort?, ownerIn?, link?]

end Record

namespace Store

variable {s : Store Record} {k j : Key} {R : Roster} {h : ListHead}

/-- the store with one record changed, where there is one -/
def edit (s : Store Record) (k : Key) (f : Record → Record) : Store Record :=
  { s with records := s.records.modify k f }

/-- the head of a list under a key -/
def headAt (s : Store Record) (R : Roster) (k : Key) : Option ListHead := (s.get? k).bind (Record.head? R)

/-- the place of a key in the lists of a kind: `none` if it has none, `some none` if it is in no list -/
def linkAt (s : Store Record) (R : Roster) (k : Key) : Option (Option Link) := (s.get? k).bind (Record.link? R)

/-- the reference count under a key -/
def refsAt (s : Store Record) (k : Key) : Nat := (s.get? k).elim 0 fun r => r.refCount.toNat

/-- the rest of the record under a key -/
def bareAt (s : Store Record) (k : Key) : Option Record := (s.get? k).map Record.bare

theorem contains_iff {s : Store Record} {k : Key} : s.contains k = true ↔ ∃ r, s.get? k = some r :=
  Option.isSome_iff_exists

theorem contains_of_get? {r : Record} (h : s.get? k = some r) : s.contains k = true := by
  rw [contains_iff]
  exact ⟨r, h⟩

theorem get?_eq_none (h : s.contains k = false) : s.get? k = none :=
  Option.not_isSome_iff_eq_none.1 (Bool.eq_false_iff.1 h)

theorem contains_eq_bareAt : s.contains k = (s.bareAt k).isSome := by
  unfold bareAt
  rw [Option.isSome_map]
  rfl

theorem contains_of_headAt (hh : s.headAt R k = some h) : s.contains k = true := by
  rw [contains_iff]
  unfold headAt at hh
  cases hg : s.get? k with
  | none => simp [hg] at hh
  | some r => exact ⟨r, rfl⟩

theorem contains_of_linkAt {l : Option Link} (hl : s.linkAt R k = some l) : s.contains k = true := by
  rw [contains_iff]
  unfold linkAt at hl
  cases hg : s.get? k with
  | none => simp [hg] at hl
  | some r => exact ⟨r, rfl⟩

theorem ownerHead_of_headAt (hh : s.headAt R k = some h) : s.ownerHead R k = .ok h := by
  unfold headAt at hh
  unfold ownerHead
  cases hg : s.get? k with
  | none => simp [hg] at hh
  | some r =>
    rw [hg, Option.bind_some] at hh
    simp [hh]

theorem memberLink_of_linkAt {l : Option Link} (hl : s.linkAt R k = some l) : s.memberLink R k = .ok l := by
  unfold linkAt at hl
  unfold memberLink
  cases hg : s.get? k with
  | none => simp [hg] at hl
  | some r =>
    rw [hg, Option.bind_some] at hl
    simp [hl]

theorem ownerHead_of_none (hh : s.headAt R k = none) : ∃ e, s.ownerHead R k = .error e := by
  unfold headAt at hh
  unfold ownerHead
  cases hg : s.get? k with
  | none => exact ⟨_, rfl⟩
  | some r =>
    rw [hg, Option.bind_some] at hh
    exact ⟨.noSuchList k R, by simp [hh]⟩

theorem memberLink_of_none (hl : s.linkAt R k = none) : ∃ e, s.memberLink R k = .error e := by
  unfold linkAt at hl
  unfold memberLink
  cases hg : s.get? k with
  | none => exact ⟨_, rfl⟩
  | some r =>
    rw [hg, Option.bind_some] at hl
    exact ⟨.noSuchList k R, by simp [hl]⟩

/-! ## Edits -/

theorem get?_edit (s : Store Record) (k j : Key) (f : Record → Record) :
    (s.edit k f).get? j = if j = k then (s.get? j).map f else s.get? j := KeyMap.get?_modify s.records k j f

/-- a store is its records and its allocators -/
theorem ext_get? {t : Store Record} (ha : s.allocators = t.allocators) (h : ∀ k, s.get? k = t.get? k) : s = t := by
  have hr : s.records = t.records := KeyMap.ext_get? h
  cases s
  cases t
  cases ha
  cases hr
  rfl

/-- edits that commute on every record commute on the store, be it the same record that they change or not -/
theorem edit_comm {f g : Record → Record} (h : ∀ r, f (g r) = g (f r)) :
    (s.edit k f).edit j g = (s.edit j g).edit k f := by
  refine ext_get? rfl fun i => ?_
  rw [get?_edit, get?_edit, get?_edit, get?_edit]
  split <;> split
  · cases s.get? i <;> simp [h]
  all_goals rfl

theorem contains_edit (s : Store Record) (k j : Key) (f : Record → Record) :
    (s.edit k f).contains j = s.contains j := by
  change ((s.edit k f).get? j).isSome = (s.get? j).isSome
  rw [get?_edit]
  split <;> simp

theorem headAt_edit_mapHead (s : Store Record) (k j : Key) (R R' : Roster) (f : ListHead → ListHead) :
    (s.edit k (Record.mapHead R f)).headAt R' j =
      if j = k ∧ R' = R then (s.headAt R' j).map f else s.headAt R' j := by
  unfold headAt
  rw [get?_edit]
  by_cases hj : j = k
  · subst hj
    cases s.get? j with
    | none => simp
    | some r => simp [Record.head?_mapHead]
  · simp [hj]

theorem linkAt_edit_mapLink (s : Store Record) (k j : Key) (R R' : Roster) (f : Option Link → Option Link) :
    (s.edit k (Record.mapLink R f)).linkAt R' j =
      if j = k ∧ R' = R then (s.linkAt R' j).map f else s.linkAt R' j := by
  unfold linkAt
  rw [get?_edit]
  by_cases hj : j = k
  · subst hj
    cases s.get? j with
    | none => simp
    | some r => simp [Record.link?_mapLink]
  · simp [hj]

/-- an edit that keeps the heads of records keeps those of the store -/
theorem headAt_edit {f : Record → Record} (hf : ∀ r, (f r).head? R = r.head? R) :
    (s.edit k f).headAt R j = s.headAt R j := by
  unfold headAt
  rw [get?_edit]
  split
  · cases s.get? j <;> simp [hf]
  · rfl

/-- an edit that keeps the links of records keeps those of the store -/
theorem linkAt_edit {f : Record → Record} (hf : ∀ r, (f r).link? R = r.link? R) :
    (s.edit k f).linkAt R j = s.linkAt R j := by
  unfold linkAt
  rw [get?_edit]
  split
  · cases s.get? j <;> simp [hf]
  · rfl

/-- an edit that keeps the counts of records keeps those of the store -/
theorem refsAt_edit {f : Record → Record} (hf : ∀ r, (f r).refCount = r.refCount) :
    (s.edit k f).refsAt j = s.refsAt j := by
  unfold refsAt
  rw [get?_edit]
  split
  · cases s.get? j <;> simp [hf]
  · rfl

/-- an edit that keeps the rest of records keeps that of the store -/
theorem bareAt_edit {f : Record → Record} (hf : ∀ r, (f r).bare = r.bare) :
    (s.edit k f).bareAt j = s.bareAt j := by
  unfold bareAt
  rw [get?_edit]
  split
  · cases s.get? j <;> simp [hf]
  · rfl

end Store

end SharedBuffer
