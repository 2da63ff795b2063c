/-
The sequences that the lists of a store stand for.

A `Layout` gives a sequence of keys for each kind of list and each owner. `Linked s L` says that the heads and links of
`s` spell out exactly `L`: each sequence is free of repetition, its ends are in the owner's head, each member's link
names the owner and its two neighbours, and a key with a link is in the sequence of the owner it names.

Results:
- `Linked.relist`: a store that differs in one list is linked when that list spells out its new sequence;
- `Linked.members_eq`: walking a list meets its sequence, all of it;
- `Frame`, `Relisted`: what an operation on one list leaves alone, and what it leaves.
-/
import SharedBuffer.Proofs.Action
import SharedBuffer.Proofs.Lists.Observed

namespace SharedBuffer

/-- the sequence of each list: by kind of list and owner -/
abbrev Layout := Roster → Key → List Key

namespace Layout

/-- the layout with one sequence changed -/
def set (L : Layout) (R : Roster) (o : Key) (l : List Key) : Layout :=
  fun R' o' => if R' = R ∧ o' = o then l else L R' o'

@[simp] theorem set_self (L : Layout) (R : Roster) (o : Key) (l : List Key) : L.set R o l R o = l :=
  if_pos ⟨rfl, rfl⟩

theorem set_of_ne {L : Layout} {R R' : Roster} {o o' : Key} {l : List Key} (h : ¬ (R' = R ∧ o' = o)) :
    L.set R o l R' o' = L R' o' := if_neg h

end Layout

/-- the heads and links of a store spell out a layout -/
structure Linked (s : Store Record) (L : Layout) : Prop where
  nodup : ∀ R o, (L R o).Nodup
  head : ∀ {R o h}, s.headAt R o = some h → h.first = (L R o).head? ∧ h.last = (L R o).getLast?
  link : ∀ {R o pre m post}, L R o = pre ++ m :: post → s.linkAt R m = some (some ⟨o, pre.getLast?, post.head?⟩)
  member : ∀ {R m l}, s.linkAt R m = some (some l) → m ∈ L R l.owner

/-- `t` is `s` with other lists of one kind and other counts -/
structure Frame (R : Roster) (s t : Store Record) : Prop where
  allocators : t.allocators = s.allocators
  bare : ∀ k, t.bareAt k = s.bareAt k
  head : ∀ {R' k}, R' ≠ R → t.headAt R' k = s.headAt R' k
  link : ∀ {R' k}, R' ≠ R → t.linkAt R' k = s.linkAt R' k

theorem Frame.trans {R : Roster} {s t u : Store Record} (h : Frame R s t) (g : Frame R t u) : Frame R s u :=
  ⟨g.allocators.trans h.allocators, fun k => (g.bare k).trans (h.bare k),
    fun hR => (g.head hR).trans (h.head hR), fun hR => (g.link hR).trans (h.link hR)⟩

theorem Frame.contains {R : Roster} {s t : Store Record} (h : Frame R s t) (k : Key) :
    t.contains k = s.contains k := by
  rw [Store.contains_eq_bareAt, Store.contains_eq_bareAt, h.bare]

/-- `t` is `s` with another sequence in one list and another count of its owner -/
structure Relisted (s t : Store Record) (L : Layout) (R : Roster) (o : Key) (l : List Key) (refs : Nat) : Prop where
  linked : Linked t (L.set R o l)
  frame : Frame R s t
  refs : ∀ k, t.refsAt k = if k = o then refs else s.refsAt k

namespace Linked

variable {s t : Store Record} {L : Layout} {R : Roster} {o o' m : Key} {l : List Key}

/-- a member's link names its owner -/
theorem owner_of_mem (hl : Linked s L) (h : m ∈ L R o) : ∃ l, s.linkAt R m = some (some l) ∧ l.owner = o := by
  obtain ⟨pre, post, hs⟩ := List.append_of_mem h
  exact ⟨_, hl.link hs, rfl⟩

theorem owner_unique (hl : Linked s L) (h : m ∈ L R o) (h' : m ∈ L R o') : o = o' := by
  obtain ⟨l, hm, rfl⟩ := hl.owner_of_mem h
  obtain ⟨l', hm', rfl⟩ := hl.owner_of_mem h'
  rw [hm, Option.some.injEq, Option.some.injEq] at hm'
  rw [hm']

/-- what is in no list is in no sequence -/
theorem not_mem_of_free (hl : Linked s L) (h : s.linkAt R m = some none) : m ∉ L R o := by
  intro hm
  obtain ⟨l, hl, -⟩ := hl.owner_of_mem hm
  rw [h] at hl
  simp at hl

theorem mem_iff (hl : Linked s L) : m ∈ L R o ↔ ∃ l, s.linkAt R m = some (some l) ∧ l.owner = o := by
  constructor
  · exact hl.owner_of_mem
  · rintro ⟨l, h, rfl⟩
    exact hl.member h

theorem contains_of_mem (hl : Linked s L) (h : m ∈ L R o) : s.contains m = true := by
  obtain ⟨l, hm, -⟩ := hl.owner_of_mem h
  change (s.get? m).isSome = true
  cases hg : s.get? m with
  | none => simp [Store.linkAt, hg] at hm
  | some r => rfl

/-- what is next to a member is in the list of its owner -/
theorem neighbour_mem (hl : Linked s L) {place : Link} {k : Key} (hm : s.linkAt R m = some (some place))
    (hk : place.previous = some k ∨ place.next = some k) : k ∈ L R place.owner := by
  obtain ⟨pre, post, hs⟩ := List.append_of_mem (hl.member hm)
  have hplace := hl.link hs
  rw [hm, Option.some.injEq, Option.some.injEq] at hplace
  rw [hs]
  rcases hk with hk | hk
  · rw [hplace] at hk
    exact List.mem_append_left _ (List.mem_of_getLast? hk)
  · rw [hplace] at hk
    exact List.mem_append_right _ (List.mem_cons_of_mem _ (List.mem_of_head? hk))

/-- what is at an end of a list is in it -/
theorem end_mem (hl : Linked s L) {h : ListHead} {k : Key} (ho : s.headAt R o = some h)
    (hk : h.first = some k ∨ h.last = some k) : k ∈ L R o := by
  obtain ⟨hfirst, hlast⟩ := hl.head ho
  rcases hk with hk | hk
  · exact List.mem_of_head? (hfirst.symm.trans hk)
  · exact List.mem_of_getLast? (hlast.symm.trans hk)

/-! ## Another sequence in one list -/

/-- **A store linked but for one list is linked when that list is.** What joins the list was in none of its kind, what
leaves it is in none, and outside the two sequences no link changes. -/
theorem relist (hl : Linked s L) (hn : l.Nodup) (hnew : ∀ x ∈ l, x ∈ L R o ∨ s.linkAt R x = some none)
    (hhead : ∀ {h}, t.headAt R o = some h → h.first = l.head? ∧ h.last = l.getLast?)
    (hlink : ∀ {pre x post}, l = pre ++ x :: post → t.linkAt R x = some (some ⟨o, pre.getLast?, post.head?⟩))
    (hgone : ∀ x ∈ L R o, x ∉ l → t.linkAt R x = some none)
    (hheads : ∀ {R' o'}, ¬ (R' = R ∧ o' = o) → t.headAt R' o' = s.headAt R' o')
    (hlinks : ∀ {R' x}, (R' = R → x ∉ L R o ∧ x ∉ l) → t.linkAt R' x = s.linkAt R' x) :
    Linked t (L.set R o l) := by
  refine ⟨fun R' o' => ?_, fun {R' o' h} hh => ?_, fun {R' o' pre x post} hs => ?_, fun {R' x place} hx => ?_⟩
  · by_cases hro : R' = R ∧ o' = o
    · obtain ⟨rfl, rfl⟩ := hro
      rwa [Layout.set_self]
    · rw [Layout.set_of_ne hro]
      exact hl.nodup R' o'
  · by_cases hro : R' = R ∧ o' = o
    · obtain ⟨rfl, rfl⟩ := hro
      rw [Layout.set_self]
      exact hhead hh
    · rw [Layout.set_of_ne hro]
      exact hl.head (hheads hro ▸ hh)
  · by_cases hro : R' = R ∧ o' = o
    · obtain ⟨rfl, rfl⟩ := hro
      exact hlink (by rwa [Layout.set_self] at hs)
    · rw [Layout.set_of_ne hro] at hs
      have hmem : x ∈ L R' o' := by rw [hs]; simp
      rw [hlinks, hl.link hs]
      rintro rfl
      have hout : x ∉ L R' o := fun hx => hro ⟨rfl, hl.owner_unique hmem hx⟩
      exact ⟨hout, fun hx => (hnew x hx).elim hout fun hfree => hl.not_mem_of_free hfree hmem⟩
  · -- a link of `t` is one of the new sequence, or one that `s` had outside both sequences
    by_cases hin : R' = R ∧ (x ∈ L R o ∨ x ∈ l)
    · obtain ⟨rfl, hin⟩ := hin
      have hxl : x ∈ l := by
        by_contra hxl
        rw [hgone x (hin.resolve_right hxl) hxl] at hx
        simp at hx
      obtain ⟨pre, post, hs⟩ := List.append_of_mem hxl
      rw [hlink hs, Option.some.injEq, Option.some.injEq] at hx
      subst hx
      rwa [Layout.set_self]
    · rw [hlinks fun hR => by tauto] at hx
      have hmem := hl.member hx
      rw [Layout.set_of_ne]
      · exact hmem
      · rintro ⟨rfl, hown⟩
        exact hin ⟨rfl, .inl (hown ▸ hmem)⟩

/-! ## One record more or less -/

/-- a new record that is in no list and whose lists are empty leaves the layout as it is -/
theorem insert {k : Key} {r : Record} (hl : Linked s L) (hget : ∀ j, t.get? j = if j = k then some r else s.get? j)
    (hnew : s.contains k = false) (hempty : ∀ R, L R k = [])
    (hheads : ∀ R h, r.head? R = some h → h.first = none ∧ h.last = none)
    (hlinks : ∀ R l, r.link? R ≠ some (some l)) : Linked t L := by
  refine ⟨hl.nodup, fun {R o h} hh => ?_, fun {R o pre m post} hs => ?_, fun {R m l} hm => ?_⟩
  · rw [Store.headAt, hget] at hh
    by_cases hok : o = k
    · subst hok
      rw [if_pos rfl] at hh
      rw [hempty, (hheads R h hh).1, (hheads R h hh).2]
      exact ⟨rfl, rfl⟩
    · rw [if_neg hok] at hh
      exact hl.head hh
  · have hmk : m ≠ k := by
      rintro rfl
      exact Bool.false_ne_true (hnew.symm.trans (hl.contains_of_mem (R := R) (o := o) (by simp [hs])))
    rw [Store.linkAt, hget, if_neg hmk]
    exact hl.link hs
  · rw [Store.linkAt, hget] at hm
    split at hm
    · exact absurd hm (hlinks R l)
    · exact hl.member hm

/-- a record that is in no list leaves the layout as it is when it goes -/
theorem erase {k : Key} (hl : Linked s L) (hget : ∀ j, t.get? j = if j = k then none else s.get? j)
    (hfree : ∀ R o, k ∉ L R o) : Linked t L := by
  refine ⟨hl.nodup, fun {R o h} hh => ?_, fun {R o pre m post} hs => ?_, fun {R m l} hm => ?_⟩
  · rw [Store.headAt, hget] at hh
    split at hh
    · simp at hh
    · exact hl.head hh
  · have hmk : m ≠ k := by
      rintro rfl
      exact hfree R o (by simp [hs])
    rw [Store.linkAt, hget, if_neg hmk]
    exact hl.link hs
  · rw [Store.linkAt, hget] at hm
    split at hm
    · simp at hm
    · exact hl.member hm

/-! ## Walking -/

/-- distinct live keys are no more than there are records -/
theorem length_le_size {l : List Key} (hn : l.Nodup) (hc : ∀ k ∈ l, s.contains k = true) : l.length ≤ s.size := by
  have hsub : l ⊆ s.records.keys := fun k hk => KeyMap.mem_keys.2 (hc k hk)
  have := (List.subperm_of_subset hn hsub).length_le
  simpa [KeyMap.keys, Store.size, KeyMap.size] using this

theorem walk_eq (hl : Linked s L) (n : Nat) (pre suf : List Key) (h : L R o = pre ++ suf) :
    s.walk R n suf.head? = suf.take n := by
  induction n generalizing pre suf with
  | zero => cases suf <;> rfl
  | succ n ih =>
    cases suf with
    | nil => rfl
    | cons m post =>
      have hm : s.nextMember? R m = post.head? := by
        have := hl.link h
        unfold Store.linkAt at this
        unfold Store.nextMember?
        rw [this]
        rfl
      rw [List.head?_cons, Store.walk, hm, ih (pre ++ [m]) post (by simpa using h), List.take_succ_cons]

/-- **Walking a list meets its sequence.** -/
theorem members_eq (hl : Linked s L) {h : ListHead} (ho : s.headAt R o = some h) : s.members R o = .ok (L R o) := by
  have hlen : (L R o).length ≤ s.size + 1 :=
    Nat.le_succ_of_le (length_le_size (hl.nodup R o) fun k hk => hl.contains_of_mem hk)
  unfold Store.members Store.membersUpTo
  rw [Store.ownerHead_of_headAt ho]
  change Except.ok (s.walk R (s.size + 1) h.first) = _
  rw [(hl.head ho).1, hl.walk_eq _ [] _ rfl, List.take_of_length_le hlen]

end Linked

end SharedBuffer
