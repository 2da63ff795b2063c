/-
Lists as sequences: attaching, detaching and removing, said of what walks return.

A coherent store stands for a layout, that of its walks (`Store.Coherent.threaded`), so what the operations do to
heads and links is what they do to sequences: one appends, one leaves a member out, one leaves a key out of all of
them. Here it is said without layouts, heads and links, of `Store.members` alone.

Results:
- `Linked.attach_appends`, `Linked.detach_drops`, `Threaded.remove_drops`: when each operation succeeds, and what every
  walk returns afterwards;
- `Linked.detach_attached`: detaching what was just attached puts every record back; of the owner's record, the count
  has to have had room;
- `operations_refine_sequences`: all of it, for every coherent store.
-/
import SharedBuffer.Proofs.Lists.Coherent
import SharedBuffer.Proofs.Lists.Paired
import SharedBuffer.Proofs.Lists.Wired

namespace SharedBuffer

/-! ## Records by their views -/

/-- a record is its head, its links, its count and the rest -/
theorem Record.ext_views {r r' : Record} (hbare : r.bare = r'.bare) (hhead : ∀ R, r.head? R = r'.head? R)
    (hlink : ∀ R, r.link? R = r'.link? R) (hcount : r.refCount = r'.refCount) : r = r' := by
  have h₁ := hhead .poolProfiles
  have h₂ := hhead .profileConsumers
  have h₃ := hhead .portPriorityGroups
  have h₄ := hhead .portQueues
  have l₁ := hlink .poolProfiles
  have l₂ := hlink .profileConsumers
  have l₃ := hlink .portPriorityGroups
  have l₄ := hlink .portQueues
  cases r <;> cases r'
  case pool.pool p p' => cases p; cases p'; simp_all [bare, head?, link?, refCount]
  case profile.profile p p' => cases p; cases p'; simp_all [bare, head?, link?, refCount]
  case priorityGroup.priorityGroup g g' => cases g; cases g'; simp_all [bare, head?, link?, refCount]
  case queue.queue q q' => cases q; cases q'; simp_all [bare, head?, link?, refCount]
  case port.port p p' => cases p; cases p'; simp_all [bare, head?, link?, refCount]
  all_goals cases hbare

namespace Store

variable {s t : Store Record} {R R' : Roster} {k o o' m : Key} {h : ListHead}

/-- what is under a key is what its views say -/
theorem get?_eq_of_views (hbare : t.bareAt k = s.bareAt k) (hhead : ∀ R, t.headAt R k = s.headAt R k)
    (hlink : ∀ R, t.linkAt R k = s.linkAt R k) (hrefs : t.refsAt k = s.refsAt k) : t.get? k = s.get? k := by
  unfold bareAt at hbare
  unfold headAt at hhead
  unfold linkAt at hlink
  unfold refsAt at hrefs
  cases ht : t.get? k with
  | none => cases hs : s.get? k <;> simp_all
  | some r =>
    cases hs : s.get? k with
    | none => simp_all
    | some r' =>
      rw [ht, hs] at hbare hhead hlink hrefs
      simp only [Option.map_some, Option.some.injEq, Option.bind_some, Option.elim_some, UInt32.toNat_inj] at *
      exact Record.ext_views hbare hhead hlink hrefs

/-- whether a key has a list of a kind can be told from the rest of its record -/
theorem isSome_headAt (hbare : t.bareAt k = s.bareAt k) : (t.headAt R k).isSome = (s.headAt R k).isSome := by
  have hkind : ∀ u : Store Record, (u.headAt R k).isSome = (u.bareAt k).any fun r => r.kind = R.ownerKind := by
    intro u
    unfold headAt bareAt
    cases u.get? k with
    | none => rfl
    | some r => simp [Record.isSome_head?]
  rw [hkind, hkind, hbare]

/-! ## What walks return -/

/-- a key without a list of a kind has no members, and it is said why -/
theorem members_of_headless (h : s.headAt R o = none) :
    s.members R o = .error (if s.contains o = true then .noSuchList o R else .ownerNotFound o) := by
  unfold headAt at h
  unfold members membersUpTo ownerHead
  change _ = Except.error (if (s.get? o).isSome = true then _ else _)
  cases hg : s.get? o with
  | none => rfl
  | some r =>
    rw [hg, Option.bind_some] at h
    simp only [h]
    rfl

/-- a key with a list has members -/
theorem exists_head_of_members {l : List Key} (h : s.members R o = .ok l) : ∃ hd, s.headAt R o = some hd := by
  cases hh : s.headAt R o with
  | some hd => exact ⟨hd, rfl⟩
  | none =>
    rw [members_of_headless hh] at h
    cases h

/-- whether an owner has a list of a kind -/
def Owns (s : Store Record) (R : Roster) (o : Key) : Prop := ∃ h, s.headAt R o = some h

/-- whether a key can be in lists of a kind -/
def CanJoin (s : Store Record) (R : Roster) (m : Key) : Prop := ∃ place, s.linkAt R m = some place

/-- whether a member may join the list of an owner: both are there, the one has the list, and the other can be in lists
of that kind and is in none -/
def Attachable (s : Store Record) (R : Roster) (o m : Key) : Prop :=
  s.contains o = true ∧ s.contains m = true ∧ s.Owns R o ∧ s.CanJoin R m ∧
    ∀ o' l, s.members R o' = .ok l → m ∉ l

/-- whether a key is in the list of an owner -/
def Sits (s : Store Record) (R : Roster) (o m : Key) : Prop := ∃ l, s.members R o = .ok l ∧ m ∈ l

/-- whether walks of `t` return what those of `s` do, but for one list, which is changed by `f` -/
def Walks (s t : Store Record) (R : Roster) (o : Key) (f : List Key → List Key) : Prop :=
  ∀ R' o', t.members R' o' = if R' = R ∧ o' = o then (s.members R o).map f else s.members R' o'

end Store

namespace Linked

open Store

variable {s t : Store Record} {L L' : Layout} {R : Roster} {o m : Key} {h : ListHead}

/-- a walk follows the layout: where an owner keeps its lists, what they return changes as the sequence does -/
theorem members_map (hl : Linked s L) (hl' : Linked t L') {f : List Key → List Key}
    (hbare : t.bareAt o = s.bareAt o) (hL : L' R o = f (L R o)) : t.members R o = (s.members R o).map f := by
  have hh : (t.headAt R o).isSome = (s.headAt R o).isSome := isSome_headAt hbare
  have hc : t.contains o = s.contains o := by rw [contains_eq_bareAt, contains_eq_bareAt, hbare]
  cases hs : s.headAt R o with
  | none =>
    have ht : t.headAt R o = none := by simpa [hs] using hh
    rw [members_of_headless ht, members_of_headless hs, hc]
    rfl
  | some hd =>
    obtain ⟨hd', ht⟩ : ∃ hd', t.headAt R o = some hd' := Option.isSome_iff_exists.1 (by rw [hh, hs]; rfl)
    rw [hl'.members_eq ht, hl.members_eq hs, hL]
    rfl

/-- another sequence in one list is what one walk returns -/
theorem walks_set (hl : Linked s L) {f : List Key → List Key} (hl' : Linked t (L.set R o (f (L R o))))
    (hbare : ∀ k, t.bareAt k = s.bareAt k) : s.Walks t R o f := by
  intro R' o'
  by_cases hro : R' = R ∧ o' = o
  · obtain ⟨rfl, rfl⟩ := hro
    rw [if_pos ⟨rfl, rfl⟩]
    exact hl.members_map hl' (hbare _) (Layout.set_self ..)
  · rw [if_neg hro]
    refine (hl.members_map (f := id) hl' (hbare _) (Layout.set_of_ne hro)).trans ?_
    cases s.members R' o' <;> rfl

/-- who is in the sequence of an owner is in what its walk returns -/
theorem sits_iff (hl : Linked s L) : s.Sits R o m ↔ s.Owns R o ∧ m ∈ L R o := by
  constructor
  · rintro ⟨l, hw, hm⟩
    obtain ⟨hd, hh⟩ := exists_head_of_members hw
    rw [hl.members_eq hh, Except.ok.injEq] at hw
    exact ⟨⟨hd, hh⟩, hw ▸ hm⟩
  · rintro ⟨⟨hd, hh⟩, hm⟩
    exact ⟨L R o, hl.members_eq hh, hm⟩

/-- a link that an appended member gave the one before it goes with it -/
theorem linkAt_attached_detached (hl : Linked s L) (ho : s.headAt R o = some h) (hm : s.linkAt R m = some none)
    (R' : Roster) (k : Key) :
    ((s.attached R h o m).detached R o m ⟨o, (L R o).getLast?, none⟩).linkAt R' k = s.linkAt R' k := by
  obtain ⟨-, hlast⟩ := hl.head ho
  have hne : h.last ≠ some m := fun e => hl.not_mem_of_free hm (hl.end_mem ho (.inr e))
  have hmid : (s.attached R h o m).linkAt R m = some (some ⟨o, (L R o).getLast?, none⟩) := by
    rw [linkAt_attached hm hne, if_pos ⟨rfl, rfl⟩, hlast]
  rw [linkAt_detached hmid, linkAt_attached hm hne]
  by_cases hR : R' = R
  · subst hR
    by_cases hk : k = m
    · subst hk
      simp [hm]
    by_cases hend : h.last = some k
    · -- the old end of the list: nothing was behind it, and nothing is
      obtain ⟨pre, hs⟩ : ∃ pre, L R' o = pre ++ [k] := by
        rw [hlast] at hend
        exact ⟨_, (List.dropLast_append_getLast? k hend).symm⟩
      rw [hl.link hs]
      simp [hk, hend, Link.closing, ← hlast]
    · rcases s.linkAt R' k with - | (- | l) <;> simp [hk, hend, Link.closing, ← hlast]
  · simp [hR]

/-- **Detaching what was just attached puts every record back.** The owner's own record needs that its count and its
length had room, since the one stays at its largest value and the other starts over. -/
theorem detach_attached (hl : Linked s L) (ho : s.headAt R o = some h) (hm : s.linkAt R m = some none) :
    ∃ u, (detach R o m).run (s.attached R h o m) = (.ok (), u) ∧ u.allocators = s.allocators ∧
      (∀ k, k ≠ o → u.get? k = s.get? k) ∧
      (h.length.toNat + 1 < UInt32.size → s.refsAt o < maxRefs → u.get? o = s.get? o) := by
  have hat := hl.attached ho hm
  have hhead : (s.attached R h o m).headAt R o = some ⟨h.first.or (some m), some m, h.length + 1⟩ := by
    rw [headAt_attached, if_pos ⟨rfl, rfl⟩, ho]
    rfl
  have hrefs : (s.attached R h o m).refsAt o = min (s.refsAt o + 1) maxRefs := by
    rw [refsAt_attached ho, if_pos rfl]
  have hpos : (s.attached R h o m).refsAt o ≠ 0 := by
    rw [hrefs]
    simp only [maxRefs, UInt32.size]
    omega
  have hs : L.set R o (L R o ++ [m]) R o = L R o ++ m :: [] := Layout.set_self ..
  have hrun := hat.detach_run_split hhead hpos hs
  have hlink := hl.linkAt_attached_detached ho hm
  have hbare : ∀ k, ((s.attached R h o m).detached R o m ⟨o, (L R o).getLast?, none⟩).bareAt k = s.bareAt k :=
    fun k => bareAt_detached.trans bareAt_attached
  refine ⟨_, hrun, (allocators_unlinked (m := m)).trans allocators_attached, fun k hk => ?_, fun hlen hroom => ?_⟩
  · refine get?_eq_of_views (hbare k) (fun R' => ?_) (fun R' => hlink R' k) ?_
    · rw [headAt_detached, if_neg fun e => hk e.2, headAt_attached, if_neg fun e => hk e.2]
    · rw [refsAt_detached hhead hpos, if_neg hk, refsAt_attached ho, if_neg hk]
  · refine get?_eq_of_views (hbare o) (fun R' => ?_) (fun R' => hlink R' o) ?_
    · by_cases hR : R' = R
      · subst hR
        obtain ⟨hfirst, hlast⟩ := hl.head ho
        have hfirst' : (if (L R' o).getLast? = none then none else h.first.or (some m)) = h.first := by
          rw [hfirst]
          cases L R' o <;> simp [List.getLast?_cons]
        have hlength : h.length + 1 - (if h.length + 1 = 0 then 0 else 1) = h.length := by
          have hnz : h.length + 1 ≠ 0 := fun e => by
            rw [← UInt32.toNat_inj, UInt32.toNat_add, UInt32.toNat_one, Nat.mod_eq_of_lt hlen] at e
            exact Nat.succ_ne_zero _ e
          rw [if_neg hnz, UInt32.add_sub_cancel]
        rw [headAt_detached, if_pos ⟨rfl, rfl⟩, hhead, ho, Option.map_some, Option.some.injEq, ListHead.mk.injEq]
        exact ⟨hfirst', hlast.symm, hlength⟩
      · rw [headAt_detached, if_neg fun e => hR e.1, headAt_attached, if_neg fun e => hR e.1]
    · rw [refsAt_detached hhead hpos, if_pos rfl, hrefs]
      omega

end Linked

namespace Threaded

open Store

variable {s t : Store Record} {L : Layout} {R : Roster} {k o m : Key} {h : ListHead}

/-- in step with its counts, a store tells from a member's link whether it is in a list of the kind -/
theorem attachable_iff (w : Threaded s L) :
    s.Attachable R o m ↔ (∃ h, s.headAt R o = some h) ∧ s.linkAt R m = some none := by
  constructor
  · rintro ⟨-, -, hown, ⟨place, hplace⟩, hfree⟩
    refine ⟨hown, ?_⟩
    cases place with
    | none => exact hplace
    | some l =>
      have hm := w.linked.member hplace
      obtain ⟨h, ho⟩ := w.owned hm
      exact absurd hm (hfree _ _ (w.linked.members_eq ho))
  · rintro ⟨⟨h, ho⟩, hm⟩
    refine ⟨contains_of_headAt ho, contains_of_linkAt hm, ⟨h, ho⟩, ⟨none, hm⟩, fun o' l hw hin => ?_⟩
    exact w.linked.not_mem_of_free hm (w.linked.sits_iff.1 ⟨l, hw, hin⟩).2

theorem sits_iff (w : Threaded s L) : s.Sits R o m ↔ m ∈ L R o :=
  ⟨fun h => (w.linked.sits_iff.1 h).2, fun h => w.linked.sits_iff.2 ⟨w.owned h, h⟩⟩

/-- **Attaching appends**, exactly for a member that may join; what it has done, detaching undoes. -/
theorem attach_appends (w : Threaded s L) (R : Roster) (o m : Key) :
    Ends (attach R o m) s
      (fun _ t => s.Attachable R o m ∧ s.Walks t R o (fun l => l ++ [m]) ∧
        Ends (detach R o m) t
          (fun _ u => (∀ k, k ≠ o → u.get? k = s.get? k) ∧ (s.refsAt o < maxRefs → u = s)) fun _ _ => False)
      (fun _ t => ¬ s.Attachable R o m ∧ t = s) := by
  by_cases hat : s.Attachable R o m
  · obtain ⟨⟨h, ho⟩, hm⟩ := w.attachable_iff.1 hat
    have hrun := attach_run_attached ho hm fun _ e => w.linked.contains_of_mem (w.linked.end_mem ho (.inr e))
    have hrel := w.linked.relisted_attached ho hm
    obtain ⟨u, hu, hallocators, hothers, hown⟩ := w.linked.detach_attached ho hm
    refine Ends.of_run_ok hrun ⟨hat, w.linked.walks_set hrel.linked hrel.frame.bare, Ends.of_run_ok hu ⟨hothers, ?_⟩⟩
    refine fun hroom => ext_get? hallocators fun k => ?_
    -- the length of one list is at most the count of its owner
    have hlen : h.length.toNat + 1 < UInt32.size := by
      have hle := L.length_le_total R o
      rw [← w.length ho, ← w.counted o] at hle
      simp only [maxRefs, UInt32.size] at hroom ⊢
      omega
    by_cases hk : k = o
    · rw [hk, hown hlen hroom]
    · exact hothers k hk
  · refine (w.linked.attach_ends R o m).mono (fun _ t ht => ?_) fun _ t ht => ⟨hat, ht⟩
    obtain ⟨h, ho, hm, -⟩ := ht
    exact absurd (w.attachable_iff.2 ⟨⟨h, ho⟩, hm⟩) hat

/-- **Detaching leaves a member out**, exactly if it is in the list. -/
theorem detach_drops (w : Threaded s L) (R : Roster) (o m : Key) :
    Ends (detach R o m) s
      (fun _ t => s.Sits R o m ∧ s.Walks t R o (fun l => l.filter fun x => x ≠ m))
      (fun _ t => ¬ s.Sits R o m ∧ t = s) := by
  by_cases hm : m ∈ L R o
  · obtain ⟨h, ho⟩ := w.owned hm
    obtain ⟨t, hrun, hrel⟩ := w.linked.detach_run ho hm (w.refs_ne_zero hm)
    exact Ends.of_run_ok hrun ⟨w.sits_iff.2 hm, w.linked.walks_set hrel.linked hrel.frame.bare⟩
  · refine (w.linked.detach_ends R o m).mono (fun _ t ht => ?_) fun _ t ht => ⟨fun h => hm (w.sits_iff.1 h), ht⟩
    obtain ⟨-, h, pre, post, -, hs, -⟩ := ht
    exact absurd (by simp [hs]) hm

/-- **Removing leaves a key out of every list**, exactly for a record that nothing refers to. -/
theorem remove_drops (w : Threaded s L) (k : Key) :
    Ends (removeAssociated k) s
      (fun _ t => s.contains k = true ∧ s.refsAt k = 0 ∧ (∀ j, t.contains j = (!decide (j = k) && s.contains j)) ∧
        ∀ R o, o ≠ k → t.members R o = (s.members R o).map fun l => l.filter fun x => x ≠ k)
      (fun _ t => ¬ (s.contains k = true ∧ s.refsAt k = 0) ∧ t = s) := by
  refine ((w.removeAssociated_ends k).and (Store.removeAssociated_ends s k)).mono (fun _ t => ?_) fun _ t => ?_
  · rintro ⟨⟨hc, hzero, wt, hkeys⟩, r, u, -, -, hu, rfl⟩
    refine ⟨hc, hzero, hkeys, fun R o ho => w.linked.members_map wt.linked ?_ (if_pos R.mem_all)⟩
    have hsteady := (steady_detachAll k r.memberships s).2 o
    rw [hu] at hsteady
    rw [← hsteady, bareAt, bareAt, get?_release, get?_remove, if_neg ho]
  · rintro ⟨⟨ht, hwhy⟩, -⟩
    refine ⟨?_, ht⟩
    rintro ⟨hc, hzero⟩
    rcases hwhy with hout | hused
    · exact Bool.false_ne_true (hout.symm.trans hc)
    · exact hused hzero

end Threaded

/-! ## The layout of a coherent store -/

/-- the sequences that the walks of a store return -/
def Store.walked (s : Store Record) : Layout := fun R o => (s.members R o).toOption.getD []

namespace Store.Coherent

variable {s : Store Record} {R : Roster} {o m : Key} {h : ListHead}

theorem walked_of_headless (ho : s.headAt R o = none) : s.walked R o = [] := by
  rw [walked, members_of_headless ho]
  rfl

theorem head_of_mem_walked (hm : m ∈ s.walked R o) : ∃ h, s.headAt R o = some h := by
  cases ho : s.headAt R o with
  | some h => exact ⟨h, rfl⟩
  | none =>
    rw [walked_of_headless ho] at hm
    exact absurd hm List.not_mem_nil

theorem spells (hs : s.Coherent) (ho : s.headAt R o = some h) : s.Spells R o h (s.walked R o) := by
  obtain ⟨l, hl⟩ := hs.lists R o h ho
  rw [walked, hl.members]
  exact hl

theorem length_walked (hs : s.Coherent) (R : Roster) (o : Key) :
    (s.walked R o).length = (s.headAt R o).elim 0 fun h => h.length.toNat := by
  cases ho : s.headAt R o with
  | some h => exact (hs.spells ho).length.symm
  | none => rw [walked_of_headless ho]; rfl

theorem linked (hs : s.Coherent) : Linked s s.walked := by
  constructor
  case nodup =>
    intro R o
    cases ho : s.headAt R o with
    | some h => exact (hs.spells ho).nodup
    | none =>
      rw [walked_of_headless ho]
      exact List.nodup_nil
  case head =>
    intro R o h ho
    refine ⟨?_, (hs.spells ho).last⟩
    have hwalk := congrArg List.head? ((hs.spells ho).walk 1)
    rw [List.head?_take, if_neg one_ne_zero] at hwalk
    rw [← hwalk]
    cases h.first <;> rfl
  case link =>
    intro R o pre m post hpre
    obtain ⟨h, ho⟩ := head_of_mem_walked (s := s) (R := R) (o := o) (m := m) (by rw [hpre]; simp)
    exact (hs.spells ho).link pre m post hpre
  case member =>
    intro R m place hm
    obtain ⟨l, hl, hin⟩ := hs.placed R m place hm
    rw [walked, hl]
    exact hin

/-- **A coherent store stands for the layout of its walks.** -/
theorem threaded (hs : s.Coherent) : Threaded s s.walked := by
  constructor
  case linked => exact hs.linked
  case owned => exact fun hm => head_of_mem_walked hm
  case length => exact fun ho => (hs.spells ho).length
  case counted =>
    intro o
    simp only [Layout.total, hs.length_walked]
    cases hg : s.get? o with
    | none => simp [refsAt, headAt, hg, Roster.all]
    | some r =>
      rw [refsAt, hg, Option.elim_some, hs.counted o r hg]
      simp only [headAt, hg, Option.bind_some]

end Store.Coherent

/-! ## All of it -/

/-- **Lists are sequences.** In every coherent store: attaching succeeds exactly for a member that may join, and
appends it to what the owner's walk returns; detaching what was just attached then succeeds, and puts every record
back, the owner's own if its count had room. Detaching succeeds exactly for a member of the list, and leaves it out.
Removing succeeds exactly for a record that nothing refers to; its key is gone then, and left out of every walk. All
other walks return what they did, and a refused operation changes nothing. -/
theorem operations_refine_sequences {s : Store Record} (hs : s.Coherent) :
    (∀ R o m, Ends (Store.attach R o m) s
      (fun _ t => s.Attachable R o m ∧ s.Walks t R o (fun l => l ++ [m]) ∧
        Ends (Store.detach R o m) t
          (fun _ u => (∀ k, k ≠ o → u.get? k = s.get? k) ∧ (s.refsAt o < maxRefs → u = s)) fun _ _ => False)
      (fun _ t => ¬ s.Attachable R o m ∧ t = s)) ∧
    (∀ R o m, Ends (Store.detach R o m) s
      (fun _ t => s.Sits R o m ∧ s.Walks t R o (fun l => l.filter fun x => x ≠ m))
      (fun _ t => ¬ s.Sits R o m ∧ t = s)) ∧
    ∀ k, Ends (Store.removeAssociated k) s
      (fun _ t => s.contains k = true ∧ s.refsAt k = 0 ∧ (∀ j, t.contains j = (!decide (j = k) && s.contains j)) ∧
        ∀ R o, o ≠ k → t.members R o = (s.members R o).map fun l => l.filter fun x => x ≠ k)
      (fun _ t => ¬ (s.contains k = true ∧ s.refsAt k = 0) ∧ t = s) :=
  ⟨hs.threaded.attach_appends, hs.threaded.detach_drops, hs.threaded.remove_drops⟩

/-- after the exchange, the second profile is in the list of the second pool: it may not join that of the first, and
detaching it leaves that list empty -/
theorem exchange_refines : (Store.after exchange).Coherent ∧
    ¬ (Store.after exchange).Attachable .poolProfiles (.make .pool 0 0) (.make .profile 0 1) ∧
    (Store.after exchange).Walks
      ((Store.detach .poolProfiles (.make .pool 0 1) (.make .profile 0 1)).run (Store.after exchange)).2
      .poolProfiles (.make .pool 0 1) (fun l => l.filter fun x => x ≠ .make .profile 0 1) := by
  have hroomy : Roomy exchange := .of_size (by decide +kernel)
  obtain ⟨L, w⟩ := after_threaded hroomy
  have hno : ((Store.attach .poolProfiles (.make .pool 0 0) (.make .profile 0 1)).run (Store.after exchange)).1 =
      .error (.alreadyAttached (.make .profile 0 1) (.make .pool 0 1)) := by decide +kernel
  have hyes : ((Store.detach .poolProfiles (.make .pool 0 1) (.make .profile 0 1)).run (Store.after exchange)).1 =
      .ok () := by decide +kernel
  -- the two runs are known; from here on the store is any coherent one
  generalize Store.after exchange = s at *
  obtain ⟨hattach, hdetach, -⟩ := operations_refine_sequences w.coherent
  exact ⟨w.coherent, ((hattach ..).of_fst_error hno).1, ((hdetach ..).of_fst_ok hyes).2⟩

end SharedBuffer
