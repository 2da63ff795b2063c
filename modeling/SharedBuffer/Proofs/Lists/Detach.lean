/-
Detaching as the change of one sequence.

In a store of whole lists, detaching is refused before it changes anything, or runs to its end. What it leaves is
written out as a chain of edits (`Store.unlinked`, `Store.detached`), and the four views of it are derived from that
chain.

Results:
- `Store.detach_ends`: how detaching ends in any store, and where it stops halfway (`DetachStuck`);
- `detach_run`: detaching a member from an owner whose count is not used up succeeds and closes the gap;
- `detach_refused`: with the count used up, nothing changes;
- `detach_ends`: with any arguments, detaching closes a gap or is refused before it changes anything;
- `removeAssociated_refused`, `removeAssociated_run`: a record goes exactly if nothing refers to it and it can be
  detached from what it is in.
-/
import SharedBuffer.Proofs.Lists.Steps

namespace SharedBuffer

/-- the place of a key, once the gap that a member with another place leaves is closed -/
def Link.closing (gap : Link) (k : Key) (l : Link) : Link :=
  { l with
    previous := if gap.next = some k then gap.previous else l.previous
    next := if gap.previous = some k then gap.next else l.next }

namespace Store

variable {s : Store Record} {R R' : Roster} {k o m : Key} {h : ListHead} {l : Link}

/-- what was before a member, pointed at what was after it -/
def closeLeft (s : Store Record) (R : Roster) (o : Key) (l : Link) : Store Record :=
  match l.previous with
  | some previous => s.edit previous (Record.mapLink R (Option.map fun l' => { l' with next := l.next }))
  | none => s.edit o (Record.mapHead R fun h => { h with first := l.next })

/-- what was after a member, pointed at what was before it -/
def closeRight (s : Store Record) (R : Roster) (o : Key) (l : Link) : Store Record :=
  match l.next with
  | some next => s.edit next (Record.mapLink R (Option.map fun l' => { l' with previous := l.previous }))
  | none => s.edit o (Record.mapHead R fun h => { h with last := l.previous })

/-- the store with a member taken out of an owner's list, before the owner counts it -/
def unlinked (s : Store Record) (R : Roster) (o m : Key) (l : Link) : Store Record :=
  (((s.closeLeft R o l).closeRight R o l).edit o
    (Record.mapHead R fun h => { h with length := h.length - (if h.length = 0 then 0 else 1) })).edit m
      (Record.mapLink R fun _ => none)

/-- the store with a member taken out of an owner's list -/
def detached (s : Store Record) (R : Roster) (o m : Key) (l : Link) : Store Record :=
  (s.unlinked R o m l).edit o Record.lowered

theorem contains_closeLeft : (s.closeLeft R o l).contains k = s.contains k := by
  unfold closeLeft
  split <;> exact contains_edit ..

theorem contains_closeRight : (s.closeRight R o l).contains k = s.contains k := by
  unfold closeRight
  split <;> exact contains_edit ..

theorem closeLeft_run (ho : s.contains o = true) (hp : ∀ k, l.previous = some k → s.contains k = true)
    (next : Unit → LinkM Unit) :
    (match l.previous with
      | some previous => do
        let r ← editLink R previous (Option.map fun l' => { l' with next := l.next })
        next r
      | none => do
        let r ← editHead R o fun h => { h with first := l.next }
        next r : LinkM Unit).run s = (next ()).run (s.closeLeft R o l) := by
  unfold closeLeft
  cases h : l.previous with
  | none => exact run_bind_ok (editHead_run ho)
  | some previous => exact run_bind_ok (editLink_run (hp previous h))

theorem closeRight_run (ho : s.contains o = true) (hn : ∀ k, l.next = some k → s.contains k = true)
    (next : Unit → LinkM Unit) :
    (match l.next with
      | some after => do
        let r ← editLink R after (Option.map fun l' => { l' with previous := l.previous })
        next r
      | none => do
        let r ← editHead R o fun h => { h with last := l.previous }
        next r : LinkM Unit).run s = (next ()).run (s.closeRight R o l) := by
  unfold closeRight
  cases h : l.next with
  | none => exact run_bind_ok (editHead_run ho)
  | some after => exact run_bind_ok (editLink_run (hn after h))

theorem linkUnder_of_linkAt (ho : s.headAt R o = some h) (hm : s.linkAt R m = some (some l)) :
    s.linkUnder R o m = if l.owner = o then .ok l else .error (.notAttached m o) := by
  unfold linkUnder
  rw [ownerHead_of_headAt ho, memberLink_of_linkAt hm]
  rfl

theorem linkUnder_ok (hu : s.linkUnder R o m = .ok l) :
    ∃ h, s.headAt R o = some h ∧ s.linkAt R m = some (some l) ∧ l.owner = o := by
  cases ho : s.headAt R o with
  | none =>
    obtain ⟨e, he⟩ := ownerHead_of_none ho
    rw [linkUnder, he] at hu
    cases hu
  | some h =>
    cases hm : s.linkAt R m with
    | none =>
      obtain ⟨e, he⟩ := memberLink_of_none hm
      rw [linkUnder, ownerHead_of_headAt ho, he] at hu
      cases hu
    | some place =>
      cases place with
      | none =>
        rw [linkUnder, ownerHead_of_headAt ho, memberLink_of_linkAt hm] at hu
        cases hu
      | some l' =>
        rw [linkUnder_of_linkAt ho hm] at hu
        split at hu
        · rename_i hown
          obtain rfl := Except.ok.inj hu
          exact ⟨h, rfl, rfl, hown⟩
        · cases hu

theorem headAt_unlinked : (s.unlinked R o m l).headAt R' k =
    if R' = R ∧ k = o then (s.headAt R' k).map fun h =>
      ⟨if l.previous = none then l.next else h.first, if l.next = none then l.previous else h.last,
        h.length - (if h.length = 0 then 0 else 1)⟩
    else s.headAt R' k := by
  unfold unlinked closeRight closeLeft
  rw [headAt_edit fun r => by simp [Record.head?_mapLink], headAt_edit_mapHead]
  cases hp : l.previous <;> cases hn : l.next <;>
    simp only [headAt_edit_mapHead, headAt_edit fun r => Record.head?_mapLink ..] <;>
    by_cases hk : k = o ∧ R' = R <;> cases s.headAt R' k <;> simp [hk, and_comm]

theorem linkAt_unlinked (hm : s.linkAt R m = some (some l)) :
    (s.unlinked R o m l).linkAt R' k =
      if R' = R ∧ k = m then some none
      else if R' = R then (s.linkAt R' k).map (Option.map (l.closing k)) else s.linkAt R' k := by
  have hleft : ∀ j, (s.closeLeft R o l).linkAt R' j =
      if R' = R ∧ l.previous = some j then (s.linkAt R' j).map (Option.map fun l' => { l' with next := l.next })
      else s.linkAt R' j := by
    intro j
    unfold closeLeft
    cases hp : l.previous with
    | none => simp [linkAt_edit fun r => Record.link?_mapHead ..]
    | some previous => simp [linkAt_edit_mapLink, and_comm, eq_comm]
  have hright : ∀ j, ((s.closeLeft R o l).closeRight R o l).linkAt R' j =
      if R' = R ∧ l.next = some j then
        ((s.closeLeft R o l).linkAt R' j).map (Option.map fun l' => { l' with previous := l.previous })
      else (s.closeLeft R o l).linkAt R' j := by
    intro j
    unfold closeRight
    cases hn : l.next with
    | none => simp [linkAt_edit fun r => Record.link?_mapHead ..]
    | some next => simp [linkAt_edit_mapLink, and_comm, eq_comm]
  unfold unlinked
  rw [linkAt_edit_mapLink, linkAt_edit fun r => Record.link?_mapHead .., hright, hleft]
  by_cases hR : R' = R
  · subst hR
    by_cases hk : k = m
    · subst hk
      by_cases h1 : l.previous = some k <;> by_cases h2 : l.next = some k <;> simp [hm, h1, h2]
    · rcases s.linkAt R' k with - | (- | l') <;> by_cases h1 : l.previous = some k <;>
        by_cases h2 : l.next = some k <;> simp [hk, h1, h2, Link.closing]
  · simp [hR]

theorem bareAt_unlinked : (s.unlinked R o m l).bareAt k = s.bareAt k := by
  unfold unlinked closeRight closeLeft
  rw [bareAt_edit fun r => by simp, bareAt_edit fun r => by simp]
  cases l.previous <;> cases l.next <;>
    rw [bareAt_edit fun r => by simp, bareAt_edit fun r => by simp]

theorem refsAt_unlinked : (s.unlinked R o m l).refsAt k = s.refsAt k := by
  unfold unlinked closeRight closeLeft
  rw [refsAt_edit fun r => by simp, refsAt_edit fun r => by simp]
  cases l.previous <;> cases l.next <;>
    rw [refsAt_edit fun r => by simp, refsAt_edit fun r => by simp]

theorem allocators_unlinked : (s.unlinked R o m l).allocators = s.allocators := by
  unfold unlinked closeRight closeLeft
  cases l.previous <;> cases l.next <;> rfl

theorem headAt_detached : (s.detached R o m l).headAt R' k =
    if R' = R ∧ k = o then (s.headAt R' k).map fun h =>
      ⟨if l.previous = none then l.next else h.first, if l.next = none then l.previous else h.last,
        h.length - (if h.length = 0 then 0 else 1)⟩
    else s.headAt R' k := by
  rw [detached, headAt_edit fun r => by simp [Record.lowered], headAt_unlinked]

theorem linkAt_detached (hm : s.linkAt R m = some (some l)) :
    (s.detached R o m l).linkAt R' k =
      if R' = R ∧ k = m then some none
      else if R' = R then (s.linkAt R' k).map (Option.map (l.closing k)) else s.linkAt R' k := by
  rw [detached, linkAt_edit fun r => by simp [Record.lowered], linkAt_unlinked hm]

theorem bareAt_detached : (s.detached R o m l).bareAt k = s.bareAt k := by
  rw [detached, bareAt_edit fun r => by simp [Record.lowered], bareAt_unlinked]

theorem refsAt_detached (ho : s.headAt R o = some h) (hp : s.refsAt o ≠ 0) :
    (s.detached R o m l).refsAt k = if k = o then s.refsAt k - 1 else s.refsAt k := by
  have hhead : (s.unlinked R o m l).headAt R o = _ := headAt_unlinked
  rw [if_pos ⟨rfl, rfl⟩, ho, Option.map_some] at hhead
  rw [detached, refsAt_edit_lowered hhead (by rwa [refsAt_unlinked]), refsAt_unlinked]

theorem detach_run_detached (ho : s.headAt R o = some h) (hm : s.linkAt R m = some (some l)) (hown : l.owner = o)
    (hp : s.refsAt o ≠ 0) (hprev : ∀ k, l.previous = some k → s.contains k = true)
    (hnext : ∀ k, l.next = some k → s.contains k = true) :
    (detach R o m).run s = (.ok (), s.detached R o m l) := by
  have hco := contains_of_headAt ho
  have hcm := contains_of_linkAt hm
  obtain ⟨r, hr, hc⟩ := counted_of_headAt ho
  have hrefs : (s.get? o).elim 0 Record.refCount ≠ 0 := by
    intro e
    simp only [hr, Option.elim_some] at e
    simp [refsAt, hr, e] at hp
  have hhead : (s.unlinked R o m l).headAt R o = _ := headAt_unlinked
  rw [if_pos ⟨rfl, rfl⟩, ho, Option.map_some] at hhead
  obtain ⟨u, hu, huc⟩ := counted_of_headAt hhead
  have hup : u.refCount ≠ 0 := by
    intro e
    apply hp
    rw [← refsAt_unlinked (R := R) (o := o) (m := m) (l := l)]
    simp [refsAt, hu, e]
  obtain ⟨n, hn⟩ := decrementRef_run hu huc hup
  unfold detach
  refine (run_bind_ok (reading_run ((linkUnder_of_linkAt ho hm).trans (if_pos hown)))).trans ?_
  refine (run_bind_ok (reading_run rfl)).trans ?_
  rw [if_neg hrefs]
  refine (closeLeft_run hco hprev _).trans ?_
  refine (closeRight_run (by rw [contains_closeLeft, hco]) (fun k hk => by rw [contains_closeLeft, hnext k hk])
    _).trans ?_
  refine (run_bind_ok (editHead_run (by rw [contains_closeRight, contains_closeLeft, hco]))).trans ?_
  refine (run_bind_ok (editLink_run (by
    rw [contains_edit, contains_closeRight, contains_closeLeft, hcm]))).trans ?_
  refine (run_bind_ok hn).trans ?_
  rfl

/-- with the owner's count used up, detaching is refused and nothing changes -/
theorem detach_refused (hu : s.linkUnder R o m = .ok l) (hp : s.refsAt o = 0) :
    (detach R o m).run s = (.error (.store (.refCountUnderflow o)), s) := by
  obtain ⟨h, ho, -⟩ := linkUnder_ok hu
  obtain ⟨r, hr, -⟩ := counted_of_headAt ho
  have hrefs : (s.get? o).elim 0 Record.refCount = 0 := by
    rw [← UInt32.toNat_inj]
    simpa [refsAt, hr] using hp
  unfold detach
  refine (run_bind_ok (reading_run hu)).trans ?_
  refine (run_bind_ok (reading_run rfl)).trans ?_
  rw [if_pos hrefs]
  rfl

/-- detaching that stopped because what was after the member is gone: the gap is closed on the one side, and the member
is still there -/
def DetachStuck (s : Store Record) (R : Roster) (o m : Key) (e : LinkError) (t : Store Record) : Prop :=
  ∃ l next, s.linkUnder R o m = .ok l ∧ s.refsAt o ≠ 0 ∧ l.next = some next ∧ s.contains next = false ∧
    e = .store (.notFound next) ∧ t = s.closeLeft R o l

/-- detaching closes the gap that a member leaves in its owner's list, or is refused before it changes anything, or
stops where the other side of the gap should be -/
theorem detach_ends (s : Store Record) (R : Roster) (o m : Key) :
    Ends (detach R o m) s
      (fun _ t => s.refsAt o ≠ 0 ∧ ∃ l, s.linkUnder R o m = .ok l ∧ t = s.detached R o m l)
      (fun e t => t = s ∨ s.DetachStuck R o m e t) := by
  cases hu : s.linkUnder R o m with
  | error e => exact Ends.of_run_error (run_bind_error (reading_run_error hu)) (.inl rfl)
  | ok l =>
    by_cases hp : s.refsAt o = 0
    · exact Ends.of_run_error (detach_refused hu hp) (.inl rfl)
    obtain ⟨h, ho, hm, hown⟩ := linkUnder_ok hu
    have hco := contains_of_headAt ho
    have hrefs : (s.get? o).elim 0 Record.refCount ≠ 0 := fun e => hp (by
      obtain ⟨r, hr, -⟩ := counted_of_headAt ho
      rw [hr, Option.elim_some] at e
      rw [refsAt, hr, Option.elim_some, e]
      rfl)
    by_cases hprevious : ∀ k, l.previous = some k → s.contains k = true
    · by_cases hnext : ∀ k, l.next = some k → s.contains k = true
      · exact Ends.of_run_ok (detach_run_detached ho hm hown hp hprevious hnext) ⟨hp, l, rfl, rfl⟩
      · obtain ⟨next, hn, hgone⟩ : ∃ k, l.next = some k ∧ s.contains k = false := by simpa using hnext
        refine Ends.bind_ok (reading_run hu) (Ends.bind_ok (reading_run rfl) ?_)
        rw [if_neg hrefs]
        refine Ends.of_run_error (e := .store (.notFound next)) ((closeLeft_run hco hprevious _).trans ?_)
          (.inr ⟨l, next, hu, hp, hn, hgone, rfl, rfl⟩)
        simp only [hn]
        exact run_bind_error (ofStore_modify_absent (contains_closeLeft.trans hgone))
    · obtain ⟨previous, hp', hgone⟩ : ∃ k, l.previous = some k ∧ s.contains k = false := by simpa using hprevious
      refine Ends.bind_ok (reading_run hu) (Ends.bind_ok (reading_run rfl) ?_)
      rw [if_neg hrefs]
      simp only [hp']
      exact Ends.of_run_error (run_bind_error (ofStore_modify_absent hgone)) (.inl rfl)

end Store

namespace Linked

variable {s : Store Record} {L : Layout} {R : Roster} {o m : Key} {h : ListHead}

/-- a sequence without one member -/
theorem filter_ne_eq {pre post : List Key} (hn : (pre ++ m :: post).Nodup) :
    (pre ++ m :: post).filter (fun x => x ≠ m) = pre ++ post := by
  have hm : m ∉ pre ∧ m ∉ post := by
    rw [List.nodup_append, List.nodup_cons] at hn
    exact ⟨fun h => hn.2.2 m h m (by simp) rfl, hn.2.1.1⟩
  have hid : ∀ l : List Key, m ∉ l → l.filter (fun x => x ≠ m) = l := fun l hl =>
    List.filter_eq_self.2 fun x hx => by simpa using fun e : x = m => hl (e ▸ hx)
  rw [List.filter_append, List.filter_cons_of_neg (by simp), hid _ hm.1, hid _ hm.2]

/-- the place of a member behind the gap -/
theorem link_behind (hl : Linked s L) {pre mid post : List Key} {x : Key}
    (hs : L R o = pre ++ m :: (mid ++ x :: post)) :
    (s.unlinked R o m ⟨o, pre.getLast?, (mid ++ x :: post).head?⟩).linkAt R x =
      some (some ⟨o, (pre ++ mid).getLast?, post.head?⟩) := by
  have hd := hs ▸ hl.nodup R o
  have hold := hl.link (show L R o = (pre ++ m :: mid) ++ x :: post by simp [hs])
  have hxm : x ≠ m := by
    rintro rfl
    simp [List.nodup_append] at hd
  have hxp : pre.getLast? ≠ some x := fun e => by
    rw [List.nodup_append] at hd
    exact hd.2.2 x (List.mem_of_getLast? e) x (by simp) rfl
  have hdm : (mid ++ x :: post).Nodup := hd.sublist (by simp)
  rw [Store.linkAt_unlinked (hl.link hs), if_neg fun e => hxm e.2, if_pos rfl, hold]
  simp only [Link.closing, head?_eq_some_iff hdm, hxp, if_false, Option.map_some]
  cases mid <;> simp [List.getLast?_append, List.getLast?_cons]

/-- the place of a member before the gap -/
theorem link_before (hl : Linked s L) {pre mid post : List Key} {x : Key}
    (hs : L R o = (pre ++ x :: mid) ++ m :: post) :
    (s.unlinked R o m ⟨o, (pre ++ x :: mid).getLast?, post.head?⟩).linkAt R x =
      some (some ⟨o, pre.getLast?, (mid ++ post).head?⟩) := by
  have hd := hs ▸ hl.nodup R o
  have hold := hl.link (show L R o = pre ++ x :: (mid ++ m :: post) by simp [hs])
  have hxm : x ≠ m := by
    rintro rfl
    simp [List.nodup_append] at hd
  have hxp : post.head? ≠ some x := fun e => by
    rw [List.nodup_append] at hd
    exact hd.2.2 x (by simp) x (List.mem_cons_of_mem _ (List.mem_of_head? e)) rfl
  have hdm : (pre ++ x :: mid).Nodup := hd.sublist (by simp)
  rw [Store.linkAt_unlinked (hl.link hs), if_neg fun e => hxm e.2, if_pos rfl, hold]
  simp only [Link.closing, getLast?_eq_some_iff hdm, hxp, if_false, Option.map_some]
  cases mid <;> simp

theorem unlinked (hl : Linked s L) {pre post : List Key} (hs : L R o = pre ++ m :: post) :
    Linked (s.unlinked R o m ⟨o, pre.getLast?, post.head?⟩) (L.set R o (pre ++ post)) := by
  have hm := hl.link hs
  have hd := hs ▸ hl.nodup R o
  have hlink : ∀ R' k, (s.unlinked R o m ⟨o, pre.getLast?, post.head?⟩).linkAt R' k = _ := fun R' k =>
    Store.linkAt_unlinked hm
  have hmem : ∀ {x}, x ∈ L R o ↔ x = m ∨ x ∈ pre ++ post := by
    intro x
    rw [hs]
    simp only [List.mem_append, List.mem_cons]
    tauto
  refine hl.relist (hd.sublist (by simp)) (fun x hx => .inl (hmem.2 (.inr hx))) (fun {h'} hh => ?_)
    (fun {pre' x post'} hs' => ?_) (fun x hx hxl => ?_) (fun hro => ?_) fun {R' x} hx => ?_
  · rw [Store.headAt_unlinked, if_pos ⟨rfl, rfl⟩] at hh
    cases ho : s.headAt R o with
    | none => simp [ho] at hh
    | some h =>
      rw [ho, Option.map_some, Option.some.injEq] at hh
      subst hh
      obtain ⟨hf, hla⟩ := hl.head ho
      rw [hf, hla, hs]
      refine ⟨?_, ?_⟩
      · cases pre <;> simp
      · cases post <;> simp [List.getLast?_append, List.getLast?_cons]
  · -- which side of the gap the member is on
    rcases List.append_eq_append_iff.1 hs' with ⟨mid, rfl, rfl⟩ | ⟨mid, rfl, hpost⟩
    · exact hl.link_behind hs
    · cases mid with
      | nil =>
        obtain rfl : x :: post' = post := hpost
        have hs : L R o = pre' ++ m :: ([] ++ x :: post') := by simpa using hs
        simpa using hl.link_behind hs
      | cons y mid =>
        obtain ⟨rfl, rfl⟩ : x = y ∧ post' = mid ++ post := by simpa using hpost
        exact hl.link_before (by simpa using hs)
  · rw [hlink, if_pos ⟨rfl, (hmem.1 hx).resolve_right hxl⟩]
  · rw [Store.headAt_unlinked, if_neg hro]
  · by_cases hR : R' = R
    · subst hR
      have hout : x ∉ L R' o := (hx rfl).1
      have hprevious : pre.getLast? ≠ some x := fun e =>
        hout (hmem.2 (.inr (List.mem_append_left _ (List.mem_of_getLast? e))))
      have hnext : post.head? ≠ some x := fun e =>
        hout (hmem.2 (.inr (List.mem_append_right _ (List.mem_of_head? e))))
      rw [hlink, if_neg fun e => hout (hmem.2 (.inl e.2)), if_pos rfl]
      rcases s.linkAt R' x with - | (- | l) <;> simp [Link.closing, hprevious, hnext]
    · rw [hlink, if_neg fun e => hR e.1, if_neg hR]

theorem edit_lowered {t : Store Record} {L' : Layout} (hl : Linked t L') : Linked (t.edit o Record.lowered) L' := by
  refine ⟨hl.nodup, fun hh => hl.head ?_, fun hs => ?_, fun hx => hl.member ?_⟩
  · rwa [Store.headAt_edit fun r => by simp [Record.lowered]] at hh
  · rw [Store.linkAt_edit fun r => by simp [Record.lowered]]
    exact hl.link hs
  · rwa [Store.linkAt_edit fun r => by simp [Record.lowered]] at hx

theorem detached (hl : Linked s L) {pre post : List Key} (hs : L R o = pre ++ m :: post) :
    Linked (s.detached R o m ⟨o, pre.getLast?, post.head?⟩) (L.set R o (pre ++ post)) :=
  (hl.unlinked hs).edit_lowered

theorem relisted_detached (hl : Linked s L) (ho : s.headAt R o = some h) (hp : s.refsAt o ≠ 0) {pre post : List Key}
    (hs : L R o = pre ++ m :: post) :
    Relisted s (s.detached R o m ⟨o, pre.getLast?, post.head?⟩) L R o (pre ++ post) (s.refsAt o - 1) := by
  refine ⟨hl.detached hs, ⟨?_, fun k => ?_, fun hR => ?_, fun hR => ?_⟩, fun k => ?_⟩
  · exact Store.allocators_unlinked (m := m)
  · exact Store.bareAt_detached
  · rw [Store.headAt_detached, if_neg fun e => hR e.1]
  · rw [Store.linkAt_detached (hl.link hs), if_neg fun e => hR e.1, if_neg hR]
  · rw [Store.refsAt_detached ho hp]
    split
    · rename_i hk
      rw [hk]
    · rfl

theorem detach_run_split (hl : Linked s L) (ho : s.headAt R o = some h) (hp : s.refsAt o ≠ 0) {pre post : List Key}
    (hs : L R o = pre ++ m :: post) :
    (Store.detach R o m).run s = (.ok (), s.detached R o m ⟨o, pre.getLast?, post.head?⟩) := by
  have hlive : ∀ k, k ∈ pre ∨ k ∈ post → s.contains k = true := fun k hk =>
    hl.contains_of_mem (R := R) (o := o) (by simp only [hs, List.mem_append, List.mem_cons]; tauto)
  exact Store.detach_run_detached ho (hl.link hs) rfl hp (fun k hk => hlive k (.inl (List.mem_of_getLast? hk)))
    fun k hk => hlive k (.inr (List.mem_of_head? hk))

/-- **Detaching closes the gap**, unless the owner's count is used up. -/
theorem detach_run (hl : Linked s L) (ho : s.headAt R o = some h) (hm : m ∈ L R o) (hp : s.refsAt o ≠ 0) :
    ∃ t, (Store.detach R o m).run s = (.ok (), t) ∧
      Relisted s t L R o ((L R o).filter (fun x => x ≠ m)) (s.refsAt o - 1) := by
  obtain ⟨pre, post, hs⟩ := List.append_of_mem hm
  refine ⟨_, hl.detach_run_split ho hp hs, ?_⟩
  have hrel := hl.relisted_detached ho hp hs
  rwa [hs, filter_ne_eq (hs ▸ hl.nodup R o)]

theorem linkUnder_of_mem (hl : Linked s L) (ho : s.headAt R o = some h) (hm : m ∈ L R o) :
    ∃ l, s.linkUnder R o m = .ok l := by
  obtain ⟨l, hlink, hown⟩ := hl.owner_of_mem hm
  exact ⟨l, (Store.linkUnder_of_linkAt ho hlink).trans (if_pos hown)⟩

/-- with the owner's count used up, detaching is refused and nothing changes -/
theorem detach_refused (hl : Linked s L) (ho : s.headAt R o = some h) (hm : m ∈ L R o) (hp : s.refsAt o = 0) :
    (Store.detach R o m).run s = (.error (.store (.refCountUnderflow o)), s) := by
  obtain ⟨l, hu⟩ := hl.linkUnder_of_mem ho hm
  exact Store.detach_refused hu hp

/-- detaching closes the gap that a member leaves in its owner's list, or is refused before it changes anything -/
theorem detach_ends (hl : Linked s L) (R : Roster) (o m : Key) :
    Ends (Store.detach R o m) s
      (fun _ t => s.refsAt o ≠ 0 ∧ ∃ h pre post, s.headAt R o = some h ∧ L R o = pre ++ m :: post ∧
        t = s.detached R o m ⟨o, pre.getLast?, post.head?⟩)
      (fun _ t => t = s) := by
  refine (Store.detach_ends s R o m).mono (fun _ t => ?_) fun _ t ht => ht.resolve_right ?_
  · rintro ⟨hp, l, hu, rfl⟩
    obtain ⟨h, ho, hm, rfl⟩ := Store.linkUnder_ok hu
    obtain ⟨pre, post, hs⟩ := List.append_of_mem (hl.member hm)
    have hplace := hl.link hs
    rw [hm, Option.some.injEq, Option.some.injEq] at hplace
    exact ⟨hp, h, pre, post, ho, hs, by rw [← hplace]⟩
  · rintro ⟨l, next, hu, -, hnext, hgone, -⟩
    obtain ⟨-, -, hm, -⟩ := Store.linkUnder_ok hu
    exact Bool.false_ne_true (hgone.symm.trans (hl.contains_of_mem (hl.neighbour_mem hm (.inr hnext))))

end Linked

namespace Store

variable {s : Store Record} {k : Key}

/-! ## Removal -/

/-- what is not there cannot be removed -/
theorem removeAssociated_absent (h : s.contains k = false) :
    (removeAssociated k).run s = (.error (.store (.notFound k)), s) := by
  have hget : s.get k = .error (.notFound k) := by rw [get, get?_eq_none h]
  refine run_bind_error ?_
  simp [LinkM.reading, hget, Except.mapError]

/-- what is referred to is not removed -/
theorem removeAssociated_inUse {r : Record} (hg : s.get? k = some r) (h : s.refsAt k ≠ 0) :
    (removeAssociated k).run s = (.error (.objectInUse k r.refCount), s) := by
  have hget : s.get k = .ok r := by rw [get, hg]
  have hpos : 0 < r.refCount := by
    rw [UInt32.lt_iff_toNat_lt]
    exact Nat.pos_of_ne_zero (by simpa [refsAt, hg] using h)
  refine (run_bind_ok (a := r) (t := s) ?_).trans ?_
  · simp [LinkM.reading, hget, Except.mapError]
  · rw [if_pos hpos]
    rfl

/-- removing a record that is gone, or that is referred to, is refused, and nothing changes -/
theorem removeAssociated_refused (h : s.contains k = false ∨ s.refsAt k ≠ 0) :
    ∃ e, (removeAssociated k).run s = (.error e, s) := by
  cases hc : s.contains k with
  | false => exact ⟨_, removeAssociated_absent hc⟩
  | true =>
    obtain ⟨r, hg⟩ := contains_iff.1 hc
    exact ⟨_, removeAssociated_inUse hg (h.resolve_left (by simp [hc]))⟩

/-- removing a record without references starts with its lists -/
theorem removeAssociated_start {r : Record} (hg : s.get? k = some r) (hzero : s.refsAt k = 0) :
    (removeAssociated k).run s = (do
      detachAll k r.memberships
      let removed ← LinkM.reading fun s => (s.get k).mapError .store
      modifyThe (Store Record) fun s => (s.remove k).release k
      return removed : LinkM Record).run s := by
  have hnot : ¬ 0 < r.refCount := by
    rw [UInt32.lt_iff_toNat_lt]
    simpa [refsAt, hg] using hzero
  have hget : s.get k = .ok r := by rw [get, hg]
  refine (run_bind_ok (a := r) (t := s) ?_).trans ?_
  · simp [LinkM.reading, hget, Except.mapError]
  · rw [if_neg hnot]

/-- removing a record without references detaches it and takes it out -/
theorem removeAssociated_run {u : Store Record} {r : Record} (hg : s.get? k = some r) (hzero : s.refsAt k = 0)
    (hd : (detachAll k r.memberships).run s = (.ok (), u)) (hc : u.contains k = true) :
    ∃ removed, (removeAssociated k).run s = (.ok removed, (u.remove k).release k) := by
  obtain ⟨r', hr'⟩ := contains_iff.1 hc
  have hget : u.get k = .ok r' := by rw [get, hr']
  refine ⟨r', (removeAssociated_start hg hzero).trans ((run_bind_ok hd).trans ?_)⟩
  refine (run_bind_ok (a := r') (t := u) ?_).trans rfl
  simp [LinkM.reading, hget, Except.mapError]

end Store

end SharedBuffer
