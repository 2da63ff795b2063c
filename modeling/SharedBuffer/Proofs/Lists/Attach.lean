/-
Attaching as the change of one sequence.

What attaching leaves is written out as a chain of edits (`Store.attached`), and the four views of it are derived from
that chain.

Results:
- `Store.attach_ends`: how attaching ends in any store, and where it stops halfway (`AttachStuck`);
- `attach_run`: attaching a free member to an owner succeeds and puts it at the end of the owner's sequence;
- `attach_ends`: with any arguments, attaching does that or is refused before it changes anything.
-/
import SharedBuffer.Proofs.Lists.Steps

namespace SharedBuffer

namespace Store

variable {s : Store Record} {R R' : Roster} {k o m : Key} {h : ListHead}

/-- the old end of a list, pointed at its new one -/
def extendLast (s : Store Record) (R : Roster) (m : Key) : Option Key → Store Record
  | some last => s.edit last (Record.mapLink R (Option.map fun l => { l with next := some m }))
  | none => s

/-- the store with a member at the end of an owner's list, before the owner counts it -/
def appended (s : Store Record) (R : Roster) (h : ListHead) (o m : Key) : Store Record :=
  ((s.edit m (Record.mapLink R fun _ => some ⟨o, h.last, none⟩)).extendLast R m h.last).edit o
    (Record.mapHead R fun h => ⟨h.first.or (some m), some m, h.length + 1⟩)

/-- the store with a member at the end of an owner's list -/
def attached (s : Store Record) (R : Roster) (h : ListHead) (o m : Key) : Store Record :=
  (s.appended R h o m).edit o Record.retain

theorem contains_extendLast (last : Option Key) : (s.extendLast R m last).contains k = s.contains k := by
  cases last with
  | none => rfl
  | some last => exact contains_edit ..

theorem attach_run_attached (ho : s.headAt R o = some h) (hm : s.linkAt R m = some none)
    (hlast : ∀ last, h.last = some last → s.contains last = true) :
    (attach R o m).run s = (.ok (), s.attached R h o m) := by
  have hco := contains_of_headAt ho
  have hcm := contains_of_linkAt hm
  obtain ⟨n, hn⟩ := incrementRef_run (s := s.appended R h o m) (k := o)
    (by simp [appended, contains_edit, contains_extendLast, hco])
  unfold attach
  refine (run_bind_ok (reading_run (ownerHead_of_headAt ho))).trans ?_
  refine (run_bind_ok (reading_run (memberLink_of_linkAt hm))).trans ?_
  refine (run_bind_ok (editLink_run hcm)).trans ?_
  unfold appended at hn
  cases hl : h.last with
  | none =>
    rw [hl] at hn
    refine (run_bind_ok (editHead_run (by rw [contains_edit, hco]))).trans ?_
    refine (run_bind_ok hn).trans ?_
    simp only [attached, appended, hl]
    rfl
  | some last =>
    rw [hl] at hn
    refine (run_bind_ok (editLink_run (by rw [contains_edit, hlast last hl]))).trans ?_
    refine (run_bind_ok (editHead_run (by rw [contains_edit, contains_edit, hco]))).trans ?_
    refine (run_bind_ok hn).trans ?_
    simp only [attached, appended, hl]
    rfl

/-- attaching that stopped because the last member of the list is gone: the new member has its place behind it, and
the list goes on without -/
def AttachStuck (s : Store Record) (R : Roster) (o m : Key) (e : LinkError) (t : Store Record) : Prop :=
  ∃ h last, s.headAt R o = some h ∧ s.linkAt R m = some none ∧ h.last = some last ∧ s.contains last = false ∧
    e = .store (.notFound last) ∧ t = s.edit m (Record.mapLink R fun _ => some ⟨o, some last, none⟩)

/-- attaching puts a free member at the end of a list that is there, or is refused before it changes anything, or stops
where the end of the list should be -/
theorem attach_ends (s : Store Record) (R : Roster) (o m : Key) :
    Ends (attach R o m) s
      (fun _ t => ∃ h, s.headAt R o = some h ∧ s.linkAt R m = some none ∧ t = s.attached R h o m)
      (fun e t => t = s ∨ s.AttachStuck R o m e t) := by
  cases ho : s.headAt R o with
  | none =>
    obtain ⟨e, he⟩ := ownerHead_of_none ho
    exact Ends.of_run_error (run_bind_error (reading_run_error he)) (.inl rfl)
  | some h =>
    have hhead : (LinkM.reading fun s => s.ownerHead R o).run s = (.ok h, s) := reading_run (ownerHead_of_headAt ho)
    rcases hm : s.linkAt R m with - | (- | l)
    · obtain ⟨e, he⟩ := memberLink_of_none hm
      exact Ends.bind_ok hhead (Ends.of_run_error (run_bind_error (reading_run_error he)) (.inl rfl))
    · by_cases hlive : ∀ last, h.last = some last → s.contains last = true
      · exact Ends.of_run_ok (attach_run_attached ho hm hlive) ⟨h, rfl, rfl, rfl⟩
      · obtain ⟨last, hlast, hgone⟩ : ∃ last, h.last = some last ∧ s.contains last = false := by
          simpa using hlive
        refine Ends.bind_ok hhead (Ends.bind_ok (reading_run (memberLink_of_linkAt hm)) ?_)
        refine Ends.bind_ok (editLink_run (contains_of_linkAt hm)) ?_
        simp only [hlast]
        have hstop := ofStore_modify_absent (f := Record.mapLink R (Option.map fun l => { l with next := some m }))
          ((contains_edit s m last (Record.mapLink R fun _ => some ⟨o, some last, none⟩)).trans hgone)
        exact Ends.of_run_error (run_bind_error hstop) (.inr ⟨h, last, ho, hm, hlast, hgone, rfl, rfl⟩)
    · exact Ends.bind_ok hhead (Ends.bind_ok (reading_run (memberLink_of_linkAt hm)) (Ends.throw (.inl rfl)))

theorem linkAt_attached (hm : s.linkAt R m = some none) (hne : h.last ≠ some m) :
    (s.attached R h o m).linkAt R' k =
      if R' = R ∧ k = m then some (some ⟨o, h.last, none⟩)
      else if R' = R ∧ h.last = some k then (s.linkAt R' k).map (Option.map fun l => { l with next := some m })
      else s.linkAt R' k := by
  unfold attached appended
  rw [linkAt_edit fun r => by simp, linkAt_edit fun r => by simp [Record.link?_mapHead]]
  cases hl : h.last with
  | none =>
    simp only [extendLast, linkAt_edit_mapLink]
    by_cases hk : k = m ∧ R' = R
    · obtain ⟨rfl, rfl⟩ := hk
      simp [hm]
    · simp [hk, and_comm]
  | some last =>
    have hlm : last ≠ m := fun e => hne (by rw [hl, e])
    simp only [extendLast, linkAt_edit_mapLink]
    by_cases hk : k = m ∧ R' = R
    · obtain ⟨rfl, rfl⟩ := hk
      simp [hm, Ne.symm hlm]
    · simp only [hk, if_false, and_comm, Option.some.injEq, eq_comm (a := last)]

theorem headAt_attached : (s.attached R h o m).headAt R' k =
    if R' = R ∧ k = o then (s.headAt R' k).map fun h => ⟨h.first.or (some m), some m, h.length + 1⟩
    else s.headAt R' k := by
  unfold attached appended
  rw [headAt_edit fun r => by simp, headAt_edit_mapHead]
  have hx : ∀ last,
      ((s.edit m (Record.mapLink R fun _ => some ⟨o, h.last, none⟩)).extendLast R m last).headAt R' k =
        s.headAt R' k := by
    intro last
    cases last with
    | none => exact headAt_edit fun r => by simp [Record.head?_mapLink]
    | some last =>
      rw [extendLast, headAt_edit fun r => by simp [Record.head?_mapLink],
        headAt_edit fun r => by simp [Record.head?_mapLink]]
  rw [hx]
  simp only [and_comm]

theorem bareAt_attached : (s.attached R h o m).bareAt k = s.bareAt k := by
  unfold attached appended
  rw [bareAt_edit fun r => by simp, bareAt_edit fun r => by simp]
  cases h.last with
  | none => exact bareAt_edit fun r => by simp
  | some last => rw [extendLast, bareAt_edit fun r => by simp, bareAt_edit fun r => by simp]

theorem allocators_attached : (s.attached R h o m).allocators = s.allocators := by
  unfold attached appended
  cases h.last <;> rfl

theorem refsAt_attached (ho : s.headAt R o = some h) :
    (s.attached R h o m).refsAt k = if k = o then min (s.refsAt k + 1) maxRefs else s.refsAt k := by
  have hrefs : ∀ j, (s.appended R h o m).refsAt j = s.refsAt j := by
    intro j
    unfold appended
    rw [refsAt_edit fun r => by simp]
    cases h.last with
    | none => exact refsAt_edit fun r => by simp
    | some last => rw [extendLast, refsAt_edit fun r => by simp, refsAt_edit fun r => by simp]
  have hhead : (s.attached R h o m).headAt R o = _ := headAt_attached
  rw [if_pos ⟨rfl, rfl⟩, ho, Option.map_some, attached, headAt_edit fun r => by simp] at hhead
  rw [attached, refsAt_edit_retain hhead, hrefs]

end Store

namespace Linked

variable {s : Store Record} {L : Layout} {R : Roster} {o m : Key} {h : ListHead}

theorem attached (hl : Linked s L) (ho : s.headAt R o = some h) (hm : s.linkAt R m = some none) :
    Linked (s.attached R h o m) (L.set R o (L R o ++ [m])) := by
  have hfree : m ∉ L R o := hl.not_mem_of_free hm
  obtain ⟨hfirst, hlast⟩ := hl.head ho
  have hne : h.last ≠ some m := fun e => hfree (hl.end_mem ho (.inr e))
  have hlink : ∀ R' k, (s.attached R h o m).linkAt R' k = _ := fun R' k => Store.linkAt_attached hm hne
  refine hl.relist ?_ (fun x hx => ?_) (fun {h'} hh => ?_) (fun {pre x post} hs => ?_) (fun x hx hxl => ?_)
    (fun hro => ?_) fun {R' x} hx => ?_
  · refine List.nodup_append.2 ⟨hl.nodup R o, by simp, ?_⟩
    rintro a ha b hb rfl
    exact hfree (List.mem_singleton.1 hb ▸ ha)
  · rcases List.mem_append.1 hx with hx | hx
    · exact .inl hx
    · exact .inr (List.mem_singleton.1 hx ▸ hm)
  · rw [Store.headAt_attached, if_pos ⟨rfl, rfl⟩, ho, Option.map_some, Option.some.injEq] at hh
    subst hh
    rw [hfirst]
    cases L R o <;> simp [List.getLast?_cons]
  · rw [hlink]
    rcases List.eq_nil_or_concat post with rfl | ⟨post', y, rfl⟩
    · obtain ⟨rfl, hx⟩ := List.append_inj' hs rfl
      obtain rfl : m = x := by simpa using hx
      simp [hlast]
    · -- an old member: only the last of them has another neighbour than before
      rw [List.concat_eq_append, ← List.cons_append, ← List.append_assoc] at hs
      obtain ⟨hpre, hy⟩ := List.append_inj' hs rfl
      obtain rfl : m = y := by simpa using hy
      have hxm : x ≠ m := fun e => hfree (hpre ▸ by simp [e])
      rw [if_neg fun e => hxm e.2, hl.link hpre, hlast, hpre]
      simp only [true_and]
      simp only [getLast?_eq_some_iff (hpre ▸ hl.nodup R o)]
      cases post' <;> simp
  · exact absurd (List.mem_append_left _ hx) hxl
  · rw [Store.headAt_attached, if_neg hro]
  · rw [hlink, if_neg, if_neg]
    · rintro ⟨rfl, e⟩
      exact (hx rfl).1 (List.mem_of_getLast? (hlast ▸ e))
    · rintro ⟨rfl, rfl⟩
      exact (hx rfl).2 (by simp)

theorem relisted_attached (hl : Linked s L) (ho : s.headAt R o = some h) (hm : s.linkAt R m = some none) :
    Relisted s (s.attached R h o m) L R o (L R o ++ [m]) (min (s.refsAt o + 1) maxRefs) := by
  have hne : h.last ≠ some m := fun e => hl.not_mem_of_free hm (hl.end_mem ho (.inr e))
  refine ⟨hl.attached ho hm, ⟨?_, ?_, ?_, ?_⟩, fun k => ?_⟩
  · exact Store.allocators_attached
  · exact fun k => Store.bareAt_attached
  · exact fun hR => by rw [Store.headAt_attached, if_neg fun e => hR e.1]
  · exact fun hR => by rw [Store.linkAt_attached hm hne, if_neg fun e => hR e.1, if_neg fun e => hR e.1]
  · rw [Store.refsAt_attached ho]
    split
    · rename_i hk
      rw [hk]
    · rfl

/-- **Attaching puts a free member at the end.** -/
theorem attach_run (hl : Linked s L) (ho : s.headAt R o = some h) (hm : s.linkAt R m = some none) :
    ∃ t, (Store.attach R o m).run s = (.ok (), t) ∧
      Relisted s t L R o (L R o ++ [m]) (min (s.refsAt o + 1) maxRefs) :=
  ⟨_, Store.attach_run_attached ho hm fun _ e => hl.contains_of_mem (hl.end_mem ho (.inr e)),
    hl.relisted_attached ho hm⟩

/-- attaching puts a free member at the end of a list that is there, or is refused before it changes anything -/
theorem attach_ends (hl : Linked s L) (R : Roster) (o m : Key) :
    Ends (Store.attach R o m) s
      (fun _ t => ∃ h, s.headAt R o = some h ∧ s.linkAt R m = some none ∧ t = s.attached R h o m)
      (fun _ t => t = s) := by
  refine (Store.attach_ends s R o m).mono (fun _ _ h => h) fun _ _ h => h.resolve_right ?_
  rintro ⟨h, last, ho, -, hlast, hgone, -⟩
  exact Bool.false_ne_true (hgone.symm.trans (hl.contains_of_mem (hl.end_mem ho (.inr hlast))))

end Linked

end SharedBuffer
