/-
A member that changes its list.

A consumer is bound, unbound or bound elsewhere, and a profile is moved, by leaving the list it is in and joining the
end of another. `Layout.relink` is what that makes of a layout, whether or not there is a list to leave or one to join.

Results: `Wired.leave` and `Wired.join`, the two halves, and `Wired.relink_run`, both in turn.
-/
import SharedBuffer.Proofs.Lists.Wired

namespace SharedBuffer

/-- the layout with a member out of every list of a kind, and at the end of one of them if one is named -/
def Layout.relink (L : Layout) (R : Roster) (m : Key) (target : Option Key) : Layout :=
  fun R' o =>
    if R' = R then (L R o).filter (fun x => x ≠ m) ++ (if target = some o then [m] else []) else L R' o

namespace Layout

variable {L : Layout} {R : Roster} {m o : Key}

theorem filter_ne_of_not_mem {l : List Key} (h : m ∉ l) : l.filter (fun x => x ≠ m) = l :=
  List.filter_eq_self.2 fun x hx => by simpa using fun e : x = m => h (e ▸ hx)

theorem not_mem_relink_none : m ∉ L.relink R m none R o := by simp [relink]

theorem relink_none_of_not_mem (h : ∀ o, m ∉ L R o) : L.relink R m none = L := by
  funext R' o
  by_cases hR : R' = R
  · subst hR
    simp only [relink, if_true, filter_ne_of_not_mem (h o)]
    simp
  · simp [relink, hR]

/-- the list of an owner that the member neither leaves nor joins -/
theorem relink_of_apart {target : Option Key} {R' : Roster} (hm : m ∉ L R o) (ho : target ≠ some o) :
    L.relink R m target R' o = L R' o := by
  by_cases hR : R' = R
  · subst hR
    simp only [relink, if_true, filter_ne_of_not_mem hm, if_neg ho, List.append_nil]
  · simp [relink, hR]

/-- where a member was before makes no difference to where it goes -/
theorem relink_relink (L : Layout) (R : Roster) (m : Key) (between target : Option Key) :
    (L.relink R m between).relink R m target = L.relink R m target := by
  funext R' o
  by_cases hR : R' = R
  · subst hR
    by_cases ho : between = some o <;> simp [relink, ho, List.filter_filter]
  · simp [relink, hR]

theorem set_filter_eq_relink (h : ∀ o', o' ≠ o → m ∉ L R o') :
    L.set R o ((L R o).filter fun x => x ≠ m) = L.relink R m none := by
  funext R' o'
  by_cases hR : R' = R
  · subst hR
    by_cases ho : o' = o
    · subst ho
      simp [relink]
    · rw [set_of_ne fun e => ho e.2]
      simp only [relink, if_true, filter_ne_of_not_mem (h o' ho)]
      simp
  · rw [set_of_ne fun e => hR e.1]
    simp [relink, hR]

theorem relink_set_append : (L.relink R m none).set R o (L.relink R m none R o ++ [m]) = L.relink R m (some o) := by
  funext R' o'
  by_cases hR : R' = R
  · subst hR
    by_cases ho : o' = o
    · subst ho
      simp [relink]
    · rw [set_of_ne fun e => ho e.2]
      simp [relink, Ne.symm ho]
  · rw [set_of_ne fun e => hR e.1]
    simp [relink, hR]

end Layout

namespace Store

/-- takes a member out of the list of an owner, if there is one -/
def leave (R : Roster) (m : Key) : Option Key → LinkM Unit
  | some o => detach R o m
  | none => pure ()

/-- puts a member at the end of the list of an owner, if there is one -/
def join (R : Roster) (m : Key) : Option Key → LinkM Unit
  | some o => attach R o m
  | none => pure ()

/-- the owner of the list of a kind that a member is in -/
def ownerOf? (s : Store Record) (R : Roster) (m : Key) : Option Key := (s.get? m).bind (Record.ownerIn? R)

/-- takes a member out of the list of a kind that it is in, and puts it at the end of another -/
def relink (R : Roster) (m : Key) (target : Option Key) : LinkM Unit := do
  leave R m (← .reading fun s => .ok (s.ownerOf? R m))
  join R m target

/-- leaving and joining are the two halves of changing lists -/
theorem relink_halves {s t : Store Record} {R : Roster} {x : Key} {target : Option Key}
    (h : (Store.relink R x target).run s = (.ok (), t)) :
    ∃ u, (Store.leave R x (s.ownerOf? R x)).run s = (.ok (), u) ∧ (Store.join R x target).run u = (.ok (), t) := by
  have hown : (LinkM.reading fun s => .ok (s.ownerOf? R x)).run s = (.ok (s.ownerOf? R x), s) :=
    Store.reading_run rfl
  unfold Store.relink at h
  rw [run_bind_ok hown, run_bind] at h
  rcases hu : (Store.leave R x (s.ownerOf? R x)).run s with ⟨e | ⟨⟩, u⟩
  · rw [hu] at h
    cases h
  · rw [hu] at h
    exact ⟨u, rfl, h⟩

theorem ownerOf?_eq (s : Store Record) (R : Roster) (m : Key) :
    s.ownerOf? R m = ((s.linkAt R m).bind id).map Link.owner := by
  unfold ownerOf? linkAt
  cases s.get? m <;> rfl

end Store

theorem Frame.refl (R : Roster) (s : Store Record) : Frame R s s :=
  ⟨rfl, fun _ => rfl, fun _ => rfl, fun _ => rfl⟩

namespace Linked

variable {s : Store Record} {L : Layout} {R : Roster} {m o : Key}

theorem ownerOf?_eq_some (hl : Linked s L) : s.ownerOf? R m = some o ↔ m ∈ L R o := by
  rw [Store.ownerOf?_eq, hl.mem_iff]
  constructor
  · intro h
    obtain ⟨l, hl, rfl⟩ := Option.map_eq_some_iff.1 h
    obtain ⟨place, hp, rfl⟩ := Option.bind_eq_some_iff.1 hl
    exact ⟨l, hp, rfl⟩
  · rintro ⟨l, h, rfl⟩
    simp [h]

theorem ownerOf?_eq_none (hl : Linked s L) : s.ownerOf? R m = none ↔ ∀ o, m ∉ L R o := by
  constructor
  · intro h o hm
    rw [hl.ownerOf?_eq_some.2 hm] at h
    cases h
  · intro h
    cases ho : s.ownerOf? R m with
    | none => rfl
    | some o => exact absurd (hl.ownerOf?_eq_some.1 ho) (h o)

theorem ownerOf?_congr {t : Store Record} {L' : Layout} {k : Key} (h : Linked s L)
    (h' : Linked t L') (hmem : ∀ o, k ∈ L' R o ↔ k ∈ L R o) : t.ownerOf? R k = s.ownerOf? R k :=
  Option.ext fun o => h'.ownerOf?_eq_some.trans ((hmem o).trans h.ownerOf?_eq_some.symm)

/-- where the members are, once one has changed lists -/
theorem ownerOf?_relink {t : Store Record} {target : Option Key} (hl : Linked s L)
    (ht : Linked t (L.relink R m target)) (k : Key) : t.ownerOf? R k = if k = m then target else s.ownerOf? R k := by
  refine Option.ext fun o => ?_
  rw [ht.ownerOf?_eq_some, Layout.relink, if_pos rfl, List.mem_append, List.mem_filter]
  by_cases hk : k = m
  · subst hk
    by_cases ho : target = some o <;> simp [ho]
  · by_cases ho : target = some o <;> simp [ho, hk, hl.ownerOf?_eq_some]

end Linked

namespace Wired

variable {hw : Hardware} {s : Store Record} {L : Layout} {R : Roster} {m : Key}

/-- the key that is out of its home list once it has left a list -/
def leaver (R : Roster) (m : Key) : Option Key := if m.kind.home? = some R then some m else none

theorem free_of_not_mem {out : Option Key} (w : Wired hw s L out) (hc : s.contains m = true)
    (hk : R.takes m.kind = true) (hn : ∀ o, m ∉ L R o) : s.linkAt R m = some none := by
  obtain ⟨l, hl⟩ := w.exists_link hc hk
  cases l with
  | none => exact hl
  | some l => exact absurd (w.linked.member hl) (hn _)

/-- **Leaving a list keeps a store wired.** -/
theorem leave (w : Wired hw s L none) (hc : s.contains m = true)
    (hown : ∀ o, m ∈ L R o → s.contains o = true ∧ o.kind = R.ownerKind ∧ s.refsAt o ≠ 0) :
    ∃ t, (Store.leave R m (s.ownerOf? R m)).run s = (.ok (), t) ∧ Frame R s t ∧
      Wired hw t (L.relink R m none) (leaver R m) ∧
      ∀ k, t.refsAt k = if m ∈ L R k then s.refsAt k - 1 else s.refsAt k := by
  cases ho : s.ownerOf? R m with
  | none =>
    have hn := w.linked.ownerOf?_eq_none.1 ho
    have hout : leaver R m = none := by
      refine if_neg fun hhome => ?_
      obtain ⟨o, hm, -⟩ := w.home m R hc hhome (by simp)
      exact hn o hm
    refine ⟨s, rfl, Frame.refl R s, ?_, fun k => by rw [if_neg (hn k)]⟩
    rw [Layout.relink_none_of_not_mem hn, hout]
    exact w
  | some o =>
    have hm := w.linked.ownerOf?_eq_some.1 ho
    obtain ⟨hco, hko, hro⟩ := hown o hm
    have hout : leaver R m = some m ∧ (none : Option Key) = none ∨
        leaver R m = none ∧ m.kind.home? ≠ some R := by
      unfold leaver
      split
      · exact .inl ⟨rfl, rfl⟩
      · rename_i hh
        exact .inr ⟨rfl, hh⟩
    obtain ⟨t, hrun, hwt, hrel⟩ := w.detach hco hko hm hro hout
    rw [Layout.set_filter_eq_relink fun o' hne hm' => hne (w.linked.owner_unique hm' hm)] at hwt
    refine ⟨t, hrun, hrel.frame, hwt, fun k => ?_⟩
    rw [hrel.refs]
    by_cases hk : k = o
    · subst hk
      rw [if_pos rfl, if_pos hm]
    · rw [if_neg hk, if_neg fun hm' => hk (w.linked.owner_unique hm' hm)]

/-- **Joining a list keeps a store wired.** -/
theorem join (w : Wired hw s (L.relink R m none) (leaver R m)) (hc : s.contains m = true)
    (hk : R.takes m.kind = true) {target : Option Key}
    (htarget : ∀ o, target = some o → s.contains o = true ∧ o.kind = R.ownerKind)
    (hhome : m.kind.home? = some R → target ≠ none) :
    ∃ t, (Store.join R m target).run s = (.ok (), t) ∧ Frame R s t ∧ Wired hw t (L.relink R m target) none ∧
      ∀ k, t.refsAt k = if target = some k then min (s.refsAt k + 1) maxRefs else s.refsAt k := by
  cases target with
  | none =>
    have hout : leaver R m = none := if_neg fun h => hhome h rfl
    exact ⟨s, rfl, Frame.refl R s, hout ▸ w, fun k => rfl⟩
  | some o =>
    obtain ⟨hco, hko⟩ := htarget o rfl
    have hfree := w.free_of_not_mem hc hk fun o => Layout.not_mem_relink_none
    have hout : none = leaver R m ∨ leaver R m = some m ∧ m.kind.home? = some R := by
      unfold leaver
      split
      · rename_i hh
        exact .inr ⟨rfl, hh⟩
      · exact .inl rfl
    obtain ⟨t, hrun, hwt, hrel⟩ := w.attach hco hko hfree hout
    rw [Layout.relink_set_append] at hwt
    refine ⟨t, hrun, hrel.frame, hwt, fun k => ?_⟩
    rw [hrel.refs]
    by_cases hko : k = o
    · subst hko
      rw [if_pos rfl, if_pos rfl]
    · rw [if_neg hko, if_neg fun e => hko (Option.some.inj e).symm]

/-- **Changing lists keeps a store wired.** -/
theorem relink_run (w : Wired hw s L none) (hc : s.contains m = true) (hk : R.takes m.kind = true)
    (hown : ∀ o, m ∈ L R o → s.contains o = true ∧ o.kind = R.ownerKind ∧ s.refsAt o ≠ 0) {target : Option Key}
    (htarget : ∀ o, target = some o → s.contains o = true ∧ o.kind = R.ownerKind)
    (hhome : m.kind.home? = some R → target ≠ none) :
    ∃ t, (Store.relink R m target).run s = (.ok (), t) ∧ Frame R s t ∧ Wired hw t (L.relink R m target) none ∧
      ∀ k, t.refsAt k = if target = some k then
        min ((if m ∈ L R k then s.refsAt k - 1 else s.refsAt k) + 1) maxRefs
        else if m ∈ L R k then s.refsAt k - 1 else s.refsAt k := by
  obtain ⟨u, hu, hfu, hwu, hru⟩ := w.leave hc hown
  obtain ⟨t, ht, hft, hwt, hrt⟩ := hwu.join (by rwa [hfu.contains]) hk
    (fun o ho => by rw [hfu.contains]; exact htarget o ho) hhome
  refine ⟨t, ?_, hfu.trans hft, hwt, fun k => by rw [hrt, hru]⟩
  unfold Store.relink
  refine (run_bind_ok (Store.reading_run rfl)).trans ?_
  exact (run_bind_ok hu).trans ht

end Wired

end SharedBuffer
