/-
Lists and counts that agree with each other.

`Threaded s L` says that the heads and links of `s` spell out `L`, that whoever has members is there, that every head
states the length of its list, and that every count is the number of members in all lists of its owner. Counts and
lengths have 32 bits, so this holds as long as no owner gets more members than that.

Results: each way in which a store of lists changes keeps it threaded.
- `Threaded.attached`, `Threaded.detached`: one member more or less in one list;
- `Threaded.insert`, `Threaded.erase`: one record more or less;
- `Threaded.removeAssociated_ends`: a record that nothing refers to leaves its lists and goes; any other stays, and
  everything with it.
-/
import SharedBuffer.Proofs.Lists.Relink

namespace SharedBuffer

namespace Layout

variable {L : Layout} {R : Roster} {o m : Key} {l : List Key}

/-- the number of members in all lists of an owner -/
def total (L : Layout) (o : Key) : Nat := (Roster.all.map fun R => (L R o).length).sum

theorem length_le_total (L : Layout) (R : Roster) (o : Key) : (L R o).length ≤ L.total o := by
  cases R <;> simp only [total, Roster.all, List.map_cons, List.map_nil, List.sum_cons, List.sum_nil] <;> omega

theorem total_eq_zero : L.total o = 0 ↔ ∀ R, L R o = [] := by
  constructor
  · intro h R
    exact List.eq_nil_of_length_eq_zero (Nat.le_zero.1 (h ▸ L.length_le_total R o))
  · intro h
    simp [total, h, Roster.all]

/-- another sequence in one list changes the total of its owner by the difference, and no other -/
theorem total_set (L : Layout) (R : Roster) (o o' : Key) (l : List Key) :
    (L.set R o l).total o' + (if o' = o then (L R o).length else 0) =
      L.total o' + (if o' = o then l.length else 0) := by
  by_cases ho : o' = o
  · subst ho
    cases R <;> simp [total, Roster.all, set] <;> omega
  · simp [total, set, ho]

/-- the layout without a member in the lists of some kinds -/
def dismiss (L : Layout) (m : Key) (rosters : List Roster) : Layout :=
  fun R o => if R ∈ rosters then (L R o).filter fun x => x ≠ m else L R o

theorem dismiss_dismiss (L : Layout) (m : Key) (R : Roster) (rosters : List Roster) :
    (L.dismiss m [R]).dismiss m rosters = L.dismiss m (R :: rosters) := by
  funext R' o
  by_cases hR : R' = R <;> by_cases hmem : R' ∈ rosters <;> simp [dismiss, hR, hmem, List.filter_filter]

/-- a sequence without a member that no other list of the kind has -/
theorem set_filter_eq_dismiss (h : ∀ o', o' ≠ o → m ∉ L R o') :
    L.set R o ((L R o).filter fun x => x ≠ m) = L.dismiss m [R] := by
  rw [set_filter_eq_relink h]
  funext R' o'
  by_cases hR : R' = R
  · subst hR
    simp [relink, dismiss]
  · simp [relink, dismiss, hR]

/-- kinds of list that a member is in none of do not matter -/
theorem dismiss_congr {rosters rosters' : List Roster} (hsub : rosters ⊆ rosters')
    (hout : ∀ R ∈ rosters', R ∉ rosters → ∀ o, m ∉ L R o) : L.dismiss m rosters = L.dismiss m rosters' := by
  funext R o
  by_cases hR : R ∈ rosters
  · simp [dismiss, hR, hsub hR]
  · by_cases hR' : R ∈ rosters'
    · rw [dismiss, dismiss, if_neg hR, if_pos hR', filter_ne_of_not_mem (hout R hR' hR o)]
    · rw [dismiss, dismiss, if_neg hR, if_neg hR']

end Layout

theorem Roster.mem_all (R : Roster) : R ∈ Roster.all := by cases R <;> decide

/-- the number of records that name an owner as that of a list they are in -/
def Store.memberCount (s : Store Record) (o : Key) : Nat :=
  (Roster.all.map fun R => (s.entries.filter fun e => e.2.ownerIn? R = some o).length).sum

/-- no owner has more members than there are places -/
theorem Store.memberCount_le (s : Store Record) (o : Key) : s.memberCount o ≤ Roster.all.length * s.size := by
  have hle : ∀ R : Roster, (s.entries.filter fun e => e.2.ownerIn? R = some o).length ≤ s.size := fun R =>
    List.length_filter_le ..
  have h₁ := hle .poolProfiles
  have h₂ := hle .profileConsumers
  have h₃ := hle .portPriorityGroups
  have h₄ := hle .portQueues
  simp only [memberCount, Roster.all, List.map_cons, List.map_nil, List.sum_cons, List.sum_nil, List.length_cons,
    List.length_nil]
  omega

/-- the records that name an owner as that of a list they are in are the members of that list -/
theorem Linked.namers_perm {s : Store Record} {L : Layout} (hl : Linked s L) (R : Roster) (o : Key) :
    ((s.entries.filter fun e => e.2.ownerIn? R = some o).map Prod.fst).Perm (L R o) := by
  refine (List.perm_ext_iff_of_nodup ?_ (hl.nodup R o)).2 fun k => ?_
  · have hn : (s.entries.map Prod.fst).Nodup :=
      List.pairwise_map.2 (s.records.ascending.imp fun {a b} h (e : a.1 = b.1) => Key.lt_irrefl b.1 (e ▸ h))
    exact hn.sublist (List.filter_sublist.map _)
  · rw [← hl.ownerOf?_eq_some, Store.ownerOf?, Option.bind_eq_some_iff]
    constructor
    · intro hk
      obtain ⟨⟨k', r⟩, he, rfl⟩ := List.mem_map.1 hk
      obtain ⟨hmem, hown⟩ := List.mem_filter.1 he
      exact ⟨r, KeyMap.get?_eq_some.2 hmem, of_decide_eq_true hown⟩
    · rintro ⟨r, hg, hown⟩
      exact List.mem_map.2 ⟨(k, r), List.mem_filter.2 ⟨KeyMap.get?_eq_some.1 hg, decide_eq_true hown⟩, rfl⟩

/-- the records that name an owner are the members of its lists -/
theorem Linked.memberCount_eq {s : Store Record} {L : Layout} (hl : Linked s L) (o : Key) :
    s.memberCount o = L.total o := by
  have hlen : ∀ R, (s.entries.filter fun e => e.2.ownerIn? R = some o).length = (L R o).length := fun R => by
    rw [← (hl.namers_perm R o).length_eq, List.length_map]
  simp only [Store.memberCount, Layout.total, hlen]

/-- the lists that a record says it is in -/
theorem Store.mem_memberships {s : Store Record} {r : Record} {R : Roster} {k o : Key} (hg : s.get? k = some r) :
    (R, o) ∈ r.memberships ↔ s.ownerOf? R k = some o := by
  rw [ownerOf?, hg, Option.bind_some, Record.memberships, List.mem_filterMap]
  constructor
  · intro h
    obtain ⟨R', -, h⟩ := h
    obtain ⟨o', ho', h⟩ := Option.map_eq_some_iff.1 h
    cases h
    exact ho'
  · intro ho
    exact ⟨R, R.mem_all, by rw [ho]; rfl⟩

/-- heads, links and counts of a store agree on a layout, whose owners are all there -/
structure Threaded (s : Store Record) (L : Layout) : Prop where
  linked : Linked s L
  owned : ∀ {R o m}, m ∈ L R o → ∃ h, s.headAt R o = some h
  length : ∀ {R o h}, s.headAt R o = some h → h.length.toNat = (L R o).length
  counted : ∀ o, s.refsAt o = L.total o

/-- a record in no list, with empty lists and nothing counted -/
def Record.Blank (r : Record) : Prop :=
  (∀ R ∈ Roster.all, (r.head? R).getD {} = {}) ∧ (∀ R ∈ Roster.all, (r.link? R).bind id = none) ∧ r.refCount = 0

instance (r : Record) : Decidable r.Blank :=
  inferInstanceAs (Decidable ((∀ R ∈ Roster.all, (r.head? R).getD {} = {}) ∧
    (∀ R ∈ Roster.all, (r.link? R).bind id = none) ∧ r.refCount = 0))

theorem Record.Blank.head {r : Record} (h : r.Blank) {R : Roster} {hd : ListHead} (hh : r.head? R = some hd) :
    hd = {} := by
  simpa [hh] using h.1 R R.mem_all

theorem Record.Blank.link {r : Record} (h : r.Blank) (R : Roster) (l : Link) : r.link? R ≠ some (some l) := by
  intro hl
  simpa [hl] using h.2.1 R R.mem_all

namespace Threaded

variable {s t : Store Record} {L : Layout} {R : Roster} {k o m : Key} {h : ListHead}

theorem empty : Threaded {} fun _ _ => [] := by
  have hg : ∀ k, ({} : Store Record).get? k = none := fun _ => rfl
  constructor
  case linked => constructor <;> simp [Store.headAt, Store.linkAt, hg]
  case owned => simp
  case length => simp [Store.headAt, hg]
  case counted => simp [Store.refsAt, hg, Layout.total, Roster.all]

/-- what the allocators do is nothing to lists -/
theorem congr (w : Threaded s L) (hget : ∀ j, t.get? j = s.get? j) : Threaded t L := by
  have hhead : ∀ R k, t.headAt R k = s.headAt R k := fun R k => by rw [Store.headAt, Store.headAt, hget]
  have hlink : ∀ R k, t.linkAt R k = s.linkAt R k := fun R k => by rw [Store.linkAt, Store.linkAt, hget]
  constructor
  case linked =>
    exact ⟨w.linked.nodup, fun hh => w.linked.head (hhead .. ▸ hh), fun hs => by rw [hlink, w.linked.link hs],
      fun hm => w.linked.member (hlink .. ▸ hm)⟩
  case owned =>
    intro R o m hm
    obtain ⟨h, hh⟩ := w.owned hm
    exact ⟨h, by rw [hhead, hh]⟩
  case length => exact fun hh => w.length (hhead .. ▸ hh)
  case counted =>
    intro o
    rw [Store.refsAt, hget]
    exact w.counted o

/-- only what is there owns anything -/
theorem eq_nil_of_absent (w : Threaded s L) (hk : s.contains k = false) (R : Roster) : L R k = [] := by
  refine List.eq_nil_iff_forall_not_mem.2 fun m hm => ?_
  obtain ⟨h, hh⟩ := w.owned hm
  exact Bool.false_ne_true (hk.symm.trans (Store.contains_of_headAt hh))

/-- an owner of members counts them -/
theorem refs_ne_zero (w : Threaded s L) (hm : m ∈ L R o) : s.refsAt o ≠ 0 := by
  rw [w.counted]
  intro hz
  rw [Layout.total_eq_zero.1 hz R] at hm
  exact absurd hm List.not_mem_nil

/-! ## One record more or less -/

theorem insert (w : Threaded s L) {r : Record} (hr : r.Blank) (hk : s.contains k = false)
    (hget : ∀ j, t.get? j = if j = k then some r else s.get? j) : Threaded t L := by
  have hempty := w.eq_nil_of_absent hk
  have hhead : ∀ R j, t.headAt R j = if j = k then r.head? R else s.headAt R j := by
    intro R j
    rw [Store.headAt, hget]
    split <;> rfl
  constructor
  case linked =>
    refine w.linked.insert hget hk hempty (fun R h hh => ?_) hr.link
    rw [hr.head hh]
    exact ⟨rfl, rfl⟩
  case owned =>
    intro R o m hm
    have hok : o ≠ k := by
      rintro rfl
      rw [hempty] at hm
      exact absurd hm List.not_mem_nil
    rw [hhead, if_neg hok]
    exact w.owned hm
  case length =>
    intro R o h hh
    rw [hhead] at hh
    by_cases hok : o = k
    · subst hok
      rw [if_pos rfl] at hh
      rw [hr.head hh, hempty]
      rfl
    · rw [if_neg hok] at hh
      exact w.length hh
  case counted =>
    intro o
    rw [Store.refsAt, hget]
    by_cases hok : o = k
    · subst hok
      rw [if_pos rfl, Layout.total_eq_zero.2 hempty]
      simp [hr.2.2]
    · rw [if_neg hok]
      exact w.counted o

theorem erase (w : Threaded s L) (hget : ∀ j, t.get? j = if j = k then none else s.get? j)
    (hfree : ∀ R o, k ∉ L R o) (hempty : ∀ R, L R k = []) : Threaded t L := by
  have hhead : ∀ R j, t.headAt R j = if j = k then none else s.headAt R j := by
    intro R j
    rw [Store.headAt, hget]
    split <;> rfl
  constructor
  case linked => exact w.linked.erase hget hfree
  case owned =>
    intro R o m hm
    have hok : o ≠ k := by
      rintro rfl
      rw [hempty] at hm
      exact absurd hm List.not_mem_nil
    rw [hhead, if_neg hok]
    exact w.owned hm
  case length =>
    intro R o h hh
    rw [hhead] at hh
    split at hh
    · cases hh
    · exact w.length hh
  case counted =>
    intro o
    rw [Store.refsAt, hget]
    by_cases hok : o = k
    · subst hok
      rw [if_pos rfl, Layout.total_eq_zero.2 hempty]
      rfl
    · rw [if_neg hok]
      exact w.counted o

/-! ## One member more or less -/

/-- one list changed, its head and its owner's count with it -/
theorem relist (w : Threaded s L) {l : List Key} {refs : Nat} (hrel : Relisted s t L R o l refs)
    (hown : ∃ h, t.headAt R o = some h ∧ h.length.toNat = l.length)
    (hother : ∀ k, k ≠ o → t.headAt R k = s.headAt R k) (hrefs : refs = (L.set R o l).total o) :
    Threaded t (L.set R o l) := by
  have hhead : ∀ {R' o'}, ¬ (R' = R ∧ o' = o) → t.headAt R' o' = s.headAt R' o' := by
    intro R' o' hro
    by_cases hR : R' = R
    · subst hR
      exact hother o' fun e => hro ⟨rfl, e⟩
    · exact hrel.frame.head hR
  constructor
  case linked => exact hrel.linked
  case owned =>
    intro R' o' m hm
    by_cases hro : R' = R ∧ o' = o
    · obtain ⟨rfl, rfl⟩ := hro
      exact hown.imp fun h hh => hh.1
    · rw [Layout.set_of_ne hro] at hm
      rw [hhead hro]
      exact w.owned hm
  case length =>
    intro R' o' h hh
    by_cases hro : R' = R ∧ o' = o
    · obtain ⟨rfl, rfl⟩ := hro
      obtain ⟨h', hh', hlen⟩ := hown
      rw [hh', Option.some.injEq] at hh
      rw [Layout.set_self, ← hh, hlen]
    · rw [Layout.set_of_ne hro]
      exact w.length (hhead hro ▸ hh)
  case counted =>
    intro k
    rw [hrel.refs]
    by_cases hk : k = o
    · rw [if_pos hk, hrefs, hk]
    · have htotal := L.total_set R o k l
      rw [if_neg hk, if_neg hk, Nat.add_zero, Nat.add_zero] at htotal
      rw [if_neg hk, htotal]
      exact w.counted k

theorem total_append (L : Layout) (R : Roster) (o m : Key) :
    (L.set R o (L R o ++ [m])).total o = L.total o + 1 := by
  have htotal := L.total_set R o o (L R o ++ [m])
  rw [if_pos rfl, if_pos rfl, List.length_append, List.length_singleton] at htotal
  omega

/-- **One member more** is in step with the head and the count, where they have room for it. -/
theorem attached (w : Threaded s L) (ho : s.headAt R o = some h) (hm : s.linkAt R m = some none)
    (hroom : (L.set R o (L R o ++ [m])).total o < UInt32.size) :
    Threaded (s.attached R h o m) (L.set R o (L R o ++ [m])) := by
  rw [total_append] at hroom
  have hlen := L.length_le_total R o
  refine w.relist (w.linked.relisted_attached ho hm) ⟨⟨h.first.or (some m), some m, h.length + 1⟩, ?_, ?_⟩
    (fun k hk => ?_) ?_
  · rw [Store.headAt_attached, if_pos ⟨rfl, rfl⟩, ho]
    rfl
  · have hone : (1 : UInt32).toNat = 1 := rfl
    rw [List.length_append, List.length_singleton, UInt32.toNat_add, hone, w.length ho]
    simp only [UInt32.size] at hroom
    omega
  · rw [Store.headAt_attached, if_neg fun e => hk e.2]
  · rw [total_append, w.counted o, maxRefs]
    simp only [UInt32.size] at hroom ⊢
    omega

/-- **One member less** is in step with the head and the count. -/
theorem detached (w : Threaded s L) (ho : s.headAt R o = some h) {pre post : List Key}
    (hs : L R o = pre ++ m :: post) :
    Threaded (s.detached R o m ⟨o, pre.getLast?, post.head?⟩) (L.set R o (pre ++ post)) := by
  have hm : m ∈ L R o := by simp [hs]
  have hlen : (L R o).length = (pre ++ post).length + 1 := by
    rw [hs]
    simp only [List.length_append, List.length_cons]
    omega
  have htotal := L.total_set R o o (pre ++ post)
  rw [if_pos rfl, if_pos rfl] at htotal
  refine w.relist (w.linked.relisted_detached ho (w.refs_ne_zero hm) hs) ?_ (fun k hk => ?_) ?_
  · have hpos : h.length ≠ 0 := by
      intro hz
      have := w.length ho
      rw [hz, hlen] at this
      simp at this
    have hle : (1 : UInt32) ≤ h.length := by
      rw [UInt32.le_iff_toNat_le]
      exact UInt32.lt_iff_toNat_lt.1 (UInt32.pos_iff_ne_zero.2 hpos)
    refine ⟨_, by rw [Store.headAt_detached, if_pos ⟨rfl, rfl⟩, ho, Option.map_some], ?_⟩
    rw [if_neg hpos, UInt32.toNat_sub_of_le _ _ hle, w.length ho, hlen]
    rfl
  · rw [Store.headAt_detached, if_neg fun e => hk e.2]
  · rw [w.counted o]
    omega

/-! ## Removal -/

/-- **A member leaves several lists at once.** -/
theorem detachAll_run (w : Threaded s L) {rosters : List (Roster × Key)}
    (hn : (rosters.map Prod.fst).Nodup) (hm : ∀ p ∈ rosters, m ∈ L p.1 p.2) :
    ∃ t, (Store.detachAll m rosters).run s = (.ok (), t) ∧ Threaded t (L.dismiss m (rosters.map Prod.fst)) ∧
      ∀ k, t.contains k = s.contains k := by
  induction rosters generalizing s L with
  | nil =>
    refine ⟨s, rfl, ?_, fun k => rfl⟩
    have hsame : L.dismiss m [] = L := by
      funext R o
      simp [Layout.dismiss]
    rwa [List.map_nil, hsame]
  | cons p rest ih =>
    obtain ⟨R, o⟩ := p
    obtain ⟨hR, hn⟩ := List.nodup_cons.1 hn
    have hmo : m ∈ L R o := hm (R, o) List.mem_cons_self
    obtain ⟨h, ho⟩ := w.owned hmo
    obtain ⟨pre, post, hs⟩ := List.append_of_mem hmo
    have hrun := w.linked.detach_run_split ho (w.refs_ne_zero hmo) hs
    have hdet := w.detached ho hs
    have hlayout : L.set R o (pre ++ post) = L.dismiss m [R] := by
      rw [← Linked.filter_ne_eq (hs ▸ w.linked.nodup R o), ← hs]
      exact Layout.set_filter_eq_dismiss fun o' hne hmem => hne (w.linked.owner_unique hmem hmo)
    rw [hlayout] at hdet
    obtain ⟨t, ht, htw, htc⟩ := ih hdet hn fun p hp => by
      have hmem : p.1 ∈ rest.map Prod.fst := List.mem_map_of_mem hp
      have hpR : p.1 ∉ [R] := fun hp' => hR (List.mem_singleton.1 hp' ▸ hmem)
      rw [Layout.dismiss, if_neg hpR]
      exact hm p (List.mem_cons_of_mem _ hp)
    refine ⟨t, (run_bind_ok hrun).trans ht, ?_, fun k => ?_⟩
    · rwa [Layout.dismiss_dismiss] at htw
    · rw [htc, Store.contains_eq_bareAt, Store.bareAt_detached, ← Store.contains_eq_bareAt]

/-- the lists that a record says it is in are those it is in -/
theorem mem_memberships (w : Threaded s L) {r : Record} (hg : s.get? k = some r) :
    (R, o) ∈ r.memberships ↔ k ∈ L R o := by
  rw [Store.mem_memberships hg, w.linked.ownerOf?_eq_some]

theorem nodup_memberships (r : Record) : (r.memberships.map Prod.fst).Nodup := by
  have hsub : (r.memberships.map Prod.fst).Sublist Roster.all := by
    unfold Record.memberships
    induction Roster.all with
    | nil => exact List.Sublist.refl _
    | cons R rest ih =>
      rw [List.filterMap_cons]
      cases r.ownerIn? R with
      | none => exact ih.cons R
      | some o => exact ih.cons_cons R
  exact (show Roster.all.Nodup by decide).sublist hsub

/-- **A record that nothing refers to leaves its lists and goes.** Any other stays, and everything with it. -/
theorem removeAssociated_ends (w : Threaded s L) (k : Key) :
    Ends (Store.removeAssociated k) s
      (fun _ t => s.contains k = true ∧ s.refsAt k = 0 ∧ Threaded t (L.dismiss k Roster.all) ∧
        ∀ j, t.contains j = (!decide (j = k) && s.contains j))
      (fun _ t => t = s ∧ (s.contains k = false ∨ s.refsAt k ≠ 0)) := by
  by_cases hout : s.contains k = false ∨ s.refsAt k ≠ 0
  · obtain ⟨e, he⟩ := Store.removeAssociated_refused hout
    exact Ends.of_run_error he ⟨rfl, hout⟩
  obtain ⟨hc, hzero⟩ := not_or.1 hout
  rw [Bool.not_eq_false] at hc
  rw [not_not] at hzero
  obtain ⟨r, hg⟩ := Store.contains_iff.1 hc
  obtain ⟨u, hu, huw, huc⟩ := w.detachAll_run (nodup_memberships r) fun p hp => (w.mem_memberships hg).1 hp
  obtain ⟨removed, hrun⟩ := Store.removeAssociated_run hg hzero hu (by rw [huc, hc])
  have hlayout : L.dismiss k (r.memberships.map Prod.fst) = L.dismiss k Roster.all := by
    refine Layout.dismiss_congr (fun R _ => R.mem_all) fun R _ hR o hmem => hR ?_
    exact List.mem_map.2 ⟨(R, o), (w.mem_memberships hg).2 hmem, rfl⟩
  rw [hlayout] at huw
  have hget : ∀ j, ((u.remove k).release k).get? j = if j = k then none else u.get? j := fun j => by
    rw [Store.get?_release, Store.get?_remove]
  refine Ends.of_run_ok hrun ⟨hc, hzero, huw.erase hget (fun R o hmem => ?_) fun R => ?_, fun j => ?_⟩
  · rw [Layout.dismiss, if_pos R.mem_all] at hmem
    simp at hmem
  · rw [Layout.dismiss, if_pos R.mem_all, Layout.total_eq_zero.1 ((w.counted k).symm.trans hzero) R]
    rfl
  · rw [Store.contains_drop hget, huc]

end Threaded

end SharedBuffer
