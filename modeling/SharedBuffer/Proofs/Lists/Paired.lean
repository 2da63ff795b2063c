/-
Neighbours that know each other.

`Paired s` looks at links one at a time: what a member has next to it has the member next to it, in a list of the same
owner, and a list ends at a member with nothing after it. This is less than `Linked`: it does not say where a list
starts, how long it is, or whether anybody owns it. Counts may be wrong and owners may be gone. It is what an operation
on lists needs to be sure that the neighbours it has to tell are there.

Results:
- `attach_ends`, `detach_ends`: in a paired store nothing stops halfway;
- `removeAssociated_ends`: a removal that is refused changes nothing, or has left some of the lists that the record was
  in, and of the next one the owner is gone or has its count used up.
-/
import SharedBuffer.Proofs.Lists.Steady
import SharedBuffer.Proofs.Lists.Threaded

namespace SharedBuffer

/-- neighbours in the lists of a kind name each other, and the last member of a list has nothing after it -/
structure PairedIn (R : Roster) (s : Store Record) : Prop where
  next : ∀ {m l k}, s.linkAt R m = some (some l) → l.next = some k →
    ∃ l', s.linkAt R k = some (some l') ∧ l'.owner = l.owner ∧ l'.previous = some m
  previous : ∀ {m l k}, s.linkAt R m = some (some l) → l.previous = some k →
    ∃ l', s.linkAt R k = some (some l') ∧ l'.owner = l.owner ∧ l'.next = some m
  last : ∀ {o h k}, s.headAt R o = some h → h.last = some k →
    ∃ l, s.linkAt R k = some (some l) ∧ l.owner = o ∧ l.next = none

/-- a store whose lists are paired -/
def Paired (s : Store Record) : Prop := ∀ R, PairedIn R s

/-! ## Places after a change -/

/-- the place of a key, once another member is attached behind the last of a list -/
def Link.extending (l : Link) (h : ListHead) (m k : Key) : Link :=
  { l with next := if h.last = some k then some m else l.next }

/-- what is written over a place, where there is one -/
theorem exists_place {place : Option (Option Link)} {f : Link → Link} {l' : Link}
    (h : place.map (Option.map f) = some (some l')) : ∃ l, place = some (some l) ∧ f l = l' := by
  obtain ⟨_, hplace, h⟩ := Option.map_eq_some_iff.1 h
  obtain ⟨l, rfl, rfl⟩ := Option.map_eq_some_iff.1 h
  exact ⟨l, hplace, rfl⟩

namespace Store

variable {s t : Store Record} {R : Roster} {o k m : Key} {h : ListHead} {l l' : Link} {e : LinkError}
  {lists : List (Roster × Key)}

theorem linkAt_attached_of_ne (hm : s.linkAt R m = some none) (hend : h.last ≠ some m) (hk : k ≠ m) :
    (s.attached R h o m).linkAt R k = (s.linkAt R k).map (Option.map fun l => l.extending h m k) := by
  rw [linkAt_attached hm hend, if_neg fun e => hk e.2]
  unfold Link.extending
  by_cases hlast : h.last = some k
  · simp [hlast]
  · rcases s.linkAt R k with - | (- | l) <;> simp [hlast]

theorem linkAt_attached_of_place (hm : s.linkAt R m = some none) (hend : h.last ≠ some m) (hk : k ≠ m)
    (hl : s.linkAt R k = some (some l)) : (s.attached R h o m).linkAt R k = some (some (l.extending h m k)) := by
  rw [linkAt_attached_of_ne hm hend hk, hl]
  rfl

theorem exists_place_of_attached (hm : s.linkAt R m = some none) (hend : h.last ≠ some m) (hk : k ≠ m)
    (hl : (s.attached R h o m).linkAt R k = some (some l')) :
    ∃ l, s.linkAt R k = some (some l) ∧ l.extending h m k = l' := by
  rw [linkAt_attached_of_ne hm hend hk] at hl
  exact exists_place hl

theorem linkAt_detached_of_place (hm : s.linkAt R m = some (some l)) (hk : k ≠ m)
    (hl : s.linkAt R k = some (some l')) : (s.detached R o m l).linkAt R k = some (some (l.closing k l')) := by
  rw [linkAt_detached hm, if_neg fun e => hk e.2, if_pos rfl, hl]
  rfl

theorem exists_place_of_detached (hm : s.linkAt R m = some (some l)) {l'' : Link}
    (hl : (s.detached R o m l).linkAt R k = some (some l'')) :
    k ≠ m ∧ ∃ l', s.linkAt R k = some (some l') ∧ l.closing k l' = l'' := by
  rw [linkAt_detached hm] at hl
  by_cases hk : k = m
  · rw [if_pos ⟨rfl, hk⟩] at hl
    cases hl
  · rw [if_neg fun e => hk e.2, if_pos rfl] at hl
    exact ⟨hk, exists_place hl⟩

/-! ## Several lists -/

/-- leaving several lists stops at one that cannot be left -/
theorem detachAll_stop (h : (detachAll m lists).run s = (.error e, t)) :
    ∃ done R o rest u, lists = done ++ (R, o) :: rest ∧ (detachAll m done).run s = (.ok (), u) ∧
      (detach R o m).run u = (.error e, t) := by
  induction lists generalizing s with
  | nil => cases h
  | cons list rest ih =>
    obtain ⟨R, o⟩ := list
    change (detach R o m >>= fun _ => detachAll m rest).run s = _ at h
    rcases hr : (detach R o m).run s with ⟨e' | ⟨⟩, u⟩
    · rw [run_bind_error hr, ← hr] at h
      exact ⟨[], R, o, rest, s, rfl, rfl, h⟩
    · rw [run_bind_ok hr] at h
      obtain ⟨done, R', o', rest', u', rfl, hdone, hstop⟩ := ih h
      exact ⟨(R, o) :: done, R', o', rest', u', rfl, (run_bind_ok hr).trans hdone, hstop⟩

/-- a record that was to be removed, that has left some of the lists it was in, and cannot leave the next one: its owner
is gone or has its count used up -/
def HalfRemoved (s : Store Record) (k : Key) (t : Store Record) : Prop :=
  ∃ r done R o rest, s.get? k = some r ∧ s.refsAt k = 0 ∧ r.memberships = done ++ (R, o) :: rest ∧ done ≠ [] ∧
    (detachAll k done).run s = (.ok (), t) ∧ (t.headAt R o = none ∨ t.refsAt o = 0)

/-- removal that stopped at a list it could not leave, after it left those before -/
def RemovalStuck (s : Store Record) (k : Key) (e : LinkError) (t : Store Record) : Prop :=
  ∃ r done R o rest u, s.get? k = some r ∧ s.refsAt k = 0 ∧ r.memberships = done ++ (R, o) :: rest ∧
    (detachAll k done).run s = (.ok (), u) ∧ (detach R o k).run u = (.error e, t)

/-- a record that nothing refers to leaves its lists and goes, or all stays as it is, or the removal stops at a list -/
theorem removeAssociated_ends (s : Store Record) (k : Key) :
    Ends (removeAssociated k) s
      (fun _ t => ∃ r u, s.get? k = some r ∧ s.refsAt k = 0 ∧ (detachAll k r.memberships).run s = (.ok (), u) ∧
        t = (u.remove k).release k)
      (fun e t => t = s ∨ s.RemovalStuck k e t) := by
  by_cases hout : s.contains k = false ∨ s.refsAt k ≠ 0
  · obtain ⟨e, he⟩ := removeAssociated_refused hout
    exact Ends.of_run_error he (.inl rfl)
  obtain ⟨hc, hzero⟩ := not_or.1 hout
  rw [not_not] at hzero
  obtain ⟨r, hg⟩ := contains_iff.1 (Bool.not_eq_false _ ▸ hc)
  rcases hd : (detachAll k r.memberships).run s with ⟨e | ⟨⟩, u⟩
  · obtain ⟨done, R, o, rest, u', hlists, hdone, hstop⟩ := detachAll_stop hd
    exact Ends.of_run_error ((removeAssociated_start hg hzero).trans (run_bind_error hd))
      (.inr ⟨r, done, R, o, rest, u', hg, hzero, hlists, hdone, hstop⟩)
  · have hcu : u.contains k = true := by
      have hsteady := (steady_detachAll k r.memberships).contains s k
      rw [hd] at hsteady
      exact hsteady.trans (contains_of_get? hg)
    obtain ⟨removed, hrun⟩ := removeAssociated_run hg hzero hd hcu
    exact Ends.of_run_ok hrun ⟨r, u, hg, hzero, hd, rfl⟩

end Store

namespace PairedIn

variable {s t : Store Record} {R : Roster} {o m : Key} {h : ListHead} {l : Link}

theorem congr (p : PairedIn R s) (hlink : ∀ k, t.linkAt R k = s.linkAt R k)
    (hhead : ∀ k, t.headAt R k = s.headAt R k) : PairedIn R t := by
  constructor
  case next =>
    intro m l k hm hk
    rw [hlink] at hm ⊢
    exact p.next hm hk
  case previous =>
    intro m l k hm hk
    rw [hlink] at hm ⊢
    exact p.previous hm hk
  case last =>
    intro o h k ho hk
    rw [hhead] at ho
    rw [hlink]
    exact p.last ho hk

/-- where every place stays and lists end where they did, or nowhere -/
theorem places (p : PairedIn R s) (hlink : ∀ {k l}, t.linkAt R k = some (some l) ↔ s.linkAt R k = some (some l))
    (hhead : ∀ {o h k}, t.headAt R o = some h → h.last = some k → s.headAt R o = some h) : PairedIn R t := by
  constructor
  case next =>
    intro m l k hm hk
    simpa only [hlink] using p.next (hlink.1 hm) hk
  case previous =>
    intro m l k hm hk
    simpa only [hlink] using p.previous (hlink.1 hm) hk
  case last =>
    intro o h k ho hk
    simpa only [hlink] using p.last (hhead ho hk) hk

/-- a list does not end at a member that is in no list -/
theorem last_ne_of_free (p : PairedIn R s) (ho : s.headAt R o = some h) (hm : s.linkAt R m = some none) :
    h.last ≠ some m := fun e => by
  obtain ⟨l, hl, -⟩ := p.last ho e
  cases hm.symm.trans hl

theorem place_unique {x y : Link} {k : Key} (hx : s.linkAt R k = some (some x)) (hy : s.linkAt R k = some (some y)) :
    x = y := Option.some.inj (Option.some.inj (hx.symm.trans hy))

theorem attached (p : PairedIn R s) (ho : s.headAt R o = some h) (hm : s.linkAt R m = some none) :
    PairedIn R (s.attached R h o m) := by
  have hend := p.last_ne_of_free ho hm
  have hfree : ∀ {k l}, s.linkAt R k = some (some l) → k ≠ m := by
    rintro k l hk rfl
    cases hm.symm.trans hk
  have hnew : (s.attached R h o m).linkAt R m = some (some ⟨o, h.last, none⟩) := by
    rw [Store.linkAt_attached hm hend, if_pos ⟨rfl, rfl⟩]
  have hkept : ∀ {k l}, s.linkAt R k = some (some l) →
      (s.attached R h o m).linkAt R k = some (some (l.extending h m k)) := fun hk =>
    Store.linkAt_attached_of_place hm hend (hfree hk) hk
  constructor
  case next =>
    intro x l y hx hy
    by_cases hxm : x = m
    · subst hxm
      rw [← place_unique hnew hx] at hy
      cases hy
    obtain ⟨x', hx', rfl⟩ := Store.exists_place_of_attached hm hend hxm hx
    by_cases hlast : h.last = some x
    · obtain rfl : m = y := by simpa [Link.extending, hlast] using hy
      obtain ⟨x'', hx'', hown, -⟩ := p.last ho hlast
      obtain rfl := place_unique hx' hx''
      exact ⟨_, hnew, hown.symm, hlast⟩
    · obtain ⟨y', hy', hown, hprevious⟩ := p.next hx' ((if_neg hlast).symm.trans hy)
      exact ⟨_, hkept hy', hown, hprevious⟩
  case previous =>
    intro x l y hx hy
    by_cases hxm : x = m
    · subst hxm
      obtain rfl := place_unique hnew hx
      obtain ⟨y', hy', hown, -⟩ := p.last ho hy
      exact ⟨_, hkept hy', hown, if_pos hy⟩
    obtain ⟨x', hx', rfl⟩ := Store.exists_place_of_attached hm hend hxm hx
    obtain ⟨y', hy', hown, hnext⟩ := p.previous hx' hy
    refine ⟨_, hkept hy', hown, (if_neg fun hlast => ?_).trans hnext⟩
    obtain ⟨y'', hy'', -, hnone⟩ := p.last ho hlast
    obtain rfl := place_unique hy' hy''
    cases hnone.symm.trans hnext
  case last =>
    intro o' h' x ho' hx
    rw [Store.headAt_attached] at ho'
    by_cases hoo : o' = o
    · subst hoo
      rw [if_pos ⟨rfl, rfl⟩, ho, Option.map_some, Option.some.injEq] at ho'
      subst ho'
      obtain rfl : m = x := Option.some.inj hx
      exact ⟨_, hnew, rfl, rfl⟩
    · rw [if_neg fun e => hoo e.2] at ho'
      obtain ⟨x', hx', hown, hnone⟩ := p.last ho' hx
      refine ⟨_, hkept hx', hown, (if_neg fun hlast => hoo ?_).trans hnone⟩
      obtain ⟨x'', hx'', hown', -⟩ := p.last ho hlast
      obtain rfl := place_unique hx' hx''
      exact hown.symm.trans hown'

/-- what is before a member has it next -/
theorem previous_iff (p : PairedIn R s) (hm : s.linkAt R m = some (some l)) {k : Key} {l' : Link}
    (hk : s.linkAt R k = some (some l')) : l.previous = some k ↔ l'.next = some m := by
  constructor
  · intro hprevious
    obtain ⟨l'', hl'', -, hnext⟩ := p.previous hm hprevious
    rwa [place_unique hk hl'']
  · intro hnext
    obtain ⟨l'', hl'', -, hprevious⟩ := p.next hk hnext
    rwa [place_unique hm hl'']

theorem detached (p : PairedIn R s) (hm : s.linkAt R m = some (some l)) : PairedIn R (s.detached R l.owner m l) := by
  have hkept : ∀ {k l'}, k ≠ m → s.linkAt R k = some (some l') →
      (s.detached R l.owner m l).linkAt R k = some (some (l.closing k l')) := Store.linkAt_detached_of_place hm
  constructor
  case next =>
    intro x l'' y hx hy
    obtain ⟨hxm, x', hx', rfl⟩ := Store.exists_place_of_detached hm hx
    by_cases hprevious : l.previous = some x
    · have hnext : l.next = some y := (if_pos hprevious).symm.trans hy
      have hym : y ≠ m := by
        rintro rfl
        exact hxm (Option.some.inj (hprevious.symm.trans ((p.previous_iff hm hm).2 hnext)))
      obtain ⟨y', hy', hown, -⟩ := p.next hm hnext
      obtain ⟨x'', hx'', hown', -⟩ := p.previous hm hprevious
      obtain rfl := place_unique hx' hx''
      exact ⟨_, hkept hym hy', hown.trans hown'.symm, (if_pos hnext).trans hprevious⟩
    · have hxnext : x'.next = some y := (if_neg hprevious).symm.trans hy
      obtain ⟨y', hy', hown, hyprevious⟩ := p.next hx' hxnext
      have hym : y ≠ m := by
        rintro rfl
        exact hprevious ((p.previous_iff hm hx').2 hxnext)
      refine ⟨_, hkept hym hy', hown, (if_neg fun hnext => hxm ?_).trans hyprevious⟩
      exact Option.some.inj (hyprevious.symm.trans ((p.previous_iff hy' hm).2 hnext))
  case previous =>
    intro x l'' y hx hy
    obtain ⟨hxm, x', hx', rfl⟩ := Store.exists_place_of_detached hm hx
    by_cases hnext : l.next = some x
    · have hprevious : l.previous = some y := (if_pos hnext).symm.trans hy
      have hym : y ≠ m := by
        rintro rfl
        exact hxm (Option.some.inj (hnext.symm.trans ((p.previous_iff hm hm).1 hprevious)))
      obtain ⟨y', hy', hown, -⟩ := p.previous hm hprevious
      obtain ⟨x'', hx'', hown', -⟩ := p.next hm hnext
      obtain rfl := place_unique hx' hx''
      exact ⟨_, hkept hym hy', hown.trans hown'.symm, (if_pos hprevious).trans hnext⟩
    · have hxprevious : x'.previous = some y := (if_neg hnext).symm.trans hy
      obtain ⟨y', hy', hown, hynext⟩ := p.previous hx' hxprevious
      have hym : y ≠ m := by
        rintro rfl
        exact hnext ((p.previous_iff hx' hm).1 hxprevious)
      refine ⟨_, hkept hym hy', hown, (if_neg fun hprevious => hxm ?_).trans hynext⟩
      exact Option.some.inj (hynext.symm.trans ((p.previous_iff hm hy').1 hprevious))
  case last =>
    intro o h x ho hx
    -- what is last has nothing after it, and so is not what is before the member
    have hlast : ∀ {x'}, s.linkAt R x = some (some x') → x'.owner = o → x'.next = none → x ≠ m →
        ∃ l', (s.detached R l.owner m l).linkAt R x = some (some l') ∧ l'.owner = o ∧ l'.next = none := by
      intro x' hx' hown hnone hxm
      refine ⟨_, hkept hxm hx', hown, (if_neg fun hprevious => ?_).trans hnone⟩
      cases hnone.symm.trans ((p.previous_iff hm hx').1 hprevious)
    rw [Store.headAt_detached] at ho
    by_cases hown : o = l.owner
    · rw [if_pos ⟨rfl, hown⟩] at ho
      obtain ⟨h', hh', rfl⟩ := Option.map_eq_some_iff.1 ho
      by_cases hend : l.next = none
      · have hprevious : l.previous = some x := (if_pos hend).symm.trans hx
        obtain ⟨x', hx', hown', hnext⟩ := p.previous hm hprevious
        have hxm : x ≠ m := by
          rintro rfl
          cases hend.symm.trans ((p.previous_iff hm hm).1 hprevious)
        exact ⟨_, hkept hxm hx', hown'.trans hown.symm, (if_pos hprevious).trans hend⟩
      · obtain ⟨x', hx', hown', hnone⟩ := p.last hh' ((if_neg hend).symm.trans hx)
        refine hlast hx' hown' hnone ?_
        rintro rfl
        exact hend (place_unique hm hx' ▸ hnone)
    · rw [if_neg fun e => hown e.2] at ho
      obtain ⟨x', hx', hown', hnone⟩ := p.last ho hx
      refine hlast hx' hown' hnone ?_
      rintro rfl
      exact hown (place_unique hm hx' ▸ hown'.symm)

end PairedIn

namespace Paired

variable {s t u : Store Record} {R : Roster} {k o m : Key} {h : ListHead} {l : Link}

theorem empty : Paired {} := by
  have hg : ∀ k, ({} : Store Record).get? k = none := fun _ => rfl
  intro R
  constructor <;> simp [Store.headAt, Store.linkAt, hg]

theorem congr (p : Paired s) (hget : ∀ k, t.get? k = s.get? k) : Paired t := fun R =>
  (p R).congr (fun k => by rw [Store.linkAt, Store.linkAt, hget]) fun k => by rw [Store.headAt, Store.headAt, hget]

/-- a new record in no list and without members -/
theorem insert (p : Paired s) {r : Record} (hr : r.Blank) (hk : s.contains k = false)
    (hget : ∀ j, t.get? j = if j = k then some r else s.get? j) : Paired t := fun R => by
  refine (p R).places (fun {j l} => ?_) fun {o h j} ho hj => ?_
  · rw [Store.linkAt, Store.linkAt, hget]
    split
    · rename_i hj
      rw [hj, Store.get?_eq_none hk]
      simpa using hr.link R l
    · rfl
  · rw [Store.headAt, hget] at ho
    split at ho
    · rw [hr.head ho] at hj
      cases hj
    · exact ho

/-- a record in no list goes -/
theorem erase (p : Paired s) (hfree : ∀ R l, s.linkAt R k ≠ some (some l))
    (hget : ∀ j, t.get? j = if j = k then none else s.get? j) : Paired t := fun R => by
  refine (p R).places (fun {j l} => ?_) fun {o h j} ho _ => ?_
  · rw [Store.linkAt, hget]
    split
    · rename_i hj
      subst hj
      simpa using hfree R l
    · rfl
  · rw [Store.headAt, hget] at ho
    split at ho
    · cases ho
    · exact ho

/-! ## Operations -/

theorem attached (p : Paired s) (ho : s.headAt R o = some h) (hm : s.linkAt R m = some none) :
    Paired (s.attached R h o m) := fun R' => by
  by_cases hR : R' = R
  · subst hR
    exact (p R').attached ho hm
  · have hend := (p R).last_ne_of_free ho hm
    refine (p R').congr (fun k => ?_) fun k => ?_
    · rw [Store.linkAt_attached hm hend, if_neg fun e => hR e.1, if_neg fun e => hR e.1]
    · rw [Store.headAt_attached, if_neg fun e => hR e.1]

theorem detached (p : Paired s) (hm : s.linkAt R m = some (some l)) : Paired (s.detached R l.owner m l) := fun R' => by
  by_cases hR : R' = R
  · subst hR
    exact (p R').detached hm
  · refine (p R').congr (fun k => ?_) fun k => ?_
    · rw [Store.linkAt_detached hm, if_neg fun e => hR e.1, if_neg hR]
    · rw [Store.headAt_detached, if_neg fun e => hR e.1]

/-- **In a paired store attaching does not stop halfway.** -/
theorem attach_ends (p : Paired s) (R : Roster) (o m : Key) :
    Ends (Store.attach R o m) s (fun _ t => Paired t) (fun _ t => t = s) := by
  refine (Store.attach_ends s R o m).mono (fun _ t => ?_) fun _ t ht => ht.resolve_right ?_
  · rintro ⟨h, ho, hm, rfl⟩
    exact p.attached ho hm
  · rintro ⟨h, last, ho, -, hlast, hgone, -⟩
    obtain ⟨l, hl, -⟩ := (p R).last ho hlast
    exact Bool.false_ne_true (hgone.symm.trans (Store.contains_of_linkAt hl))

/-- **In a paired store detaching does not stop halfway.** A member is refused to leave only where the owner is gone or
has its count used up. -/
theorem detach_ends (p : Paired s) (R : Roster) (o m : Key) :
    Ends (Store.detach R o m) s
      (fun _ t => Paired t ∧ ∀ R', t.linkAt R' m = if R' = R then some none else s.linkAt R' m)
      (fun _ t => t = s ∧ ∀ l, s.linkAt R m = some (some l) → l.owner = o → s.headAt R o = none ∨ s.refsAt o = 0) := by
  have hnext : ∀ {l k}, s.linkAt R m = some (some l) → l.next = some k → s.contains k = true := fun hm hk => by
    obtain ⟨l', hl', -⟩ := (p R).next hm hk
    exact Store.contains_of_linkAt hl'
  have hprevious : ∀ {l k}, s.linkAt R m = some (some l) → l.previous = some k → s.contains k = true := fun hm hk => by
    obtain ⟨l', hl', -⟩ := (p R).previous hm hk
    exact Store.contains_of_linkAt hl'
  have hends := Store.detach_ends s R o m
  rcases hr : (Store.detach R o m).run s with ⟨e | ⟨⟩, t⟩
  · refine Ends.of_run_error hr ⟨(hends.error hr).resolve_right ?_, fun l hm hown => ?_⟩
    · rintro ⟨l, next, hu, -, hn, hgone, -⟩
      obtain ⟨-, -, hm, -⟩ := Store.linkUnder_ok hu
      exact Bool.false_ne_true (hgone.symm.trans (hnext hm hn))
    · by_contra hout
      obtain ⟨hhead, hrefs⟩ := not_or.1 hout
      obtain ⟨h, ho⟩ := Option.ne_none_iff_exists'.1 hhead
      have hrun := Store.detach_run_detached ho hm hown hrefs (fun k => hprevious hm) fun k => hnext hm
      cases hr.symm.trans hrun
  · obtain ⟨-, l, hu, rfl⟩ := hends.ok hr
    obtain ⟨-, -, hm, rfl⟩ := Store.linkUnder_ok hu
    refine Ends.of_run_ok hr ⟨p.detached hm, fun R' => ?_⟩
    rw [Store.linkAt_detached hm]
    by_cases hR : R' = R <;> simp [hR]

/-- a member that has left some lists is in the others as before -/
theorem detachAll_run (p : Paired s) {lists : List (Roster × Key)}
    (h : (Store.detachAll m lists).run s = (.ok (), t)) :
    Paired t ∧ ∀ R, t.linkAt R m = if R ∈ lists.map Prod.fst then some none else s.linkAt R m := by
  induction lists generalizing s with
  | nil =>
    cases h
    exact ⟨p, fun R => by simp⟩
  | cons list rest ih =>
    obtain ⟨R, o⟩ := list
    change (Store.detach R o m >>= fun _ => Store.detachAll m rest).run s = _ at h
    rcases hr : (Store.detach R o m).run s with ⟨e | ⟨⟩, u⟩
    · rw [run_bind_error hr] at h
      cases h
    · rw [run_bind_ok hr] at h
      obtain ⟨pu, hu⟩ := (p.detach_ends R o m).ok hr
      obtain ⟨pt, ht⟩ := ih pu h
      refine ⟨pt, fun R' => ?_⟩
      rw [ht, hu]
      by_cases hR : R' = R <;> by_cases hrest : R' ∈ rest.map Prod.fst <;> simp [hR, hrest]

/-- **A removal that is refused** changes nothing, or has left some lists and could not leave the next. -/
theorem removeAssociated_ends (p : Paired s) (k : Key) :
    Ends (Store.removeAssociated k) s (fun _ t => Paired t) (fun _ t => Paired t ∧ (t = s ∨ s.HalfRemoved k t)) := by
  refine (Store.removeAssociated_ends s k).mono (fun _ t => ?_) fun e t => ?_
  · rintro ⟨r, u, hg, -, hd, rfl⟩
    obtain ⟨pu, hlinks⟩ := p.detachAll_run hd
    refine pu.erase (fun R l hl => ?_) fun j => by rw [Store.get?_release, Store.get?_remove]
    rw [hlinks] at hl
    split at hl
    · cases hl
    · rename_i hout
      refine hout (List.mem_map.2 ⟨(R, l.owner), (Store.mem_memberships hg).2 ?_, rfl⟩)
      rw [Store.ownerOf?_eq, hl]
      rfl
  · rintro (rfl | ⟨r, done, R, o, rest, u, hg, hzero, hlists, hdone, hstop⟩)
    · exact ⟨p, .inl rfl⟩
    obtain ⟨pu, hlinks⟩ := p.detachAll_run hdone
    obtain ⟨rfl, hwhy⟩ := (pu.detach_ends R o k).error hstop
    refine ⟨pu, ?_⟩
    by_cases hnone : done = []
    · subst hnone
      cases hdone
      exact .inl rfl
    -- the list that could not be left is none of those that were
    have hnew : R ∉ done.map Prod.fst := by
      have hnodup := Threaded.nodup_memberships r
      rw [hlists, List.map_append, List.nodup_append] at hnodup
      exact fun hin => hnodup.2.2 R hin R List.mem_cons_self rfl
    have hown : s.ownerOf? R k = some o :=
      (Store.mem_memberships hg).1 (hlists ▸ List.mem_append_right _ List.mem_cons_self)
    rw [Store.ownerOf?_eq] at hown
    obtain ⟨l, hl, rfl⟩ := Option.map_eq_some_iff.1 hown
    obtain ⟨place, hplace, rfl⟩ := Option.bind_eq_some_iff.1 hl
    refine .inr ⟨r, done, R, l.owner, rest, hg, hzero, hlists, hnone, hdone, hwhy l ?_ rfl⟩
    rw [hlinks, if_neg hnew, hplace]

end Paired

end SharedBuffer
