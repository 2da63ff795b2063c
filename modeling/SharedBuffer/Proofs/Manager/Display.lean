/-
What is shown of pools and profiles, and what moves leave of it.

A pool shows itself and how many profiles it has. A profile shows itself, how many consumers it has and which, its pool,
and the mode that counts for it there: its snapshot also rests on a record and on links that are not its own. What is
shown under a key is the same after a move if the record is, in content, list, owner and count (`Store.Alike`), and the
consumers are; the mode of the pool is, whatever the move.

Results: `Alike.display`, and for each way in which a request changes a store, the keys outside which all is shown as
before: `Sound.display_insert`, `Sound.display_adopt`, `Change.display_written`, `Sound.display_retire` and
`Sound.display_retire_profile`.
-/
import SharedBuffer.Proofs.Lists.Steady
import SharedBuffer.Proofs.Manager.Moves

namespace SharedBuffer

open Accounting

namespace Store

variable {s t u : Store Record} {R : Roster} {k j o m : Key} {figures : List (Key × Totals)}

/-- what is shown of a pool or a profile; nothing else is announced -/
def display (s : Store Record) (k : Key) : Option Snapshot :=
  match k.kind with
  | .pool => (s.poolSnapshot k).toOption.map .pool
  | .profile => (s.profileSnapshot k).toOption.map .profile
  | _ => none

theorem display_of_absent (h : s.contains k = false) : s.display k = none := by
  unfold display
  split
  · simp only [poolSnapshot, poolAt, require_of_absent h, bind, Except.bind, Except.toOption, Option.map_none]
  · simp only [profileSnapshot, profileAt, require_of_absent h, bind, Except.bind, Except.toOption, Option.map_none]
  · rfl

theorem display_of_kind (hpool : k.kind ≠ .pool) (hprofile : k.kind ≠ .profile) : s.display k = none := by
  unfold display
  split
  · rename_i hk
    exact absurd hk hpool
  · rename_i hk
    exact absurd hk hprofile
  · rfl

/-! ## Records that look alike -/

/-- two stores have the same under a key, as far as its own record shows it -/
structure Alike (s t : Store Record) (k : Key) : Prop where
  bare : t.bareAt k = s.bareAt k
  heads : ∀ R, t.headAt R k = s.headAt R k
  owners : ∀ R, t.ownerOf? R k = s.ownerOf? R k
  refs : t.refsAt k = s.refsAt k

namespace Alike

theorem refl (s : Store Record) (k : Key) : Alike s s k := ⟨rfl, fun _ => rfl, fun _ => rfl, rfl⟩

theorem trans (h : Alike s t k) (h' : Alike t u k) : Alike s u k :=
  ⟨h'.bare.trans h.bare, fun R => (h'.heads R).trans (h.heads R), fun R => (h'.owners R).trans (h.owners R),
    h'.refs.trans h.refs⟩

theorem of_get? (h : t.get? k = s.get? k) : Alike s t k :=
  ⟨bareAt_of_get? h, fun R => congrArg (Option.bind · (Record.head? R)) h, fun _ => ownerOf?_of_get? h,
    congrArg (fun r : Option Record => r.elim 0 fun r => r.refCount.toNat) h⟩

theorem contains (h : Alike s t k) : t.contains k = s.contains k := by
  rw [contains_eq_bareAt, contains_eq_bareAt, h.bare]

theorem of_attach (hrun : (attach R o m).run s = (.ok (), t)) (ho : k ≠ o) (hm : k ≠ m) : Alike s t k := by
  have hbare := (steady_attach R o m s).2 k
  have hhead : ∀ R', _ := fun R' =>
    Apart.attach (apart_headAt fun e => ho e.2 : Apart (fun s => s.headAt R' k) R o m) s
  have howner : ∀ R', _ := fun R' =>
    Apart.attach (apart_ownerOf? fun e => hm e.2 : Apart (fun s => s.ownerOf? R' k) R o m) s
  have hrefs := (apart_refsAt (R := R) (m := m) ho).attach s
  simp only [hrun] at hbare hhead howner hrefs
  exact ⟨hbare, hhead, howner, hrefs⟩

theorem of_detach (hrun : (detach R o m).run s = (.ok (), t)) (ho : k ≠ o) (hm : k ≠ m) : Alike s t k := by
  have hbare := (steady_detach R o m s).2 k
  have hhead : ∀ R', _ := fun R' =>
    Apart.detach (apart_headAt fun e => ho e.2 : Apart (fun s => s.headAt R' k) R o m) s
  have howner : ∀ R', _ := fun R' =>
    Apart.detach (apart_ownerOf? fun e => hm e.2 : Apart (fun s => s.ownerOf? R' k) R o m) s
  have hrefs := (apart_refsAt (R := R) (m := m) ho).detach s
  simp only [hrun] at hbare hhead howner hrefs
  exact ⟨hbare, hhead, howner, hrefs⟩

/-- a member that goes from owner to owner -/
theorem of_relink {target : Option Key} (hrun : (relink R m target).run s = (.ok (), t)) (hm : k ≠ m)
    (hold : s.ownerOf? R m ≠ some k) (hnew : target ≠ some k) : Alike s t k := by
  have hleft : ∀ o, s.ownerOf? R m = some o → k ≠ o := fun o ho e => hold (e ▸ ho)
  have hjoined : ∀ o, target = some o → k ≠ o := fun o ho e => hnew (e ▸ ho)
  refine ⟨?_, fun R' => ?_, fun R' => ?_, ?_⟩
  · exact Apart.of_relink (V := fun s => s.bareAt k) hrun (fun _ _ => apart_bareAt) fun _ _ => apart_bareAt
  · exact Apart.of_relink (V := fun s => s.headAt R' k) hrun (fun o ho => apart_headAt fun e => hleft o ho e.2)
      fun o ho => apart_headAt fun e => hjoined o ho e.2
  · exact Apart.of_relink (V := fun s => s.ownerOf? R' k) hrun (fun _ _ => apart_ownerOf? fun e => hm e.2)
      fun _ _ => apart_ownerOf? fun e => hm e.2
  · exact Apart.of_relink (V := fun s => s.refsAt k) hrun (fun o ho => apart_refsAt (hleft o ho))
      fun o ho => apart_refsAt (hjoined o ho)

theorem of_edit {f : Record → Record} (hk : k ≠ j) : Alike s (s.edit j f) k :=
  of_get? (by rw [get?_edit, if_neg hk])

end Alike

end Store

/-! ## Snapshots of what is there -/

section

variable {hw : Hardware} {s t u : Store Record} {L L' : Layout} {R : Roster} {k j o : Key} {kind : ObjectKind}
  {r : Record} {p : Profile} {q : Pool} {c : Change} {figures : List (Key × Totals)}

theorem Wired.poolSnapshot_eq (hq : s.pool? k = some q) : s.poolSnapshot k = .ok (.of k q) := by
  rw [Store.poolSnapshot, Store.poolAt_eq hq]
  rfl

theorem Wired.profileSnapshot_eq (w : Wired hw s L none) (hp : s.profile? k = some p) (ho : p.pool? = some o)
    (hq : s.pool? o = some q) : s.profileSnapshot k = .ok ⟨k.id, o.id, p.size, p.mode, p.mode.effective q.mode,
      p.threshold, p.xoff, p.xon, p.refCount, (L .profileConsumers k).map Key.id⟩ := by
  have hmembers := w.requireMembers_eq (R := .profileConsumers) (Store.contains_of_profile? hp) (w.kind_of_profile? hp)
  simp only [Store.profileSnapshot, Store.profileSnapshotOf, Store.profileAt_eq hp, Store.poolOfProfile, ho,
    Store.poolAt_eq hq, hmembers, bind, Except.bind, pure, Except.pure]

theorem Wired.display_pool (w : Wired hw s L none) (hq : s.pool? k = some q) :
    s.display k = some (.pool (.of k q)) := by
  rw [Store.display, w.kind_of_pool? hq]
  simp only [Wired.poolSnapshot_eq hq, Except.toOption, Option.map_some]

theorem Wired.display_profile (w : Wired hw s L none) (hp : s.profile? k = some p) (ho : p.pool? = some o)
    (hq : s.pool? o = some q) : s.display k = some (.profile ⟨k.id, o.id, p.size, p.mode, p.mode.effective q.mode,
      p.threshold, p.xoff, p.xon, p.refCount, (L .profileConsumers k).map Key.id⟩) := by
  rw [Store.display, w.kind_of_profile? hp]
  simp only [w.profileSnapshot_eq hp ho hq, Except.toOption, Option.map_some]

/-- a live profile belongs to a live pool -/
theorem Wired.exists_housed (w : Wired hw s L none) (hp : s.profile? k = some p) :
    ∃ o q, p.pool? = some o ∧ s.pool? o = some q := by
  obtain ⟨o, -, hm, hoc, hok⟩ := w.exists_poolOf (Store.contains_of_profile? hp) (w.kind_of_profile? hp)
  obtain ⟨q, hq⟩ := w.exists_pool hoc hok
  exact ⟨o, q, (w.mem_poolProfiles_iff hp).1 hm, hq⟩

/-- **Pools and profiles are shown exactly as long as they live**, and nothing else is. -/
theorem Wired.isSome_display (w : Wired hw s L none) :
    (s.display k).isSome = true ↔ s.contains k = true ∧ (k.kind = .pool ∨ k.kind = .profile) := by
  constructor
  · intro h
    refine ⟨?_, ?_⟩
    · by_contra hc
      rw [Store.display_of_absent (Bool.eq_false_iff.2 hc)] at h
      cases h
    · by_contra hk
      rw [Store.display_of_kind (fun e => hk (.inl e)) fun e => hk (.inr e)] at h
      cases h
  · rintro ⟨hc, hk | hk⟩
    · obtain ⟨q, hq⟩ := w.exists_pool hc hk
      rw [w.display_pool hq]
      rfl
    · obtain ⟨p, hp⟩ := w.exists_profile hc hk
      obtain ⟨o, q, ho, hq⟩ := w.exists_housed hp
      rw [w.display_profile hp ho hq]
      rfl

/-! ## What a move leaves as it was -/

theorem Store.Alike.pool_eq {q' : Pool} (h : Store.Alike s t k) (hq : s.pool? k = some q) (hq' : t.pool? k = some q') :
    PoolSnapshot.of k q' = PoolSnapshot.of k q := by
  have hbare := h.bare
  have hhead := h.heads .poolProfiles
  simp only [Store.bareAt, Store.headAt, Store.pool?_eq_some.1 hq, Store.pool?_eq_some.1 hq', Option.map_some,
    Option.bind_some, Record.head?, if_true, Option.some.injEq, Record.bare, Record.pool.injEq,
    Pool.mk.injEq] at hbare hhead
  simp only [PoolSnapshot.of, hbare, hhead]

/-- **What is shown under a key lasts** where its record, its owner, its count and its consumers do, and pools keep their
modes. -/
theorem Store.Alike.display_of_regime (h : Store.Alike s t k) (w : Wired hw s L none) (w' : Wired hw t L' none)
    (hcons : L' .profileConsumers k = L .profileConsumers k)
    (hregime : ∀ o q q', s.pool? o = some q → t.pool? o = some q' → q'.regime = q.regime) :
    t.display k = s.display k := by
  cases hc : s.contains k with
  | false => rw [Store.display_of_absent hc, Store.display_of_absent (h.contains.trans hc)]
  | true =>
    have hc' := h.contains.trans hc
    by_cases hpool : k.kind = .pool
    · obtain ⟨q, hq⟩ := w.exists_pool hc hpool
      obtain ⟨q', hq'⟩ := w'.exists_pool hc' hpool
      rw [w.display_pool hq, w'.display_pool hq', h.pool_eq hq hq']
    · by_cases hprofile : k.kind = .profile
      · obtain ⟨p, hp⟩ := w.exists_profile hc hprofile
        obtain ⟨o, q, ho, hq⟩ := w.exists_housed hp
        obtain ⟨p', hp'⟩ := w'.exists_profile hc' hprofile
        obtain ⟨o', q', ho', hq'⟩ := w'.exists_housed hp'
        have hown := h.owners .poolProfiles
        rw [Store.ownerOf?_of_profile? hp, Store.ownerOf?_of_profile? hp', ho, ho', Option.some.injEq] at hown
        subst hown
        have hmode : q'.mode = q.mode := congrArg Prod.snd (hregime _ q q' hq hq')
        have hbare := h.bare
        have hrefs := h.refs
        simp only [Store.bareAt, Store.refsAt, Store.profile?_eq_some.1 hp, Store.profile?_eq_some.1 hp',
          Option.map_some, Option.elim_some, Record.refCount, Option.some.injEq, Record.bare, Record.profile.injEq,
          Profile.mk.injEq, UInt32.toNat_inj] at hbare hrefs
        rw [w.display_profile hp ho hq, w'.display_profile hp' ho' hq', hcons, hmode, hrefs]
        simp only [hbare]
      · rw [Store.display_of_kind hpool hprofile, Store.display_of_kind hpool hprofile]

theorem Store.Alike.display (h : Store.Alike s t k) (hs : Sound hw s L) (hm : Move hw s t) (w : Wired hw t L' none)
    (hcons : L' .profileConsumers k = L .profileConsumers k) : t.display k = s.display k :=
  h.display_of_regime hs.wired w hcons fun _ _ _ hq hq' => hm.regime_eq hs hq hq'

/-- **A new record** leaves the others shown as they were. -/
theorem Sound.display_insert (hs : Sound hw s L) (hm : Move hw s t) (w : Wired hw t L none)
    (new : Store.Inserted s t kind j r) (hk : k ≠ j) : t.display k = s.display k :=
  (Store.Alike.of_get? ((new.get k).trans (if_neg hk))).display hs hm w rfl

/-- **A new member of a list** shows its owner and itself anew at most. -/
theorem Sound.display_adopt (hs : Sound hw s L) (hm : Move hw s u) {l : List Key} (w : Wired hw u (L.set R o l) none)
    (new : Store.Inserted s t kind j r) (joined : (Store.attach R o j).run t = (.ok (), u)) (hko : k ≠ o)
    (hkj : k ≠ j) : u.display k = s.display k :=
  ((Store.Alike.of_get? ((new.get k).trans (if_neg hkj))).trans (.of_attach joined hko hkj)).display hs hm w
    (Layout.set_of_ne fun e => hko e.2)

/-- the keys, besides those of pools with new figures, under which a change may change what is shown -/
def Change.named (s : Store Record) : Change → List Key
  | .bind consumer target => (s.ownerOf? .profileConsumers consumer).toList ++ target.toList
  | .profileSize profile _ | .profileHeadroom profile _ _ | .profilePool profile _ => [profile]
  | .poolSize _ _ | .recompute _ => []

/-- a change is about the records it names and the pools it concerns, and about the consumer it binds -/
theorem Change.alike_apply (hs : Sound hw s L) (hplan : plan hw s c = .ok figures)
    (hrun : c.apply.run s = (.ok (), t)) (hself : ∀ target, c ≠ .bind k target)
    (hfigures : k ∉ figures.map Prod.fst) (hnamed : k ∉ c.named s) :
    Store.Alike s t k ∧ ∀ R, c.relayout L R k = L R k := by
  have hcovers := hs.wired.covers_affectedPools (plan_ok hplan).1
  have hedit : ∀ {j f}, c.apply = .ofStore (Store.modify j f) → k ≠ j → Store.Alike s t k := by
    intro j f happly hk
    rw [happly] at hrun
    exact (Store.of_ofStore_modify hrun).2 ▸ .of_edit hk
  cases c with
  | bind consumer target =>
    simp only [named, List.mem_append, Option.mem_toList, not_or] at hnamed
    obtain ⟨hold, hnew⟩ := hnamed
    have hk : k ≠ consumer := fun e => hself target (e ▸ rfl)
    have hout : consumer ∉ L .profileConsumers k := fun hin => hold (hs.wired.linked.ownerOf?_eq_some.2 hin)
    refine ⟨.of_relink hrun hk hold hnew, fun R => ?_⟩
    rw [relayout_bind]
    exact Layout.relink_of_apart hout hnew
  | profilePool profile pool =>
    have hk : k ≠ profile := by simpa [named] using hnamed
    obtain ⟨⟨o, ho, hm⟩, hpool⟩ := hcovers
    have hout : profile ∉ L .poolProfiles k := fun hin =>
      hfigures (hs.wired.linked.owner_unique hm hin ▸ ho)
    have hnew : some pool ≠ some k := fun e => hfigures (Option.some.inj e ▸ hpool)
    refine ⟨.of_relink hrun hk (fun e => hout (hs.wired.linked.ownerOf?_eq_some.1 e)) hnew, fun R => ?_⟩
    rw [relayout_profilePool]
    exact Layout.relink_of_apart hout hnew
  | profileSize profile size => exact ⟨hedit rfl (by simpa [named] using hnamed), fun _ => rfl⟩
  | profileHeadroom profile xoff xon => exact ⟨hedit rfl (by simpa [named] using hnamed), fun _ => rfl⟩
  | poolSize pool size => exact ⟨hedit rfl fun e => hfigures (e ▸ hcovers), fun _ => rfl⟩
  | recompute pool =>
    cases hrun
    exact ⟨.refl s k, fun _ => rfl⟩

/-- **A planned change shows anew** the pools with new figures and the records it names, at most. -/
theorem Change.display_written (hs : Sound hw s L) (hb : c.Buildable s) (hplan : plan hw s c = .ok figures)
    (hrun : c.apply.run s = (.ok (), t)) (hm : Move hw s (t.written figures))
    (w : Wired hw (t.written figures) (c.relayout L) none) (hk : k ∉ figures.map Prod.fst ++ c.named s) :
    (t.written figures).display k = s.display k := by
  rw [List.mem_append, not_or] at hk
  by_cases hkind : k.kind = .pool ∨ k.kind = .profile
  · have hself : ∀ target, c ≠ .bind k target := by
      rintro target rfl
      have htakes := hb.1.2
      rcases hkind with hkind | hkind <;> rw [hkind] at htakes <;> cases htakes
    obtain ⟨halike, hlists⟩ := c.alike_apply hs hplan hrun hself hk.1 hk.2
    exact (halike.trans (.of_get? (Store.get?_written t hk.1))).display hs hm w (hlists .profileConsumers)
  · obtain ⟨hpool, hprofile⟩ := not_or.1 hkind
    rw [Store.display_of_kind hpool hprofile, Store.display_of_kind hpool hprofile]

/-- **A record that goes** leaves the others shown as they were. -/
theorem Sound.display_retire (hs : Sound hw s L) (hm : Move hw s t) (w : Wired hw t L none)
    (gone : Store.Retired s t j) (hk : k ≠ j) : t.display k = s.display k :=
  (Store.Alike.of_get? ((gone.get k).trans (if_neg hk))).display hs hm w rfl

/-- **A profile that goes** shows its pool anew at most. -/
theorem Sound.display_retire_profile (hs : Sound hw s L) (hm : Move hw s (t.written figures)) {l : List Key}
    (w : Wired hw (t.written figures) (L.set .poolProfiles o l) none)
    (left : (Store.detach .poolProfiles o j).run s = (.ok (), u)) (gone : Store.Retired u t j)
    (planned : plan hw t (.recompute o) = .ok figures) (hkj : k ≠ j) (hk : k ∉ figures.map Prod.fst) :
    (t.written figures).display k = s.display k := by
  have hpools : [o] = figures.map Prod.fst := Except.ok.inj (plan_ok planned).1
  have hko : k ≠ o := by
    rintro rfl
    exact hk (hpools ▸ List.mem_singleton_self k)
  have halike : Store.Alike s (t.written figures) k :=
    ((Store.Alike.of_detach left hko hkj).trans (.of_get? ((gone.get k).trans (if_neg hkj)))).trans
      (.of_get? (Store.get?_written t hk))
  exact halike.display hs hm w (Layout.set_of_ne fun e => hko e.2)

end

end SharedBuffer
