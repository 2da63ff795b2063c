/-
Profiles that are created.

Result: `reached_creates_profile` (of the requests that pass the attribute check just the well-formed ones are granted, as
long as a handle is left; the new profile is as it was asked for, without consumers, last in the list of its pool, whose
figures stay; a refusal states the position that is to blame).
-/
import SharedBuffer.Proofs.Manager.Counting
import SharedBuffer.Proofs.Manager.Guarantees
import SharedBuffer.Proofs.Manager.Orders
import SharedBuffer.Proofs.Plan.Continuity

namespace SharedBuffer

open Accounting Manager

section

variable {s t : Store Record} {hw : Hardware} {m m' : Manager} {L : Layout} {attrs : List Attribute} {k o : Key}
  {q : Pool}

/-- where only lists and counts differ, a pool has the same mode and figures -/
theorem Store.pool?_of_bareAt (h : t.bareAt k = s.bareAt k) (hq : s.pool? k = some q) :
    ∃ q', t.pool? k = some q' ∧ q'.mode = q.mode ∧ q'.totals = q.totals := by
  rw [bareAt, bareAt, pool?_eq_some.1 hq, Option.map_some] at h
  obtain ⟨r, hr, hsame⟩ := Option.map_eq_some_iff.1 h
  cases r
  case pool q' =>
    simp only [Record.bare, Record.pool.injEq, Pool.mk.injEq] at hsame
    exact ⟨q', pool?_eq_some.2 hr, by simp [hsame], by simp [Pool.totals, hsame]⟩
  all_goals simp [Record.bare] at hsame

/-- `m'` has a new profile, as it was ordered for a pool: it has no consumers and is last in the list of the pool, whose
figures are what they were -/
structure Manager.Opens (m m' : Manager) (o : Key) (q : Pool) (p : Profile) (k : Key) : Prop where
  ofId? : Key.ofId? k.id = some k
  kind : k.kind = .profile
  new : m.store.contains k = false
  shown : m'.store.snapshot k = .ok (.profile ⟨k.id, o.id, p.size, p.mode, p.mode.effective q.mode, p.threshold, p.xoff,
    p.xon, 0, []⟩)
  listed : ∃ before, m.store.members .poolProfiles o = .ok before ∧
    m'.store.members .poolProfiles o = .ok (before ++ [k])
  figures : ∃ q', m'.store.pool? o = some q' ∧ q'.totals = q.totals

/-- **A profile that is adopted by a pool is shown as it was ordered.** -/
theorem Manager.opens_of_adopted {p : Profile} (h : Store.Adopted m.store m'.store o k p)
    (asked : m.profileOfAttributes attrs = .ok (o, p)) (hs : Sound m.hardware m.store L) (hq : m.store.pool? o = some q)
    (hnew : Created m m' .profile k) : m.Opens m' o q p k := by
  obtain ⟨u, hins, hunlinked, hattach, hs', hbare⟩ := Store.Adopted.of_asked h asked hs
  obtain ⟨p', hp', ho, hsize, hterms⟩ := Store.Adopted.exists_profile h asked hs
  obtain ⟨hmode, hthreshold, hxoff, hxon⟩ := Terms.mk.inj hterms
  have hc := Store.contains_of_pool? hq
  have hk := hs.wired.kind_of_pool? hq
  have hok : o ≠ k := hins.ne_of_contains hs.wired.handed hc
  have hpool : u.bareAt o = m.store.bareAt o := by rw [Store.bareAt, hins.get, if_neg hok]; rfl
  obtain ⟨q', hq', hmode', htotals⟩ := Store.pool?_of_bareAt ((hbare o).trans hpool) hq
  have hrefs : p'.refCount = 0 := by
    have hkeep := (Store.apart_refsAt hok.symm : Store.Apart (fun s => s.refsAt k) .poolProfiles o k).attach u
    rw [hattach] at hkeep
    have hzero : u.refsAt k = 0 := by
      rw [Store.refsAt, hins.get, if_pos rfl]
      exact congrArg UInt32.toNat hunlinked.2.2
    rw [hzero, Store.refsAt, Store.profile?_eq_some.1 hp'] at hkeep
    exact UInt32.toNat_inj.1 hkeep
  have hnone : (L.set .poolProfiles o (L .poolProfiles o ++ [k])) .profileConsumers k = [] := by
    rw [Layout.set_of_ne (by simp)]
    exact hs.wired.eq_nil_of_new hins.new _
  refine ⟨hnew.ofId?, hnew.kind, Bool.eq_false_iff.2 fun hlive => hnew.new (hs.wired.handed.issued hlive), ?_,
    ⟨L .poolProfiles o, hs.wired.members_eq hc hk, ?_⟩, q', hq', htotals⟩
  · rw [hs'.wired.snapshot_profile hp' ho hq', hnone, hsize, hmode, hthreshold, hxoff, hxon, hmode', hrefs]
    rfl
  · rw [hs'.wired.members_eq (R := .poolProfiles) (Store.contains_of_pool? hq') hk, Layout.set_self]

/-! ## Requests -/

/-- what a request to create a profile comes to -/
theorem create_profile_ends (h : Sound m.hardware m.store L) (hcheck : checkCreate .profile attrs = .ok ()) :
    Ends (ManagerM.create .profile attrs) m
      (fun id m' => m.store.HasRoom .profile ∧ ∃ o : ProfileOrder, o.Given attrs ∧ ∃ pool q mode t k, id = k.id ∧
        m.WellFormed attrs pool q mode t ∧ m.Opens m' pool q (o.profile mode t) k)
      (fun e _ => m.RefusesProfile attrs e e.position? ∨
        (∃ pool q mode t, m.WellFormed attrs pool q mode t) ∧ ¬ m.store.HasRoom .profile ∧
          e = (StoreError.exhausted .profile).toFault) := by
  obtain ⟨order, hgiven⟩ := exists_order hcheck
  refine (ManagerM.wraps_create_profile hcheck).ends (ManagerM.tryCreateProfile_ends h attrs) ?_ ?_
  · rintro k m' audit counters ⟨-, hnew, pool, p, hasked, hroom, hadopted⟩
    obtain ⟨pool', q, mode, t, hok, hwell⟩ | ⟨e, i, herror, -⟩ := hgiven.judged h
    · obtain ⟨rfl, rfl⟩ := Prod.mk.inj (Except.ok.inj (hasked.symm.trans hok))
      have hopens := opens_of_adopted hadopted hasked h hwell.names.2 hnew
      exact ⟨hroom, order, hgiven, pool, q, mode, t, k, rfl, hwell, hopens.ofId?, hopens.kind, hopens.new, hopens.shown,
        hopens.listed, hopens.figures⟩
    · cases hasked.symm.trans herror
  · rintro e m' audit errors ⟨-, hwhy⟩
    obtain ⟨pool, q, mode, t, hok, hwell⟩ | ⟨e', i, herror, hrefuses⟩ := hgiven.judged h
    · rcases hwhy with hbad | ⟨-, -, rfl, hout⟩
      · cases hok.symm.trans hbad
      · exact .inr ⟨⟨pool, q, mode, t, hwell⟩, hout, rfl⟩
    · rcases hwhy with hbad | ⟨_, hok, -⟩
      · obtain rfl := Except.error.inj (herror.symm.trans hbad)
        exact .inl (hrefuses.position_eq (length_lt_of_checkCreate rfl hcheck) ▸ hrefuses)
      · cases hok.symm.trans herror

end

/-- a mark for headroom that a request gives, or zero -/
def StatesMark (attrs : List Attribute) (a : ProfileAttribute) (mark : UInt64) : Prop :=
  StatedOr attrs a.id .u64 0 mark

theorem Gives.statesMark {attrs : List Attribute} {a : ProfileAttribute} {found : Option (Nat × UInt64)}
    (h : Gives attrs a.id .u64 found) : StatesMark attrs a (found.elim 0 Prod.snd) := by
  cases found with
  | none => exact .inr ⟨h, rfl⟩
  | some p => exact .inl h.mem

/-- **Profiles are created as they are asked for, exactly if they can be.** A request that passes the attribute check is
granted if and only if it is well formed, as long as there is a handle left; no size is too large. The new profile shows
the values that were given (the mode is inherited and marks for headroom are zero where none is given), has no consumers
and is last in the list of its pool, whose figures are what they were. A request that is refused breaks a rule, and the
refusal states the position that is to blame, if there is one. -/
theorem reached_creates_profile {hw : Hardware} {m : Manager} (hm : m.Reached hw) {c : Call} {attrs : List Attribute}
    (hc : c.creation? = some (.profile, attrs)) (hcheck : checkCreate .profile attrs = .ok ()) :
    ((∃ id m', c.perform.run m = (.ok id, m')) ↔
      (∃ pool q mode t, m.WellFormed attrs pool q mode t) ∧ m.store.HasRoom .profile) ∧
    (∀ id m', c.perform.run m = (.ok id, m') → ∃ pool q mode t size xoff xon k, m.WellFormed attrs pool q mode t ∧
      ⟨ProfileAttribute.reservedSize.id, .u64 size⟩ ∈ attrs ∧ StatesMark attrs .xoffThreshold xoff ∧
      StatesMark attrs .xonThreshold xon ∧ id = k.id ∧
      m.Opens m' pool q { size, mode, threshold := t, xoff, xon } k) ∧
    ∀ e m', c.perform.run m = (.error e, m') → m.RefusesProfile attrs e e.position? ∨
      (∃ pool q mode t, m.WellFormed attrs pool q mode t) ∧ ¬ m.store.HasRoom .profile ∧
        e = (StoreError.exhausted .profile).toFault := by
  obtain ⟨rfl, L, hs⟩ := hm.sound
  rw [Call.run_of_creation hs hc]
  have hends := create_profile_ends hs hcheck
  refine ⟨⟨?_, ?_⟩, fun id m' hr => ?_, fun e m' hr => hends.error hr⟩
  · rintro ⟨id, m', hr⟩
    obtain ⟨hroom, o, -, pool, q, mode, t, k, -, hwell, -⟩ := hends.ok hr
    exact ⟨⟨pool, q, mode, t, hwell⟩, hroom⟩
  · rintro ⟨⟨pool, q, mode, t, hwell⟩, hroom⟩
    rcases hr : (ManagerM.create .profile attrs).run m with ⟨e | id, m'⟩
    · rcases hends.error hr with hrefuses | ⟨-, hout, -⟩
      · exact absurd hwell (hrefuses.not_wellFormed hs (grammatical_of_checkCreate rfl hcheck).distinct)
      · exact absurd hroom hout
    · exact ⟨id, m', rfl⟩
  · obtain ⟨-, o, hgiven, pool, q, mode, t, k, hid, hwell, hopens⟩ := hends.ok hr
    exact ⟨pool, q, mode, t, o.size.2, o.xoff.elim 0 Prod.snd, o.xon.elim 0 Prod.snd, k, hwell, hgiven.size.mem,
      hgiven.xoff.statesMark, hgiven.xon.statesMark, hid, hopens⟩

/-- what is asked of the first pool: more bytes than it has, and some threshold -/
def oversized (t : Threshold) : List Attribute :=
  [ProfileParams.thresholdAttribute t, ⟨ProfileAttribute.poolId.id, .oid firstPool.raw⟩,
    ⟨ProfileAttribute.reservedSize.id, .u64 20000⟩]

/-- a profile may be larger than its pool, but its threshold has to be of the pool's mode -/
theorem crowded_creates_profile :
    (∃ id m', (Call.request (.create .profile (oversized (.dynamic 1)))).perform.run crowded = (.ok id, m')) ∧
      ∃ e m', (Call.request (.create .profile (oversized (.static 1)))).perform.run crowded = (.error e, m') ∧
        e.position? = some 0 ∧ crowded.RefusesProfile (oversized (.static 1)) e e.position? := by
  have hroom : crowded.store.HasRoom .profile := by decide +kernel
  constructor
  · obtain ⟨q, hq, hregime⟩ := Option.map_eq_some_iff.1
      (show (crowded.store.pool? firstPool.key).map Pool.regime = some (.ingress, .dynamic) by decide +kernel)
    obtain ⟨hdirection, hmode⟩ := Prod.mk.inj hregime
    have hgives : GivesThreshold (oversized (.dynamic 1)) (.dynamic 1) := .of_at (i := 0) (by decide) rfl fun mode hne => by
      cases mode
      · decide
      · exact absurd rfl hne
    have hwell : crowded.WellFormed (oversized (.dynamic 1)) firstPool.key q .inherited (.dynamic 1) :=
      ⟨⟨by decide +kernel, hq⟩, .inr ⟨by decide, rfl⟩, hgives, hmode.symm, .inl hdirection⟩
    exact (@reached_creates_profile twoTiles crowded ⟨true, crowding, rfl⟩
      (.request (.create .profile (oversized (.dynamic 1)))) _ rfl (by decide)).1.2 ⟨⟨_, q, _, _, hwell⟩, hroom⟩
  · have hrefused : ((Call.request (.create .profile (oversized (.static 1)))).perform.run crowded).1 =
        .error (.badAttributeAt 0 "static threshold on a dynamic profile") := by decide +kernel
    rcases hr : (Call.request (.create .profile (oversized (.static 1)))).perform.run crowded with ⟨e | id, m'⟩
    · rw [hr] at hrefused
      obtain rfl := Except.error.inj hrefused
      rcases (@reached_creates_profile twoTiles crowded ⟨true, crowding, rfl⟩
        (.request (.create .profile (oversized (.static 1)))) _ rfl (by decide)).2.2 _ _ hr with hrefuses | ⟨-, hout, -⟩
      · exact ⟨_, m', rfl, rfl, hrefuses⟩
      · exact absurd hroom hout
    · rw [hr] at hrefused
      cases hrefused

end SharedBuffer
