/-
The terms a profile has in its pool.

A profile's threshold is of the mode that counts for it, which may be its pool's, and headroom belongs to ingress pools:
what a profile says has to suit a record that is not its own, and that a request may put another in the place of. A new
profile is read against its pool, a new threshold against the pool of the moment, and a move asks the new pool for the
direction and the effective mode of the old one; `Move.carried` says so of every move. Modes and directions themselves
are never written again.

Result: `reached_suited`, the terms of all profiles that are live, and what of them lasts as long as they do.
-/
import SharedBuffer.Proofs.Accounting.Contents
import SharedBuffer.Proofs.Lists.Steady
import SharedBuffer.Proofs.Manager.Runs

namespace SharedBuffer

open Accounting Manager

/-- what is stated of a profile: its own mode, its threshold and its headroom -/
structure Terms where
  mode : ProfileMode
  threshold : Threshold
  xoff : UInt64
  xon : UInt64

/-- the terms a profile is under -/
def Profile.terms (p : Profile) : Terms := ⟨p.mode, p.threshold, p.xoff, p.xon⟩

/-- a profile whose terms are those of its pool: a threshold of the effective mode, and no headroom outside ingress -/
structure Profile.Suits (p : Profile) (q : Pool) : Prop where
  threshold : p.threshold.mode = p.mode.effective q.mode
  headroom : q.direction = .egress → p.xoff = 0 ∧ p.xon = 0

/-- what a request leaves of a profile and its pool: the profile's own mode, the effective one, the direction, and
suitable terms -/
structure Carried (p : Profile) (q : Pool) (p' : Profile) (q' : Pool) : Prop where
  mode : p'.mode = p.mode
  effective : p'.mode.effective q'.mode = p.mode.effective q.mode
  direction : q'.direction = q.direction
  suits : p.Suits q → p'.Suits q'

theorem Profile.Suits.congr {p p' : Profile} {q q' : Pool} (h : p.Suits q) (hp : p'.terms = p.terms)
    (hq : q'.regime = q.regime) : p'.Suits q' := by
  simp only [terms, Terms.mk.injEq] at hp
  simp only [Pool.regime, Prod.mk.injEq] at hq
  obtain ⟨hm, ht, hoff, hon⟩ := hp
  refine ⟨?_, fun hd => ?_⟩
  · rw [ht, hm, hq.2]
    exact h.threshold
  · rw [hoff, hon]
    exact h.headroom (hq.1 ▸ hd)

theorem Carried.of_terms {p p' : Profile} {q q' : Pool} (hp : p'.terms = p.terms) (hq : q'.regime = q.regime) :
    Carried p q p' q' := by
  have hm : p'.mode = p.mode := congrArg Terms.mode hp
  have hq' : q'.mode = q.mode := congrArg Prod.snd hq
  exact ⟨hm, by rw [hm, hq'], congrArg Prod.fst hq, fun h => h.congr hp hq⟩

/-! ## Terms that are asked for -/

theorem mode_of_resolveThreshold {mode : ThresholdMode} {dynamic : Option (Nat × Int8)} {fixed : Option (Nat × UInt64)}
    {threshold : Threshold} (h : resolveThreshold mode dynamic fixed = .ok threshold) : threshold.mode = mode := by
  unfold resolveThreshold at h
  split at h <;> cases h <;> rfl

theorem firstHeadroom?_eq_none {xoff xon : Option (Nat × UInt64)} :
    firstHeadroom? xoff xon = none ↔ xoff = none ∧ xon = none := by
  cases xoff <;> cases xon <;> simp [firstHeadroom?]

theorem Store.pool?_of_poolAt {s : Store Record} {k : Key} {p : Pool} (h : s.poolAt k = .ok p) :
    s.pool? k = some p := by
  unfold poolAt require get at h
  cases hg : s.get? k with
  | none => simp [hg, bind, Except.bind, Except.mapError] at h
  | some r =>
    cases r
    case pool q =>
      simp only [hg, Except.mapError, bind, Except.bind, Record.asPool?, Except.ok.injEq] at h
      exact pool?_eq_some.2 (h ▸ hg)
    all_goals simp [hg, bind, Except.bind, Except.mapError, Record.asPool?] at h

/-- **A profile that a request describes suits its pool.** -/
theorem Manager.suits_of_profileOfAttributes {m : Manager} {attrs : List Attribute} {pool : Key} {profile : Profile}
    (h : m.profileOfAttributes attrs = .ok (pool, profile)) :
    ∃ q, m.store.pool? pool = some q ∧ profile.Suits q := by
  cases describes_of_ok h with
  | intro poolId reservedSize resolved live thresholdMode decoded dynamicThreshold staticThreshold one xoffThreshold
    xonThreshold headroom =>
    refine ⟨_, Store.pool?_of_poolAt live, mode_of_resolveThreshold one, fun hegress => ?_⟩
    obtain ⟨rfl, rfl⟩ := firstHeadroom?_eq_none.1 (headroom hegress)
    exact ⟨rfl, rfl⟩

/-! ## Terms by key -/

namespace Store

/-- the terms of the profile under a key -/
def termsAt (s : Store Record) (k : Key) : Option Terms := (s.profile? k).map Profile.terms

/-- `p` is the profile under a key, and `q` the pool it belongs to -/
def Housed (s : Store Record) (k : Key) (p : Profile) (q : Pool) : Prop :=
  s.profile? k = some p ∧ ∃ o, p.pool? = some o ∧ s.pool? o = some q

variable {s t u : Store Record} {k j o : Key} {kind : ObjectKind} {r : Record} {p p' : Profile} {q q' : Pool}

theorem termsAt_eq (s : Store Record) (k : Key) :
    s.termsAt k = ((s.bareAt k).bind Record.asProfile?).map Profile.terms := by
  unfold termsAt profile? bareAt
  rcases s.get? k with - | (_ | _ | _ | _ | _) <;> rfl

theorem termsAt_congr (h : t.bareAt k = s.bareAt k) : t.termsAt k = s.termsAt k := by
  rw [termsAt_eq, termsAt_eq, h]

theorem termsAt_written (s : Store Record) (figures : List (Key × Totals)) (k : Key) :
    (s.written figures).termsAt k = s.termsAt k := congrArg (Option.map Profile.terms) (profile?_written s figures k)

/-- a profile is not under a key that has none -/
theorem Housed.ne (h : s.Housed k p q) (hj : s.profile? j = none) : k ≠ j := by
  rintro rfl
  cases h.1.symm.trans hj

/-- a profile that has kept its terms, its pool and the pool's regime was carried along -/
theorem Housed.carried (h : t.Housed k p' q') (hterms : t.termsAt k = s.termsAt k)
    (howner : t.ownerOf? .poolProfiles k = s.ownerOf? .poolProfiles k)
    (hregime : ∀ o, s.ownerOf? .poolProfiles k = some o → t.contains o = true → t.regimeAt o = s.regimeAt o) :
    ∃ p q, s.Housed k p q ∧ Carried p q p' q' := by
  obtain ⟨hp', o, ho, hq'⟩ := h
  rw [termsAt, hp', Option.map_some, eq_comm, termsAt, Option.map_eq_some_iff] at hterms
  obtain ⟨p, hp, hterms⟩ := hterms
  rw [ownerOf?_of_profile? hp', ho, ownerOf?_of_profile? hp] at howner
  have hreg := hregime o ((ownerOf?_of_profile? hp).trans howner.symm) (contains_of_pool? hq')
  rw [regimeAt, hq', Option.map_some, eq_comm, regimeAt, Option.map_eq_some_iff] at hreg
  obtain ⟨q, hq, hreg⟩ := hreg
  exact ⟨p, q, ⟨hp, o, howner.symm, hq⟩, .of_terms hterms.symm hreg.symm⟩

end Store

/-! ## What moves keep -/

section

variable {hw : Hardware} {s t : Store Record} {L : Layout} {k o : Key} {p p' : Profile} {q q' : Pool}

/-- a move that leaves a profile its terms and its place carries it along -/
theorem Move.carried_of_same (hs : Sound hw s L) (hm : Move hw s t) (h : t.Housed k p' q')
    (hterms : t.termsAt k = s.termsAt k) (howner : t.ownerOf? .poolProfiles k = s.ownerOf? .poolProfiles k) :
    ∃ p q, s.Housed k p q ∧ Carried p q p' q' :=
  h.carried hterms howner fun _ ho hc =>
    hm.regimeAt hs (hs.wired.pool_of_mem (hs.wired.linked.ownerOf?_eq_some.1 ho)).1 hc

/-- a move that leaves a profile's record alone carries the profile along -/
theorem Move.carried_of_get? (hs : Sound hw s L) (hm : Move hw s t) (h : t.Housed k p' q')
    (hget : t.get? k = s.get? k) : ∃ p q, s.Housed k p q ∧ Carried p q p' q' :=
  hm.carried_of_same hs h (Store.termsAt_congr (Store.bareAt_of_get? hget)) (Store.ownerOf?_of_get? hget)

/-- other headroom suits a profile of an ingress pool -/
theorem Move.carried_of_headroom (hs : Sound hw s L) (hm : Move hw s t) (h : t.Housed k p' q')
    (hp : s.profile? k = some p) (hpool : p.pool? = some o) (hq : s.pool? o = some q)
    (hingress : q.direction = .ingress) (howner : p'.pool? = some o) {xoff xon : UInt64}
    (hterms : p'.terms = ⟨p.mode, p.threshold, xoff, xon⟩) :
    ∃ p q, s.Housed k p q ∧ Carried p q p' q' := by
  obtain ⟨-, o', ho', hq'⟩ := h
  obtain rfl := Option.some.inj (howner.symm.trans ho')
  have hregime := hm.regime_eq hs hq hq'
  have hmode : p'.mode = p.mode := congrArg Terms.mode hterms
  have hthreshold : p'.threshold = p.threshold := congrArg Terms.threshold hterms
  have hqm : q'.mode = q.mode := congrArg Prod.snd hregime
  have hqd : q'.direction = q.direction := congrArg Prod.fst hregime
  refine ⟨p, q, ⟨hp, o, hpool, hq⟩, hmode, by rw [hmode, hqm], hqd, fun hsuits => ⟨?_, fun he => ?_⟩⟩
  · rw [hthreshold, hmode, hqm]
    exact hsuits.threshold
  · rw [hqd, hingress] at he
    cases he

/-- another threshold suits a profile if it is of the mode that counts -/
theorem Move.carried_of_threshold (hs : Sound hw s L) (hm : Move hw s t) (h : t.Housed k p' q')
    (hp : s.profile? k = some p) (hpool : p.pool? = some o) (hq : s.pool? o = some q) {threshold : Threshold}
    (hmode : threshold.mode = p.mode.effective q.mode) (hp' : p' = { p with threshold }) :
    ∃ p q, s.Housed k p q ∧ Carried p q p' q' := by
  subst hp'
  obtain ⟨-, o', ho', hq'⟩ := h
  obtain rfl := Option.some.inj (hpool.symm.trans ho')
  have hregime := hm.regime_eq hs hq hq'
  have hqm : q'.mode = q.mode := congrArg Prod.snd hregime
  have hqd : q'.direction = q.direction := congrArg Prod.fst hregime
  refine ⟨p, q, ⟨hp, o, hpool, hq⟩, rfl, by rw [hqm], hqd, fun hsuits => ⟨?_, fun he => ?_⟩⟩
  · rw [hqm]
    exact hmode
  · exact hsuits.headroom (hqd ▸ he)

/-- a pool of the mode that counts for a profile leaves it that mode -/
theorem ProfileMode.effective_effective (mode : ProfileMode) (poolMode : ThresholdMode) :
    mode.effective (mode.effective poolMode) = mode.effective poolMode := by
  cases mode <;> rfl

/-- a profile suits another pool of the direction and of the mode that counts -/
theorem Move.carried_of_target {target : Key} {r : Pool} (hs : Sound hw s L) (hm : Move hw s t) (h : t.Housed k p' q')
    (hp : s.profile? k = some p) (hpool : p.pool? = some o) (hq : s.pool? o = some q) (hr : s.pool? target = some r)
    (hdir : q.direction = r.direction) (hmode : r.mode = p.mode.effective q.mode) (howner : p'.pool? = some target)
    (hterms : p'.terms = p.terms) : ∃ p q, s.Housed k p q ∧ Carried p q p' q' := by
  obtain ⟨-, o', ho', hq'⟩ := h
  obtain rfl := Option.some.inj (howner.symm.trans ho')
  have hstay : Carried p r p' q' := .of_terms hterms (hm.regime_eq hs hr hq')
  have heffective : p.mode.effective r.mode = p.mode.effective q.mode := by
    rw [hmode, ProfileMode.effective_effective]
  exact ⟨p, q, ⟨hp, o, hpool, hq⟩, hstay.mode, hstay.effective.trans heffective, hstay.direction.trans hdir.symm,
    fun hsuits => hstay.suits ⟨hsuits.threshold.trans heffective.symm, fun he => hsuits.headroom (hdir.trans he)⟩⟩

/-- the terms of a profile after a planned change -/
theorem Change.termsAt {c : Change} (hrun : c.apply.run s = (.ok (), t)) (figures : List (Key × Totals)) :
    (t.written figures).termsAt k = (s.profile? k).map fun p => (c.recharge k p).terms := by
  rw [Store.termsAt_written, Store.termsAt_eq, bareAt_apply hrun, Store.bareAt, Store.profile?]
  rcases s.get? k with - | (_ | p | _ | _ | _)
  case some.profile =>
    cases c
    case profileSize changed size => by_cases hk : changed = k <;>
      simp [rewrite, recharge, Record.mapPool, Record.mapProfile, Record.bare, Record.asProfile?, Profile.terms, hk]
    case profileHeadroom changed xoff xon => by_cases hk : changed = k <;>
      simp [rewrite, recharge, Record.mapPool, Record.mapProfile, Record.bare, Record.asProfile?, Profile.terms, hk]
    all_goals rfl
  all_goals rfl

/-- a profile after a planned change -/
theorem Change.Outcome.exists_profile {c : Change} (h : c.Outcome hw s t) (hs : Sound hw s L) (hb : c.Buildable s)
    (hp : s.profile? k = some p) :
    ∃ p', t.profile? k = some p' ∧ p'.size = (c.recharge k p).size ∧ p'.terms = (c.recharge k p).terms := by
  obtain ⟨p', hp', hsize, -⟩ := profile?_of_core ((h.applied hs hb).2.core k) hp
  refine ⟨p', hp', hsize, ?_⟩
  obtain ⟨figures, u, -, hrun, rfl⟩ := h
  have hterms := Change.termsAt (k := k) hrun figures
  rw [Store.termsAt, hp', hp] at hterms
  exact Option.some.inj hterms

/-- a planned change carries every profile along -/
theorem Change.carried {c : Change} {figures : List (Key × Totals)} (hs : Sound hw s L) (hb : c.Buildable s)
    (hn : c.Countable s) (hpermit : c.Permitted hw s) (hrun : c.apply.run s = (.ok (), t))
    (hm : Move hw s (t.written figures)) (h : (t.written figures).Housed k p' q') :
    ∃ p q, s.Housed k p q ∧ Carried p q p' q' := by
  obtain ⟨t', hrun', w', -⟩ := c.apply_run hs.wired hb hn
  rw [hrun, Prod.mk.injEq] at hrun'
  obtain rfl := hrun'.2
  have hterms := Change.termsAt (k := k) hrun figures
  have hthen : ∀ {p}, s.profile? k = some p → p'.terms = (c.recharge k p).terms := fun {p} hp => by
    rw [Store.termsAt, h.1, hp, Option.map_some, Option.map_some] at hterms
    exact Option.some.inj hterms
  have hmember : ∀ o, p'.pool? = some o ↔ k ∈ c.relayout L .poolProfiles o := fun o => by
    rw [← Store.ownerOf?_of_profile? h.1, Store.ownerOf?_written, w'.linked.ownerOf?_eq_some]
  have hsame : (∀ p, (c.recharge k p).terms = p.terms) →
      (∀ o, k ∈ c.relayout L .poolProfiles o ↔ k ∈ L .poolProfiles o) → ∃ p q, s.Housed k p q ∧ Carried p q p' q' :=
    fun hrecharge hmem => hm.carried_of_same hs h (hterms.trans (by simp only [hrecharge]; rfl))
      ((Store.ownerOf?_written ..).trans (hs.wired.linked.ownerOf?_congr w'.linked hmem))
  cases c with
  | bind consumer target => exact hsame (fun _ => rfl) fun _ => Iff.rfl
  | poolSize pool size => exact hsame (fun _ => rfl) fun _ => Iff.rfl
  | recompute pool => exact hsame (fun _ => rfl) fun _ => Iff.rfl
  | profileSize changed size =>
    refine hsame (fun p => ?_) fun _ => Iff.rfl
    unfold recharge
    dsimp only
    split <;> rfl
  | profileHeadroom changed xoff xon =>
    by_cases hk : changed = k
    · subst hk
      obtain ⟨p, o, q, hp, hpool, hq, hingress⟩ := hpermit
      have howner : p'.pool? = some o := (hmember o).2 ((hs.wired.mem_poolProfiles_iff hp).2 hpool)
      have hterms : p'.terms = ⟨p.mode, p.threshold, xoff, xon⟩ := by
        rw [hthen hp, recharge, if_pos rfl]
        rfl
      exact hm.carried_of_headroom hs h hp hpool hq hingress howner hterms
    · exact hsame (fun p => by simp [recharge, hk]) fun _ => Iff.rfl
  | profilePool changed target =>
    by_cases hk : k = changed
    · subst hk
      obtain ⟨p, o, q, r, hp, hpool, hq, hr, hdir, hmode⟩ := hpermit
      have howner : p'.pool? = some target := (hmember target).2 (by simp [relayout, relist])
      exact hm.carried_of_target hs h hp hpool hq hr hdir hmode howner (hthen hp)
    · refine hsame (fun _ => rfl) fun o => ?_
      simp only [relayout, relist, List.mem_append, List.mem_filter, decide_eq_true_eq]
      by_cases ho : target = o <;> simp [ho, hk]

/-- a profile that has just joined a pool suits it -/
theorem Store.Inserted.suits {pool : Key} {u : Store Record} {attrs : List Attribute} (hs : Sound hw s L)
    (hm : Move hw s u) (new : Store.Inserted s t .profile k (.profile p)) (unlinked : (Record.profile p).Unlinked)
    (owner : s.contains pool = true ∧ pool.kind = .pool)
    (asked : (Manager.over hw s).profileOfAttributes attrs = .ok (pool, p))
    (joined : (Store.attach .poolProfiles pool k).run t = (.ok (), u)) (h : u.Housed k p' q') : p'.Suits q' := by
  obtain ⟨hp', o, ho, hq'⟩ := h
  obtain ⟨q, hq, hsuits⟩ := Manager.suits_of_profileOfAttributes asked
  obtain ⟨u', hrun, hsound, -⟩ := hs.adopt new unlinked rfl rfl owner.1 owner.2
  rw [joined, Prod.mk.injEq] at hrun
  obtain rfl := hrun.2
  have hin : k ∈ L.set .poolProfiles pool (L .poolProfiles pool ++ [k]) .poolProfiles pool := by
    rw [Layout.set_self]
    exact List.mem_append_right _ (List.mem_singleton_self k)
  have howner := hsound.wired.linked.ownerOf?_eq_some.2 hin
  rw [Store.ownerOf?_of_profile? hp', ho] at howner
  obtain rfl := Option.some.inj howner
  have hbare := (Store.steady_attach .poolProfiles o k t).2 k
  rw [joined] at hbare
  have hterms : p'.terms = p.terms := by
    rw [Store.bareAt, Store.bareAt, Store.profile?_eq_some.1 hp', new.get, if_pos rfl, Option.map_some,
      Option.map_some, Option.some.injEq] at hbare
    simp only [Record.bare, Record.profile.injEq, Profile.mk.injEq] at hbare
    simp [Profile.terms, hbare]
  exact hsuits.congr hterms (hm.regime_eq hs hq hq')

/-- **A move carries every profile along**, or makes it a new one whose terms are those of its pool. -/
theorem Move.carried (hs : Sound hw s L) (hm : Move hw s t) (h : t.Housed k p' q') :
    (s.contains k = false ∧ p'.Suits q') ∨ ∃ p q, s.Housed k p q ∧ Carried p q p' q' := by
  have hm' := hm
  cases hm with
  | @newPool j r t room new =>
    have hkj : k ≠ j := h.ne (by rw [Store.profile?, new.get, if_pos rfl]; rfl)
    exact .inr (hm'.carried_of_get? hs h ((new.get k).trans (if_neg hkj)))
  | @newPort j n t free new =>
    have hkj : k ≠ j := h.ne (by rw [Store.profile?, new.get, if_pos rfl]; rfl)
    exact .inr (hm'.carried_of_get? hs h ((new.get k).trans (if_neg hkj)))
  | @newMember kind R j o r t u home owner unlinked rkind asked new joined =>
    have hbare := (Store.steady_attach R o j t).2 k
    rw [joined] at hbare
    by_cases hkj : k = j
    · subst hkj
      -- only a profile has turned up under the key of a profile
      rw [Store.bareAt, Store.profile?_eq_some.1 h.1, Store.bareAt, new.get, if_pos rfl, Option.map_some,
        Option.map_some, Option.some.injEq] at hbare
      cases r
      case profile p =>
        obtain ⟨attrs, hattrs⟩ := asked p rfl
        obtain rfl : kind = .profile := rkind.symm
        obtain rfl : .poolProfiles = R := Option.some.inj home
        exact .inl ⟨Bool.eq_false_iff.2 fun hc => new.new (hs.wired.handed.issued hc),
          new.suits hs hm' unlinked owner hattrs joined h⟩
      all_goals cases hbare
    · have hget := (new.get k).trans (if_neg hkj)
      have howner := Store.Apart.attach (Store.apart_ownerOf? fun e => hkj e.2 :
        Store.Apart (fun s => s.ownerOf? .poolProfiles k) R o j) t
      rw [joined] at howner
      exact .inr (hm'.carried_of_same hs h
        ((Store.termsAt_congr hbare).trans (Store.termsAt_congr (Store.bareAt_of_get? hget)))
        (howner.trans (Store.ownerOf?_of_get? hget)))
  | change buildable countable permitted planned made =>
    exact .inr (Change.carried hs buildable countable permitted made hm' h)
  | @threshold j o p q threshold profile pool owner mode =>
    refine .inr ?_
    by_cases hkj : k = j
    · subst hkj
      have hp' := h.1
      rw [Store.profile?, Store.get?_edit, if_pos rfl, Store.profile?_eq_some.1 profile] at hp'
      exact hm'.carried_of_threshold hs h profile pool owner mode (Option.some.inj hp').symm
    · refine hm'.carried_of_get? hs h ?_
      rw [Store.get?_edit, if_neg hkj]
  | @poolGone j t live kind unused gone =>
    have hkj : k ≠ j := h.ne (by rw [Store.profile?, gone.get, if_pos rfl]; rfl)
    exact .inr (hm'.carried_of_get? hs h ((gone.get k).trans (if_neg hkj)))
  | @profileGone j o u t figures live kind unused left gone planned =>
    have hkj : k ≠ j := h.ne (by rw [Store.profile?_written, Store.profile?, gone.get, if_pos rfl]; rfl)
    have hget := (gone.get k).trans (if_neg hkj)
    have hbare := (Store.steady_detach .poolProfiles o j s).2 k
    have howner := Store.Apart.detach (Store.apart_ownerOf? fun e => hkj e.2 :
      Store.Apart (fun s => s.ownerOf? .poolProfiles k) .poolProfiles o j) s
    rw [left] at hbare howner
    exact .inr (hm'.carried_of_same hs h
      ((Store.termsAt_written ..).trans ((Store.termsAt_congr (Store.bareAt_of_get? hget)).trans
        (Store.termsAt_congr hbare)))
      ((Store.ownerOf?_written ..).trans ((Store.ownerOf?_of_get? hget).trans howner)))

end

/-! ## Runs -/

/-- the terms of all profiles are those of their pools -/
def Store.Suited (s : Store Record) : Prop := ∀ k p q, s.Housed k p q → p.Suits q

/-- what lasts as long as its object: directions and modes of pools, modes and effective modes of profiles -/
structure Lasting (s t : Store Record) : Prop where
  pools : ∀ k q q', s.pool? k = some q → t.pool? k = some q' → q'.regime = q.regime
  profiles : ∀ k p q p' q', s.Housed k p q → t.Housed k p' q' →
    p'.mode = p.mode ∧ p'.mode.effective q'.mode = p.mode.effective q.mode

section

variable {hw : Hardware} {s t : Store Record} {L : Layout}

theorem Moves.suited (hm : Moves hw s t) (h : s.Suited) : t.Suited := by
  refine hm.keeps (I := Store.Suited) (fun s t L hs hm h k p' q' hk => ?_) h
  rcases hm.carried hs hk with ⟨-, hsuits⟩ | ⟨p, q, hk', hcarried⟩
  · exact hsuits
  · exact hcarried.suits (h k p q hk')

/-- **Directions and modes last**: what is live at both ends of a run was live all the time, since handles do not come
back. -/
theorem Moves.lasting (hs : Sound hw s L) (hm : Moves hw s t) : Lasting s t := by
  have hboth := hm.keeps (I := fun t => Onward s t ∧ Lasting s t) (fun t u L' ht hmove h => ?_) ⟨.refl s, ?_⟩
  · exact hboth.2
  · obtain ⟨honward, hlast⟩ := h
    have hlive : ∀ k, s.contains k = true → u.contains k = true → t.contains k = true := fun k hk hu =>
      (hmove.onward.new k hu).resolve_right fun hnew => hnew (honward.issued k (hs.wired.handed.issued hk))
    refine ⟨honward.trans hmove.onward, fun k q q' hq hq' => ?_, fun k p q p' q' hk hk' => ?_⟩
    · have hc := hlive k (Store.contains_of_pool? hq) (Store.contains_of_pool? hq')
      obtain ⟨r, hr⟩ := ht.wired.exists_pool hc (hs.wired.kind_of_pool? hq)
      exact (hmove.regime_eq ht hr hq').trans (hlast.pools k q r hq hr)
    · have hc := hlive k (Store.contains_of_profile? hk.1) (Store.contains_of_profile? hk'.1)
      rcases hmove.carried ht hk' with ⟨hnew, -⟩ | ⟨p₁, q₁, hk₁, hcarried⟩
      · rw [hc] at hnew
        cases hnew
      · obtain ⟨hmode, heffective⟩ := hlast.profiles k p q p₁ q₁ hk hk₁
        exact ⟨hcarried.mode.trans hmode, hcarried.effective.trans heffective⟩
  · refine ⟨fun k q q' hq hq' => ?_, fun k p q p' q' hk hk' => ?_⟩
    · obtain rfl := Option.some.inj (hq.symm.trans hq')
      rfl
    · obtain ⟨hp, o, ho, hq⟩ := hk
      obtain ⟨hp', o', ho', hq'⟩ := hk'
      obtain rfl := Option.some.inj (hp.symm.trans hp')
      obtain rfl := Option.some.inj (ho.symm.trans ho')
      obtain rfl := Option.some.inj (hq.symm.trans hq')
      exact ⟨rfl, rfl⟩

end

theorem Manager.Reached.suited {hw : Hardware} {m : Manager} (hm : m.Reached hw) : m.store.Suited := by
  obtain ⟨watched, acts, rfl⟩ := hm
  refine ((isSound_start _ watched).moves_live acts).2.suited fun k p q hk => ?_
  cases hk.1

/-- **Thresholds and headroom suit the pool.** Whatever is reached, every live profile belongs to a live pool; its
threshold is of the mode that counts for it there, and in an egress pool it has no headroom. Whatever happens next, a
profile that stays keeps its own mode and the effective one, and a pool that stays keeps its direction and its mode. -/
theorem reached_suited {hw : Hardware} {m : Manager} (hm : m.Reached hw) :
    (∀ k p, m.store.profile? k = some p → ∃ o q, p.pool? = some o ∧ m.store.pool? o = some q ∧
      p.threshold.mode = p.mode.effective q.mode ∧ (q.direction = .egress → p.xoff = 0 ∧ p.xon = 0)) ∧
      ∀ acts : List Act,
        (∀ k q q', m.store.pool? k = some q → (m.live acts).store.pool? k = some q' →
          q'.direction = q.direction ∧ q'.mode = q.mode) ∧
          ∀ k p q p' q', m.store.Housed k p q → (m.live acts).store.Housed k p' q' →
            p'.mode = p.mode ∧ p'.mode.effective q'.mode = p.mode.effective q.mode := by
  have hsuited := hm.suited
  obtain ⟨rfl, L, hs⟩ := hm.sound
  refine ⟨fun k p hp => ?_, fun acts => ?_⟩
  · obtain ⟨o, -, hin, ho, hok⟩ := hs.wired.exists_poolOf (Store.contains_of_profile? hp) (hs.wired.kind_of_profile? hp)
    obtain ⟨q, hq⟩ := hs.wired.exists_pool ho hok
    have hpool := (hs.wired.mem_poolProfiles_iff hp).1 hin
    have hsuits := hsuited k p q ⟨hp, o, hpool, hq⟩
    exact ⟨o, q, hpool, hq, hsuits.threshold, hsuits.headroom⟩
  · have hsound : m.IsSound m.hardware := ⟨rfl, L, hs⟩
    have hlast := (hsound.moves_live acts).2.lasting hs
    exact ⟨fun k q q' hq hq' => ⟨congrArg Prod.fst (hlast.pools k q q' hq hq'),
      congrArg Prod.snd (hlast.pools k q q' hq hq')⟩, hlast.profiles⟩

/-- a profile of its own static mode takes its threshold along from a dynamic pool to a static one -/
theorem moved_suited :
    let pool (i : UInt32) : PoolId := ⟨(Key.make .pool 0 i).id⟩
    let profile : ProfileId := ⟨(Key.make .profile 0 0).id⟩
    let m := (start {} false).live ([.createPool .ingress 10000 none, .createPool .ingress 10000 (some .static),
      .createProfile { pool := pool 0, size := 1000, mode := .static, threshold := .static 500 }].map .call)
    let acts := [.call (.setProfileAttribute profile .poolId (.oid (pool 1).raw))]
    ∃ p q p' q', m.store.Housed profile.key p q ∧ (m.live acts).store.Housed profile.key p' q' ∧
      q.mode = .dynamic ∧ q'.mode = .static ∧ p.threshold.mode = p.mode.effective q.mode ∧
        p'.mode.effective q'.mode = p.mode.effective q.mode := by
  intro pool profile m acts
  have hhoused : ∀ (s : Store Record) (mode), ((s.profile? profile.key).bind fun p =>
      (p.pool?.bind s.pool?).map Pool.mode) = some mode →
      ∃ p q, s.Housed profile.key p q ∧ q.mode = mode := by
    intro s mode h
    obtain ⟨p, hp, h⟩ := Option.bind_eq_some_iff.1 h
    obtain ⟨q, hq, rfl⟩ := Option.map_eq_some_iff.1 h
    obtain ⟨o, ho, hq⟩ := Option.bind_eq_some_iff.1 hq
    exact ⟨p, q, ⟨hp, o, ho, hq⟩, rfl⟩
  obtain ⟨p, q, hk, hdynamic⟩ := hhoused m.store .dynamic (by decide +kernel)
  obtain ⟨p', q', hk', hstatic⟩ := hhoused (m.live acts).store .static (by decide +kernel)
  obtain ⟨hterms, hlasting⟩ := reached_suited (m := m) ⟨false, _, rfl⟩
  obtain ⟨o, q₁, hpool, hq₁, hthreshold, -⟩ := hterms _ p hk.1
  obtain ⟨-, o', ho', hq⟩ := id hk
  obtain rfl := Option.some.inj (hpool.symm.trans ho')
  obtain rfl := Option.some.inj (hq₁.symm.trans hq)
  exact ⟨p, q₁, p', q', hk, hk', hdynamic, hstatic, hthreshold, ((hlasting acts).2 _ p q₁ p' q' hk hk').2⟩

end SharedBuffer
