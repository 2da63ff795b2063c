/-
Evaluating a change before it is made, and deriving the figures after it is made.

`Change.apply` makes the structural part of a change and nothing else: it moves a member from list to list, or
overwrites a field. What it leaves answers every look-up of an evaluation as the evaluation with the change laid over
the old store did (`Change.Applied`), so the two derive the same figures, to the last refusal.

Results:
- `Change.apply_run`: a change of objects that are there can be made, and keeps the store wired;
- `Change.Applied.totals_eq`: figures derived afterwards are those evaluated before.
-/
import SharedBuffer.Proofs.Accounting.Views
import SharedBuffer.Proofs.Lists.Tight

namespace SharedBuffer

/-- the figures stored in a pool -/
def Pool.totals (p : Pool) : Totals := ⟨p.sharedSize, p.tileReserved, p.tilesTotalReserved⟩

namespace Record

/-- the record without its lists, its places in lists, its count, its figures and its threshold: what figures are
derived from -/
def core : Record → Record
  | pool p =>
    pool { p with sharedSize := 0, tileReserved := [], tilesTotalReserved := 0, profiles := {}, refCount := 0 }
  | profile p => profile { p with threshold := .dynamic 0, poolLink := none, consumers := {}, refCount := 0 }
  | r => r.bare

theorem core_bare (r : Record) : r.bare.core = r.core := by cases r <;> rfl

end Record

namespace Store

/-- the core of the record under a key -/
def coreAt (s : Store Record) (k : Key) : Option Record := (s.get? k).map Record.core

theorem coreAt_eq (s : Store Record) (k : Key) : s.coreAt k = (s.bareAt k).map Record.core := by
  unfold coreAt bareAt
  cases s.get? k with
  | none => rfl
  | some r => simp [Record.core_bare]

theorem contains_eq_coreAt {s : Store Record} {k : Key} : s.contains k = (s.coreAt k).isSome := by
  unfold coreAt
  rw [Option.isSome_map]
  rfl

/-- the port that a priority group or queue belongs to -/
def parentOf? (s : Store Record) (k : Key) : Option Key := (s.get? k).bind Record.parentPort?

theorem parentOf?_eq (s : Store Record) (k : Key) :
    s.parentOf? k = (s.ownerOf? .portPriorityGroups k).or (s.ownerOf? .portQueues k) := by
  unfold parentOf? ownerOf?
  cases s.get? k with
  | none => rfl
  | some r => exact r.parentPort?_eq

theorem tileOf_eq (s : Store Record) (k : Key) : s.tileOf k =
    ((s.port? k).map Port.tile).getD (((s.parentOf? k).bind fun o => (s.port? o).map Port.tile).getD 0) := by
  unfold tileOf portOf? port? parentOf?
  cases s.get? k with
  | none => rfl
  | some r =>
    cases r
    case port p => rfl
    all_goals
      simp only [Option.bind_some, Record.asPort?, Option.map_none, Option.getD_none]
      cases Record.parentPort? _ with
      | none => rfl
      | some o =>
        simp only [Option.bind_some]
        cases (s.get? o).bind Record.asPort? <;> rfl

/-- a consumer stays on its tile where it stays with its port, and ports keep theirs -/
theorem tileOf_of_ports {s t : Store Record} {k : Key}
    (hport : ∀ o, (t.port? o).map Port.tile = (s.port? o).map Port.tile)
    (howner : ∀ R, R.ownerKind = .port → t.ownerOf? R k = s.ownerOf? R k) : t.tileOf k = s.tileOf k := by
  have hparent : t.parentOf? k = s.parentOf? k := by rw [parentOf?_eq, parentOf?_eq, howner _ rfl, howner _ rfl]
  rw [tileOf_eq, tileOf_eq, hparent]
  simp only [hport]

/-- the pools of `t` are pools of `s` with the same figures -/
def KeepsTotals (s t : Store Record) : Prop :=
  ∀ k p, t.pool? k = some p → ∃ p', s.pool? k = some p' ∧ p.totals = p'.totals

theorem keepsTotals_of_bareAt {s t : Store Record} (h : ∀ k p, t.pool? k = some p → t.bareAt k = s.bareAt k) :
    KeepsTotals s t := by
  intro k p hp
  have hb := h k p hp
  rw [bareAt, bareAt, pool?_eq_some.1 hp, Option.map_some, eq_comm, Option.map_eq_some_iff] at hb
  obtain ⟨r', hr', hbare⟩ := hb
  cases r'
  case pool p' =>
    refine ⟨p', pool?_eq_some.2 hr', ?_⟩
    simp only [Record.bare, Record.pool.injEq, Pool.mk.injEq] at hbare
    simp [Pool.totals, hbare]
  all_goals simp [Record.bare] at hbare

theorem keepsTotals_edit (s : Store Record) (k : Key) {f : Record → Record}
    (hf : ∀ r, (f r).asPool?.map Pool.totals = r.asPool?.map Pool.totals) : KeepsTotals s (s.edit k f) := by
  intro j p hp
  obtain ⟨r, hr, hrp⟩ := Option.bind_eq_some_iff.1 hp
  rw [get?_edit] at hr
  split at hr
  · obtain ⟨q, hq, rfl⟩ := Option.map_eq_some_iff.1 hr
    have := hf q
    rw [hrp, Option.map_some, eq_comm, Option.map_eq_some_iff] at this
    obtain ⟨p', hp', htot⟩ := this
    exact ⟨p', by rw [pool?, hq]; exact hp', htot.symm⟩
  · exact ⟨p, by rw [pool?, hr]; exact hrp, rfl⟩

end Store

namespace Change

/-- makes the structural part of a change -/
def apply : Change → LinkM Unit
  | .bind consumer target => Store.relink .profileConsumers consumer target
  | .profileSize profile size => .ofStore (Store.modify profile (Record.mapProfile fun p => { p with size }))
  | .profileHeadroom profile xoff xon =>
    .ofStore (Store.modify profile (Record.mapProfile fun p => { p with xoff, xon }))
  | .profilePool profile pool => Store.relink .poolProfiles profile (some pool)
  | .poolSize pool size => .ofStore (Store.modify pool (Record.mapPool fun p => { p with size }))
  | .recompute _ => pure ()

/-- a record after a change of contents -/
def rewrite (c : Change) (k : Key) (r : Record) : Record := (r.mapPool (c.resize k)).mapProfile (c.recharge k)

/-- `t` is `s` with the contents that a change gives, and the same lists of ports -/
structure Applied (c : Change) (s t : Store Record) : Prop where
  core : ∀ k, t.coreAt k = (s.coreAt k).map (c.rewrite k)
  ports : ∀ R x, R.ownerKind = .port → t.linkAt R x = s.linkAt R x

variable {c : Change} {s t : Store Record} {L : Layout} {hw hw' : Hardware} {k : Key}

theorem rewrite_eq_self (hs : ∀ k p, c.resize k p = p) (hc : ∀ k p, c.recharge k p = p) (r : Record) :
    c.rewrite k r = r := by
  cases r <;> simp [rewrite, Record.mapPool, Record.mapProfile, hs, hc]

theorem relayout_bind (consumer : Key) (target : Option Key) :
    (Change.bind consumer target).relayout L = L.relink .profileConsumers consumer target := by
  funext R o
  cases R <;> rfl

theorem relayout_profilePool (profile pool : Key) :
    (Change.profilePool profile pool).relayout L = L.relink .poolProfiles profile (some pool) := by
  funext R o
  cases R <;> simp [relayout, relist, Layout.relink]

/-! ## Look-ups after the change -/

theorem rewrite_recompute (j k : Key) (r : Record) : (recompute j).rewrite k r = r :=
  rewrite_eq_self (fun _ _ => rfl) (fun _ _ => rfl) r

section

variable (h : t.coreAt k = (s.coreAt k).map (c.rewrite k))

include h

theorem get?_of_core {r : Record} (hr : s.get? k = some r) :
    ∃ r', t.get? k = some r' ∧ r'.core = c.rewrite k r.core := by
  rw [Store.coreAt, Store.coreAt, hr] at h
  exact Option.map_eq_some_iff.1 h

/-- a pool after the change -/
theorem pool?_of_core {p : Pool} (hp : s.pool? k = some p) :
    ∃ p', t.pool? k = some p' ∧ p'.size = (c.resize k p).size ∧ p'.direction = p.direction := by
  obtain ⟨r', hr', hcore⟩ := get?_of_core h (Store.pool?_eq_some.1 hp)
  cases r'
  case pool p' =>
    refine ⟨p', Store.pool?_eq_some.2 hr', ?_⟩
    simp only [rewrite, Record.core, Record.mapPool, Record.mapProfile, Record.pool.injEq] at hcore
    have hsize := congrArg Pool.size hcore
    have hdir := congrArg Pool.direction hcore
    cases c
    case poolSize changed size =>
      by_cases hk : changed = k <;> simp_all [resize]
    all_goals exact ⟨hsize, hdir⟩
  all_goals simp [rewrite, Record.core, Record.bare, Record.mapPool, Record.mapProfile] at hcore

/-- a profile after the change -/
theorem profile?_of_core {p : Profile} (hp : s.profile? k = some p) :
    ∃ p', t.profile? k = some p' ∧ p'.size = (c.recharge k p).size ∧ p'.headroom = (c.recharge k p).headroom := by
  obtain ⟨r', hr', hcore⟩ := get?_of_core h (Store.profile?_eq_some.1 hp)
  cases r'
  case profile p' =>
    refine ⟨p', Store.profile?_eq_some.2 hr', ?_⟩
    simp only [rewrite, Record.core, Record.mapPool, Record.mapProfile, Record.profile.injEq] at hcore
    have hsize := congrArg Profile.size hcore
    have hhead := congrArg Profile.headroom hcore
    cases c
    case profileSize changed size =>
      by_cases hk : changed = k <;> simp_all [recharge, Profile.headroom]
    case profileHeadroom changed xoff xon =>
      by_cases hk : changed = k <;> simp_all [recharge, Profile.headroom]
    all_goals exact ⟨hsize, hhead⟩
  all_goals simp [rewrite, Record.core, Record.bare, Record.mapPool, Record.mapProfile] at hcore

/-- no change moves a port to another tile -/
theorem port?_of_core : (t.port? k).map Port.tile = (s.port? k).map Port.tile := by
  have hview : ∀ u : Store Record, (u.port? k).map Port.tile = ((u.coreAt k).bind Record.asPort?).map Port.tile := by
    intro u
    unfold Store.port? Store.coreAt
    cases u.get? k with
    | none => rfl
    | some r => cases r <;> rfl
  rw [hview, hview, h]
  cases s.coreAt k with
  | none => rfl
  | some r => cases r <;> rfl

end

namespace Applied

theorem contains (h : c.Applied s t) : t.contains k = s.contains k := by
  rw [Store.contains_eq_coreAt, Store.contains_eq_coreAt, h.core, Option.isSome_map]

theorem tileOf (h : c.Applied s t) : t.tileOf k = s.tileOf k := by
  refine Store.tileOf_of_ports (fun o => port?_of_core (h.core o)) fun R hR => ?_
  rw [Store.ownerOf?_eq, Store.ownerOf?_eq, h.ports R k hR]

/-- what a profile holds after the change -/
theorem holding (h : c.Applied s t) (j : Key) {p : Profile} (hp : s.profile? k = some p) :
    t.holding (.recompute j) (c.relayout L) k = s.holding c L k := by
  obtain ⟨p', hp', hsize, hhead⟩ := profile?_of_core (h.core k) hp
  simp only [Store.holding, hp, hp', recharge, hsize, hhead, Holding.mk.injEq, true_and]
  exact List.map_congr_left fun x _ => h.tileOf

/-- what the profiles of a pool hold after the change -/
theorem holdings (h : c.Applied s t) (w : Wired hw s L none) (hb : c.Buildable s) (k : Key) :
    t.holdings (.recompute k) (c.relayout L) k = s.holdings c L k := by
  refine List.map_congr_left fun q hq => ?_
  obtain ⟨hqc, hqk⟩ := w.takes_of_mem_relayout hb hq
  obtain ⟨p, hp⟩ := w.exists_profile hqc (Roster.eq_profile_of_takes hqk)
  exact h.holding k hp

/-- **Figures derived after a change are those evaluated before it.** -/
theorem totals_eq (h : c.Applied s t) (w : Wired hw s L none) (w' : Wired hw t (c.relayout L) none)
    (hb : c.Buildable s) (hk : s.contains k = true ∧ k.kind = .pool) :
    Accounting.totals hw' t (.recompute k) k = Accounting.totals hw' s c k := by
  obtain ⟨p, hp⟩ := w.exists_pool hk.1 hk.2
  obtain ⟨p', hp', hsize, hdir⟩ := pool?_of_core (h.core k) hp
  rw [w.totals_eq hb hw' hp, w'.totals_eq (c := .recompute k) (by simpa [Buildable, h.contains] using hk) hw' hp', hdir,
    h.holdings w hb]
  exact congrArg (fun n => Accounting.figure hw' k n p.direction (s.holdings c L k)) hsize

end Applied

/-! ## Making the change -/

theorem applied_of_frame {R : Roster} (h : Frame R s t) (hR : R.ownerKind ≠ .port)
    (hs : ∀ k p, c.resize k p = p) (hc : ∀ k p, c.recharge k p = p) : c.Applied s t := by
  refine ⟨fun k => ?_, fun R' x hR' => h.link fun e => hR (e ▸ hR')⟩
  rw [Store.coreAt_eq, h.bare, ← Store.coreAt_eq, funext (rewrite_eq_self hs hc)]
  exact Option.map_id'.symm

theorem applied_edit {f : Record → Record} (hf : Record.KeepsWiring f) (hat : ∀ r, (f r).core = c.rewrite k r.core)
    (hother : ∀ j r, j ≠ k → c.rewrite j r = r) : c.Applied s (s.edit k f) := by
  refine ⟨fun j => ?_, fun R x _ => Store.linkAt_edit fun r => hf.link r R⟩
  unfold Store.coreAt
  rw [Store.get?_edit]
  by_cases hj : j = k
  · subst hj
    cases s.get? j <;> simp [hat]
  · cases s.get? j <;> simp [hj, hother]

end Change

namespace Record

theorem keepsWiring_mapPool {f : Pool → Pool} (hl : ∀ p, (f p).profiles = p.profiles)
    (hr : ∀ p, (f p).refCount = p.refCount) : KeepsWiring (mapPool f) := by
  refine ⟨fun r => ?_, fun r R => ?_, fun r R => ?_, fun r => ?_, fun p => rfl⟩ <;> cases r <;>
    simp [mapPool, kind, head?, link?, refCount, hl, hr]

theorem keepsWiring_mapProfile {f : Profile → Profile} (hl : ∀ p, (f p).consumers = p.consumers)
    (hp : ∀ p, (f p).poolLink = p.poolLink) (hr : ∀ p, (f p).refCount = p.refCount) :
    KeepsWiring (mapProfile f) := by
  refine ⟨fun r => ?_, fun r R => ?_, fun r R => ?_, fun r => ?_, fun p => rfl⟩ <;> cases r <;>
    simp [mapProfile, kind, head?, link?, refCount, hl, hp, hr]

end Record

namespace Change

/-- a consumer that is to be bound is counted where it is bound now -/
def Countable (s : Store Record) : Change → Prop
  | .bind consumer _ => ¬ s.Uncounted consumer
  | _ => True

/-- a change of one record's contents -/
theorem apply_run_edit {c : Change} {s : Store Record} {L : Layout} {hw : Hardware} (w : Wired hw s L none) {k : Key}
    {f : Record → Record} (hf : Record.KeepsWiring f) (hk : s.contains k = true)
    (happly : c.apply = .ofStore (Store.modify k f)) (hL : c.relayout L = L)
    (hat : ∀ r, (f r).core = c.rewrite k r.core) (hother : ∀ j r, j ≠ k → c.rewrite j r = r)
    (htot : ∀ r, (f r).asPool?.map Pool.totals = r.asPool?.map Pool.totals) :
    ∃ t, c.apply.run s = (.ok (), t) ∧ Wired hw t (c.relayout L) none ∧ c.Applied s t ∧ Store.KeepsTotals s t ∧
      (Tight s L → Fits t (c.relayout L) → Tight t (c.relayout L)) := by
  refine ⟨s.edit k f, ?_, hL.symm ▸ w.edit hf, applied_edit hf hat hother, Store.keepsTotals_edit s k htot,
    fun ht _ => ht.congr (fun j _ => Store.contains_edit s k j f) (fun j _ => Store.refsAt_edit hf.refs)
      fun j => by rw [hL]⟩
  rw [happly, Store.ofStore_modify_run hk]

/-- **A change of objects that are there can be made**, if its consumer is counted where it is. -/
theorem apply_run {c : Change} {s : Store Record} {L : Layout} {hw : Hardware} (w : Wired hw s L none)
    (hb : c.Buildable s) (hn : c.Countable s) :
    ∃ t, c.apply.run s = (.ok (), t) ∧ Wired hw t (c.relayout L) none ∧ c.Applied s t ∧ Store.KeepsTotals s t ∧
      (Tight s L → Fits t (c.relayout L) → Tight t (c.relayout L)) := by
  cases c with
  | bind consumer target =>
    obtain ⟨⟨hc, hk⟩, htarget⟩ := hb
    obtain ⟨t, hrun, hf, hwt, hrefs⟩ := w.relink_run hc hk (fun o hm => w.bound_of_counted hn hm) htarget (by
      intro hhome
      cases hkind : consumer.kind <;> simp [hkind, ObjectKind.home?] at hhome)
    refine ⟨t, hrun, ?_, applied_of_frame hf (by decide) (fun _ _ => rfl) fun _ _ => rfl,
      Store.keepsTotals_of_bareAt fun k _ _ => hf.bare k, fun ht hfit => ?_⟩
    · rwa [relayout_bind]
    · rw [relayout_bind] at hfit ⊢
      exact ht.relink w htarget hf.contains hrefs hfit
  | profileSize profile size =>
    refine apply_run_edit w (f := Record.mapProfile fun p => { p with size })
      (Record.keepsWiring_mapProfile (fun _ => rfl) (fun _ => rfl) fun _ => rfl) hb.1 rfl rfl
      (fun r => ?_) (fun j r hj => ?_) fun r => by cases r <;> rfl
    · cases r <;> simp [rewrite, Record.mapPool, Record.mapProfile, Record.core, Record.bare, resize, recharge]
    · cases r <;> simp [rewrite, Record.mapPool, Record.mapProfile, resize, recharge, Ne.symm hj]
  | profileHeadroom profile xoff xon =>
    refine apply_run_edit w (f := Record.mapProfile fun p => { p with xoff, xon })
      (Record.keepsWiring_mapProfile (fun _ => rfl) (fun _ => rfl) fun _ => rfl) hb.1 rfl rfl
      (fun r => ?_) (fun j r hj => ?_) fun r => by cases r <;> rfl
    · cases r <;> simp [rewrite, Record.mapPool, Record.mapProfile, Record.core, Record.bare, resize, recharge]
    · cases r <;> simp [rewrite, Record.mapPool, Record.mapProfile, resize, recharge, Ne.symm hj]
  | profilePool profile pool =>
    obtain ⟨⟨hc, hk⟩, hpool⟩ := hb
    have htarget : ∀ o, some pool = some o → s.contains o = true ∧ o.kind = .pool := by
      rintro _ ⟨⟩
      exact hpool
    obtain ⟨t, hrun, hf, hwt, hrefs⟩ :=
      w.relink_run (R := .poolProfiles) hc (by rw [hk]; rfl) (fun o hm => w.pool_of_mem hm) htarget (by simp)
    refine ⟨t, hrun, ?_, applied_of_frame hf (by decide) (fun _ _ => rfl) fun _ _ => rfl,
      Store.keepsTotals_of_bareAt fun k _ _ => hf.bare k, fun ht _ => ?_⟩
    · rwa [relayout_profilePool]
    · refine ht.congr (fun k _ => hf.contains k) (fun k hkp => ?_) fun k => ?_
      swap
      · simp [relayout_profilePool, Layout.relink]
      have hne : some pool ≠ some k := by
        intro e
        rw [← Option.some.inj e, hpool.2] at hkp
        cases hkp
      have hout : profile ∉ L .poolProfiles k := by
        intro hm
        rw [(w.pool_of_mem hm).2.1] at hkp
        cases hkp
      rw [hrefs, if_neg hne, if_neg hout]
  | poolSize pool size =>
    refine apply_run_edit w (f := Record.mapPool fun p => { p with size })
      (Record.keepsWiring_mapPool (fun _ => rfl) fun _ => rfl) hb.1 rfl rfl (fun r => ?_) (fun j r hj => ?_)
      fun r => by cases r <;> rfl
    · cases r <;> simp [rewrite, Record.mapPool, Record.mapProfile, Record.core, Record.bare, resize, recharge]
    · cases r <;> simp [rewrite, Record.mapPool, Record.mapProfile, resize, recharge, Ne.symm hj]
  | recompute pool =>
    refine ⟨s, rfl, w, ⟨fun k => ?_, fun _ _ _ => rfl⟩, fun k p hp => ⟨p, hp, rfl⟩, fun ht _ => ht⟩
    rw [funext (rewrite_recompute pool k)]
    exact Option.map_id'.symm

end Change

end SharedBuffer
