/-
The moves that a store can make.

Whatever is asked of a manager, its store changes by moves of eight kinds: a new pool, a new port, a new record that
joins its home list, a planned change with its figures, another threshold, and a pool or a profile that goes. `Move`
says of each what was checked before and what is left after. Every request is a sequence of moves (`Moves`), and what
each kind of move keeps to is kept to by all requests.

Results:
- `Moves.keeps`: what every move from a sound store keeps is kept by sequences of moves;
- `Move.onward`: handles are issued once, so what is live after a move was live before or is new;
- `Move.regimeAt`: a pool that stays keeps its direction and its mode.
-/
import SharedBuffer.Manager.Request
import SharedBuffer.Proofs.Accounting.Contents
import SharedBuffer.Proofs.Accounting.Turnover

namespace SharedBuffer

/-- a manager of some hardware with a store, with nothing done and nobody listening -/
def Manager.over (hw : Hardware) (s : Store Record) : Manager := { hardware := hw, store := s }

/-- what a request makes sure of before it has a change planned -/
def Change.Permitted (hw : Hardware) (s : Store Record) : Change → Prop
  | .bind consumer target => ∀ profile, target = some profile → ∃ p pool q, s.profile? profile = some p ∧
      p.pool? = some pool ∧ s.pool? pool = some q ∧ q.direction.accepts consumer.kind = true
  | .profileHeadroom profile _ _ => ∃ p pool q, s.profile? profile = some p ∧ p.pool? = some pool ∧
      s.pool? pool = some q ∧ q.direction = .ingress
  | .profilePool profile target => ∃ p pool q q', s.profile? profile = some p ∧ p.pool? = some pool ∧
      s.pool? pool = some q ∧ s.pool? target = some q' ∧ q.direction = q'.direction ∧
      q'.mode = p.mode.effective q.mode
  | .poolSize pool size => ∃ p, s.pool? pool = some p ∧
      (Manager.over hw s).checkDirection p.direction (some pool) size = .ok ()
  | .profileSize _ _ | .recompute _ => True

/-- a pool that a profile may go to is there, and suits the profile -/
theorem Change.exists_pool_of_permitted {hw : Hardware} {s : Store Record} {k a b : Key} {p : Profile} {q : Pool}
    (hp : s.profile? k = some p) (ha : p.pool? = some a) (hq : s.pool? a = some q)
    (h : (Change.profilePool k b).Permitted hw s) :
    ∃ r, s.pool? b = some r ∧ q.direction = r.direction ∧ r.mode = p.mode.effective q.mode := by
  obtain ⟨p', a', q', r, hp', ha', hq', hr, hsuits⟩ := h
  obtain rfl := Option.some.inj (hp.symm.trans hp')
  obtain rfl := Option.some.inj (ha.symm.trans ha')
  obtain rfl := Option.some.inj (hq.symm.trans hq')
  exact ⟨r, hr, hsuits⟩

/-- what one accepted request makes of a store, or one part of bringing up a port -/
inductive Move (hw : Hardware) (s : Store Record) : Store Record → Prop where
  | newPool {k : Key} {r : PoolRequest} {t : Store Record}
    (room : (Manager.over hw s).checkDirection r.direction none r.size = .ok ())
    (new : Store.Inserted s t .pool k (.pool (Pool.fresh r.direction r.size r.mode hw.tileSlots))) : Move hw s t
  | newPort {k : Key} {n : UInt32} {t : Store Record} (free : (Manager.over hw s).findPort? n = none)
    (new : Store.Inserted s t .port k (.port { hardwareNumber := n, tile := hw.tileOf n })) : Move hw s t
  /-- a profile, priority group or queue comes with its place in the list of its owner -/
  | newMember {kind : ObjectKind} {R : Roster} {k o : Key} {r : Record} {t u : Store Record}
    (home : kind.home? = some R) (owner : s.contains o = true ∧ o.kind = R.ownerKind) (unlinked : r.Unlinked)
    (rkind : r.kind = kind)
    (asked : ∀ p, r = .profile p → ∃ attrs, (Manager.over hw s).profileOfAttributes attrs = .ok (o, p))
    (new : Store.Inserted s t kind k r) (joined : (Store.attach R o k).run t = (.ok (), u)) : Move hw s u
  | change {c : Change} {figures : List (Key × Totals)} {t : Store Record} (buildable : c.Buildable s)
    (countable : c.Countable s) (permitted : c.Permitted hw s) (planned : Accounting.plan hw s c = .ok figures)
    (made : c.apply.run s = (.ok (), t)) : Move hw s (t.written figures)
  | threshold {k o : Key} {p : Profile} {q : Pool} {threshold : Threshold} (profile : s.profile? k = some p)
    (pool : p.pool? = some o) (owner : s.pool? o = some q) (mode : threshold.mode = p.mode.effective q.mode) :
    Move hw s (s.edit k (Record.mapProfile fun p => { p with threshold }))
  | poolGone {k : Key} {t : Store Record} (live : s.contains k = true) (kind : k.kind = .pool)
    (unused : s.refsAt k = 0) (gone : Store.Retired s t k) : Move hw s t
  /-- the pool of a profile that goes is derived anew -/
  | profileGone {k o : Key} {u t : Store Record} {figures : List (Key × Totals)} (live : s.contains k = true)
    (kind : k.kind = .profile) (unused : s.refsAt k = 0) (left : (Store.detach .poolProfiles o k).run s = (.ok (), u))
    (gone : Store.Retired u t k) (planned : Accounting.plan hw t (.recompute o) = .ok figures) :
    Move hw s (t.written figures)

/-- one move after another, each from a sound store -/
def Moves (hw : Hardware) : Store Record → Store Record → Prop :=
  Relation.ReflTransGen fun s t => (∃ L, Sound hw s L) ∧ Move hw s t

namespace Moves

variable {hw : Hardware} {s t u : Store Record} {L : Layout}

theorem refl (s : Store Record) : Moves hw s s := Relation.ReflTransGen.refl

theorem single (h : Sound hw s L) (hm : Move hw s t) : Moves hw s t := Relation.ReflTransGen.single ⟨⟨L, h⟩, hm⟩

theorem trans (h : Moves hw s t) (h' : Moves hw t u) : Moves hw s u := Relation.ReflTransGen.trans h h'

/-- **What every move keeps is kept by moves.** -/
theorem keeps {I : Store Record → Prop} (hmove : ∀ s t L, Sound hw s L → Move hw s t → I s → I t) (h : Moves hw s t)
    (hs : I s) : I t := by
  induction h with
  | refl => exact hs
  | tail _ hstep ih =>
    obtain ⟨⟨L, hsound⟩, hm⟩ := hstep
    exact hmove _ _ L hsound hm ih

end Moves

/-! ## Handles -/

/-- what was issued stays issued, and what is live was live before or is new -/
structure Onward (s t : Store Record) : Prop where
  issued : ∀ k, s.Issued k → t.Issued k
  new : ∀ k, t.contains k = true → s.contains k = true ∨ ¬ s.Issued k

namespace Onward

variable {s t u : Store Record} {k : Key} {kind : ObjectKind} {r : Record}

theorem refl (s : Store Record) : Onward s s := ⟨fun _ h => h, fun _ h => .inl h⟩

theorem trans (h : Onward s t) (h' : Onward t u) : Onward s u := by
  refine ⟨fun k hk => h'.issued k (h.issued k hk), fun k hk => ?_⟩
  rcases h'.new k hk with ht | ht
  · exact h.new k ht
  · exact .inr fun hs => ht (h.issued k hs)

/-- the same keys under the same allocators -/
theorem of_contains (hc : ∀ k, t.contains k = s.contains k) (ha : t.allocators = s.allocators) : Onward s t :=
  ⟨fun _ hk => hk.congr hc ha, fun k hk => .inl (hc k ▸ hk)⟩

theorem of_inserted (h : Store.Inserted s t kind k r) : Onward s t := by
  refine ⟨h.issued, fun j hj => ?_⟩
  rw [h.contains] at hj
  by_cases hjk : j = k
  · exact .inr (hjk ▸ h.new)
  · exact .inl (by simpa [hjk] using hj)

theorem of_retired (h : Store.Retired s t k) : Onward s t := by
  refine ⟨h.issued, fun j hj => .inl ?_⟩
  rw [h.contains] at hj
  by_cases hjk : j = k
  · simp [hjk] at hj
  · simpa [hjk] using hj

theorem of_steady {α : Type} {x : LinkM α} (hx : x.Steady) {a : Except LinkError α} (h : x.run s = (a, t)) :
    Onward s t := by
  have hc := hx.contains s
  have ha := (hx s).1
  rw [h] at hc ha
  exact of_contains hc ha

theorem written (s : Store Record) (figures : List (Key × Totals)) : Onward s (s.written figures) :=
  of_contains (fun k => (Change.applied_written k s figures).contains) (s.allocators_written figures)

/-- the structural part of a change -/
theorem of_apply {c : Change} {a : Except LinkError Unit} (h : c.apply.run s = (a, t)) : Onward s t := by
  have hmodify : ∀ {k : Key} {f : Record → Record}, (LinkM.ofStore (Store.modify k f)).run s = (a, t) →
      Onward s t := by
    intro k f hrun
    by_cases hk : s.contains k = true
    · rw [Store.ofStore_modify_run hk, Prod.mk.injEq] at hrun
      rw [← hrun.2]
      exact of_contains (fun j => Store.contains_edit s k j f) rfl
    · rw [Store.ofStore_modify_absent (Bool.eq_false_iff.2 hk), Prod.mk.injEq] at hrun
      exact hrun.2 ▸ refl s
  cases c with
  | bind consumer target => exact of_steady (Store.steady_relink _ _ _) h
  | profilePool profile pool => exact of_steady (Store.steady_relink _ _ _) h
  | recompute pool => exact of_steady (LinkM.Steady.pure ()) h
  | profileSize | profileHeadroom | poolSize => exact hmodify h

end Onward

/-- **A move goes onward.** -/
theorem Move.onward {hw : Hardware} {s t : Store Record} (h : Move hw s t) : Onward s t := by
  cases h with
  | newPool room new => exact .of_inserted new
  | newPort free new => exact .of_inserted new
  | newMember home owner unlinked rkind asked new joined =>
    exact (Onward.of_inserted new).trans (.of_steady (Store.steady_attach _ _ _) joined)
  | change buildable countable permitted planned made => exact (Onward.of_apply made).trans (.written ..)
  | threshold profile pool owner mode => exact .of_contains (fun j => Store.contains_edit ..) rfl
  | poolGone live kind unused gone => exact .of_retired gone
  | profileGone live kind unused left gone planned =>
    exact ((Onward.of_steady (Store.steady_detach _ _ _) left).trans (.of_retired gone)).trans (.written ..)

theorem Moves.onward {hw : Hardware} {s t : Store Record} (h : Moves hw s t) : Onward s t :=
  h.keeps (I := Onward s) (fun _ _ _ _ hm hs => hs.trans hm.onward) (.refl s)

/-! ## Pools -/

section

variable {hw : Hardware} {s t : Store Record} {L : Layout} {k o : Key} {q q' : Pool}

/-- **No move changes the direction or the mode of a pool** that stays. -/
theorem Move.regimeAt (hs : Sound hw s L) (hm : Move hw s t) (hc : s.contains k = true) (hc' : t.contains k = true) :
    t.regimeAt k = s.regimeAt k := by
  have hput : ∀ {kind j r} {t : Store Record}, Store.Inserted s t kind j r → t.regimeAt k = s.regimeAt k :=
    fun hnew => Store.regimeAt_congr (Store.bareAt_of_get?
      ((hnew.get k).trans (if_neg (hnew.ne_of_contains hs.wired.handed hc))))
  cases hm with
  | newPool room new => exact hput new
  | newPort free new => exact hput new
  | @newMember kind R j o r t u home owner unlinked rkind asked new joined =>
    have hbare := (Store.steady_attach R o j t).2 k
    rw [joined] at hbare
    exact (Store.regimeAt_congr hbare).trans (hput new)
  | @change c figures t buildable countable permitted planned made =>
    rw [Store.regimeAt_written, Store.regimeAt_eq, Store.regimeAt_eq, Store.coreAt_eq, Store.coreAt_eq,
      Change.bareAt_apply made]
    rcases s.bareAt k with - | (p | _ | _ | _ | _)
    case some.pool =>
      cases c
      case poolSize changed size => by_cases hk : changed = k <;>
        simp [Change.rewrite, Change.resize, Record.mapPool, Record.mapProfile, Record.core, Record.asPool?,
          Pool.regime, hk]
      all_goals rfl
    all_goals rfl
  | @threshold j o p q threshold profile pool owner mode =>
    refine (Store.regimeAt_eq _ k).trans (Eq.trans ?_ (Store.regimeAt_eq s k).symm)
    rw [Store.coreAt, Store.coreAt, Store.get?_edit]
    split
    · rcases s.get? k with - | (_ | _ | _ | _ | _) <;> rfl
    · rfl
  | @poolGone j t live kind unused gone =>
    have hkj : k ≠ j := by
      rintro rfl
      simp [gone.contains] at hc'
    exact Store.regimeAt_congr (Store.bareAt_of_get? ((gone.get k).trans (if_neg hkj)))
  | @profileGone j o u t figures live kind unused left gone planned =>
    have hkj : k ≠ j := by
      rintro rfl
      rw [(Change.applied_written k t figures).contains] at hc'
      simp [gone.contains] at hc'
    have hbare := (Store.steady_detach .poolProfiles o j s).2 k
    rw [left] at hbare
    rw [Store.regimeAt_written]
    exact (Store.regimeAt_congr (Store.bareAt_of_get? ((gone.get k).trans (if_neg hkj)))).trans
      (Store.regimeAt_congr hbare)

/-- a pool that stays has the direction and the mode it had -/
theorem Move.regime_eq (hs : Sound hw s L) (hm : Move hw s t) (hq : s.pool? o = some q) (hq' : t.pool? o = some q') :
    q'.regime = q.regime := by
  have hregime := hm.regimeAt hs (Store.contains_of_pool? hq) (Store.contains_of_pool? hq')
  rw [Store.regimeAt, Store.regimeAt, hq, hq', Option.map_some, Option.map_some] at hregime
  exact Option.some.inj hregime

end

end SharedBuffer
