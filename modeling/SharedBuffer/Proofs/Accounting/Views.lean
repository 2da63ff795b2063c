/-
What an evaluation reads off a wired store.

`Accounting.totals` looks up pools, profiles, lists and tiles one by one, each look-up with a refusal of its own. In a
wired store none of them is refused for what hangs together, and what they answer comes from the layout with the change
laid over it: `Change.relist` for lists, `Change.recharge` for profiles, `Change.resize` for pools.

Result: `totals_eq`, the figures of a pool after a change are those of its holdings after the change.
-/
import SharedBuffer.Proofs.Accounting.Figures
import SharedBuffer.Proofs.Lists.Wired

namespace SharedBuffer

namespace Store

/-! ## Records by key -/

/-- the pool under a key -/
def pool? (s : Store Record) (k : Key) : Option Pool := (s.get? k).bind Record.asPool?

/-- the profile under a key -/
def profile? (s : Store Record) (k : Key) : Option Profile := (s.get? k).bind Record.asProfile?

/-- the port under a key -/
def port? (s : Store Record) (k : Key) : Option Port := (s.get? k).bind Record.asPort?

/-- the port a consumer draws through: itself if it is one, or the one it belongs to -/
def portOf? (s : Store Record) (consumer : Key) : Option Port :=
  (s.get? consumer).bind fun
    | .port p => some p
    | r => r.parentPort?.bind s.port?

/-- the tile of a consumer's port -/
def tileOf (s : Store Record) (consumer : Key) : UInt32 := (s.portOf? consumer).elim 0 Port.tile

variable {s t : Store Record} {k : Key}

theorem pool?_eq_some {p : Pool} : s.pool? k = some p ↔ s.get? k = some (.pool p) := by
  unfold pool?
  cases s.get? k with
  | none => simp
  | some r => cases r <;> simp [Record.asPool?]

theorem profile?_eq_some {p : Profile} : s.profile? k = some p ↔ s.get? k = some (.profile p) := by
  unfold profile?
  cases s.get? k with
  | none => simp
  | some r => cases r <;> simp [Record.asProfile?]

theorem port?_eq_some {p : Port} : s.port? k = some p ↔ s.get? k = some (.port p) := by
  unfold port?
  cases s.get? k with
  | none => simp
  | some r => cases r <;> simp [Record.asPort?]

theorem get?_of_require {r : Record} (h : s.require k = .ok r) : s.get? k = some r := by
  unfold require get at h
  cases hg : s.get? k with
  | none => rw [hg] at h; cases h
  | some r' => rw [hg] at h; cases h; rfl

theorem require_of_get? {r : Record} (h : s.get? k = some r) : s.require k = .ok r := by
  rw [require, get, h]
  rfl

theorem require_of_absent (h : s.contains k = false) : s.require k = .error (.notFound k.label) := by
  rw [require, get, get?_eq_none h]
  rfl

theorem poolAt_eq {p : Pool} (h : s.pool? k = some p) : s.poolAt k = .ok p := by
  simp only [poolAt, require, get, pool?_eq_some.1 h, Except.mapError, bind, Except.bind, Record.asPool?]

theorem profileAt_eq {p : Profile} (h : s.profile? k = some p) : s.profileAt k = .ok p := by
  simp only [profileAt, require, get, profile?_eq_some.1 h, Except.mapError, bind, Except.bind, Record.asProfile?]

theorem contains_of_pool? {p : Pool} (h : s.pool? k = some p) : s.contains k = true :=
  contains_iff.2 ⟨_, pool?_eq_some.1 h⟩

theorem contains_of_profile? {p : Profile} (h : s.profile? k = some p) : s.contains k = true :=
  contains_iff.2 ⟨_, profile?_eq_some.1 h⟩

theorem tileOfConsumer_eq {p : Port} (h : s.portOf? k = some p) : Accounting.tileOfConsumer s k = .ok p.tile := by
  unfold portOf? at h
  unfold Accounting.tileOfConsumer require get
  cases hg : s.get? k with
  | none => simp [hg] at h
  | some r =>
    rw [hg, Option.bind_some] at h
    cases r
    case port q =>
      obtain rfl : q = p := by simpa using h
      rfl
    all_goals
      simp only [Option.bind_eq_some_iff] at h
      obtain ⟨o, ho, hp⟩ := h
      simp only [Except.mapError, bind, Except.bind, ho, port?_eq_some.1 hp, Record.asPort?]

end Store

namespace Wired

variable {hw : Hardware} {s : Store Record} {L : Layout} {k o : Key}

theorem exists_pool {out : Option Key} (w : Wired hw s L out) (hc : s.contains k = true) (hk : k.kind = .pool) :
    ∃ p, s.pool? k = some p := by
  obtain ⟨r, hr⟩ := Store.contains_iff.1 hc
  have := w.kind_eq hr
  cases r
  case pool p => exact ⟨p, Store.pool?_eq_some.2 hr⟩
  all_goals rw [hk] at this; cases this

theorem exists_profile {out : Option Key} (w : Wired hw s L out) (hc : s.contains k = true) (hk : k.kind = .profile) :
    ∃ p, s.profile? k = some p := by
  obtain ⟨r, hr⟩ := Store.contains_iff.1 hc
  have := w.kind_eq hr
  cases r
  case profile p => exact ⟨p, Store.profile?_eq_some.2 hr⟩
  all_goals rw [hk] at this; cases this

theorem exists_profile_of_mem {out : Option Key} (w : Wired hw s L out) (hk : k ∈ L .poolProfiles o) :
    ∃ p, s.profile? k = some p := by
  obtain ⟨hc, htakes⟩ := w.takes_of_mem hk
  exact w.exists_profile hc (Roster.eq_profile_of_takes htakes)

theorem exists_port {out : Option Key} (w : Wired hw s L out) (hc : s.contains k = true) (hk : k.kind = .port) :
    ∃ p, s.port? k = some p := by
  obtain ⟨r, hr⟩ := Store.contains_iff.1 hc
  have := w.kind_eq hr
  cases r
  case port p => exact ⟨p, Store.port?_eq_some.2 hr⟩
  all_goals rw [hk] at this; cases this

theorem kind_of_pool? {out : Option Key} (w : Wired hw s L out) {p : Pool} (h : s.pool? k = some p) :
    k.kind = .pool := (w.kind_eq (Store.pool?_eq_some.1 h)).symm

theorem kind_of_profile? {out : Option Key} (w : Wired hw s L out) {p : Profile} (h : s.profile? k = some p) :
    k.kind = .profile := (w.kind_eq (Store.profile?_eq_some.1 h)).symm

/-- a member of a port's list draws through the port -/
theorem portOf?_of_mem {out : Option Key} (w : Wired hw s L out) {R : Roster} (hR : R.ownerKind = .port)
    (hm : k ∈ L R o) {p : Port} (hp : s.port? o = some p) : s.portOf? k = some p := by
  obtain ⟨l, hl, rfl⟩ := w.linked.owner_of_mem hm
  unfold Store.linkAt at hl
  unfold Store.portOf?
  cases hg : s.get? k with
  | none => simp [hg] at hl
  | some r =>
    rw [hg, Option.bind_some] at hl
    rw [Option.bind_some]
    cases r <;> cases R <;> simp_all [Record.link?, Roster.ownerKind, Record.parentPort?]

/-- every consumer draws through a port, on a tile that there is -/
theorem exists_portOf (w : Wired hw s L none) (hc : s.contains k = true)
    (hk : Roster.profileConsumers.takes k.kind = true) : ∃ p, s.portOf? k = some p ∧ p.tile ≤ hw.lastTile := by
  have htile : ∀ {o p}, s.port? o = some p → p.tile ≤ hw.lastTile := fun {o p} ho =>
    w.tiled o { p with priorityGroups := {}, queues := {}, profileLink := none, refCount := 0 }
      (by rw [Store.bareAt, Store.port?_eq_some.1 ho]; rfl)
  have hsub : ∀ {R}, k.kind.home? = some R → R.ownerKind = .port →
      ∃ p, s.portOf? k = some p ∧ p.tile ≤ hw.lastTile := by
    intro R hR hport
    obtain ⟨o, hm, ho, hok⟩ := w.home k R hc hR (by simp)
    obtain ⟨p, hp⟩ := w.exists_port ho (hok.trans hport)
    exact ⟨p, w.portOf?_of_mem hport hm hp, htile hp⟩
  cases hkind : k.kind
  case port =>
    obtain ⟨p, hp⟩ := w.exists_port hc hkind
    exact ⟨p, by rw [Store.portOf?, Store.port?_eq_some.1 hp]; rfl, htile hp⟩
  case priorityGroup => exact hsub (R := .portPriorityGroups) (by rw [hkind]; rfl) rfl
  case queue => exact hsub (R := .portQueues) (by rw [hkind]; rfl) rfl
  all_goals rw [hkind] at hk; cases hk

theorem tileOfConsumer_eq (w : Wired hw s L none) (hc : s.contains k = true)
    (hk : Roster.profileConsumers.takes k.kind = true) : Accounting.tileOfConsumer s k = .ok (s.tileOf k) := by
  obtain ⟨p, hp, -⟩ := w.exists_portOf hc hk
  rw [Store.tileOfConsumer_eq hp, Store.tileOf, hp]
  rfl

/-- a profile is in the list of the pool it names -/
theorem mem_poolProfiles_iff {out : Option Key} (w : Wired hw s L out) {p : Profile} (hp : s.profile? k = some p) :
    k ∈ L .poolProfiles o ↔ p.pool? = some o := by
  have hlink : s.linkAt .poolProfiles k = some p.poolLink := by
    rw [Store.linkAt, Store.profile?_eq_some.1 hp]
    rfl
  rw [w.linked.mem_iff, hlink, Profile.pool?, Option.map_eq_some_iff]
  simp

/-- the pool of a live profile, as it is looked up -/
theorem exists_poolOf (w : Wired hw s L none) (hc : s.contains k = true) (hk : k.kind = .profile) :
    ∃ o, Accounting.poolOf s k = .ok o ∧ k ∈ L .poolProfiles o ∧ s.contains o = true ∧ o.kind = .pool := by
  obtain ⟨o, hm, ho, hok⟩ := w.home k .poolProfiles hc (by rw [hk]; rfl) (by simp)
  obtain ⟨p, hp⟩ := w.exists_profile hc hk
  refine ⟨o, ?_, hm, ho, hok⟩
  have hpool := (w.mem_poolProfiles_iff hp).1 hm
  simp only [Accounting.poolOf, Store.require, Store.get, Store.profile?_eq_some.1 hp, Except.mapError, bind,
    Except.bind, Record.asProfile?, Option.bind_some, hpool]

end Wired

/-! ## The change laid over the store -/

namespace Change

/-- the members of a list after a change -/
def relist (c : Change) (R : Roster) (o : Key) (l : List Key) : List Key :=
  match c, R with
  | .bind consumer target, .profileConsumers =>
    l.filter (fun x => x ≠ consumer) ++ if target = some o then [consumer] else []
  | .profilePool profile target, .poolProfiles =>
    l.filter (fun x => x ≠ profile) ++ if target = o then [profile] else []
  | _, _ => l

/-- the layout after a change -/
def relayout (c : Change) (L : Layout) : Layout := fun R o => c.relist R o (L R o)

/-- a profile after a change -/
def recharge (c : Change) (k : Key) (p : Profile) : Profile :=
  match c with
  | .profileSize changed size => if changed = k then { p with size } else p
  | .profileHeadroom changed xoff xon => if changed = k then { p with xoff, xon } else p
  | _ => p

/-- a pool after a change -/
def resize (c : Change) (k : Key) (p : Pool) : Pool :=
  match c with
  | .poolSize changed size => if changed = k then { p with size } else p
  | _ => p

/-- a change of objects that are there -/
def Buildable (s : Store Record) : Change → Prop
  | .bind consumer target =>
    (s.contains consumer = true ∧ Roster.profileConsumers.takes consumer.kind = true) ∧
      ∀ profile, target = some profile → s.contains profile = true ∧ profile.kind = .profile
  | .profileSize profile _ | .profileHeadroom profile _ _ => s.contains profile = true ∧ profile.kind = .profile
  | .profilePool profile pool =>
    (s.contains profile = true ∧ profile.kind = .profile) ∧ s.contains pool = true ∧ pool.kind = .pool
  | .poolSize pool _ | .recompute pool => s.contains pool = true ∧ pool.kind = .pool

theorem Buildable.congr {s t : Store Record} {c : Change} (h : c.Buildable s)
    (hc : ∀ k, t.contains k = s.contains k) : c.Buildable t := by
  cases c <;> simpa only [Buildable, hc] using h

/-- a consumer that can be bound can be unbound -/
theorem Buildable.unbind {s : Store Record} {x : Key} {target : Option Key} (h : (bind x target).Buildable s) :
    (bind x none).Buildable s := ⟨h.1, fun _ hnone => nomatch hnone⟩

end Change

namespace Store

/-- what a profile holds after a change -/
def holding (s : Store Record) (c : Change) (L : Layout) (k : Key) : Holding :=
  match s.profile? k with
  | some p => ⟨(c.recharge k p).size, (c.recharge k p).headroom, (c.relayout L .profileConsumers k).map s.tileOf⟩
  | none => ⟨0, 0, []⟩

/-- what the profiles of a pool hold after a change -/
def holdings (s : Store Record) (c : Change) (L : Layout) (pool : Key) : List Holding :=
  (c.relayout L .poolProfiles pool).map (s.holding c L)

end Store

namespace Wired

open Accounting

variable {hw : Hardware} {s : Store Record} {L : Layout} {k : Key} {c : Change}

theorem poolSize_eq {p : Pool} (h : s.pool? k = some p) :
    Accounting.poolSize s c k = .ok ((c.resize k p).size, p.direction) := by
  simp only [Accounting.poolSize, Store.poolAt_eq h, bind, Except.bind, pure, Except.pure, Change.resize]
  cases c
  case poolSize changed size => by_cases hk : changed = k <;> simp [hk]
  all_goals rfl

theorem chargeOf_eq {p : Profile} (h : s.profile? k = some p) :
    Accounting.chargeOf s c k = .ok ((c.recharge k p).size, (c.recharge k p).headroom) := by
  simp only [Accounting.chargeOf, Store.profileAt_eq h, bind, Except.bind, pure, Except.pure, Change.recharge]
  cases c
  case profileSize changed size => by_cases hk : changed = k <;> simp [hk, Profile.headroom]
  case profileHeadroom changed xoff xon => by_cases hk : changed = k <;> simp [hk, Profile.headroom]
  all_goals rfl

theorem profilesOf_eq (w : Wired hw s L none) (hc : s.contains k = true) (hk : k.kind = .pool) :
    Accounting.profilesOf s c k = .ok (c.relayout L .poolProfiles k) := by
  rw [Accounting.profilesOf, w.requireMembers_eq (R := .poolProfiles) hc hk]
  cases c <;> rfl

theorem consumersOf_eq (w : Wired hw s L none) (hc : s.contains k = true) (hk : k.kind = .profile) :
    Accounting.consumersOf s c k = .ok (c.relayout L .profileConsumers k) := by
  rw [Accounting.consumersOf, w.requireMembers_eq (R := .profileConsumers) hc hk]
  cases c <;> rfl

/-- after a change, the members of a list are still of its kind -/
theorem takes_of_mem_relayout (w : Wired hw s L none) (hb : c.Buildable s) {R : Roster} {o m : Key}
    (hm : m ∈ c.relayout L R o) : s.contains m = true ∧ R.takes m.kind = true := by
  unfold Change.relayout Change.relist at hm
  split at hm
  · rcases List.mem_append.1 hm with hm | hm
    · exact w.takes_of_mem (List.mem_of_mem_filter hm)
    · split at hm
      · rw [List.mem_singleton.1 hm]
        exact hb.1
      · simp at hm
  · rcases List.mem_append.1 hm with hm | hm
    · exact w.takes_of_mem (List.mem_of_mem_filter hm)
    · split at hm
      · obtain ⟨⟨hp, hpk⟩, -⟩ := hb
        rw [List.mem_singleton.1 hm]
        exact ⟨hp, by rw [hpk]; rfl⟩
      · simp at hm
  · exact w.takes_of_mem hm

/-- the tiles of a profile's consumers after a change -/
theorem mapM_tileOfConsumer_eq (w : Wired hw s L none) (hb : c.Buildable s) (k : Key) :
    (c.relayout L .profileConsumers k).mapM (tileOfConsumer s) =
      .ok ((c.relayout L .profileConsumers k).map s.tileOf) := by
  have h : ∀ l : List Key, (∀ m ∈ l, s.contains m = true ∧ Roster.profileConsumers.takes m.kind = true) →
      l.mapM (tileOfConsumer s) = .ok (l.map s.tileOf) := by
    intro l hl
    induction l with
    | nil => rfl
    | cons m l ih =>
      obtain ⟨hm, hk⟩ := hl m (by simp)
      rw [List.mapM_cons, w.tileOfConsumer_eq hm hk, ih fun x hx => hl x (List.mem_cons_of_mem _ hx)]
      rfl
  exact h _ fun m hm => w.takes_of_mem_relayout hb hm

theorem reserveFlat_eq (w : Wired hw s L none) (pool : Key) {ks : List Key}
    (hks : ∀ k ∈ ks, s.contains k = true ∧ k.kind = .profile) (r : UInt64) :
    reserveFlat s c pool r ks = holdFlat pool r (ks.map (s.holding c L)) := by
  induction ks generalizing r with
  | nil => rfl
  | cons k ks ih =>
    obtain ⟨hc, hk⟩ := hks k (by simp)
    obtain ⟨p, hp⟩ := w.exists_profile hc hk
    have hrest := fun r => ih (fun k hk => hks k (List.mem_cons_of_mem _ hk)) r
    rw [reserveFlat, w.consumersOf_eq hc hk, List.map_cons, holdFlat, chargeOf_eq hp]
    simp only [bind, Except.bind, Store.holding, hp, List.isEmpty_map, hrest]

theorem reserveTiled_eq (w : Wired hw s L none) (hb : c.Buildable s) (pool : Key) (direction : Direction)
    {ks : List Key} (hks : ∀ k ∈ ks, s.contains k = true ∧ k.kind = .profile) (r : List UInt64) :
    reserveTiled s c pool direction r ks = holdTiled pool direction r (ks.map (s.holding c L)) := by
  induction ks generalizing r with
  | nil => rfl
  | cons k ks ih =>
    obtain ⟨hc, hk⟩ := hks k (by simp)
    obtain ⟨p, hp⟩ := w.exists_profile hc hk
    have hrest := fun r => ih (fun k hk => hks k (List.mem_cons_of_mem _ hk)) r
    rw [reserveTiled, w.consumersOf_eq hc hk, List.map_cons, holdTiled, chargeOf_eq hp]
    simp only [bind, Except.bind, Store.holding, hp, List.isEmpty_map, hrest, w.mapM_tileOfConsumer_eq hb,
      Holding.hits]

/-- **The figures of a pool after a change are those of its holdings.** -/
theorem totals_eq (w : Wired hw s L none) (hb : c.Buildable s) (hw' : Hardware) {p : Pool}
    (hp : s.pool? k = some p) :
    totals hw' s c k = figure hw' k (c.resize k p).size p.direction (s.holdings c L k) := by
  have hc := Store.contains_of_pool? hp
  have hks : ∀ j ∈ c.relayout L .poolProfiles k, s.contains j = true ∧ j.kind = .profile := fun j hj =>
    ⟨(w.takes_of_mem_relayout hb hj).1, Roster.eq_profile_of_takes (w.takes_of_mem_relayout hb hj).2⟩
  have htiled := w.reserveTiled_eq hb k p.direction hks (List.replicate hw'.tileSlots 0)
  have hflat := w.reserveFlat_eq (c := c) k hks 0
  unfold totals figure
  rw [poolSize_eq hp, w.profilesOf_eq hc (w.kind_of_pool? hp), Store.holdings, ← htiled, ← hflat]
  rfl

end Wired

end SharedBuffer
