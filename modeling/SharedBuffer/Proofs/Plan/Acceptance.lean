/-
What a plan that goes through comes to.

All that the plan describes is there, under new ids, as it was described; each consumer under a key of the plan is bound
to the profile of the last key that covers it; and all else is as it was before (`Plan.TakesEffect`). Keys of different
tables never cover the same consumer, so each table can be read alone.

Result: `accepted_plan_takes_effect`.
-/
import SharedBuffer.Proofs.Plan.Failure
import SharedBuffer.Proofs.Plan.Progress

namespace SharedBuffer

open Manager

/-! ## What is shown -/

/-- a snapshot of a pool without its figures -/
def PoolSnapshot.configured (s : PoolSnapshot) : PoolSnapshot :=
  { s with sharedSize := 0, tileReserved := [], tilesTotalReserved := 0, profileCount := 0 }

/-- a snapshot of a profile without those that use it -/
def ProfileSnapshot.configured (s : ProfileSnapshot) : ProfileSnapshot := { s with referenceCount := 0, consumers := [] }

/-- a snapshot shows the pool that a plan describes -/
structure PoolPlan.ShownBy (plan : PoolPlan) (s : PoolSnapshot) : Prop where
  direction : s.direction = plan.direction
  size : s.size = plan.size
  mode : s.mode = plan.mode.getD .dynamic

/-- a snapshot shows the profile that a plan describes, in a pool -/
structure ProfilePlan.ShownBy (plan : ProfilePlan) (pool : PoolId) (s : ProfileSnapshot) : Prop where
  pool : s.pool = pool.raw
  size : s.size = plan.size
  mode : s.mode = plan.mode.getD .inherited
  threshold : plan.threshold? = some s.threshold
  xoff : s.xoff = plan.xoff.getD 0
  xon : s.xon = plan.xon.getD 0

/-- the ids of what a plan has made -/
def AppliedPlan.ids (a : AppliedPlan) : List ObjectId := a.pools.map (fun e => e.2.raw) ++ a.profiles.map fun e => e.2.raw

/-- a plan has taken effect: what it made, and the manager before and after -/
structure Plan.TakesEffect (plan : Plan) (m : Manager) (applied : AppliedPlan) (m' : Manager) : Prop where
  steps : applied.steps = plan.pools.length + plan.profiles.length + plan.priorityGroups.length + plan.queues.length +
    plan.ports.length
  poolNames : applied.pools.map Prod.fst = plan.pools.map Prod.fst
  profileNames : applied.profiles.map Prod.fst = plan.profiles.map Prod.fst
  distinct : applied.ids.Nodup
  fresh : ∀ k, m.store.contains k = true → k.id ∉ applied.ids
  pools : ∀ name pool, (name, pool) ∈ plan.pools → ∃ id s, (name, id) ∈ applied.pools ∧
    m'.store.poolSnapshot id.key = .ok s ∧ pool.ShownBy s
  profiles : ∀ name profile, (name, profile) ∈ plan.profiles → ∃ id s pool, (name, id) ∈ applied.profiles ∧
    m'.store.profileSnapshot id.key = .ok s ∧ (profile.pool, pool) ∈ applied.pools ∧ profile.ShownBy pool s
  named : ∀ (t : BindingTable), ∀ e ∈ t.entries plan, ∃ span, t.span? m e.1 = some span ∧ ¬ span.Overruns
  /-- the last key that covers a consumer counts -/
  bound : ∀ (t : BindingTable) pre text name post x, t.entries plan = pre ++ (text, name) :: post →
    t.Covers m text x → (∀ e ∈ post, ¬ t.Covers m e.1 x) →
      ∃ id, (name, id) ∈ applied.profiles ∧ m'.store.ownerOf? .profileConsumers x = some id.key
  unbound : ∀ x, (∀ (t : BindingTable), ∀ e ∈ t.entries plan, ¬ t.Covers m e.1 x) →
    m'.store.ownerOf? .profileConsumers x = m.store.ownerOf? .profileConsumers x
  poolsKept : ∀ k, m.store.contains k = true → k.kind = .pool → ∃ s s', m.store.poolSnapshot k = .ok s ∧
    m'.store.poolSnapshot k = .ok s' ∧ s'.configured = s.configured
  profilesKept : ∀ k, m.store.contains k = true → k.kind = .profile → ∃ s s', m.store.profileSnapshot k = .ok s ∧
    m'.store.profileSnapshot k = .ok s' ∧ s'.configured = s.configured

section

variable {hw : Hardware} {m m' : Manager} {s s' : Store Record} {L L' : Layout} {k x : Key} {plan : Plan}
  {applied : AppliedPlan} {t : BindingTable} {text name : String}

/-- a pool that is there is shown as it was -/
theorem Store.Continues.poolSnapshot (h : s.Continues s') (w : Wired hw s L none) (hc : s.contains k = true)
    (hk : k.kind = .pool) : ∃ v v', s.poolSnapshot k = .ok v ∧ s'.poolSnapshot k = .ok v' ∧
      v'.configured = v.configured := by
  obtain ⟨q, hq⟩ := w.exists_pool hc hk
  obtain ⟨q', hq', hsize, hregime⟩ := Store.pool?_of_settingsAt (h.settings k hc) hq
  obtain ⟨hdirection, hmode⟩ := Prod.mk.inj hregime
  exact ⟨_, _, Wired.poolSnapshot_eq hq, Wired.poolSnapshot_eq hq', by
    simp [PoolSnapshot.configured, PoolSnapshot.of, hsize, hdirection, hmode]⟩

/-- a profile that is there is shown as it was -/
theorem Store.Continues.profileSnapshot (h : s.Continues s') (w : Wired hw s L none) (w' : Wired hw s' L' none)
    (hc : s.contains k = true) (hk : k.kind = .profile) : ∃ v v', s.profileSnapshot k = .ok v ∧
      s'.profileSnapshot k = .ok v' ∧ v'.configured = v.configured := by
  obtain ⟨p, hp⟩ := w.exists_profile hc hk
  obtain ⟨o, q, hin, hq⟩ := w.exists_housed hp
  obtain ⟨p', hp', hsize, hterms⟩ := Store.profile?_of_settingsAt (h.settings k hc) hp
  obtain ⟨q', hq', -, hregime⟩ := Store.pool?_of_settingsAt (h.settings o (Store.contains_of_pool? hq)) hq
  have hin' := h.pool k hc
  rw [Store.ownerOf?_of_profile? hp', Store.ownerOf?_of_profile? hp, hin] at hin'
  obtain ⟨hmode, hthreshold, hxoff, hxon⟩ := Terms.mk.inj hterms
  have hpool : q'.mode = q.mode := congrArg Prod.snd hregime
  exact ⟨_, _, w.profileSnapshot_eq hp hin hq, w'.profileSnapshot_eq hp' hin' hq', by
    simp [ProfileSnapshot.configured, hsize, hmode, hthreshold, hxoff, hxon, hpool]⟩

/-- a key of a table covers consumers of the table's kind -/
theorem Wired.kind_of_covers (w : Wired hw m.store L none) (h : t.Covers m text x) : x.kind = t.kind := by
  obtain ⟨span, hspan, hx⟩ := h
  obtain ⟨tile, hmem⟩ := w.mem_of_span? hspan
  exact (hmem x (Span.mem_of_present hx)).1.2

theorem BindingTable.kind_inj {t t' : BindingTable} (h : t.kind = t'.kind) : t = t' := by
  cases t <;> cases t' <;> first | rfl | cases h

theorem Plan.mem_bindings {b : BindingTable × String × String} : b ∈ plan.bindings ↔ b.2 ∈ b.1.entries plan := by
  obtain ⟨t, e⟩ := b
  cases t <;> simp [bindings]

/-- behind an entry of a table come the rest of the table and other tables -/
theorem Plan.bindings_split {pre post : List (String × String)} (h : t.entries plan = pre ++ (text, name) :: post) :
    ∃ front back, plan.bindings = front ++ (t, text, name) :: (post.map (t, ·) ++ back) ∧ ∀ b ∈ back, b.1 ≠ t := by
  have hsplit : ∀ tables others : List BindingTable, [BindingTable.groups, .queues, .ports] = tables ++ t :: others →
      t ∉ others → ∃ front back, plan.bindings = front ++ (t, text, name) :: (post.map (t, ·) ++ back) ∧
        ∀ b ∈ back, b.1 ≠ t := by
    intro tables others htables hother
    refine ⟨tables.flatMap (fun t => (t.entries plan).map (t, ·)) ++ pre.map (t, ·),
      others.flatMap fun t => (t.entries plan).map (t, ·), ?_, fun b hb => ?_⟩
    · rw [bindings, htables]
      simp [h]
    · obtain ⟨t', ht', hb⟩ := List.mem_flatMap.1 hb
      obtain ⟨e, -, rfl⟩ := List.mem_map.1 hb
      rintro rfl
      exact hother ht'
  cases t with
  | groups => exact hsplit [] [.queues, .ports] rfl (by decide)
  | queues => exact hsplit [.groups] [.ports] rfl (by decide)
  | ports => exact hsplit [.groups, .queues] [] rfl (by decide)

theorem AppliedPlan.ids_eq (a : AppliedPlan) : a.ids = a.keys.map Key.id := by
  simp only [ids, keys, List.map_append, List.map_map]
  rfl

theorem New.nodup_ids (h : New m m' applied.keys) : applied.ids.Nodup := by
  rw [AppliedPlan.ids_eq]
  refine h.nodup.map_on fun k hk j hj hsame => ?_
  have hdecoded := h.decoded k hk
  rw [hsame, h.decoded j hj] at hdecoded
  exact (Option.some.inj hdecoded).symm

/-- what was there before has none of the new ids -/
theorem New.not_mem_ids (h : New m m' applied.keys) (hs : m.store.Handed) (hc : m.store.contains k = true) :
    k.id ∉ applied.ids := by
  rw [AppliedPlan.ids_eq]
  intro hmem
  obtain ⟨j, hj, hsame⟩ := List.mem_map.1 hmem
  have hdecoded := h.decoded j hj
  rw [hsame, (hs.isHandle k hc).ofId?] at hdecoded
  obtain rfl := Option.some.inj hdecoded
  cases hc.symm.trans (h.fresh k hj)

/-- **A plan that goes through takes effect exactly.** -/
theorem accepted_plan_takes_effect (hm : m.Reached hw) (hplan : plan.InOrder) (h : plan.apply m = (.ok applied, m')) :
    plan.TakesEffect m applied m' := by
  obtain ⟨p, hrun, rfl, hstore⟩ := PlanM.run_of_apply_ok h
  obtain ⟨hproper, hdone⟩ := Progress.of_entries hm.counts hplan hrun
  obtain ⟨rfl, L, hs⟩ := hm.sound
  obtain ⟨-, L', hs'⟩ := hproper.counts.1
  have hpools := plan.pools_entries ▸ hdone.pools
  have hprofiles := plan.profiles_entries ▸ hdone.profiles
  have hbindings := plan.bindings_entries ▸ hdone.rebound
  refine
    { steps := ?steps
      poolNames := hpools.names
      profileNames := hprofiles.names
      distinct := hdone.new.nodup_ids
      fresh := fun k hc => hdone.new.not_mem_ids hs.wired.handed hc
      pools := ?pools
      profiles := ?profiles
      named := fun t e he => hbindings.named (t, e) (Plan.mem_bindings.2 he)
      bound := ?bound
      unbound := ?unbound
      poolsKept := ?poolsKept
      profilesKept := ?profilesKept }
  case steps =>
    rw [hdone.steps]
    simp [Plan.entries, Plan.bindings, BindingTable.entries, Nat.add_assoc]
  case pools =>
    intro name pool hmem
    obtain ⟨id, hid, q, hq, hdescribes⟩ := hpools.each name pool hmem
    exact ⟨id, _, hid, hstore ▸ Wired.poolSnapshot_eq hq, hdescribes.direction, hdescribes.size, hdescribes.mode⟩
  case profiles =>
    intro name profile hmem
    obtain ⟨id, hid, pool, q, hpool, hq, hin, hdescribes⟩ := hprofiles.each name profile hmem
    obtain ⟨o, r, ho, hr⟩ := hs'.wired.exists_housed hq
    obtain rfl : o = pool.key := Option.some.inj (ho.symm.trans ((Store.ownerOf?_of_profile? hq).symm.trans hin))
    exact ⟨id, _, pool, hid, hstore ▸ hs'.wired.profileSnapshot_eq hq ho hr, hpool, rfl, hdescribes.size,
      hdescribes.mode, hdescribes.threshold, hdescribes.xoff, hdescribes.xon⟩
  case bound =>
    intro t pre text name post x hentries hcovers hpost
    obtain ⟨front, back, hsplit, hback⟩ := Plan.bindings_split hentries
    rw [hstore]
    refine hbindings.last front t text name _ x hsplit hcovers ?_
    intro b hb
    rcases List.mem_append.1 hb with hb | hb
    · obtain ⟨e, he, rfl⟩ := List.mem_map.1 hb
      exact hpost e he
    · -- a key of another table covers consumers of another kind
      intro hc
      exact hback b hb (BindingTable.kind_inj ((hs.wired.kind_of_covers hc).symm.trans
        (hs.wired.kind_of_covers hcovers)))
  case unbound =>
    intro x hx
    rw [hstore]
    exact hbindings.kept x fun b hb => hx b.1 b.2 (Plan.mem_bindings.1 hb)
  case poolsKept =>
    intro k hc hk
    rw [hstore]
    exact hdone.continues.poolSnapshot hs.wired hc hk
  case profilesKept =>
    intro k hc hk
    rw [hstore]
    exact hdone.continues.profileSnapshot hs.wired hs'.wired hc hk

end

/-- a plan with two keys for the second priority group of a port -/
def overlapping : Plan where
  pools := [("lossless", { direction := .ingress, size := 10000 })]
  profiles := [("large", { pool := "lossless", size := 2000, dynamicThreshold := some 1 }),
    ("small", { pool := "lossless", size := 1000, dynamicThreshold := some 1 })]
  priorityGroups := [("Ethernet0|0-1", "large"), ("Ethernet0|1", "small")]

/-- the later of the two keys counts -/
theorem overlapping_takes_effect : ∃ applied m', overlapping.apply paired = (.ok applied, m') ∧
    overlapping.TakesEffect paired applied m' ∧
      m'.store.ownerOf? .profileConsumers firstGroup.key = some (profileAfter 0).key ∧
      m'.store.ownerOf? .profileConsumers (Key.make .priorityGroup 0 1) = some (profileAfter 1).key := by
  have hplan : overlapping.InOrder := by constructor <;> unfold InNameOrder <;> decide
  have hok : (overlapping.apply paired).1.toOption.isSome = true := by decide +kernel
  have hbound : (overlapping.apply paired).2.store.ownerOf? .profileConsumers firstGroup.key =
      some (profileAfter 0).key ∧
    (overlapping.apply paired).2.store.ownerOf? .profileConsumers (Key.make .priorityGroup 0 1) =
      some (profileAfter 1).key := by decide +kernel
  rcases hr : overlapping.apply paired with ⟨e | applied, m'⟩
  · rw [hr] at hok
    cases hok
  · rw [hr] at hbound
    exact ⟨applied, m', rfl, accepted_plan_takes_effect paired_reached hplan hr, hbound⟩

end SharedBuffer
