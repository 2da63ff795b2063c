/-
What holds of every manager that is reached, whatever it was asked to do.

Results:
- `reached_balanced`: every pool's figures are exact;
- `admitted_exactly`: a request is admitted exactly if what it asks for fits into memory;
- `plan_foresees`: evaluating a change agrees with making it and deriving the figures afterwards;
- `refused_changes_nothing`: a refused call leaves no trace but an audit record and a count.

Each is followed by an instance, on a small switch of two tiles whose pool has little to spare.
-/
import SharedBuffer.Proofs.Manager.Admission

namespace SharedBuffer

open Accounting Manager

/-! ## A small switch -/

/-- two ports, each on a tile of its own -/
def twoTiles : Hardware := { tileCount := 2, portCount := 2, portTiles := [0, 1] }

/-- the first pool of a manager -/
def firstPool : PoolId := ⟨(Key.make .pool 0 0).id⟩

/-- the profile that was created after so many others -/
def profileAfter (n : UInt32) : ProfileId := ⟨(Key.make .profile 0 n).id⟩

/-- the first priority group of a manager -/
def firstGroup : PriorityGroupId := ⟨(Key.make .priorityGroup 0 0).id⟩

/-- a pool with two profiles, the smaller of them in use -/
def crowding : List Act :=
  [.call (.request (.registerPort 0 1 1)), .call (.request (.registerPort 1 1 1)),
    .call (.createPool .ingress 10000 none),
    .call (.createProfile { pool := firstPool, size := 1000, threshold := .dynamic 1, xoff := some 300 }),
    .call (.createProfile { pool := firstPool, size := 9000, threshold := .dynamic 1 }),
    .call (.bindGroup firstGroup (some (profileAfter 0)))]

/-- the manager of the small switch with its pool in use -/
def crowded : Manager := (start twoTiles true).live crowding

/-! ## Figures -/

/-- **The books always balance.** Whatever happened, the figures of every pool are exact. -/
theorem reached_balanced {hw : Hardware} {m : Manager} (hm : Reached hw m) {k : Key} {p : Pool}
    (hp : m.store.pool? k = some p) : Balanced hw m.store k p := by
  obtain ⟨-, L, hs⟩ := hm.sound
  exact hs.balanced hp

theorem crowded_balanced : ∃ p, crowded.store.pool? firstPool.key = some p ∧ p.totals = ⟨7400, [1300, 0], 2600⟩ ∧
    Balanced twoTiles crowded.store firstPool.key p := by
  obtain ⟨p, hp, htot⟩ := Option.map_eq_some_iff.1
    (show (crowded.store.pool? firstPool.key).map Pool.totals = some ⟨7400, [1300, 0], 2600⟩ by decide +kernel)
  exact ⟨p, hp, htot, reached_balanced ⟨true, crowding, rfl⟩ hp⟩

/-! ## Admission -/

/-- **Nothing that fits is refused, and nothing else is admitted.** A call that passes the attribute checks and asks for
a change that is compatible with what is there goes through exactly if memory holds what the change makes of the store;
one that creates a pool, exactly if its direction has room for it and a handle is left. What is refused is refused as
insufficient resources. A change can be made unless its consumer was lost count of. -/
theorem admitted_exactly {hw : Hardware} {m : Manager} (hm : Reached hw m) (hrep : 1 ≤ hw.replication)
    (htotal : hw.totalBytes.toNat < 2 ^ 64 - 1) (c : Call) :
    (∀ object a change, c.setting? = some (object, a) → m.Requests object a change →
      (∀ t, change.apply.run m.store = (.ok (), t) → c.AdmittedIff m (change.Fits hw t)) ∧
        (change.Countable m.store → ∃ t, change.apply.run m.store = (.ok (), t)) ∧
        (Tallied hw m → change.Countable m.store)) ∧
      ∀ attrs r, c.newPool? = some attrs → checkCreate .pool attrs = .ok () → PoolRequest.ofAttributes attrs = .ok r →
        c.AdmittedIff m (((m.store.poolsIn r.direction).length < hw.maxPoolsPerDirection.toNat ∧
          m.store.bytesIn r.direction + r.size.toNat ≤ hw.totalBytes.toNat) ∧ m.store.HasRoom .pool) := by
  obtain ⟨rfl, L, hs⟩ := hm.sound
  refine ⟨fun object a change hset hreq => ⟨fun t ht => ?_, fun hn => ?_, fun htally => ?_⟩,
    fun attrs r hnew hcheck hr => ?_⟩
  · exact Call.admits_setting hs hrep htotal hset hreq ht
  · obtain ⟨k, -, -, -, hc, hask⟩ := hreq
    obtain ⟨t, ht, -⟩ := change.apply_run hs.wired (hask.buildable hs.wired hc) hn
    exact ⟨t, ht⟩
  · exact htally.countable change
  · exact Call.admits_newPool hs htotal hnew hcheck hr

/-- more than a pool has cannot be asked for one of its profiles: no store with it would hold -/
theorem crowded_admits_exactly :
    (∃ e m', (Call.setProfileAttribute (profileAfter 0) .reservedSize (.u64 20000)).perform.run crowded =
      (.error e, m')) ∧
      ∃ t, (Change.profileSize (profileAfter 0).key 20000).apply.run crowded.store = (.ok (), t) ∧
        ¬ t.Holds twoTiles := by
  have hreq : crowded.Requests (profileAfter 0).raw ⟨ProfileAttribute.reservedSize.id, .u64 20000⟩
      (.profileSize (profileAfter 0).key 20000) :=
    ⟨(profileAfter 0).key, ProfileAttribute.reservedSize.spec, by decide +kernel, by decide +kernel, by decide +kernel,
      .profileSize rfl (by decide +kernel) rfl⟩
  have hexact := admitted_exactly (m := crowded) ⟨true, crowding, rfl⟩ (by decide) (by decide)
    (.setProfileAttribute (profileAfter 0) .reservedSize (.u64 20000))
  obtain ⟨hadmits, hcan, -⟩ := hexact.1 _ _ _ rfl hreq
  obtain ⟨t, ht⟩ := hcan trivial
  have hrefused : ((Call.setProfileAttribute (profileAfter 0) .reservedSize (.u64 20000)).perform.run crowded).1.isOk =
      false := by decide +kernel
  rcases hr : (Call.setProfileAttribute (profileAfter 0) .reservedSize (.u64 20000)).perform.run crowded with
    ⟨e | id, m'⟩
  · refine ⟨⟨e, m', rfl⟩, t, ht, fun hholds => ?_⟩
    obtain ⟨id, m'', hr'⟩ := (hadmits t ht).1.2 ⟨hholds, trivial⟩
    cases hr.symm.trans hr'
  · rw [hr] at hrefused
    cases hrefused

/-! ## Plans -/

/-- **Planning agrees with doing.** Once the structural part of a change is made, and nothing else, deriving the
figures of a planned pool gives the planned ones, deriving those of any other pool gives what it gave before, and where
the plan was refused some pool that the change concerns is refused alike. Every change of objects that are there can be
made, unless its consumer was lost count of, which takes a profile with more consumers than 32 bits can count. -/
theorem plan_foresees {hw : Hardware} {m : Manager} (hm : Reached hw m) (hw' : Hardware) {c : Change}
    (hc : c.Buildable m.store) :
    (∀ t, c.apply.run m.store = (.ok (), t) →
      (∀ figures, plan hw' m.store c = .ok figures →
        (∀ k tot, (k, tot) ∈ figures → totals hw' t (.recompute k) k = .ok tot) ∧
          ∀ k p, m.store.pool? k = some p → k ∉ figures.map Prod.fst →
            totals hw' t (.recompute k) k = totals hw' m.store (.recompute k) k) ∧
        ∀ e, plan hw' m.store c = .error e → ∃ pools, affectedPools m.store c = .ok pools ∧
          ∃ k ∈ pools, totals hw' t (.recompute k) k = .error e) ∧
      (c.Countable m.store → ∃ t, c.apply.run m.store = (.ok (), t)) ∧ (Tallied hw m → c.Countable m.store) := by
  obtain ⟨-, L, hs⟩ := hm.sound
  refine ⟨fun t ht => ⟨fun figures hplan => ?_, fun e hplan => ?_⟩, fun hn => ?_, fun htally => ?_⟩
  · have hmade : c.Made m.store t := ⟨hc, ht⟩
    exact ⟨fun k tot hk => hmade.totals_of_plan hs.wired hplan hk,
      fun k p hp hk => hmade.totals_unplanned hs.wired hplan hp hk⟩
  · obtain ⟨pools, hpools, k, hk, -, he⟩ := Change.Made.exists_refusal ⟨hc, ht⟩ hs.wired hplan
    exact ⟨pools, hpools, k, hk, he⟩
  · obtain ⟨t, ht, -⟩ := c.apply_run hs.wired hc hn
    exact ⟨t, ht⟩
  · exact htally.countable c

/-- binding the group to the larger profile is more than the pool has, before the change and after it -/
theorem crowded_plan_foresees :
    ∃ t, (Change.bind firstGroup.key (some (profileAfter 1).key)).apply.run crowded.store = (.ok (), t) ∧
      ∃ e, totals twoTiles t (.recompute firstPool.key) firstPool.key = .error e := by
  have hbuild : (Change.bind firstGroup.key (some (profileAfter 1).key)).Buildable crowded.store := by
    refine ⟨⟨by decide +kernel, rfl⟩, ?_⟩
    rintro _ ⟨⟩
    exact ⟨by decide +kernel, rfl⟩
  have hcount : ¬ crowded.store.Uncounted firstGroup.key := by
    rintro ⟨o, ho, hzero⟩
    obtain rfl : (profileAfter 0).key = o := Option.some.inj (ho ▸ by decide +kernel)
    exact absurd hzero (by decide +kernel)
  obtain ⟨hforesee, hcan, -⟩ := plan_foresees (m := crowded) ⟨true, crowding, rfl⟩ twoTiles hbuild
  obtain ⟨t, ht⟩ := hcan hcount
  refine ⟨t, ht, ?_⟩
  have hrefused : (plan twoTiles crowded.store (.bind firstGroup.key (some (profileAfter 1).key))).isOk = false := by
    decide +kernel
  have hpools : affectedPools crowded.store (.bind firstGroup.key (some (profileAfter 1).key)) =
      .ok [firstPool.key] := by decide +kernel
  cases hplan : plan twoTiles crowded.store (.bind firstGroup.key (some (profileAfter 1).key)) with
  | ok figures =>
    rw [hplan] at hrefused
    cases hrefused
  | error e =>
    obtain ⟨pools, hpools', k, hk, he⟩ := (hforesee t ht).2 e hplan
    obtain rfl : [firstPool.key] = pools := Except.ok.inj (hpools.symm.trans hpools')
    obtain rfl := List.mem_singleton.1 hk
    exact ⟨e, he⟩

/-! ## Refusals -/

/-- **A refused call changes nothing**, unless handles ran out: the store with all its records, lists, counts and
allocators is the same, nothing is announced, and no counter but that of errors has moved. -/
theorem refused_changes_nothing {hw : Hardware} {m m' : Manager} (hm : Reached hw m) (c : Call) {e : Fault}
    (h : c.perform.run m = (.error e, m')) (hroom : ¬ e.IsExhausted) :
    m'.store = m.store ∧ m'.events = m.events ∧ m'.counters = { m.counters with errors := m'.counters.errors } ∧
      m'.hardware = m.hardware ∧ m'.watched = m.watched := by
  obtain ⟨rfl, L, hs⟩ := hm.sound
  rcases (c.settles hs).error h with ⟨audit, errors, rfl⟩ | ⟨hex, -⟩
  · exact ⟨rfl, rfl, rfl, rfl, rfl⟩
  · exact absurd hex hroom

/-- binding the group to the larger profile is refused after its pool was found too small, and leaves it where it is -/
theorem crowded_refused_unchanged :
    ∃ e m', (Call.bindGroup firstGroup (some (profileAfter 1))).perform.run crowded = (.error e, m') ∧
      ¬ e.IsExhausted ∧ m'.store = crowded.store ∧ m'.events = crowded.events := by
  have hrefused : ((Call.bindGroup firstGroup (some (profileAfter 1))).perform.run crowded).1.isOk = false := by
    decide +kernel
  have hroom : ∀ kind, ((Call.bindGroup firstGroup (some (profileAfter 1))).perform.run crowded).1 ≠
      .error (StoreError.exhausted kind).toFault := by
    intro kind
    cases kind <;> decide +kernel
  rcases hr : (Call.bindGroup firstGroup (some (profileAfter 1))).perform.run crowded with ⟨e | id, m'⟩
  · have hroom : ¬ e.IsExhausted := by
      rintro ⟨kind, rfl⟩
      exact hroom kind (by rw [hr])
    obtain ⟨hstore, hevents, -⟩ := refused_changes_nothing (m := crowded) ⟨true, crowding, rfl⟩ _ hr hroom
    exact ⟨_, m', rfl, hroom, hstore, hevents⟩
  · rw [hr] at hrefused
    cases hrefused

end SharedBuffer
