/-
What a plan that fails leaves behind.

A plan stops at its first entry that fails, and what it leaves is what the plan of the entries before that one would
have left (`failed_plan_leaves`), with one exception. An entry of bindings looks up each of its consumers only when its
turn has come. If its key names more of them than the port has, those that are there are bound before the entry fails
with an unknown reference, and they stay bound (`overreach_stays_bound`). A binding that is refused is not such a case: it
is refused at the first consumer or at none, as long as consumers can be counted.
-/
import SharedBuffer.Proofs.Manager.Guarantees
import SharedBuffer.Proofs.Plan.Steps

namespace SharedBuffer

open Manager

/-- the plan of the first entries of a plan -/
def Plan.take (n : Nat) (plan : Plan) : Plan where
  pools := plan.pools.take n
  profiles := plan.profiles.take (n - plan.pools.length)
  priorityGroups := plan.priorityGroups.take (n - plan.pools.length - plan.profiles.length)
  queues := plan.queues.take (n - plan.pools.length - plan.profiles.length - plan.priorityGroups.length)
  ports := plan.ports.take
    (n - plan.pools.length - plan.profiles.length - plan.priorityGroups.length - plan.queues.length)

theorem Plan.entries_take (n : Nat) (plan : Plan) : (plan.take n).entries = plan.entries.take n := by
  simp [entries, bindings, BindingTable.entries, take, List.take_append, List.map_take]

/-- **A plan that fails stops at an entry, and leaves what the entries before it come to.** What it leaves of the entry
itself is nothing, or consumers of it that it has bound (`PlanEntry.Leaves`). -/
theorem failed_plan_leaves {hw : Hardware} {m m' : Manager} {plan : Plan} {e : PlanError} (hm : m.Reached hw)
    (h : plan.apply m = (.error e, m')) :
    ∃ n entry p, plan.entries[n]? = some entry ∧ e.step? = some entry.step ∧
      (PlanM.applySteps (plan.take n)).run { manager := m } = (.ok (), p) ∧ PlanEntry.Leaves p m'.store entry := by
  obtain ⟨q, hrun, hstore⟩ := PlanM.run_of_apply_error h
  obtain ⟨pre, entry, post, p, hentries, hpre, hentry⟩ := PlanM.forEntries_error hrun
  have hp : p.Proper hw := PlanM.forEntries_ok (I := fun _ => PlanState.Proper hw) (.start hm.counts)
    (fun _ _ _ _ _ _ => PlanEntry.proper) hpre
  obtain ⟨hstep, hleaves⟩ := PlanEntry.fails hp hentry
  refine ⟨pre.length, entry, p, by simp [hentries], hstep, ?_, hstore ▸ hleaves⟩
  rw [PlanM.applySteps_eq, Plan.entries_take, hentries, List.take_left]
  exact hpre

/-- the small switch with a port of two priority groups -/
def paired : Manager := (start twoTiles true).live [.call (.request (.registerPort 0 2 0))]

theorem paired_reached : paired.Reached twoTiles := ⟨true, [.call (.request (.registerPort 0 2 0))], rfl⟩

/-- a plan that binds three priority groups of the port -/
def overreach : Plan where
  pools := [("lossless", { direction := .ingress, size := 10000 })]
  profiles := [("pg", { pool := "lossless", size := 1000, dynamicThreshold := some 1 })]
  priorityGroups := [("Ethernet0|0-2", "pg")]

theorem overreach_fails : (overreach.apply paired).1 =
    .error (.reference "BUFFER_PG|Ethernet0|0-2" "port has 2 priority groups") := by decide +kernel

/-- the plan stops at the entry that binds the priority groups -/
theorem overreach_leaves : ∃ n entry p, overreach.entries[n]? = some entry ∧ entry.step = "BUFFER_PG|Ethernet0|0-2" ∧
    (PlanM.applySteps (overreach.take n)).run { manager := paired } = (.ok (), p) ∧
      PlanEntry.Leaves p (overreach.apply paired).2.store entry := by
  have hfails : overreach.apply paired = (.error (.reference "BUFFER_PG|Ethernet0|0-2" "port has 2 priority groups"),
      (overreach.apply paired).2) := by rw [← overreach_fails]
  obtain ⟨n, entry, p, hentry, hstep, hrun, hleaves⟩ := failed_plan_leaves paired_reached hfails
  exact ⟨n, entry, p, hentry, (Option.some.inj hstep).symm, hrun, hleaves⟩

/-- **The entry that fails has bound the two priority groups that are there.** Without it they are not bound. -/
theorem overreach_stays_bound :
    (overreach.apply paired).1 = .error (.reference "BUFFER_PG|Ethernet0|0-2" "port has 2 priority groups") ∧
      ((overreach.take 2).apply paired).1.toOption.isSome = true ∧
      (overreach.apply paired).2.store.ownerOf? .profileConsumers firstGroup.key = some (profileAfter 0).key ∧
      ((overreach.take 2).apply paired).2.store.ownerOf? .profileConsumers firstGroup.key = none ∧
      (overreach.apply paired).2.store ≠ ((overreach.take 2).apply paired).2.store := by
  have hbound : (overreach.apply paired).2.store.ownerOf? .profileConsumers firstGroup.key =
    some (profileAfter 0).key := by decide +kernel
  have hfree : ((overreach.take 2).apply paired).2.store.ownerOf? .profileConsumers firstGroup.key = none := by
    decide +kernel
  refine ⟨overreach_fails, by decide +kernel, hbound, hfree, ?_⟩
  intro hsame
  rw [hsame, hfree] at hbound
  cases hbound

end SharedBuffer
