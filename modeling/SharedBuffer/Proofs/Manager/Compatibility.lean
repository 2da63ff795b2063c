/-
Which consumers a pool serves.

Ports and priority groups draw from ingress pools, queues from egress pools. That is asked once, when a consumer is
bound, of the pool its profile has at that moment; later the profile may move with all its consumers. A consumer can
come to a profile in no other way than by being bound to it (`Move.binding`), and every move leaves a profile in a pool
of the direction it had (`Carried.direction`), so what was asked then goes on holding.

Result: `reached_served`.
-/
import SharedBuffer.Proofs.Manager.References
import SharedBuffer.Proofs.Manager.Terms

namespace SharedBuffer

open Manager

/-! ## Bindings -/

section

variable {hw : Hardware} {s t : Store Record} {L : Layout} {x o : Key}

/-- **A consumer is bound as it was, or to a profile that may serve it.** -/
theorem Move.binding (hs : Sound hw s L) (hm : Move hw s t) (h : t.ownerOf? .profileConsumers x = some o) :
    s.ownerOf? .profileConsumers x = some o ∨ ∃ p q, s.Housed o p q ∧ q.direction.accepts x.kind = true := by
  cases hm with
  | newPool room new => exact .inl (new.ownerOf?_eq (Pool.unlinked_fresh ..) hs.wired.handed _ ▸ h)
  | newPort free new => exact .inl (new.ownerOf?_eq (Port.unlinked ..) hs.wired.handed _ ▸ h)
  | @newMember kind R k owner r t u home live unlinked rkind asked new joined =>
    -- nothing is bound by being made: a home list is never one of consumers
    have hR : Roster.profileConsumers ≠ R := by
      rintro rfl
      cases kind <;> cases home
    rw [Store.binding_of_attach hR joined, new.ownerOf?_eq unlinked hs.wired.handed] at h
    exact .inl h
  | @change c figures t buildable countable permitted planned made =>
    obtain ⟨t', hrun, w', -⟩ := c.apply_run hs.wired buildable countable
    obtain rfl := congrArg Prod.snd (made.symm.trans hrun)
    rw [Store.ownerOf?_written, w'.linked.ownerOf?_eq_some] at h
    rw [hs.wired.linked.ownerOf?_eq_some]
    cases c
    case bind consumer target =>
      rw [Change.relayout_bind, Layout.relink, if_pos rfl, List.mem_append] at h
      rcases h with h | h
      · exact .inl (List.mem_of_mem_filter h)
      · split at h
        · rename_i htarget
          obtain rfl := List.mem_singleton.1 h
          obtain ⟨p, pool, q, hp, hpool, hq, haccepts⟩ := permitted o htarget
          exact .inr ⟨p, q, ⟨hp, pool, hpool, hq⟩, haccepts⟩
        · cases h
    all_goals exact .inl h
  | @threshold k pool p q threshold profile owner live mode =>
    have hkeep : Record.KeepsWiring (Record.mapProfile fun p => { p with threshold }) :=
      Record.keepsWiring_mapProfile (fun _ => rfl) (fun _ => rfl) fun _ => rfl
    rw [Store.ownerOf?_eq, Store.linkAt_edit fun r => hkeep.link r _, ← Store.ownerOf?_eq] at h
    exact .inl h
  | poolGone live kind unused gone => exact .inl (gone.ownerOf?_of_some h)
  | @profileGone k owner u t figures live kind unused left gone planned =>
    rw [Store.ownerOf?_written] at h
    exact .inl (Store.binding_of_detach left ▸ gone.ownerOf?_of_some h)

/-! ## Directions -/

/-- every consumer is of a kind that the pool of its profile serves -/
def Store.Served (s : Store Record) : Prop :=
  ∀ x o p q, s.ownerOf? .profileConsumers x = some o → s.Housed o p q → q.direction.accepts x.kind = true

theorem Store.Housed.unique {p p' : Profile} {q q' : Pool} (h : s.Housed o p q) (h' : s.Housed o p' q') :
    p = p' ∧ q = q' := by
  obtain ⟨hp, pool, hpool, hq⟩ := h
  obtain ⟨hp', pool', hpool', hq'⟩ := h'
  obtain rfl := Option.some.inj (hp.symm.trans hp')
  obtain rfl := Option.some.inj (hpool.symm.trans hpool')
  exact ⟨rfl, Option.some.inj (hq.symm.trans hq')⟩

/-- **Every move keeps consumers served**: a new profile has none, and one that moves keeps its direction. -/
theorem Move.served (hs : Sound hw s L) (hm : Move hw s t) (h : s.Served) : t.Served := by
  intro x o p' q' hbound hhoused
  rcases hm.carried hs hhoused with ⟨hnew, -⟩ | ⟨p, q, hk, hcarried⟩
  · -- nobody was bound to what was not there, nor is now
    have hfresh := (hm.onward.new o (Store.contains_of_profile? hhoused.1)).resolve_left (by simp [hnew])
    rcases hm.binding hs hbound with hold | ⟨p, q, hk, -⟩
    · exact absurd (hs.wired.owners _ o x (hs.wired.linked.ownerOf?_eq_some.1 hold)).1 hfresh
    · rw [Store.contains_of_profile? hk.1] at hnew
      cases hnew
  · rw [hcarried.direction]
    rcases hm.binding hs hbound with hold | ⟨p₁, q₁, hk₁, haccepts⟩
    · exact h x o p q hold hk
    · obtain ⟨-, rfl⟩ := hk.unique hk₁
      exact haccepts

theorem Moves.served (hm : Moves hw s t) (h : s.Served) : t.Served :=
  hm.keeps (I := Store.Served) (fun _ _ _ hs hm h => hm.served hs h) h

end

/-- what a direction serves: ports and priority groups are served on the way in, queues on the way out -/
theorem Direction.accepts_iff (d : Direction) (kind : ObjectKind) : d.accepts kind = true ↔
    (kind = .port ∨ kind = .priorityGroup) ∧ d = .ingress ∨ kind = .queue ∧ d = .egress := by
  cases d <;> cases kind <;> decide

/-! ## Runs -/

/-- **Consumers draw from pools of their direction.** Whatever is reached, and through whatever bindings, moves and
removals, a consumer that is bound to a profile is of a kind that the pool of that profile serves: ports and priority
groups draw from ingress pools, queues from egress pools. As long as no profile has had more consumers than 32 bits can
count, the profile and its pool are there. -/
theorem reached_served {hw : Hardware} {m : Manager} (hm : m.Reached hw) :
    (∀ x r o p q, m.store.get? x = some r → r.boundProfile? = some o → m.store.Housed o p q →
      q.direction.accepts x.kind = true ∧
        ((x.kind = .port ∨ x.kind = .priorityGroup) ∧ q.direction = .ingress ∨
          x.kind = .queue ∧ q.direction = .egress)) ∧
      (m.Tallied hw →
        ∀ x r o, m.store.get? x = some r → r.boundProfile? = some o → ∃ p q, m.store.Housed o p q) := by
  have howner : ∀ {x r o}, m.store.get? x = some r → r.boundProfile? = some o →
      m.store.ownerOf? .profileConsumers x = some o := fun {x r o} hr hb => by
    rw [Store.ownerOf?, hr]
    exact hb
  refine ⟨fun x r o p q hr hb hk => ?_, fun htallied x r o hr hb => ?_⟩
  · have hserved : m.store.Served := by
      obtain ⟨watched, acts, rfl⟩ := hm
      refine ((isSound_start hw watched).moves_live acts).2.served fun x o p q ho => ?_
      cases ho
    have haccepts := hserved x o p q (howner hr hb) hk
    exact ⟨haccepts, (Direction.accepts_iff ..).1 haccepts⟩
  · obtain ⟨-, L, hs, ht⟩ := htallied.tight
    obtain ⟨hc, hk⟩ := ht.live o x (hs.wired.linked.ownerOf?_eq_some.1 (howner hr hb))
    obtain ⟨p, hp⟩ := hs.wired.exists_profile hc hk
    obtain ⟨pool, -, hin, hpc, hpk⟩ := hs.wired.exists_poolOf hc hk
    obtain ⟨q, hq⟩ := hs.wired.exists_pool hpc hpk
    exact ⟨p, q, hp, pool, (hs.wired.mem_poolProfiles_iff hp).1 hin, hq⟩

/-- a priority group whose profile has moved to another pool draws from an ingress pool there -/
theorem moved_served :
    let pool (i : UInt32) : PoolId := ⟨(Key.make .pool 0 i).id⟩
    let m := crowded.live ([.createPool .egress 10000 none, .createPool .ingress 10000 none,
      .setProfileAttribute (profileAfter 0) .poolId (.oid (pool 2).raw)].map .call)
    ∃ r p q, m.store.get? firstGroup.key = some r ∧ r.boundProfile? = some (profileAfter 0).key ∧
      m.store.Housed (profileAfter 0).key p q ∧ p.pool? = some (pool 2).key ∧ q.direction = .ingress := by
  intro pool m
  have hreached : m.Reached twoTiles := ⟨true, crowding ++ _, (List.foldl_append ..).symm⟩
  obtain ⟨hserved, hlive⟩ := reached_served hreached
  obtain ⟨r, hr, hb⟩ := Option.bind_eq_some_iff.1
    (show (m.store.get? firstGroup.key).bind Record.boundProfile? = some (profileAfter 0).key by decide +kernel)
  obtain ⟨p, q, hk⟩ := hlive (hreached.tallied (by decide +kernel)) _ r _ hr hb
  have hpool : (m.store.profile? (profileAfter 0).key).bind Profile.pool? = some (pool 2).key := by decide +kernel
  rw [hk.1, Option.bind_some] at hpool
  rcases (hserved _ r _ p q hr hb hk).2 with ⟨-, hd⟩ | ⟨hq, -⟩
  · exact ⟨r, p, q, hr, hb, hk, hpool, hd⟩
  · cases hq

end SharedBuffer
