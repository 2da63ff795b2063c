/-
Requests that bind a consumer.

The profile asked for is looked up, and its pool has to serve the consumer's direction; where the consumer is bound to
it already, nothing happens. Otherwise the plan decides, with one exception: a profile that more consumers were bound to
than it can count may have no count left to give back, and then the consumer stays where it is.

Results: `bindingTarget_ends`, what a binding may ask for, and `tryBind_ends`, when it is refused.
-/
import SharedBuffer.Proofs.Manager.Changes

namespace SharedBuffer

/-- what a binding asks for is there: no profile, or a live one of a pool that serves consumers of the kind -/
def Manager.BindsTo (m : Manager) (consumer : ObjectKind) (id : ObjectId) : Option Key → Prop
  | none => id = nullId
  | some profile => id ≠ nullId ∧ m.resolve? .profile id = some profile ∧
      ∃ p pool q, m.store.profile? profile = some p ∧ p.pool? = some pool ∧ m.store.pool? pool = some q ∧
        q.direction.accepts consumer = true

theorem Manager.BindsTo.unique {m : Manager} {kind : ObjectKind} {id : ObjectId} {target target' : Option Key}
    (h : m.BindsTo kind id target) (h' : m.BindsTo kind id target') : target = target' := by
  cases target with
  | none =>
    cases target' with
    | none => rfl
    | some p => exact absurd h h'.1
  | some p =>
    cases target' with
    | none => exact absurd h' h.1
    | some p' => exact h.2.1.symm.trans h'.2.1

theorem Manager.BindsTo.buildable {m : Manager} {k : Key} {kind : ObjectKind} {id : ObjectId} {target : Option Key}
    (h : m.BindsTo kind id target) (hc : m.store.contains k = true)
    (hk : Roster.profileConsumers.takes k.kind = true) : (Change.bind k target).Buildable m.store := by
  refine ⟨⟨hc, hk⟩, ?_⟩
  rintro p rfl
  obtain ⟨-, hkind, hlive⟩ := ManagerM.resolve?_eq_some h.2.1
  exact ⟨hlive, hkind⟩

/-- what a binding may ask for it may ask for wherever profiles keep their pools, and pools their directions -/
theorem Manager.BindsTo.of_kept {m m' : Manager} {kind : ObjectKind} {id : ObjectId} {target : Option Key}
    (h : m.BindsTo kind id target) (hlive : ∀ k, m.store.contains k = true → m'.store.contains k = true)
    (hprofiles : ∀ k p, m.store.profile? k = some p → ∃ p', m'.store.profile? k = some p' ∧ p'.pool? = p.pool?)
    (hpools : ∀ k q, m.store.pool? k = some q → ∃ q', m'.store.pool? k = some q' ∧ q'.direction = q.direction) :
    m'.BindsTo kind id target := by
  cases target with
  | none => exact h
  | some profile =>
    obtain ⟨hid, hres, p, pool, q, hp, hpool, hq, haccepts⟩ := h
    obtain ⟨hof, hkind, hc⟩ := ManagerM.resolve?_eq_some hres
    obtain ⟨p', hp', hpool'⟩ := hprofiles profile p hp
    obtain ⟨q', hq', hdirection⟩ := hpools pool q hq
    exact ⟨hid, ManagerM.resolve?_of hof hkind (hlive profile hc), p', pool, q', hp', hpool'.trans hpool, hq',
      hdirection ▸ haccepts⟩

namespace ManagerM

variable {m : Manager} {L : Layout} {k : Key}

theorem bindingTarget_ends (h : Sound m.hardware m.store L) (kind : ObjectKind) (id : ObjectId) :
    Ends (bindingTarget kind id) m (fun target m' => m' = m ∧ m.BindsTo kind id target)
      (fun e m' => m' = m ∧ e.Objects ∧ ∀ target, ¬ m.BindsTo kind id target) := by
  unfold bindingTarget
  by_cases hid : id = nullId
  · rw [if_pos hid]
    exact Ends.pure ⟨rfl, hid⟩
  rw [if_neg hid]
  have hnone : ¬ m.BindsTo kind id none := hid
  cases hres : m.resolve? .profile id with
  | none =>
    refine ends_reading (fun profile hp => ?_) fun e he => ⟨rfl, ⟨?_, fun target ht => ?_⟩⟩
    · simp only [hres] at hp
      cases hp
    · simp only [hres] at he
      exact ⟨_, .inr (Except.error.inj he).symm⟩
    · cases target with
      | none => exact hnone ht
      | some p => cases hres.symm.trans ht.2.1
  | some profile =>
    refine Ends.bind_ok (reading_run_ok (a := profile) (by rw [hres])) ?_
    obtain ⟨-, hk, hc⟩ := resolve?_eq_some hres
    obtain ⟨p, hp⟩ := h.wired.exists_profile hc hk
    obtain ⟨o, q, hrun, ho, hq⟩ := exists_poolOf_run h hp
    have hpool := (h.wired.mem_poolProfiles_iff hp).1 ho
    refine Ends.bind_ok hrun (Ends.bind_ok (readingStore_run_ok (Store.poolAt_eq hq)) ?_)
    by_cases hacc : q.direction.accepts kind = true
    · simp only [hacc, Bool.not_true, Bool.false_eq_true, if_false]
      exact Ends.pure ⟨rfl, hid, hres, p, o, q, hp, hpool, hq, hacc⟩
    · simp only [hacc, Bool.not_false, if_true]
      refine Ends.of_run_error rfl ⟨rfl, ⟨_, .inr rfl⟩, fun target ht => ?_⟩
      cases target with
      | none => exact hnone ht
      | some profile' =>
        obtain ⟨-, hres', p', o', q', hp', hpool', hq', hacc'⟩ := ht
        obtain rfl : profile = profile' := Option.some.inj (hres.symm.trans hres')
        obtain rfl : p = p' := Option.some.inj (hp.symm.trans hp')
        obtain rfl : o = o' := Option.some.inj (hpool.symm.trans hpool')
        obtain rfl : q = q' := Option.some.inj (hq.symm.trans hq')
        exact hacc hacc'

/-- a planned binding is made, unless the profile it leaves has lost count -/
theorem rebind_ends (h : Sound m.hardware m.store L) {target : Option Key}
    (hb : (Change.bind k target).Buildable m.store) (hpermit : (Change.bind k target).Permitted m.hardware m.store)
    {current : Option Key} (hcur : m.store.ownerOf? .profileConsumers k = current) :
    Ends (plan (.bind k target) >>= fun figures => unlink k current >>= fun _ => link k target >>= fun _ =>
        commit figures >>= fun _ => announceOptional current >>= fun _ => announceOptional target >>= fun _ =>
        pure (Rebinding.changed target)) m
      (fun _ m' => Follows m L m' ∧ (Change.bind k target).Outcome m.hardware m.store m'.store)
      (fun e m' => m' = m ∧
        (Accounting.plan m.hardware m.store (.bind k target) = .error e ∨ m.store.Uncounted k)) := by
  by_cases hcount : m.store.Uncounted k
  · refine ends_reading (fun figures hplan => ?_) fun e he => ⟨rfl, .inl he⟩
    obtain ⟨o, ho, hzero⟩ := hcount
    obtain rfl : current = some o := hcur.symm.trans ho
    have hm := h.wired.linked.ownerOf?_eq_some.1 ho
    -- the plan found the pool of the profile, so the profile is there
    obtain ⟨pool, -, hpool⟩ := h.wired.covers_affectedPools (Accounting.plan_ok hplan).1 o (.inl hm)
    obtain ⟨hoc, -⟩ := h.wired.takes_of_mem hpool
    obtain ⟨hd, hhd⟩ := h.wired.exists_head hoc (h.wired.owners _ o k hm).2
    exact Ends.of_run_error (run_bind_error (onLists_run_error (x := Store.detach .profileConsumers o k)
      (h.wired.linked.detach_refused hhd hm hzero))) ⟨rfl, .inr ⟨o, ho, hzero⟩⟩
  · have hkind : ∀ p, current = some p → p.kind = .profile := fun p hp =>
      (h.wired.owners _ p k (h.wired.linked.ownerOf?_eq_some.1 (hcur.trans hp))).2
    refine (planned_ends h hb hcount hpermit
      (fun rest => unlink k current >>= fun _ => link k target >>= fun _ => rest)
      (fun t rest hrun => ?_) (Finishes.then fun m => ?_)).mono (fun _ m' hf => hf) fun e m' he => ⟨he.1, .inl he.2⟩
    · obtain ⟨u, hu, ht'⟩ := Store.relink_halves hrun
      rw [hcur] at hu
      have hleave : (unlink k current).run m = (.ok (), { m with store := u }) := by
        cases current with
        | none => cases hu; rfl
        | some o => exact onLists_run_ok (x := Store.detach .profileConsumers o k) hu
      refine (run_bind_ok hleave).trans (run_bind_ok (a := ()) ?_)
      cases target with
      | none => cases ht'; rfl
      | some p => exact onLists_run_ok (x := Store.attach .profileConsumers p k) (m := { m with store := u }) ht'
    · refine Ends.bind (announceOptional_ends hkind) fun _ m₁ h₁ => ?_
      refine Ends.bind (announceOptional_ends fun p hp => (hb.2 p hp).2) fun _ m₂ h₂ => Ends.pure ?_
      rw [h₁.store] at h₂
      rw [Change.named, hcur, Store.visible_append]
      exact h₁.trans h₂

/-- a binding that is made is answered as a changed one -/
theorem rebind_answers (current target : Option Key) :
    Ends (plan (.bind k target) >>= fun figures => unlink k current >>= fun _ => link k target >>= fun _ =>
        commit figures >>= fun _ => announceOptional current >>= fun _ => announceOptional target >>= fun _ =>
        pure (Rebinding.changed target)) m (fun r _ => r = .changed target) fun _ _ => True :=
  Ends.bind .trivial fun _ _ _ => Ends.bind .trivial fun _ _ _ => Ends.bind .trivial fun _ _ _ =>
    Ends.bind .trivial fun _ _ _ => Ends.bind .trivial fun _ _ _ => Ends.bind .trivial fun _ _ _ => Ends.pure rfl

/-- **A binding is refused exactly if its plan is**, once it asks for something that is not so already; and then nothing
has changed. -/
theorem tryBind_ends (h : Sound m.hardware m.store L) (hc : m.store.contains k = true)
    (hk : Roster.profileConsumers.takes k.kind = true) (id : ObjectId) :
    Ends (tryBind k id) m
      (fun r m' => Follows m L m' ∧ ∃ target, m.BindsTo k.kind id target ∧
        (m.store.ownerOf? .profileConsumers k = target ∧ m' = m ∧ r = .unchanged ∨
          m.store.ownerOf? .profileConsumers k ≠ target ∧
            (Change.bind k target).Outcome m.hardware m.store m'.store ∧ r = .changed target))
      (fun e m' => m' = m ∧ (e.Objects ∧ (∀ target, ¬ m.BindsTo k.kind id target) ∨
        ∃ target, m.BindsTo k.kind id target ∧ m.store.ownerOf? .profileConsumers k ≠ target ∧
          (Accounting.plan m.hardware m.store (.bind k target) = .error e ∨ m.store.Uncounted k))) := by
  obtain ⟨r, hr⟩ := Store.contains_iff.1 hc
  refine Ends.bind ((bindingTarget_ends h k.kind id).mono (fun _ _ h => h) fun e m' he => ⟨he.1, .inl he.2⟩)
    fun target m' ht => ?_
  obtain ⟨rfl, ht⟩ := ht
  have hcur : (readingStore fun s => do return (← s.require k).boundProfile?).run m' =
      (.ok (m'.store.ownerOf? .profileConsumers k), m') := by
    refine readingStore_run_ok ?_
    simp only [Store.require, Store.get, hr, Except.mapError, bind, Except.bind, pure, Except.pure, Store.ownerOf?,
      Option.bind_some, Record.boundProfile?]
  refine Ends.bind_ok hcur ?_
  by_cases hsame : m'.store.ownerOf? .profileConsumers k = target
  · rw [if_pos hsame]
    exact Ends.pure ⟨.refl h, target, ht, .inl ⟨hsame, rfl, rfl⟩⟩
  rw [if_neg hsame]
  have hpermit : (Change.bind k target).Permitted m'.hardware m'.store := by
    rintro p rfl
    exact ht.2.2
  exact ((rebind_ends h (ht.buildable hc hk) hpermit rfl).and (rebind_answers _ target)).mono
    (fun _ _ hf => ⟨hf.1.1, target, ht, .inr ⟨hsame, hf.1.2, hf.2⟩⟩)
    fun e _ he => ⟨he.1.1, .inr ⟨target, ht, hsame, he.1.2⟩⟩

end ManagerM

end SharedBuffer
