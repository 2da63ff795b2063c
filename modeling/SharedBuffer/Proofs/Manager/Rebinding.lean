/-
Binding a consumer to another profile, in one step or in two.

Whether a live profile takes a consumer is decided by its own pool: the pool has to be of the consumer's direction, and
to have room for the profile on the consumer's tile. Neither depends on where the consumer is bound so far, so a
consumer may be unbound first with nothing lost: the same is refused, with the same fault, and what is accepted comes to
the same store.

Results: `Call.Binds.decides`, what decides a binding, and `reached_rebinds`.
-/
import SharedBuffer.Proofs.Accounting.Rebinding
import SharedBuffer.Proofs.Manager.Teardown

namespace SharedBuffer

open Accounting Manager

/-- a call that binds a consumer to the profile that an id names, or unbinds it -/
def Call.Binds (c : Call) (x : Key) (id : ObjectId) : Prop :=
  ∃ object a spec, c.setting? = some (object, a) ∧ Key.ofId? object = some x ∧ checkSet x.kind a = .ok spec ∧
    Roster.profileConsumers.takes x.kind = true ∧ a.value = .oid id

/-- why a live profile is denied to a consumer: its pool is of the other direction, or has no room -/
inductive Manager.Denies (m : Manager) (q x : Key) : Fault → Prop where
  | direction {o : Key} {pool : Pool} (ho : m.store.ownerOf? .poolProfiles q = some o)
    (hpool : m.store.pool? o = some pool) (hacc : ¬ pool.direction.accepts x.kind = true) :
    Denies m q x (.badValueAt 0 (pool.direction.label ++ " pool cannot serve " ++ x.kind.name))
  | room {o : Key} {pool : Pool} {e : Fault} (ho : m.store.ownerOf? .poolProfiles q = some o)
    (hpool : m.store.pool? o = some pool) (hacc : pool.direction.accepts x.kind = true)
    (he : totals m.hardware m.store (.bind x (some q)) o = .error e) : Denies m q x e

section

variable {m m' : Manager} {L : Layout} {x p q : Key} {id : ObjectId} {c : Call} {e : Fault}

/-- a consumer can be bound to what an id names -/
theorem Manager.buildable_bind (m : Manager) (hx : x ∈ m.store.consumers) (id : ObjectId) :
    (Change.bind x (m.resolve? .profile id)).Buildable m.store := by
  refine ⟨Store.mem_consumers.1 hx, fun q hq => ?_⟩
  obtain ⟨-, hk, hc⟩ := ManagerM.resolve?_eq_some hq
  exact ⟨hc, hk⟩

/-! ## What a profile denies -/

theorem Manager.Denies.unique {e' : Fault} (h : m.Denies q x e) (h' : m.Denies q x e') : e = e' := by
  have hsame : ∀ {o o' pool pool'}, m.store.ownerOf? .poolProfiles q = some o → m.store.pool? o = some pool →
      m.store.ownerOf? .poolProfiles q = some o' → m.store.pool? o' = some pool' → o = o' ∧ pool = pool' := by
    intro o o' pool pool' ho hpool ho' hpool'
    obtain rfl := Option.some.inj (ho.symm.trans ho')
    exact ⟨rfl, Option.some.inj (hpool.symm.trans hpool')⟩
  cases h with
  | direction ho hpool hacc =>
    cases h' with
    | direction ho' hpool' hacc' => rw [(hsame ho hpool ho' hpool').2]
    | room ho' hpool' hacc' => exact absurd hacc' ((hsame ho hpool ho' hpool').2 ▸ hacc)
  | room ho hpool hacc he =>
    cases h' with
    | direction ho' hpool' hacc' => exact absurd hacc ((hsame ho hpool ho' hpool').2 ▸ hacc')
    | room ho' hpool' hacc' he' =>
      obtain ⟨rfl, -⟩ := hsame ho hpool ho' hpool'
      exact Except.error.inj (he.symm.trans he')

/-- what is denied is denied where only bindings differ, if the pools come to the same -/
theorem Manager.Denies.of_rebound (hd : m.Denies q x e) (h : m.store.Rebound m'.store)
    (htotals : ∀ o pool, m.store.pool? o = some pool →
      totals m'.hardware m'.store (.bind x (some q)) o = totals m.hardware m.store (.bind x (some q)) o) :
    m'.Denies q x e := by
  have howner : m'.store.ownerOf? .poolProfiles q = m.store.ownerOf? .poolProfiles q := h.owners _ _ (by decide)
  cases hd with
  | @direction o pool ho hpool hacc =>
    obtain ⟨pool', hpool', -, hdir⟩ := h.pool? hpool
    rw [← hdir] at hacc ⊢
    exact .direction (howner.trans ho) hpool' hacc
  | @room o pool _ ho hpool hacc he =>
    obtain ⟨pool', hpool', -, hdir⟩ := h.pool? hpool
    exact .room (howner.trans ho) hpool' (hdir ▸ hacc) ((htotals o pool hpool).trans he)

/-- **What is denied does not depend on where the consumer is bound.** -/
theorem Manager.denies_iff_of_unbound (hs : Sound m.hardware m.store L)
    (hs' : Sound m'.hardware m'.store (L.relink .profileConsumers x none)) (hhw : m'.hardware = m.hardware)
    (h : m.store.Rebound m'.store) (hb : (Change.bind x (some q)).Buildable m.store) :
    m'.Denies q x e ↔ m.Denies q x e := by
  have htotals : ∀ o pool, m.store.pool? o = some pool →
      totals m'.hardware m'.store (.bind x (some q)) o = totals m.hardware m.store (.bind x (some q)) o := by
    intro o pool hpool
    rw [hhw] at hs' ⊢
    exact h.totals_bind hs.wired hs'.wired hb (hb.congr fun _ => h.contains) hpool
  refine ⟨fun hd => hd.of_rebound h.symm fun o pool' hpool' => ?_, fun hd => hd.of_rebound h htotals⟩
  obtain ⟨pool, hpool, -⟩ := h.symm.pool? hpool'
  exact (htotals o pool hpool).symm

/-- a profile of a pool of the other direction is turned down before anything is planned -/
theorem ManagerM.bindingTarget_denied {kind : ObjectKind} {o : Key} {pool : Pool} (h : Sound m.hardware m.store L)
    (hres : m.resolve? .profile id = some q) (ho : m.store.ownerOf? .poolProfiles q = some o)
    (hpool : m.store.pool? o = some pool) (hacc : ¬ pool.direction.accepts kind = true) :
    (bindingTarget kind id).run m =
      (.error (.badValueAt 0 (pool.direction.label ++ " pool cannot serve " ++ kind.name)), m) := by
  obtain ⟨hid, hk, hc⟩ := resolve?_eq_some hres
  obtain ⟨r, hr⟩ := h.wired.exists_profile hc hk
  obtain ⟨o', pool', hrun, ho', -⟩ := exists_poolOf_run h hr
  obtain rfl := h.wired.linked.owner_unique ho' (h.wired.linked.ownerOf?_eq_some.1 ho)
  unfold bindingTarget
  rw [if_neg (Key.ne_nullId_of_ofId? hid)]
  refine (run_bind_ok (reading_run_ok (by rw [hres]))).trans ((run_bind_ok hrun).trans ?_)
  refine (run_bind_ok (readingStore_run_ok (Store.poolAt_eq hpool))).trans ?_
  simp only [hacc, Bool.not_false, if_true]
  rfl

/-- **A binding is refused exactly if it is denied**, or if its consumer was lost count of. -/
theorem ManagerM.tryBind_decides (h : Sound m.hardware m.store L) (hx : x ∈ m.store.consumers)
    (hres : m.resolve? .profile id = some q) (hother : m.store.ownerOf? .profileConsumers x ≠ some q) :
    Ends (tryBind x id) m
      (fun _ m' => Follows m L m' ∧ (Change.bind x (some q)).Outcome m.hardware m.store m'.store ∧ ∀ e, ¬ m.Denies q x e)
      (fun e _ => m.Denies q x e ∨ m.store.Uncounted x) := by
  obtain ⟨hxc, hxk⟩ := Store.mem_consumers.1 hx
  obtain ⟨hid, hqk, hqc⟩ := resolve?_eq_some hres
  obtain ⟨r, hr⟩ := h.wired.exists_profile hqc hqk
  obtain ⟨o, pool, -, hm, hpool⟩ := exists_poolOf_run h hr
  have ho := h.wired.linked.ownerOf?_eq_some.2 hm
  have hb : (Change.bind x (some q)).Buildable m.store := hres ▸ m.buildable_bind hx id
  by_cases hacc : pool.direction.accepts x.kind = true
  · have hto : m.BindsTo x.kind id (some q) :=
      ⟨Key.ne_nullId_of_ofId? hid, hres, r, o, pool, hr, (h.wired.mem_poolProfiles_iff hr).1 hm, hpool, hacc⟩
    refine (tryBind_ends h hxc hxk id).mono (fun _ m' hf => ?_) fun e m' he => ?_
    · obtain ⟨hf, target, hto', hdone⟩ := hf
      obtain rfl := hto.unique hto'
      obtain ⟨-, hout, -⟩ := hdone.resolve_left fun hidle => hother hidle.1
      refine ⟨hf, hout, fun e he => ?_⟩
      obtain ⟨figures, hplan⟩ := hout.planned
      cases he with
      | direction ho' hpool' hacc' =>
        obtain rfl := Option.some.inj (ho.symm.trans ho')
        obtain rfl := Option.some.inj (hpool.symm.trans hpool')
        exact hacc' hacc
      | room ho' _ _ he => cases hplan.symm.trans ((h.plan_bind_error_iff hb (hout.countable h hb) ho').2 he)
    · obtain ⟨target, hto', -, hwhy⟩ := he.2.resolve_left fun hnone => hnone.2 _ hto
      obtain rfl := hto.unique hto'
      by_cases hn : m.store.Uncounted x
      · exact .inr hn
      · have hplan := hwhy.resolve_right hn
        exact .inl (.room ho hpool hacc ((h.plan_bind_error_iff hb hn ho).1 hplan))
  · have hdenied : m.Denies q x _ := .direction ho hpool hacc
    exact Ends.of_run_error (run_bind_error (bindingTarget_denied h hres ho hpool hacc)) (.inl hdenied)

/-! ## Calls -/

/-- a call that binds goes on to the binding of its consumer -/
theorem Call.Binds.wraps (h : c.Binds x id) (hx : m.store.contains x = true) :
    ManagerM.Wraps (fun _ => nullId) m c.perform (ManagerM.tryBind x id) := by
  obtain ⟨object, a, spec, hset, hid, hcheck, htakes, ha⟩ := h
  have hbind : ManagerM.setObject x a = ManagerM.bindConsumer x id := by
    rw [ManagerM.setObject_consumer htakes, ManagerM.bindObject, ha]
    rfl
  have hobject := ManagerM.wraps_setAttribute (m := m) hid hcheck hx
  rw [hbind] at hobject
  rw [Call.perform_of_setting hset]
  exact ((ManagerM.wraps_bindConsumer x id m).trans hobject).trans (ManagerM.Wraps.map (fun _ => nullId) _ m)

/-- **What decides a call that binds** a consumer to a live profile. -/
theorem Call.Binds.decides (hc : c.Binds x id) (h : Sound m.hardware m.store L) (hx : x ∈ m.store.consumers)
    (hres : m.resolve? .profile id = some q) (hother : m.store.ownerOf? .profileConsumers x ≠ some q) :
    Ends c.perform m
      (fun _ m' => Follows m L m' ∧ (Change.bind x (some q)).Outcome m.hardware m.store m'.store ∧ ∀ e, ¬ m.Denies q x e)
      (fun e _ => m.Denies q x e ∨ m.store.Uncounted x) :=
  (hc.wraps (Store.mem_consumers.1 hx).1).ends (ManagerM.tryBind_decides h hx hres hother)
    (fun _ _ _ _ hp => ⟨hp.1.recorded, hp.2⟩) fun _ _ _ _ hq => hq

/-- a call that unbinds a consumer is answered, unless it was lost count of -/
theorem Call.Unbinds.ends (hc : c.Unbinds x) (h : Sound m.hardware m.store L) (hx : x ∈ m.store.consumers)
    (hbound : m.store.ownerOf? .profileConsumers x = some p) :
    Ends c.perform m (fun _ m' => Follows m L m' ∧ (Change.bind x none).Outcome m.hardware m.store m'.store)
      (fun _ _ => m.store.Uncounted x) := by
  obtain ⟨object, a, spec, hset, hid, hcheck, ha⟩ := hc
  obtain ⟨hxc, hxk⟩ := Store.mem_consumers.1 hx
  have hreq : m.Requests object a (.bind x none) := ⟨x, spec, hid, hcheck, hxc, .binding hxk (by rw [ha]; rfl) rfl⟩
  refine (Call.achieves h hset hreq).mono (fun _ m' hp => ⟨hp.1, ?_⟩) fun e _ hq => ?_
  · refine (hp.2.resolve_left fun hidle => ?_).2.2
    cases hbound.symm.trans hidle.1
  · by_contra hn
    have hb : (Change.bind x none).Buildable m.store := (m.buildable_bind hx nullId).unbind
    obtain ⟨figures, hplan⟩ := (Change.lightens_bind fun _ hnone => nomatch hnone :
      (Change.bind x none).Lightens m.hardware m.store L).exists_plan h hb hn
    rcases hq.2.2 with he | hcount | ⟨pool, size, hsize, -⟩
    · cases he.symm.trans hplan
    · exact hcount hn
    · cases hsize

/-- **Once its consumer is unbound, a call that binds is decided as before.** -/
theorem Call.Binds.decides_of_unbound (hc : c.Binds x id) (h : Sound m.hardware m.store L) (hx : x ∈ m.store.consumers)
    (hres : m.resolve? .profile id = some q) (hf : Follows m L m')
    (hout : (Change.bind x none).Outcome m.hardware m.store m'.store) :
    Ends c.perform m'
      (fun _ m₂ => (Change.bind x (some q)).Outcome m.hardware m'.store m₂.store ∧ ∀ e, ¬ m.Denies q x e)
      (fun e _ => m.Denies q x e) := by
  obtain ⟨hxc, hxk⟩ := Store.mem_consumers.1 hx
  obtain ⟨hid, hqk, hqc⟩ := ManagerM.resolve?_eq_some hres
  have hb : (Change.bind x (some q)).Buildable m.store := hres ▸ m.buildable_bind hx id
  have hs' : Sound m'.hardware m'.store (L.relink .profileConsumers x none) := by
    rw [hf.hardware, ← Change.relayout_bind]
    exact hout.sound h hb.unbind
  have hfree : m'.store.ownerOf? .profileConsumers x = none := by rw [hout.binding h hb.unbind, if_pos rfl]
  have hdenies : ∀ e, m'.Denies q x e ↔ m.Denies q x e := fun e =>
    denies_iff_of_unbound h hs' hf.hardware (hout.rebound h hb.unbind) hb
  refine (hc.decides hs' (Store.mem_consumers.2 ⟨hout.contains.trans hxc, hxk⟩)
    (ManagerM.resolve?_of hid hqk (hout.contains.trans hqc)) (by simp [hfree])).mono (fun _ m₂ hp => ?_) fun e m₂ hq => ?_
  · rw [hf.hardware] at hp
    exact ⟨hp.2.1, fun e he => hp.2.2 e ((hdenies e).2 he)⟩
  · exact (hdenies e).1 (hq.resolve_right (Store.not_uncounted_of_free hfree))

/-! ## One step or two -/

/-- a consumer is bound to one profile, and an id names another one -/
structure Manager.Swaps (m : Manager) (x p q : Key) (id : ObjectId) : Prop where
  bound : m.store.ownerOf? .profileConsumers x = some p
  named : m.resolve? .profile id = some q
  other : q ≠ p

namespace Manager.Swaps

theorem consumer (h : m.Swaps x p q id) (hs : Sound m.hardware m.store L) : x ∈ m.store.consumers :=
  Store.mem_consumers.2 (hs.wired.takes_of_mem (hs.wired.linked.ownerOf?_eq_some.1 h.bound))

theorem elsewhere (h : m.Swaps x p q id) : m.store.ownerOf? .profileConsumers x ≠ some q := by
  intro e
  exact h.other (Option.some.inj (e.symm.trans h.bound))

theorem buildable (h : m.Swaps x p q id) (hs : Sound m.hardware m.store L) :
    (Change.bind x (some q)).Buildable m.store := h.named ▸ m.buildable_bind (h.consumer hs) id

end Manager.Swaps

variable {unbinding binding : Call} {a : ObjectId} {m₁ m₂ : Manager}

/-- a consumer that is bound directly can be unbound first -/
theorem Call.Binds.in_two_steps (hbind : binding.Binds x id) (hunbind : unbinding.Unbinds x)
    (hs : Sound m.hardware m.store L) (h : m.Swaps x p q id) (hrun : binding.perform.run m = (.ok a, m₁)) :
    ∃ m₂, m.Completes [unbinding, binding] m₂ := by
  have hx := h.consumer hs
  -- accepted directly, so the consumer is counted and nothing is denied
  obtain ⟨-, hout, hfree⟩ := (hbind.decides hs hx h.named h.elsewhere).ok hrun
  have hleave := hunbind.ends hs hx h.bound
  rcases hr₀ : unbinding.perform.run m with ⟨e | a₀, m₀⟩
  · exact absurd (hleave.error hr₀) (hout.countable hs (h.buildable hs))
  obtain ⟨hf, hout₀⟩ := hleave.ok hr₀
  rcases hr₂ : binding.perform.run m₀ with ⟨e | a₂, m₂⟩
  · exact absurd ((hbind.decides_of_unbound hs hx h.named hf hout₀).error hr₂) (hfree e)
  · exact ⟨m₂, a₀, m₀, hr₀, a₂, m₂, hr₂, rfl⟩

/-- a consumer that is unbound first can be bound directly, to the same store -/
theorem Call.Binds.in_one_step (hbind : binding.Binds x id) (hunbind : unbinding.Unbinds x)
    (hs : Sound m.hardware m.store L) (h : m.Swaps x p q id) (hrun : m.Completes [unbinding, binding] m₂) :
    ∃ a m₁, binding.perform.run m = (.ok a, m₁) ∧ m₂.store = m₁.store := by
  have hx := h.consumer hs
  have hb := h.buildable hs
  have hdirect := hbind.decides hs hx h.named h.elsewhere
  obtain ⟨a₀, m₀, hr₀, a₂, _, hr₂, rfl⟩ := hrun
  obtain ⟨hf, hout₀⟩ := (hunbind.ends hs hx h.bound).ok hr₀
  obtain ⟨hout₂, hfree⟩ := (hbind.decides_of_unbound hs hx h.named hf hout₀).ok hr₂
  rcases hr : binding.perform.run m with ⟨e | a, m₁⟩
  · rcases hdirect.error hr with hdenied | hcount
    · exact absurd hdenied (hfree e)
    · exact absurd hcount (hout₀.countable hs hb.unbind)
  · exact ⟨a, m₁, rfl, (hdirect.ok hr).2.1.eq_of_unbound hs hb hout₀ hout₂⟩

/-- a counted consumer that is denied a profile can be unbound, and is denied it then -/
theorem Call.Binds.denied_in_two_steps (hbind : binding.Binds x id) (hunbind : unbinding.Unbinds x)
    (hs : Sound m.hardware m.store L) (h : m.Swaps x p q id) (hn : ¬ m.store.Uncounted x)
    (hrun : binding.perform.run m = (.error e, m₁)) :
    ∃ m₀ m₂, m.Completes [unbinding] m₀ ∧ binding.perform.run m₀ = (.error e, m₂) := by
  have hx := h.consumer hs
  have hdenied := ((hbind.decides hs hx h.named h.elsewhere).error hrun).resolve_right hn
  have hleave := hunbind.ends hs hx h.bound
  rcases hr₀ : unbinding.perform.run m with ⟨e' | a₀, m₀⟩
  · exact absurd (hleave.error hr₀) hn
  obtain ⟨hf, hout₀⟩ := hleave.ok hr₀
  have hagain := hbind.decides_of_unbound hs hx h.named hf hout₀
  rcases hr₂ : binding.perform.run m₀ with ⟨e' | a₂, m₂⟩
  · obtain rfl := hdenied.unique (hagain.error hr₂)
    exact ⟨m₀, m₂, ⟨a₀, m₀, hr₀, rfl⟩, hr₂⟩
  · exact absurd hdenied ((hagain.ok hr₂).2 e)

end

/-- **A consumer may be unbound first.** Whatever is reached, binding a consumer that is bound to one profile to another
live profile is accepted exactly if unbinding it and then binding it are, and both ways end with the same store:
records, links, counts and figures. Where it is refused, the consumer can be unbound, and is then refused with the same
fault; for this it has to be counted where it is bound, as it is if no profile has had more consumers than 32 bits
count. -/
theorem reached_rebinds {hw : Hardware} {m : Manager} (hm : m.Reached hw) {x p q : Key} {id : ObjectId}
    {unbinding binding : Call} (hbound : m.store.ownerOf? .profileConsumers x = some p)
    (hlive : m.resolve? .profile id = some q) (hne : q ≠ p) (hunbind : unbinding.Unbinds x)
    (hbind : binding.Binds x id) :
    ((∃ a m₁, binding.perform.run m = (.ok a, m₁)) ↔ ∃ m₂, m.Completes [unbinding, binding] m₂) ∧
      (∀ a m₁ m₂, binding.perform.run m = (.ok a, m₁) → m.Completes [unbinding, binding] m₂ → m₂.store = m₁.store) ∧
      (¬ m.store.Uncounted x → ∀ e m₁, binding.perform.run m = (.error e, m₁) →
        ∃ m₀ m₂, m.Completes [unbinding] m₀ ∧ binding.perform.run m₀ = (.error e, m₂)) ∧
      (m.Tallied hw → ¬ m.store.Uncounted x) := by
  obtain ⟨rfl, L, hs⟩ := hm.sound
  have hswap : m.Swaps x p q id := ⟨hbound, hlive, hne⟩
  refine ⟨⟨?_, ?_⟩, ?_, ?_, ?_⟩
  · rintro ⟨a, m₁, hr⟩
    exact hbind.in_two_steps hunbind hs hswap hr
  · rintro ⟨m₂, hr⟩
    obtain ⟨a, m₁, hr₁, -⟩ := hbind.in_one_step hunbind hs hswap hr
    exact ⟨a, m₁, hr₁⟩
  · intro a m₁ m₂ hr hr₂
    obtain ⟨a', m', hr', hsame⟩ := hbind.in_one_step hunbind hs hswap hr₂
    obtain ⟨-, rfl⟩ := Prod.mk.inj (hr.symm.trans hr')
    exact hsame
  · intro hn e m₁ hr
    exact hbind.denied_in_two_steps hunbind hs hswap hn hr
  · intro htallied
    obtain ⟨-, L, hs, ht⟩ := htallied.tight
    exact ht.not_uncounted hs.wired

/-- the small switch with a third profile, for which there is room -/
def roomy : Manager :=
  (start twoTiles true).live (crowding ++
    [.call (.createProfile { pool := firstPool, size := 500, threshold := .dynamic 1 })])

/-- on the small switch the group can go to a smaller profile either way, to the same store, and to the largest one
neither way -/
theorem roomy_rebinds :
    (∃ a m₁ m₂, (Call.bindGroup firstGroup (some (profileAfter 2))).perform.run roomy = (.ok a, m₁) ∧
      roomy.Completes [.bindGroup firstGroup none, .bindGroup firstGroup (some (profileAfter 2))] m₂ ∧
        m₂.store = m₁.store) ∧
      ∃ e m₀ m₁ m₂, (Call.bindGroup firstGroup (some (profileAfter 1))).perform.run roomy = (.error e, m₁) ∧
        roomy.Completes [.bindGroup firstGroup none] m₀ ∧
          (Call.bindGroup firstGroup (some (profileAfter 1))).perform.run m₀ = (.error e, m₂) := by
  have hbound : roomy.store.ownerOf? .profileConsumers firstGroup.key = some (profileAfter 0).key := by decide +kernel
  have hunbind : (Call.bindGroup firstGroup none).Unbinds firstGroup.key :=
    ⟨firstGroup.raw, _, PriorityGroupAttribute.profile.spec, rfl, by decide +kernel, by decide +kernel, rfl⟩
  have hbind : ∀ n, (Call.bindGroup firstGroup (some (profileAfter n))).Binds firstGroup.key (profileAfter n).raw :=
    fun n => ⟨firstGroup.raw, _, PriorityGroupAttribute.profile.spec, rfl, by decide +kernel, rfl, rfl, rfl⟩
  constructor
  · obtain ⟨haccepted, hsame, -⟩ := reached_rebinds (m := roomy) ⟨true, _, rfl⟩ hbound
      (show roomy.resolve? .profile (profileAfter 2).raw = some (profileAfter 2).key by decide +kernel) (by decide)
      hunbind (hbind 2)
    have hok : ((Call.bindGroup firstGroup (some (profileAfter 2))).perform.run roomy).1.isOk = true := by
      decide +kernel
    rcases hr : (Call.bindGroup firstGroup (some (profileAfter 2))).perform.run roomy with ⟨e | a, m₁⟩
    · rw [hr] at hok
      cases hok
    · obtain ⟨m₂, hrun₂⟩ := haccepted.1 ⟨a, m₁, hr⟩
      exact ⟨a, m₁, m₂, rfl, hrun₂, hsame a m₁ m₂ hr hrun₂⟩
  · have hreached : Reached twoTiles roomy := ⟨true, _, rfl⟩
    obtain ⟨-, -, hrefused, hcounted⟩ := reached_rebinds hreached hbound
      (show roomy.resolve? .profile (profileAfter 1).raw = some (profileAfter 1).key by decide +kernel) (by decide)
      hunbind (hbind 1)
    have hno : ((Call.bindGroup firstGroup (some (profileAfter 1))).perform.run roomy).1.isOk = false := by
      decide +kernel
    rcases hr : (Call.bindGroup firstGroup (some (profileAfter 1))).perform.run roomy with ⟨e | a, m₁⟩
    · obtain ⟨m₀, m₂, hrun₀, hrun₂⟩ := hrefused (hcounted (hreached.tallied (by decide +kernel))) e m₁ hr
      exact ⟨e, m₀, m₁, m₂, rfl, hrun₀, hrun₂⟩
    · rw [hr] at hno
      cases hno

end SharedBuffer
