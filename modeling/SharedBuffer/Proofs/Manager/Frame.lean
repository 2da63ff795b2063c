/-
The frame of an accepted request.

A request is about the objects that it names, and about those that these draw on: a profile takes from its pool, a
consumer from its profile and from the pool of that. `Request.Touches` lists them for each request, by the store before
it and the store after. Everything else is spared: it is shown as before, and its lists have the same members in the same
order, though lists run through records that the request never named.

Results: `Request.spared`, and `reached_frame` for whatever is reached.
-/
import SharedBuffer.Proofs.Manager.Guarantees
import SharedBuffer.Proofs.Manager.References
import SharedBuffer.Proofs.Manager.Settings
import SharedBuffer.Proofs.Manager.Terms

namespace SharedBuffer

open Accounting ManagerM

/-! ## What a request may touch -/

/-- the objects that an accepted request may show otherwise, from a store `s` to a store `t` -/
inductive Request.Touches (s t : Store Record) (answer : ObjectId) : Request → Key → Prop where
  | created {kind : ObjectKind} {attrs : List Attribute} {k : Key} (id : Key.ofId? answer = some k)
    (new : s.contains k = false) : Touches s t answer (.create kind attrs) k
  /-- the pool of a new profile -/
  | joined {attrs : List Attribute} {k pool : Key} (id : Key.ofId? answer = some k)
    (owner : t.ownerOf? .poolProfiles k = some pool) : Touches s t answer (.create .profile attrs) pool
  | removed {object : ObjectId} {k : Key} (id : Key.ofId? object = some k) : Touches s t answer (.remove object) k
  /-- the former pool of a profile that goes -/
  | left {object : ObjectId} {k pool : Key} (id : Key.ofId? object = some k)
    (owner : s.ownerOf? .poolProfiles k = some pool) : Touches s t answer (.remove object) pool
  | set {object : ObjectId} {a : Attribute} {k : Key} (id : Key.ofId? object = some k) :
    Touches s t answer (.setAttribute object a) k
  /-- the pool of a profile that is set -/
  | charged {object : ObjectId} {a : Attribute} {k pool : Key} (id : Key.ofId? object = some k)
    (kind : k.kind = .profile) (owner : s.ownerOf? .poolProfiles k = some pool) :
    Touches s t answer (.setAttribute object a) pool
  /-- the new pool of a profile that moves -/
  | entered {object : ObjectId} {a : Attribute} {k pool : Key} (id : Key.ofId? object = some k)
    (moved : ProfileAttribute.ofId? a.id = some .poolId) (owner : t.ownerOf? .poolProfiles k = some pool) :
    Touches s t answer (.setAttribute object a) pool
  /-- the old and the new profile of a consumer -/
  | bound {object : ObjectId} {a : Attribute} {x profile : Key} (id : Key.ofId? object = some x)
    (profiles : s.ownerOf? .profileConsumers x = some profile ∨ t.ownerOf? .profileConsumers x = some profile) :
    Touches s t answer (.setAttribute object a) profile
  /-- the pools of these -/
  | supplied {object : ObjectId} {a : Attribute} {x profile pool : Key} (id : Key.ofId? object = some x)
    (profiles : s.ownerOf? .profileConsumers x = some profile ∨ t.ownerOf? .profileConsumers x = some profile)
    (owner : s.ownerOf? .poolProfiles profile = some pool) : Touches s t answer (.setAttribute object a) pool
  | registered {number groups queues : UInt32} {k : Key} (id : Key.ofId? answer = some k)
    (new : s.contains k = false) : Touches s t answer (.registerPort number groups queues) k
  /-- the priority groups and queues of a new port -/
  | equipped {number groups queues : UInt32} {R : Roster} {k port : Key} (id : Key.ofId? answer = some port)
    (roster : R = .portPriorityGroups ∨ R = .portQueues) (owner : t.ownerOf? R k = some port)
    (new : s.contains k = false) : Touches s t answer (.registerPort number groups queues) k

/-- the request by object id that a call comes to -/
def Call.asRequest : Call → Request
  | request r => r
  | createPool direction size mode => .create .pool (poolAttributes direction size mode)
  | createProfile params => .create .profile params.toAttributes
  | setPoolSize pool size => .setAttribute pool.raw ⟨PoolAttribute.size.id, .u64 size⟩
  | setProfileAttribute profile a value => .setAttribute profile.raw ⟨a.id, value⟩
  | bindGroup group profile => .setAttribute group.raw ⟨PriorityGroupAttribute.profile.id, profileOrNull profile⟩
  | bindQueue queue profile => .setAttribute queue.raw ⟨QueueAttribute.profile.id, profileOrNull profile⟩
  | bindPort port profile => .setAttribute port.raw ⟨PortAttribute.ingressProfile.id, profileOrNull profile⟩
  | removePool pool => .remove pool.raw
  | removeProfile profile => .remove profile.raw

/-- a typed creation that is accepted was accepted by object id, with the same answer -/
theorem ManagerM.createTyped_ok {m m' : Manager} {kind kind' : ObjectKind} {attrs : List Attribute} {id : ObjectId}
    (h : (do
      let handle ← create kind attrs >>= fun object => reading fun _ => Handle.requireId kind' object
      return handle.raw : ManagerM ObjectId).run m = (.ok id, m')) : (create kind attrs).run m = (.ok id, m') := by
  rcases hr : (create kind attrs).run m with ⟨e | object, t⟩
  · rw [run_bind_error (run_bind_error hr)] at h
    cases h
  by_cases hkind : ObjectKind.ofId? object = some kind'
  · have hread : (reading fun _ => Handle.requireId kind' object).run t = (.ok ⟨object⟩, t) := by
      simp only [reading, Handle.requireId, Handle.ofId?, hkind, if_true, ExceptT.run_mk]
    rw [run_bind_ok ((run_bind_ok hr).trans hread)] at h
    cases h
    rfl
  · have hread : ∃ e, (reading fun _ => Handle.requireId kind' object).run t = (.error e, t) := by
      simp only [reading, Handle.requireId, Handle.ofId?, if_neg hkind, ExceptT.run_mk]
      exact ⟨_, rfl⟩
    obtain ⟨e, hread⟩ := hread
    rw [run_bind_error ((run_bind_ok hr).trans hread)] at h
    cases h

/-- **An accepted call is an accepted request.** -/
theorem Call.asRequest_run {m m' : Manager} {c : Call} {id : ObjectId} (h : c.perform.run m = (.ok id, m')) :
    c.asRequest.perform.run m = (.ok id, m') := by
  cases c with
  | createPool | createProfile => exact createTyped_ok h
  | _ => exact h

/-! ## Changes -/

section

variable {hw : Hardware} {s t : Store Record} {L : Layout} {c : Change} {k : Key}

/-- the objects that a change is about, and the pools whose figures depend on it -/
def Change.Reaches (s : Store Record) (c : Change) (k : Key) : Prop :=
  (∃ target, c = .bind k target) ∨ k ∈ c.named s ∨ Wired.DrawsOn s k c

/-- **A planned change spares what it does not reach.** -/
theorem Change.Outcome.spared (h : c.Outcome hw s t) (hs : Sound hw s L) (hb : c.Buildable s)
    (hm : Moves hw s t) (hk : ¬ c.Reaches s k) : s.Spared t k := by
  obtain ⟨w', -⟩ := h.applied hs hb
  simp only [Reaches, not_or, not_exists] at hk
  obtain ⟨hself, hnamed, hdraws⟩ := hk
  obtain ⟨figures, u, hplan, hrun, rfl⟩ := h
  have hfigures : k ∉ figures.map Prod.fst := fun hin => hdraws (hs.wired.drawsOn_of_mem (plan_ok hplan).1 hin)
  obtain ⟨halike, hlists⟩ := c.alike_apply hs hplan hrun hself hfigures hnamed
  have hwritten : u.Alike (u.written figures) k := .of_get? (Store.get?_written u hfigures)
  exact (halike.trans hwritten).spared hs.wired w' hlists fun o q q' => (hm.lasting hs).pools o q q'

/-- another threshold spares the other objects -/
theorem Sound.spared_threshold {j : Key} (hs : Sound hw s L) (threshold : Threshold)
    (hm : Moves hw s (s.edit j (Record.mapProfile fun p => { p with threshold }))) (hk : k ≠ j) :
    s.Spared (s.edit j (Record.mapProfile fun p => { p with threshold })) k := by
  have hkeep : Record.KeepsWiring (Record.mapProfile fun p => { p with threshold }) :=
    Record.keepsWiring_mapProfile (fun _ => rfl) (fun _ => rfl) fun _ => rfl
  exact (Store.Alike.of_edit hk).spared hs.wired (hs.wired.edit hkeep) (fun _ => rfl) fun o q q' =>
    (hm.lasting hs).pools o q q'

end

/-! ## Requests -/

section

variable {m m' : Manager} {L : Layout} {object id : ObjectId} {a : Attribute} {k j : Key}

/-- what a set request reaches is what it may touch -/
theorem Manager.AsksFor.touches {c : Change} (h : m.AsksFor k a c) (hid : Key.ofId? object = some k)
    (hs : Sound m.hardware m.store L) (hb : c.Buildable m.store) (hout : c.Outcome m.hardware m.store m'.store)
    (hj : c.Reaches m.store j) : (Request.setAttribute object a).Touches m.store m'.store id j := by
  cases h with
  | @binding value target hk hvalue hto =>
    have hnew : m'.store.ownerOf? .profileConsumers k = target := by rw [hout.binding hs hb, if_pos rfl]
    rcases hj with ⟨target', e⟩ | hj | ⟨p, hp, ho⟩
    · cases e
      exact .set hid
    · rcases List.mem_append.1 hj with hj | hj
      · exact .bound hid (.inl (Option.mem_toList.1 hj))
      · exact .bound hid (.inr (hnew.trans (Option.mem_toList.1 hj)))
    · exact .supplied hid (hp.imp_right fun e => hnew.trans e) ho
  | profileSize hk | xoff hk | xon hk =>
    rcases hj with ⟨target, e⟩ | hj | ho
    · cases e
    · obtain rfl := List.mem_singleton.1 hj
      exact .set hid
    · exact .charged hid hk ho
  | @profilePool p pool target q q' value hk ha =>
    rcases hj with ⟨target, e⟩ | hj | ho | rfl
    · cases e
    · obtain rfl := List.mem_singleton.1 hj
      exact .set hid
    · exact .charged hid hk ho
    · exact .entered hid ha (by rw [hout.housing hs hb, if_pos rfl])
  | poolSize =>
    rcases hj with ⟨target, e⟩ | hj | rfl
    · cases e
    · cases hj
    · exact .set hid

theorem ManagerM.spared_setAttribute (hs : Sound m.hardware m.store L)
    (h : (Request.setAttribute object a).perform.run m = (.ok id, m'))
    (hj : ¬ (Request.setAttribute object a).Touches m.store m'.store id j) : m.store.Spared m'.store j := by
  obtain ⟨k, spec, hid, hcheck, hc, hf, hsets⟩ := Call.sets (c := .request (.setAttribute object a)) hs rfl h
  cases hsets with
  | @threshold threshold hk given edited =>
    have hm := hf.moves
    rw [edited] at hm ⊢
    exact hs.spared_threshold threshold hm fun e => hj (e ▸ .set hid)
  | @change c asked obtained =>
    have hb := asked.buildable hs.wired hc
    rcases obtained with hout | ⟨-, hsame⟩
    · exact hout.spared hs hb hf.moves fun hreach => hj (asked.touches hid hs hb hout hreach)
    · exact hsame ▸ .refl m.store j

theorem ManagerM.spared_create {kind : ObjectKind} {attrs : List Attribute} (hs : Sound m.hardware m.store L)
    (h : (Request.create kind attrs).perform.run m = (.ok id, m'))
    (hj : ¬ (Request.create kind attrs).Touches m.store m'.store id j) : m.store.Spared m'.store j := by
  obtain ⟨hf, -, k, rfl, hcreated, hmade⟩ := (create_ends hs kind attrs).ok h
  have hregime : ∀ o q q', m.store.pool? o = some q → m'.store.pool? o = some q' → q'.regime = q.regime :=
    (hf.moves.lasting hs).pools
  have hnew : m.store.contains k = false := Bool.eq_false_iff.2 fun hc => hcreated.new (hs.wired.handed.issued hc)
  have hjk : j ≠ k := by
    rintro rfl
    exact hj (.created hcreated.ofId? hnew)
  cases hmade with
  | @pool r asked new =>
    obtain ⟨hs', -⟩ := hs.insert new (Pool.unlinked_fresh ..) rfl (fun p hp => by cases hp) rfl
      fun p hp => by cases hp; rfl
    exact new.spared hs.wired hs'.wired hregime hjk
  | @profile pool p asked new =>
    obtain ⟨u, hins, hrun⟩ := new
    obtain ⟨⟨poolId, hres⟩, hlink, hcons, hrefs⟩ := Manager.profileOfAttributes_ok asked
    obtain ⟨-, hpk, hpc⟩ := resolve?_eq_some hres
    obtain ⟨u', hrun', hs', -⟩ := hs.adopt hins (Profile.unlinked hlink hcons hrefs) rfl rfl hpc hpk
    obtain rfl := congrArg Prod.snd (hrun'.symm.trans hrun)
    have howner : m'.store.ownerOf? .poolProfiles k = some pool :=
      hs'.wired.linked.ownerOf?_eq_some.2 (by rw [Layout.set_self]; simp)
    have hjo : j ≠ pool := fun e => hj (e ▸ .joined hcreated.ofId? howner)
    exact hins.spared_of_attach hrun hs.wired hs'.wired hregime hjo hjk

/-- what is removed is a pool or a profile without references -/
theorem ManagerM.removes (hs : Sound m.hardware m.store L) (object : ObjectId) :
    Ends (remove object) m (fun _ m' => ∃ k, Key.ofId? object = some k ∧ m.Removal L k m') fun _ _ => True := by
  by_cases hgood : ∃ k, Key.ofId? object = some k ∧ (k.kind = .pool ∨ k.kind = .profile)
  · obtain ⟨k, hid, hk⟩ := hgood
    exact (remove_verdict hs hid hk).mono (fun _ _ hr => ⟨k, hid, hr⟩) fun _ _ _ => trivial
  · have hrefused : Ends (reading (fun _ => Key.require object) >>= removeObject) m (fun _ _ => False)
        fun _ _ => True := by
      refine ends_reading (fun k hk => ?_) fun _ _ => trivial
      have hid := Key.require_eq_ok hk
      unfold removeObject
      split
      · rename_i hpool
        exact (hgood ⟨k, hid, .inl hpool⟩).elim
      · rename_i hprofile
        exact (hgood ⟨k, hid, .inr hprofile⟩).elim
      · exact Ends.throw trivial
    rw [remove_eq]
    exact (wraps_counted _ m).ends hrefused (fun _ _ _ _ hf => hf.elim) fun _ _ _ _ _ => trivial

theorem ManagerM.spared_remove (hs : Sound m.hardware m.store L)
    (h : (Request.remove object).perform.run m = (.ok id, m'))
    (hj : ¬ (Request.remove object).Touches m.store m'.store id j) : m.store.Spared m'.store j := by
  have hends : Ends (Request.remove object).perform m
      (fun _ m' => ∃ k, Key.ofId? object = some k ∧ m.Removal L k m') fun _ _ => True :=
    Ends.bind (removes hs object) fun _ _ hr => Ends.pure hr
  obtain ⟨k, hid, hgone⟩ := hends.ok h
  exact hgone.without.spared j (fun e => hj (e ▸ .removed hid)) fun ho => hj (.left hid ho)

theorem ManagerM.spared_registerPort {number groups queues : UInt32} (hs : Sound m.hardware m.store L)
    (h : (Request.registerPort number groups queues).perform.run m = (.ok id, m'))
    (hj : ¬ (Request.registerPort number groups queues).Touches m.store m'.store id j) :
    m.store.Spared m'.store j := by
  obtain ⟨-, port, rfl, hcreated, henlarged, L', hs', -⟩ := (Call.registration_ends hs number groups queues).ok h
  have hnew : m.store.contains port = false := Bool.eq_false_iff.2 fun hc => hcreated.new (hs.wired.handed.issued hc)
  have hjp : j ≠ port := by
    rintro rfl
    exact hj (.registered hcreated.ofId? hnew)
  cases hc : m.store.contains j with
  | true => exact henlarged.spared j hc hjp
  | false =>
    refine .of_absent hc (Bool.eq_false_iff.2 fun hc' => ?_)
    -- what else is new is a group or a queue, and the lists of the other ports are as they were
    have hsub : j.kind = .priorityGroup ∨ j.kind = .queue := by
      rcases henlarged.fresh j hc' with hold | hport | hsub
      · rw [hc] at hold
        cases hold
      · exact absurd hport hjp
      · exact hsub
    obtain ⟨R, hhome, hR⟩ : ∃ R, j.kind.home? = some R ∧ (R = .portPriorityGroups ∨ R = .portQueues) := by
      rcases hsub with hsub | hsub <;> rw [hsub]
      · exact ⟨_, rfl, .inl rfl⟩
      · exact ⟨_, rfl, .inr rfl⟩
    obtain ⟨o, hmem, hoc, hok⟩ := hs'.wired.home j R hc' hhome (by simp)
    have hport : o = port := by
      by_contra hne
      have hold : m.store.contains o = true := by
        rcases henlarged.fresh o hoc with hold | hport | hother
        · exact hold
        · exact absurd hport hne
        · rw [hok] at hother
          rcases hR with rfl | rfl <;> rcases hother with hother | hother <;> cases hother
      have hsame := (henlarged.spared o hold hne).members R hok
      rw [hs'.wired.members_eq hoc hok, hs.wired.members_eq hold hok, Except.ok.injEq] at hsame
      rw [hsame] at hmem
      rw [(hs.wired.takes_of_mem hmem).1] at hc
      cases hc
    subst hport
    exact hj (.equipped hcreated.ofId? hR (hs'.wired.linked.ownerOf?_eq_some.2 hmem) hc)

/-- **An accepted request spares what it does not touch.** -/
theorem Request.spared {r : Request} (hs : Sound m.hardware m.store L) (h : r.perform.run m = (.ok id, m'))
    (hj : ¬ r.Touches m.store m'.store id j) : m.store.Spared m'.store j := by
  cases r with
  | registerPort number groups queues => exact spared_registerPort hs h hj
  | create kind attrs => exact spared_create hs h hj
  | remove object => exact spared_remove hs h hj
  | setAttribute object a => exact spared_setAttribute hs h hj

end

/-! ## Whatever is reached -/

/-- a pool that is spared has the figures it had -/
theorem Store.Spared.exists_pool {hw : Hardware} {s t : Store Record} {L L' : Layout} {k : Key} {q : Pool}
    (h : s.Spared t k) (w : Wired hw s L none) (w' : Wired hw t L' none) (hq : s.pool? k = some q) :
    ∃ q', t.pool? k = some q' ∧ q'.size = q.size ∧ q'.totals = q.totals := by
  have hshown := h.snapshot
  rw [Store.snapshot_of_get? (Store.pool?_eq_some.1 hq)] at hshown
  have hc : t.contains k = true := by
    by_contra hout
    rw [Store.snapshot_of_absent (Bool.eq_false_iff.2 hout)] at hshown
    cases hshown
  obtain ⟨q', hq'⟩ := w'.exists_pool hc (w.kind_of_pool? hq)
  rw [Store.snapshot_of_get? (Store.pool?_eq_some.1 hq')] at hshown
  simp only [Record.snapshotIn, Except.ok.injEq, Snapshot.pool.injEq, PoolSnapshot.of, PoolSnapshot.mk.injEq] at hshown
  obtain ⟨-, -, -, hsize, hshared, htiles, htotal, -⟩ := hshown
  exact ⟨q', hq', hsize, by simp only [Pool.totals, hshared, htiles, htotal]⟩

/-- **The frame of an accepted request.** Whatever is reached, what an accepted call shows otherwise than before is what
its request touches: the new pool; the new profile and its pool; the pool that is resized; the profile that is set and its
pool, and the pool it moves to; the consumer that is bound, its old and its new profile and their pools; the object that is
removed and the pool it was in; the new port with its groups and queues. In particular the figures of any other pool are
the same, and so are the consumers of any other profile, in their order. -/
theorem reached_frame {hw : Hardware} {m m' : Manager} (hm : m.Reached hw) {c : Call} {id : ObjectId}
    (h : c.perform.run m = (.ok id, m')) :
    (∀ k, m'.store.snapshot k ≠ m.store.snapshot k → c.asRequest.Touches m.store m'.store id k) ∧
      (∀ k q, ¬ c.asRequest.Touches m.store m'.store id k → m.store.pool? k = some q →
        ∃ q', m'.store.pool? k = some q' ∧ q'.size = q.size ∧ q'.totals = q.totals) ∧
      ∀ k, ¬ c.asRequest.Touches m.store m'.store id k → k.kind = .profile →
        m'.store.members .profileConsumers k = m.store.members .profileConsumers k := by
  obtain ⟨rfl, L, hs⟩ := hm.sound
  have hspared : ∀ k, ¬ c.asRequest.Touches m.store m'.store id k → m.store.Spared m'.store k := fun k hk =>
    Request.spared hs (Call.asRequest_run h) hk
  obtain ⟨L', hs', -⟩ := ((c.settles hs).ok h).sound
  refine ⟨fun k hk => ?_, fun k q hk hq => ?_, fun k hk hkind => ?_⟩
  · by_contra hout
    exact hk (hspared k hout).snapshot
  · exact (hspared k hk).exists_pool hs.wired hs'.wired hq
  · exact (hspared k hk).members .profileConsumers hkind

/-- when the only group of a profile is unbound, its pool is shown otherwise, and it is touched -/
theorem crowded_frame :
    let c := Call.bindGroup firstGroup none
    ∃ id m', c.perform.run crowded = (.ok id, m') ∧
      m'.store.snapshot firstPool.key ≠ crowded.store.snapshot firstPool.key ∧
      c.asRequest.Touches crowded.store m'.store id firstPool.key := by
  intro c
  have hshown : (c.perform.run crowded).1.isOk = true ∧
      (c.perform.run crowded).2.store.snapshot firstPool.key ≠ crowded.store.snapshot firstPool.key := by
    decide +kernel
  obtain ⟨haccepted, hdiffers⟩ := hshown
  rcases hr : c.perform.run crowded with ⟨e | id, m'⟩
  · rw [hr] at haccepted
    cases haccepted
  · rw [hr] at hdiffers
    exact ⟨id, m', rfl, hdiffers, (reached_frame (m := crowded) ⟨true, crowding, rfl⟩ hr).1 firstPool.key hdiffers⟩

end SharedBuffer
