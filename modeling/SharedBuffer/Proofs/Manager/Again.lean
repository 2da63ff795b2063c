/-
Setting an attribute once more.

An accepted set request that is made again finds that nothing is left to be done. Where it is about a binding or a move
it looks for that first and stops. Every other one is checked and planned anew, against a store that it is part of
already: the plan comes to the figures that are there, since those were derived from what is there, and what is written
is what was there. So nothing is refused, and no list is put in another order.

Result: `reached_sets_again`.
-/
import SharedBuffer.Proofs.Manager.Capacity
import SharedBuffer.Proofs.Manager.Guarantees
import SharedBuffer.Proofs.Manager.Settings
import SharedBuffer.Proofs.Manager.Terms

namespace SharedBuffer

open Accounting Manager

/-! ## Changes that are made already -/

namespace Store

variable {s : Store Record} {k : Key} {r : Record} {f : Record → Record}

theorem edit_eq_self (hr : s.get? k = some r) (hf : f r = r) : s.edit k f = s := by
  refine ext_get? rfl fun j => ?_
  rw [get?_edit]
  split
  · rename_i hj
    rw [hj, hr, Option.map_some, hf]
  · rfl

/-- writing the figures that pools have leaves everything as it is -/
theorem written_eq_self {figures : List (Key × Totals)}
    (h : ∀ j tot, (j, tot) ∈ figures → ∃ p, s.pool? j = some p ∧ p.totals = tot) : s.written figures = s := by
  induction figures with
  | nil => rfl
  | cons f figures ih =>
    obtain ⟨j, tot⟩ := f
    obtain ⟨p, hp, rfl⟩ := h j tot List.mem_cons_self
    have hsame : s.edit j (Record.mapPool (Pool.withTotals p.totals)) = s := edit_eq_self (pool?_eq_some.1 hp) rfl
    rw [written_cons, hsame]
    exact ih fun i tot hi => h i tot (List.mem_cons_of_mem _ hi)

end Store

namespace Change

variable {hw : Hardware} {s t : Store Record} {L : Layout} {c : Change}

/-- nothing is left of a change to be made: it would put a member where it is, or contents in place of the same -/
def IsDone (s : Store Record) (c : Change) : Prop := c.IsIdle s ∨ c.apply.run s = (.ok (), s)

/-- **What a change comes to leaves nothing of it to be made.** -/
theorem Outcome.isDone (h : c.Outcome hw s t) (hs : Sound hw s L) (hb : c.Buildable s) : c.IsDone t := by
  have hedit : ∀ {k : Key} {f : Record → Record} {r : Record}, t.get? k = some r → f r = r →
      (LinkM.ofStore (Store.modify k f)).run t = (.ok (), t) := fun hr hf => by
    rw [Store.ofStore_modify_run (Store.contains_of_get? hr), Store.edit_eq_self hr hf]
  cases c with
  | bind x target => exact .inl ((h.binding hs hb x).trans (if_pos rfl))
  | profilePool profile pool => exact .inl ((h.housing hs hb profile).trans (if_pos rfl))
  | profileSize profile size =>
    obtain ⟨p, hp⟩ := hs.wired.exists_profile hb.1 hb.2
    obtain ⟨p', hp', hrecharged, -⟩ := h.exists_profile hs hb hp
    have hsize : p'.size = size := by rw [hrecharged, recharge, if_pos rfl]
    exact .inr (hedit (Store.profile?_eq_some.1 hp') (by rw [Record.mapProfile, ← hsize]))
  | profileHeadroom profile xoff xon =>
    obtain ⟨p, hp⟩ := hs.wired.exists_profile hb.1 hb.2
    obtain ⟨p', hp', -, hterms⟩ := h.exists_profile hs hb hp
    rw [recharge, if_pos rfl] at hterms
    have hxoff : p'.xoff = xoff := congrArg Terms.xoff hterms
    have hxon : p'.xon = xon := congrArg Terms.xon hterms
    exact .inr (hedit (Store.profile?_eq_some.1 hp') (by rw [Record.mapProfile, ← hxoff, ← hxon]))
  | poolSize pool size =>
    obtain ⟨p, hp⟩ := hs.wired.exists_pool hb.1 hb.2
    obtain ⟨p', hp', hresized, -⟩ := h.exists_pool hs hb hp
    have hsize : p'.size = size := by rw [hresized, resize, if_pos rfl]
    exact .inr (hedit (Store.pool?_eq_some.1 hp') (by rw [Record.mapPool, ← hsize]))
  | recompute pool => exact .inr rfl

/-- **The plan of a change that is made already comes to the figures that are there.** -/
theorem exists_plan_of_done (hs : Sound hw s L) (hb : c.Buildable s) (hrun : c.apply.run s = (.ok (), s)) :
    ∃ figures, plan hw s c = .ok figures ∧ s.written figures = s := by
  have hmade : c.Made s s := ⟨hb, hrun⟩
  cases hplan : plan hw s c with
  | error e =>
    obtain ⟨pools, -, k, -, ⟨p, hp⟩, he⟩ := hmade.exists_refusal hs.wired hplan
    cases he.symm.trans (hs.accounted k p hp)
  | ok figures =>
    refine ⟨figures, rfl, Store.written_eq_self fun k tot hk => ?_⟩
    have htot := hmade.totals_of_plan hs.wired hplan hk
    obtain ⟨p, hp⟩ := exists_pool_of_totals htot
    exact ⟨p, hp, Except.ok.inj ((hs.accounted k p hp).symm.trans htot)⟩

end Change

/-! ## Requests that are made once more -/

section

variable {m m' : Manager} {L : Layout} {k : Key} {a : Attribute} {c : Change}

/-- what is asked for depends on the store alone -/
theorem Manager.AsksFor.of_store (h : m.AsksFor k a c) (hsame : m'.store = m.store) : m'.AsksFor k a c := by
  have hresolve : ∀ kind id, m'.resolve? kind id = m.resolve? kind id := fun kind id => by
    rw [resolve?, resolve?, hsame]
  cases h with
  | binding hk hid hto =>
    refine .binding hk hid (hto.of_kept (fun k hc => by rwa [hsame]) (fun k p hp => ⟨p, by rwa [hsame], rfl⟩) ?_)
    exact fun k q hq => ⟨q, by rwa [hsame], rfl⟩
  | profileSize hk ha hv => exact .profileSize hk ha hv
  | xoff hk ha hv hp hpool hq hdir => exact .xoff hk ha hv (hsame ▸ hp) hpool (hsame ▸ hq) hdir
  | xon hk ha hv hp hpool hq hdir => exact .xon hk ha hv (hsame ▸ hp) hpool (hsame ▸ hq) hdir
  | profilePool hk ha hv hp hpool hq hid hq' hcompat =>
    exact .profilePool hk ha hv (hsame ▸ hp) hpool (hsame ▸ hq) ((hresolve _ _).trans hid) (hsame ▸ hq') hcompat
  | poolSize hk ha hv => exact .poolSize hk ha hv

/-- **What a request asked for it still asks for**, when it has come to it. -/
theorem Manager.AsksFor.again (h : m.AsksFor k a c) (hs : Sound m.hardware m.store L)
    (hc : m.store.contains k = true) (hout : c.Outcome m.hardware m.store m'.store) : m'.AsksFor k a c := by
  have hb := h.buildable hs.wired hc
  -- profiles stay in their pools unless one is moved
  have hplace : (∀ profile pool, c ≠ .profilePool profile pool) → ∀ {j : Key} {p p' : Profile},
      m.store.profile? j = some p → m'.store.profile? j = some p' → p'.pool? = p.pool? := fun hne j p p' hp hp' => by
    rw [← Store.ownerOf?_of_profile? hp', ← Store.ownerOf?_of_profile? hp]
    exact hout.housing_of_ne hs hb hne j
  cases h with
  | binding hk hid hto =>
    refine .binding hk hid (hto.of_kept (fun _ hc => hout.contains.trans hc) (fun j p hp => ?_) fun j q hq => ?_)
    · obtain ⟨p', hp', -⟩ := hout.exists_profile hs hb hp
      exact ⟨p', hp', hplace (fun _ _ e => by cases e) hp hp'⟩
    · obtain ⟨q', hq', -, hdir, -⟩ := hout.exists_pool hs hb hq
      exact ⟨q', hq', hdir⟩
  | profileSize hk ha hv => exact .profileSize hk ha hv
  | @xoff p pool q xoff hk ha hv hp hpool hq hdir =>
    obtain ⟨p', hp', -, hterms⟩ := hout.exists_profile hs hb hp
    obtain ⟨q', hq', -, hdir', -⟩ := hout.exists_pool hs hb hq
    have hxon : p'.xon = p.xon := by
      rw [Change.recharge, if_pos rfl] at hterms
      exact congrArg Terms.xon hterms
    rw [← hxon]
    exact .xoff hk ha hv hp' ((hplace (fun _ _ e => by cases e) hp hp').trans hpool) hq' (hdir'.trans hdir)
  | @xon p pool q xon hk ha hv hp hpool hq hdir =>
    obtain ⟨p', hp', -, hterms⟩ := hout.exists_profile hs hb hp
    obtain ⟨q', hq', -, hdir', -⟩ := hout.exists_pool hs hb hq
    have hxoff : p'.xoff = p.xoff := by
      rw [Change.recharge, if_pos rfl] at hterms
      exact congrArg Terms.xoff hterms
    rw [← hxoff]
    exact .xon hk ha hv hp' ((hplace (fun _ _ e => by cases e) hp hp').trans hpool) hq' (hdir'.trans hdir)
  | @profilePool p pool target q q' id hk ha hv hp hpool hq hid hq' hcompat =>
    obtain ⟨p', hp', -⟩ := hout.exists_profile hs hb hp
    obtain ⟨r, hr, -⟩ := hout.exists_pool hs hb hq'
    have howner : p'.pool? = some target := by
      rw [← Store.ownerOf?_of_profile? hp']
      exact (hout.housing hs hb k).trans (if_pos rfl)
    obtain ⟨hof, hkind, hlive⟩ := ManagerM.resolve?_eq_some hid
    exact .profilePool hk ha hv hp' howner hr (ManagerM.resolve?_of hof hkind (hout.contains.trans hlive)) hr (.inl rfl)
  | poolSize hk ha hv => exact .poolSize hk ha hv

/-- **A size that had room has room again.** -/
theorem Manager.room_again {pool : Key} {size : UInt64} (hs : Sound m.hardware m.store L)
    (hb : (Change.poolSize pool size).Buildable m.store) (hhw : m'.hardware = m.hardware)
    (hpermit : (Change.poolSize pool size).Permitted m.hardware m.store)
    (hout : (Change.poolSize pool size).Outcome m.hardware m.store m'.store) {p : Pool}
    (hp : m'.store.pool? pool = some p) : m'.checkDirection p.direction (some pool) size = .ok () := by
  obtain ⟨q, hq, hroom⟩ := hpermit
  obtain ⟨p', hp', -, hdir, -⟩ := hout.exists_pool hs hb hq
  obtain rfl := Option.some.inj (hp.symm.trans hp')
  rw [checkDirection_resized_again hs hb hout hhw, hdir]
  exact hroom

namespace ManagerM

variable {α : Type} {x : ManagerM α}

/-- **An action that makes a change of which nothing is left to be made** goes through and leaves the store as it is. -/
theorem Achieves.of_done (hx : Achieves c x m L) (hs : Sound m.hardware m.store L) (hb : c.Buildable m.store)
    (hdone : c.IsDone m.store) (hroom : ∀ pool size p, c = .poolSize pool size → m.store.pool? pool = some p →
      m.checkDirection p.direction (some pool) size = .ok ()) :
    Ends x m (fun _ m' => m'.store = m.store) fun _ _ => False := by
  refine hx.mono (fun _ m' hp => ?_) fun e m' hq => ?_
  · rcases hp.2 with ⟨-, hsame⟩ | ⟨hnot, -, figures, u, hplan, hrun, hstore⟩
    · exact hsame
    · have hstay := hdone.resolve_left hnot
      obtain ⟨figures', hplan', hwritten⟩ := Change.exists_plan_of_done hs hb hstay
      obtain rfl := Except.ok.inj (hplan.symm.trans hplan')
      obtain rfl := congrArg Prod.snd (hrun.symm.trans hstay)
      exact hstore.trans hwritten
  · obtain ⟨-, hnot, hwhy⟩ := hq
    have hstay := hdone.resolve_left hnot
    rcases hwhy with hplan | hcount | ⟨pool, size, rfl, p, hp, hfull⟩
    · obtain ⟨figures, hplan', -⟩ := Change.exists_plan_of_done hs hb hstay
      cases hplan.symm.trans hplan'
    · exact hcount (Change.Made.countable ⟨hb, hstay⟩ hs.wired)
    · cases hfull.symm.trans (hroom pool size p rfl hp)

end ManagerM

/-! ## Calls -/

namespace Call

variable {c c' : Call} {object id : ObjectId} {change : Change}

/-- a change that a call has made it makes again for nothing -/
theorem again_of_change (hs : Sound m.hardware m.store L) (hset : c.setting? = some (object, a))
    (hset' : c'.setting? = some (object, a)) (hreq : m.Requests object a change)
    (hrun : c.perform.run m = (.ok id, m')) :
    Ends c'.perform m' (fun _ m'' => m''.store = m'.store) fun _ _ => False := by
  obtain ⟨hf, hdone⟩ := (Call.achieves hs hset hreq).ok hrun
  obtain ⟨L', hs', -⟩ := hf.sound
  rw [← hf.hardware] at hs'
  obtain ⟨k, spec, hid, hcheck, hc, asked⟩ := hreq
  have hb := asked.buildable hs.wired hc
  rcases hdone with ⟨hidle, hsame⟩ | ⟨-, hpermit, hout⟩
  · refine (Call.achieves hs' hset' ⟨k, spec, hid, hcheck, by rwa [hsame], asked.of_store hsame⟩).of_done hs'
      (by rwa [hsame]) (.inl (by rwa [hsame])) ?_
    rintro pool size p rfl
    exact hidle.elim
  · have hlive : m'.store.contains k = true := hout.contains.trans hc
    have asked' := asked.again hs hc hout
    refine (Call.achieves hs' hset' ⟨k, spec, hid, hcheck, hlive, asked'⟩).of_done hs'
      (asked'.buildable hs'.wired hlive) (hout.isDone hs hb) ?_
    rintro pool size p rfl hp
    exact room_again hs hb hf.hardware hpermit hout hp

/-- a call that sets a threshold goes on to that -/
theorem wraps_setThreshold {threshold : Threshold} {spec : AttributeSpec} (hk : k.kind = .profile)
    (hset : c.setting? = some (object, ProfileParams.thresholdAttribute threshold)) (hid : Key.ofId? object = some k)
    (hcheck : checkSet k.kind (ProfileParams.thresholdAttribute threshold) = .ok spec)
    (hc : m.store.contains k = true) :
    ManagerM.Wraps (fun _ => nullId) m c.perform (ManagerM.setThreshold k threshold) := by
  have htry : ManagerM.Wraps (fun u => u) m
      (ManagerM.trySetProfile k (ProfileParams.thresholdAttribute threshold)) (ManagerM.setThreshold k threshold) := by
    cases threshold with
    | dynamic alpha =>
      exact ManagerM.Wraps.reading (g := fun alpha => ManagerM.setThreshold k (.dynamic alpha)) rfl
    | static limit => exact ManagerM.Wraps.reading (g := fun limit => ManagerM.setThreshold k (.static limit)) rfl
  have hobject := ManagerM.wraps_setAttribute hid hcheck hc
  simp only [ManagerM.setObject, hk] at hobject
  rw [perform_of_setting hset]
  exact ((htry.trans (ManagerM.wraps_setProfile k _ m)).trans hobject).trans (ManagerM.Wraps.map (fun _ => nullId) _ m)

/-- a threshold that a profile has it takes again -/
theorem again_of_threshold {threshold : Threshold} {spec : AttributeSpec} (hs : Sound m.hardware m.store L)
    (hk : k.kind = .profile) (hset : c.setting? = some (object, ProfileParams.thresholdAttribute threshold))
    (hset' : c'.setting? = some (object, ProfileParams.thresholdAttribute threshold)) (hid : Key.ofId? object = some k)
    (hcheck : checkSet k.kind (ProfileParams.thresholdAttribute threshold) = .ok spec)
    (hc : m.store.contains k = true) (hrun : c.perform.run m = (.ok id, m')) :
    Ends c'.perform m' (fun _ m'' => m''.store = m'.store) fun _ _ => False := by
  obtain ⟨p, hp⟩ := hs.wired.exists_profile hc hk
  obtain ⟨o, q, -, ho, hq⟩ := ManagerM.exists_poolOf_run hs hp
  have hfirst : Ends c.perform m (fun _ m' => Follows m L m' ∧ threshold.mode = p.mode.effective q.mode ∧
      m'.store = m.store.edit k (Record.mapProfile fun p => { p with threshold })) fun _ _ => True :=
    (wraps_setThreshold hk hset hid hcheck hc).ends (ManagerM.setThreshold_ends hs hp ho hq threshold)
      (fun _ _ _ _ hf => ⟨hf.1.recorded, hf.2⟩) fun _ _ _ _ _ => trivial
  obtain ⟨hf, hmode, hstore⟩ := hfirst.ok hrun
  obtain ⟨L', hs', -⟩ := hf.sound
  rw [← hf.hardware] at hs'
  have hc' : m'.store.contains k = true := by rwa [hstore, Store.contains_edit]
  have hget : m'.store.get? k = some (.profile { p with threshold }) := by
    rw [hstore, Store.get?_edit, if_pos rfl, Store.profile?_eq_some.1 hp]
    rfl
  have hp' := Store.profile?_eq_some.2 hget
  have hq' : m'.store.pool? o = some q := by
    have hok : o ≠ k := by
      rintro rfl
      cases (hs.wired.kind_of_pool? hq).symm.trans hk
    rw [Store.pool?, hstore, Store.get?_edit, if_neg hok]
    exact hq
  have ho' : k ∈ L' .poolProfiles o := (hs'.wired.mem_poolProfiles_iff hp').2 ((hs.wired.mem_poolProfiles_iff hp).1 ho)
  refine (wraps_setThreshold hk hset' hid hcheck hc').ends (ManagerM.setThreshold_ends hs' hp' ho' hq' threshold)
    (fun _ m'' _ _ hagain => ?_) fun _ _ _ _ hq => hq.2.1 hmode
  exact hagain.2.2.trans (Store.edit_eq_self hget rfl)

end Call

end

/-- **To set an attribute twice is to set it once.** Whatever is reached, a call that has set an attribute of an object
can be made again right away, by object id or by handle: it goes through, and leaves the store as it was, with every
record, link, list, count and figure. -/
theorem reached_sets_again {hw : Hardware} {m m' : Manager} (hm : m.Reached hw) {c c' : Call} {object id : ObjectId}
    {a : Attribute} (hset : c.setting? = some (object, a)) (hset' : c'.setting? = some (object, a))
    (h : c.perform.run m = (.ok id, m')) :
    ∃ id' m'', c'.perform.run m' = (.ok id', m'') ∧ m''.store = m'.store := by
  obtain ⟨rfl, L, hs⟩ := hm.sound
  obtain ⟨k, spec, hid, hcheck, hc, -, hsets⟩ := Call.sets hs hset h
  cases hsets with
  | change asked => exact (Call.again_of_change hs hset hset' ⟨k, spec, hid, hcheck, hc, asked⟩ h).exists_ok
  | threshold hk given =>
    subst given
    exact (Call.again_of_threshold hs hk hset hset' hid hcheck hc h).exists_ok

/-- the profile in use gets a size by its handle, and the same size again by its object id -/
theorem crowded_sets_again :
    let c := Call.setProfileAttribute (profileAfter 0) .reservedSize (.u64 1200)
    let c' := Call.request (.setAttribute (profileAfter 0).raw ⟨ProfileAttribute.reservedSize.id, .u64 1200⟩)
    ∃ id m' id' m'', c.perform.run crowded = (.ok id, m') ∧ c'.perform.run m' = (.ok id', m'') ∧
      m''.store = m'.store := by
  intro c c'
  have haccepted : (c.perform.run crowded).1.isOk = true := by decide +kernel
  rcases hr : c.perform.run crowded with ⟨e | id, m'⟩
  · rw [hr] at haccepted
    cases haccepted
  · have hreached : Reached twoTiles crowded := ⟨true, crowding, rfl⟩
    have hset' : c'.setting? = c.setting? := rfl
    obtain ⟨id', m'', hr', hsame⟩ := reached_sets_again hreached rfl hset' hr
    exact ⟨id, m', id', m'', rfl, hr', hsame⟩

end SharedBuffer
