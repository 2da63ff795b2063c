/-
What one entry of a plan does.

An entry of the first two tables adds an object as it describes it, under an id that was never issued, or changes
nothing. An entry of bindings binds the consumers under its key that are there; if some are not it fails all the same,
and this is the one way in which an entry that fails leaves something behind, with no more consumers about than can be
counted.

Results: `PlanM.applyPool_ok`, `PlanM.applyProfile_ok`, `PlanEntry.binding_ok` and `PlanEntry.fails`.
-/
import SharedBuffer.Proofs.Manager.History
import SharedBuffer.Proofs.Plan.Binding
import SharedBuffer.Proofs.Plan.Order
import SharedBuffer.Proofs.Plan.Requests

namespace SharedBuffer

open Manager

/-- an object is new, and the rest is as it was -/
structure Manager.Adds {kind : ObjectKind} (m : Manager) (id : Handle kind) (m' : Manager) : Prop where
  key : Key.ofId? id.raw = some id.key
  new : m.store.contains id.key = false
  live : m'.store.contains id.key = true
  continues : m.store.Continues m'.store
  binding : ∀ x, m'.store.ownerOf? .profileConsumers x = m.store.ownerOf? .profileConsumers x

/-- the object under an id of its own kind has the id's handle for key -/
theorem Handle.key_of_ofId? {kind : ObjectKind} {id : Handle kind} {k : Key} (h : Key.ofId? id.raw = some k)
    (hk : k.kind = kind) : k = id.key := by
  obtain ⟨kind', -, rfl⟩ := Option.map_eq_some_iff.1 h
  obtain rfl : kind' = kind := hk
  rfl

/-- what is created is added -/
theorem Created.adds {m m' : Manager} {L : Layout} {kind : ObjectKind} {attrs : List Attribute} {k : Key}
    {id : Handle kind} (h : Created m m' kind k) (hs : Sound m.hardware m.store L)
    (hmakes : m.Makes attrs k m'.store kind) (hid : k.id = id.raw) : id.key = k ∧ m.Adds id m' := by
  have hkey : id.key = k := by rw [Handle.key, ← hid, ← h.kind]
  obtain ⟨hkeep, hbinding⟩ := hmakes.continues hs
  refine ⟨hkey, ?_, ?_, hkey ▸ h.live, hkeep, hbinding⟩
  · rw [← hid, hkey]
    exact h.ofId?
  · rw [hkey]
    exact Bool.eq_false_iff.2 fun hc => h.new (hs.wired.handed.issued hc)

namespace PlanM

variable {hw : Hardware} {p p' : PlanState} {name : String}

/-! ## Pools and profiles -/

section

variable {α : Type} {step : String} {action : ManagerM α} {put : α → AppliedPlan → AppliedPlan}

/-- what is asked for is noted as a step, if it is granted -/
theorem requestNoted_ok
    (h : (request step action >>= fun a => note (put a) >>= fun _ => stepDone).run p = (.ok (), p')) :
    ∃ a, action.run p.manager = (.ok a, p'.manager) ∧
      p'.applied = { put a p.applied with steps := (put a p.applied).steps + 1 } := by
  rcases hr : (request step action).run p with ⟨e | a, q⟩
  · cases (run_bind_error hr).symm.trans h
  · obtain ⟨haction, happlied⟩ := request_ok hr
    cases (run_bind_ok hr).symm.trans h
    exact ⟨a, haction, by rw [happlied]⟩

theorem requestNoted_error {e : PlanError}
    (h : (request step action >>= fun a => note (put a) >>= fun _ => stepDone).run p = (.error e, p')) :
    e.step? = some step ∧ ∃ fault, action.run p.manager = (.error fault, p'.manager) := by
  rcases hr : (request step action).run p with ⟨e' | a, q⟩
  · cases (run_bind_error hr).symm.trans h
    obtain ⟨fault, rfl, haction, -⟩ := request_error hr
    exact ⟨rfl, fault, haction⟩
  · cases (run_bind_ok hr).symm.trans h

end

/-- **A pool's entry adds the pool that it describes.** -/
theorem applyPool_ok {plan : PoolPlan} (hm : p.manager.Counts hw)
    (h : (applyPool (name, plan)).run p = (.ok (), p')) :
    ∃ id : PoolId, p'.applied = { p.applied with
        pools := putByName name id p.applied.pools, steps := p.applied.steps + 1 } ∧
      p.manager.Adds id p'.manager ∧ ∃ q, p'.manager.store.pool? id.key = some q ∧ plan.Describes q := by
  obtain ⟨rfl, L, hs⟩ := hm.1
  obtain ⟨id, hcreate, happlied⟩ := requestNoted_ok h
  obtain ⟨-, k, hk, hcreated, hmakes⟩ := (ManagerM.createTyped_ends hs .pool _).ok hcreate
  obtain ⟨hkey, hadds⟩ := hcreated.adds hs hmakes hk
  refine ⟨id, happlied, hadds, ?_⟩
  cases hmakes with
  | pool asked new =>
    cases (PoolPlan.read plan).symm.trans asked
    refine ⟨Pool.fresh plan.direction plan.size (plan.mode.getD .dynamic) p.manager.hardware.tileSlots,
      Store.pool?_eq_some.2 ?_, ⟨rfl, rfl, rfl⟩⟩
    rw [hkey, new.get, if_pos rfl]

theorem applyPool_error {plan : PoolPlan} {e : PlanError} (hm : p.manager.Counts hw)
    (h : (applyPool (name, plan)).run p = (.error e, p')) :
    e.step? = some ("BUFFER_POOL|" ++ name) ∧ p'.manager.store = p.manager.store := by
  obtain ⟨rfl, L, hs⟩ := hm.1
  obtain ⟨hstep, fault, hcreate⟩ := requestNoted_error h
  obtain ⟨audit, errors, hsame⟩ := (ManagerM.createTyped_ends hs .pool _).error hcreate
  exact ⟨hstep, by rw [hsame]⟩

/-- the request of a profile's entry -/
def profileRequest (plan : ProfilePlan) (pool : PoolId) : ManagerM ProfileId := do
  let id ← ManagerM.create .profile (plan.toAttributes pool)
  ManagerM.reading fun _ => match Handle.ofId? .profile id with
    | some h => .ok h
    | none => .error (.invalidParameter (paddedHexText 16 id.toNat ++ " is not a profile"))

theorem profileRequest_ends {m : Manager} {L : Layout} (h : Sound m.hardware m.store L) (plan : ProfilePlan)
    (pool : PoolId) : Ends (profileRequest plan pool) m
      (fun id m' => ∃ k, k.id = id.raw ∧ Created m m' .profile k ∧
        m.Makes (plan.toAttributes pool) k m'.store .profile) fun _ m' => Refused m m' := by
  refine Ends.bind (ManagerM.create_ends h .profile _) fun object m' hp => ?_
  refine Ends.of_run_ok (a := ⟨object⟩) (t := m') ?_ hp.2.2
  simp only [ManagerM.reading, Handle.ofId?, hp.2.1, if_true, ExceptT.run_mk]

/-- a profile's entry names a pool that was made, and is a request for a profile in it -/
theorem applyProfile_eq (plan : ProfilePlan) : applyProfile (name, plan) =
    readingApplied (fun a => created ("BUFFER_PROFILE|" ++ name) "pool" plan.pool a.pools) >>= fun pool =>
      request ("BUFFER_PROFILE|" ++ name) (profileRequest plan pool) >>= fun id =>
        note (fun a => { a with profiles := putByName name id a.profiles }) >>= fun _ => stepDone := rfl

/-- **A profile's entry adds the profile that it describes**, in the pool that it names. -/
theorem applyProfile_ok {plan : ProfilePlan} (hm : p.manager.Counts hw)
    (h : (applyProfile (name, plan)).run p = (.ok (), p')) :
    ∃ (pool : PoolId) (id : ProfileId), p.applied.pools.lookup plan.pool = some pool ∧
      p'.applied = { p.applied with
        profiles := putByName name id p.applied.profiles, steps := p.applied.steps + 1 } ∧
      p.manager.Adds id p'.manager ∧
        ∃ q, p'.manager.store.profile? id.key = some q ∧ q.pool? = some pool.key ∧ plan.Describes q := by
  obtain ⟨rfl, L, hs⟩ := hm.1
  rw [applyProfile_eq, run_readingApplied_bind, created] at h
  cases hpool : p.applied.pools.lookup plan.pool with
  | none => rw [hpool] at h; cases h
  | some pool =>
    simp only [hpool] at h
    obtain ⟨id, hcreate, happlied⟩ := requestNoted_ok h
    obtain ⟨k, hk, hcreated, hmakes⟩ := (profileRequest_ends hs plan pool).ok hcreate
    obtain ⟨hkey, hadds⟩ := hcreated.adds hs hmakes hk
    refine ⟨pool, id, rfl, happlied, hadds, ?_⟩
    cases hmakes with
    | @profile poolKey profile asked new =>
      obtain ⟨hpool', hdescribes⟩ := ProfilePlan.read asked
      obtain ⟨hid, hkind, -⟩ := ManagerM.resolve?_eq_some hpool'
      obtain rfl := Handle.key_of_ofId? hid hkind
      obtain ⟨q, hq, hin, hsize, hterms⟩ := new.exists_profile asked hs
      exact ⟨q, hkey ▸ hq, hin, hdescribes.congr hsize hterms⟩

theorem applyProfile_error {plan : ProfilePlan} {e : PlanError} (hm : p.manager.Counts hw)
    (h : (applyProfile (name, plan)).run p = (.error e, p')) :
    e.step? = some ("BUFFER_PROFILE|" ++ name) ∧ p'.manager.store = p.manager.store := by
  obtain ⟨rfl, L, hs⟩ := hm.1
  rw [applyProfile_eq, run_readingApplied_bind, created] at h
  cases hpool : p.applied.pools.lookup plan.pool with
  | none =>
    rw [hpool] at h
    cases h
    exact ⟨rfl, rfl⟩
  | some pool =>
    simp only [hpool] at h
    obtain ⟨hstep, fault, hcreate⟩ := requestNoted_error h
    obtain ⟨audit, errors, hsame⟩ := (profileRequest_ends hs plan pool).error hcreate
    exact ⟨hstep, by rw [hsame]⟩

end PlanM

/-! ## Consumers that a key names -/

section

variable {hw : Hardware} {m : Manager} {L : Layout} {t : BindingTable} {text : String} {span : Span}

/-- priority groups or queues of a port in a row are members of its list -/
theorem Wired.members_of_spanOf? (w : Wired hw m.store L none) {R : Roster} {kind : ObjectKind}
    (hR : R.ownerKind = .port) (hkind : ∀ j, R.takes j = true → j = kind)
    (h : m.spanOf? (fun m port => m.store.requireMembers R port.key >>= fun l => l.mapM (Handle.require kind)) text =
      some span) : ∃ port p, m.store.port? port = some p ∧ span.members = L R port := by
  unfold Manager.spanOf? at h
  obtain ⟨key, -, h⟩ := Option.bind_eq_some_iff.1 h
  obtain ⟨port, hport, h⟩ := Option.bind_eq_some_iff.1 h
  have hc := Store.contains_of_findPort? hport
  have hmem : ∀ x ∈ L R port.key, x.kind = kind := fun x hx => hkind _ (w.takes_of_mem hx).2
  obtain ⟨members, hmembers, h⟩ := Option.bind_eq_some_iff.1 h
  simp only [w.requireMembers_eq hc hR.symm] at hmembers
  obtain rfl := Option.some.inj ((congrArg Except.toOption (Handle.mapM_require hmem)).symm.trans hmembers)
  obtain rfl := Option.some.inj h
  obtain ⟨p, hp⟩ := w.exists_port hc rfl
  exact ⟨port.key, p, hp, Handle.map_key hmem⟩

/-- the consumers that a key names are there, and draw from one tile -/
theorem Wired.mem_of_span? (w : Wired hw m.store L none) (h : t.span? m text = some span) :
    ∃ tile, ∀ x ∈ span.members, (m.store.contains x = true ∧ x.kind = t.kind) ∧ m.store.tileOf x = tile := by
  have hlisted : ∀ {R : Roster} {kind : ObjectKind}, R.ownerKind = .port → (∀ j, R.takes j = true → j = kind) →
      m.spanOf? (fun m port => m.store.requireMembers R port.key >>= fun l => l.mapM (Handle.require kind)) text =
        some span →
      ∃ tile, ∀ x ∈ span.members, (m.store.contains x = true ∧ x.kind = kind) ∧ m.store.tileOf x = tile := by
    intro R kind hR hkind hspan
    obtain ⟨port, p, hp, hmembers⟩ := w.members_of_spanOf? hR hkind hspan
    refine ⟨p.tile, fun x hx => ?_⟩
    rw [hmembers] at hx
    refine ⟨(w.takes_of_mem hx).imp_right (hkind _), ?_⟩
    rw [Store.tileOf, w.portOf?_of_mem hR hx hp]
    rfl
  cases t with
  | groups => exact hlisted (R := .portPriorityGroups) rfl (fun j hj => by cases j <;> first | rfl | cases hj) h
  | queues => exact hlisted (R := .portQueues) rfl (fun j hj => by cases j <;> first | rfl | cases hj) h
  | ports =>
    obtain ⟨number, -, h⟩ := Option.bind_eq_some_iff.1 h
    obtain ⟨port, hport, h⟩ := Option.bind_eq_some_iff.1 h
    obtain rfl := Option.some.inj h
    refine ⟨m.store.tileOf port.key, fun x hx => ?_⟩
    obtain rfl := List.mem_singleton.1 hx
    exact ⟨⟨Store.contains_of_findPort? hport, rfl⟩, rfl⟩

theorem Span.mem_of_present {x : Key} (h : x ∈ span.present) : x ∈ span.members :=
  List.mem_of_mem_drop (List.mem_of_mem_take h)

end

/-! ## Entries -/

/-- a plan under way: profiles that it made go by their own handles -/
structure PlanState.Proper (hw : Hardware) (p : PlanState) : Prop where
  counts : p.manager.Counts hw
  handles : ∀ e ∈ p.applied.profiles, Key.ofId? e.2.raw = some e.2.key

theorem PlanState.Proper.start {hw : Hardware} {m : Manager} (hm : m.Counts hw) :
    PlanState.Proper hw { manager := m } := ⟨hm, fun _ h => nomatch h⟩

theorem mem_of_lookup {α : Type} {name : String} {value : α} {l : List (String × α)}
    (h : l.lookup name = some value) : (name, value) ∈ l := by
  obtain ⟨pre, post, rfl, -⟩ := List.lookup_eq_some_iff.1 h
  simp

namespace PlanM

variable {hw : Hardware} {p p' : PlanState} {t : BindingTable} {step text name : String} {profile : ProfileId}
  {span : Span} {e : PlanError}

theorem bindSpan_ok (h : (bindSpan t step profile span).run p = (.ok (), p')) :
    ¬ span.Overruns ∧ (bindEach t step profile span.present).run p = (.ok (), p') := by
  rcases hr : (bindEach t step profile span.present).run p with ⟨e | ⟨⟩, q⟩
  · cases (run_bind_error hr).symm.trans h
  · have hrest := (run_bind_ok hr).symm.trans h
    split_ifs at hrest with hover
    · cases hrest
    · cases hrest
      exact ⟨hover, rfl⟩

theorem bindSpan_error (h : (bindSpan t step profile span).run p = (.error e, p')) :
    (bindEach t step profile span.present).run p = (.error e, p') ∨
      e.step? = some step ∧ span.Overruns ∧ (bindEach t step profile span.present).run p = (.ok (), p') := by
  rcases hr : (bindEach t step profile span.present).run p with ⟨e' | ⟨⟩, q⟩
  · exact .inl ((run_bind_error hr).symm.trans h)
  · have hrest := (run_bind_ok hr).symm.trans h
    split_ifs at hrest with hover
    · cases hrest
      exact .inr ⟨rfl, hover, rfl⟩
    · cases hrest

theorem Resolves.mem (h : Resolves p t text name profile span) (hp : p.Proper hw) :
    Key.ofId? profile.raw = some profile.key ∧ ∃ tile, ∀ x ∈ span.present,
      (p.manager.store.contains x = true ∧ x.kind = t.kind) ∧ p.manager.store.tileOf x = tile := by
  obtain ⟨rfl, L, hs⟩ := hp.counts.1
  obtain ⟨tile, hmem⟩ := hs.wired.mem_of_span? h.span
  exact ⟨hp.handles _ (mem_of_lookup h.profile), tile, fun x hx => hmem x (Span.mem_of_present hx)⟩

end PlanM

namespace PlanEntry

open PlanM

variable {hw : Hardware} {p p' : PlanState} {entry : PlanEntry} {t : BindingTable} {text name : String} {e : PlanError}

/-- **An entry of bindings that goes through binds all that its key names.** -/
theorem binding_ok (hp : p.Proper hw) (h : (binding t text name).apply.run p = (.ok (), p')) :
    ∃ profile span, Resolves p t text name profile span ∧ ¬ span.Overruns ∧
      p'.applied = { p.applied with steps := p.applied.steps + 1 } ∧
        p.manager.Binds span.present profile.key p'.manager := by
  rcases bindsSpan t text name p with ⟨e, hrun, -⟩ | ⟨profile, span, hresolves, hrun⟩
  · cases hrun.symm.trans h
  · obtain ⟨hid, tile, hmem⟩ := hresolves.mem hp
    rcases hr : (bindSpan t (t.step text) profile span).run p with ⟨e | ⟨⟩, q⟩
    · cases (run_bind_error hr).symm.trans (hrun.symm.trans h)
    · cases (run_bind_ok hr).symm.trans (hrun.symm.trans h)
      obtain ⟨hover, heach⟩ := bindSpan_ok hr
      obtain ⟨happlied, -, hbinds, -⟩ := bindEach_ok hp.counts (fun x hx => (hmem x hx).1) hid heach
      exact ⟨profile, span, hresolves, hover, by rw [happlied], hbinds⟩

theorem keeps {I : Manager → Prop} (hcall : ∀ (m : Manager) (c : Call), I m → I (c.perform.run m).2)
    (entry : PlanEntry) : Keeps I entry.apply := by
  cases entry with
  | pool name plan => exact keeps_applyPool hcall (name, plan)
  | profile name plan => exact keeps_applyProfile hcall (name, plan)
  | binding t text name =>
    cases t with
    | groups => exact keeps_applyGroups hcall (text, name)
    | queues => exact keeps_applyQueues hcall (text, name)
    | ports => exact keeps_applyPort hcall (text, name)

/-- an entry that goes through leaves a plan under way -/
theorem proper (hp : p.Proper hw) (h : entry.apply.run p = (.ok (), p')) : p'.Proper hw := by
  have hkeep := keeps (fun m c (hm : m.Counts hw) => hm.call c) entry p hp.counts
  rw [h] at hkeep
  refine ⟨hkeep, ?_⟩
  cases entry with
  | pool name plan =>
    obtain ⟨id, happlied, -⟩ := applyPool_ok hp.counts h
    rw [happlied]
    exact hp.handles
  | profile name plan =>
    obtain ⟨pool, id, -, happlied, hadds, -⟩ := applyProfile_ok hp.counts h
    rw [happlied]
    intro e he
    rcases mem_of_mem_putByName he with rfl | he
    · exact hadds.key
    · exact hp.handles e he
  | binding t text name =>
    obtain ⟨profile, span, -, -, happlied, -⟩ := binding_ok hp h
    rw [happlied]
    exact hp.handles

/-- what an entry that fails leaves behind: a store -/
inductive Leaves (p : PlanState) (s : Store Record) : PlanEntry → Prop
  /-- nothing -/
  | nothing {entry : PlanEntry} (same : s = p.manager.store) : Leaves p s entry
  /-- consumers are bound as far as they are there, and the key names more -/
  | overrun {t : BindingTable} {text name : String} {profile : ProfileId} {span : Span} {q : PlanState}
    (resolves : Resolves p t text name profile span) (overruns : span.Overruns)
    (bound : (bindEach t (t.step text) profile span.present).run p = (.ok (), q)) (same : s = q.manager.store) :
    Leaves p s (.binding t text name)
  /-- the first consumers are bound, and there are too many consumers to count -/
  | uncounted {t : BindingTable} {text name : String} {profile : ProfileId} {span : Span} {q : PlanState}
    {done rest : List Key} (resolves : Resolves p t text name profile span) (first : span.present = done ++ rest)
    (many : UInt32.size ≤ p.manager.store.consumers.length)
    (bound : (bindEach t (t.step text) profile done).run p = (.ok (), q)) (same : s = q.manager.store) :
    Leaves p s (.binding t text name)

/-- **An entry that fails leaves nothing behind**, but for consumers bound before one was missed. -/
theorem fails (hp : p.Proper hw) (h : entry.apply.run p = (.error e, p')) :
    e.step? = some entry.step ∧ Leaves p p'.manager.store entry := by
  cases entry with
  | pool name plan => exact (applyPool_error hp.counts h).imp_right .nothing
  | profile name plan => exact (applyProfile_error hp.counts h).imp_right .nothing
  | binding t text name =>
    rcases bindsSpan t text name p with ⟨e', hrun, hstep⟩ | ⟨profile, span, hresolves, hrun⟩
    · cases hrun.symm.trans h
      exact ⟨hstep, .nothing rfl⟩
    · obtain ⟨hid, tile, hmem⟩ := hresolves.mem hp
      rcases hr : (bindSpan t (t.step text) profile span).run p with ⟨e' | ⟨⟩, q⟩
      · cases (run_bind_error hr).symm.trans (hrun.symm.trans h)
        rcases bindSpan_error hr with heach | ⟨hstep, hover, heach⟩
        · obtain ⟨hstep, done, rest, q, hpresent, hdone, hsame, hmany⟩ := bindEach_error hp.counts
            (fun x hx => (hmem x hx).1) hid (fun x hx => (hmem x hx).2) heach
          refine ⟨hstep, ?_⟩
          by_cases hnil : done = []
          · subst hnil
            cases hdone
            exact .nothing hsame
          · exact .uncounted hresolves hpresent (hmany hnil) hdone hsame
        · exact ⟨hstep, .overrun hresolves hover heach rfl⟩
      · cases (run_bind_ok hr).symm.trans (hrun.symm.trans h)

end PlanEntry

end SharedBuffer
