/-
Binding the consumers of an entry, one after the other.

Each consumer is one request. The first decides whether the profile may serve consumers of its kind; from then on the
plan of no other can be refused, since they draw from memory on the same tile, and what a profile reserves there does
not depend on how many they are. So a row of consumers of one port is bound in full or not at all, unless the profiles
that they leave have lost count.

Results: `PlanM.bindEach_ok`, what bound consumers come to, and `PlanM.bindEach_error`, how many were bound if one is
refused.
-/
import SharedBuffer.Proofs.Manager.Absent
import SharedBuffer.Proofs.Plan.Continuity

namespace SharedBuffer

open Manager

/-! ## One consumer -/

section

variable {hw : Hardware} {m m' : Manager} {L : Layout} {x o : Key}

/-- what a binding may ask for it may ask for later on -/
theorem Manager.BindsTo.continues {kind : ObjectKind} {id : ObjectId} {target : Option Key}
    (h : m.BindsTo kind id target) (hkeep : m.store.Continues m'.store) : m'.BindsTo kind id target := by
  refine h.of_kept (fun _ hc => hkeep.contains hc) (fun k p hp => ?_) fun k q hq => ?_
  · have hc := Store.contains_of_profile? hp
    obtain ⟨p', hp', -, -⟩ := Store.profile?_of_settingsAt (hkeep.settings k hc) hp
    have hpool := hkeep.pool k hc
    rw [Store.ownerOf?_of_profile? hp', Store.ownerOf?_of_profile? hp] at hpool
    exact ⟨p', hp', hpool⟩
  · obtain ⟨q', hq', -, hregime⟩ := Store.pool?_of_settingsAt (hkeep.settings k (Store.contains_of_pool? hq)) hq
    exact ⟨q', hq', congrArg Prod.fst hregime⟩

/-- consumers are bound to a profile, and nothing else that lasts has changed -/
structure Manager.Binds (m : Manager) (xs : List Key) (profile : Key) (m' : Manager) : Prop where
  continues : m.store.Continues m'.store
  binding : ∀ y, m'.store.ownerOf? .profileConsumers y =
    if y ∈ xs then some profile else m.store.ownerOf? .profileConsumers y

theorem Manager.Binds.cons {m₁ : Manager} {xs : List Key} (h : m.Binds [x] o m₁) (h' : m₁.Binds xs o m') :
    m.Binds (x :: xs) o m' := by
  refine ⟨h.continues.trans h'.continues, fun y => ?_⟩
  rw [h'.binding, h.binding]
  by_cases hyx : y = x <;> by_cases hys : y ∈ xs <;> simp [hyx, hys]

theorem BindingTable.takes_kind (t : BindingTable) : Roster.profileConsumers.takes t.kind = true := by cases t <;> rfl

theorem BindingTable.exists_checkSet (t : BindingTable) (id : ObjectId) :
    ∃ spec, checkSet t.kind ⟨t.profileAttribute, .oid id⟩ = .ok spec := by cases t <;> exact ⟨_, rfl⟩

/-- **A consumer of a table is bound**, if its kind is served, or its plan is refused and nothing has changed. -/
theorem ManagerM.setBinding_ends (h : Sound m.hardware m.store L) {t : BindingTable} (hc : m.store.contains x = true)
    (hk : x.kind = t.kind) {profile : ProfileId} (hid : Key.ofId? profile.raw = some o) :
    Ends (setAttribute x.id ⟨t.profileAttribute, .oid profile.raw⟩) m
      (fun _ m' => m.BindsTo t.kind profile.raw (some o) ∧ m.Binds [x] o m')
      fun e m' => Refused m m' ∧ (m.BindsTo t.kind profile.raw (some o) →
        Accounting.plan m.hardware m.store (.bind x (some o)) = .error e ∨ m.store.Uncounted x) := by
  have htakes : Roster.profileConsumers.takes x.kind = true := hk ▸ t.takes_kind
  have hbind : setObject x ⟨t.profileAttribute, .oid profile.raw⟩ = bindConsumer x profile.raw := by
    rw [setObject_consumer htakes]
    rfl
  obtain ⟨spec, hcheck⟩ := t.exists_checkSet profile.raw
  have hwraps := wraps_setAttribute (h.wired.handed.isHandle x hc).ofId? (hk ▸ hcheck) hc
  rw [hbind] at hwraps
  refine ((wraps_bindConsumer x profile.raw m).trans hwraps).ends (tryBind_ends h hc htakes profile.raw)
    (fun _ m' _ _ hp => ?_) fun e m' audit errors hq => ?_
  · obtain ⟨-, target, hto, hdone⟩ := hp
    obtain rfl : target = some o := by
      cases target with
      | none => exact absurd hto (Key.ne_nullId_of_ofId? hid)
      | some o' => rw [← hid, (resolve?_eq_some hto.2.1).1]
    refine ⟨hk ▸ hto, ?_⟩
    rcases hdone with ⟨hidle, rfl, -⟩ | ⟨-, hout, -⟩
    · refine ⟨.refl _, fun y => ?_⟩
      split
      · rename_i hy
        rw [List.mem_singleton.1 hy]
        exact hidle
      · rfl
    · have hb := hto.buildable hc htakes
      exact ⟨hout.continues h hb, fun y => by simp [hout.binding h hb]⟩
  · obtain ⟨rfl, hwhy⟩ := hq
    refine ⟨⟨audit, errors, rfl⟩, fun hto => ?_⟩
    rw [← hk] at hto
    obtain ⟨target, hto', -, hwhy⟩ := hwhy.resolve_left fun hnone => hnone.2 _ hto
    obtain rfl := hto.unique hto'
    exact hwhy

/-- a consumer whose fellow on the same tile is bound already can be bound too, unless it was lost count of -/
theorem ManagerM.setBinding_refused (h : Sound m.hardware m.store L) {t : BindingTable}
    (hc : m.store.contains x = true) (hk : x.kind = t.kind) {profile : ProfileId}
    (hid : Key.ofId? profile.raw = some o) (hto : m.BindsTo t.kind profile.raw (some o)) {y : Key}
    (hy : m.store.ownerOf? .profileConsumers y = some o) (htile : m.store.tileOf y = m.store.tileOf x) {e : Fault}
    (hrun : (setAttribute x.id ⟨t.profileAttribute, .oid profile.raw⟩).run m = (.error e, m')) :
    m.store.Uncounted x := by
  by_contra hn
  obtain ⟨-, hwhy⟩ := (setBinding_ends h hc hk hid).error hrun
  have hlight : (Change.bind x (some o)).Lightens m.hardware m.store L := by
    refine Change.lightens_bind ?_
    rintro _ ⟨⟩
    exact ⟨y, h.wired.linked.ownerOf?_eq_some.1 hy, htile⟩
  have hb : (Change.bind x (some o)).Buildable m.store := hto.buildable hc (hk ▸ t.takes_kind)
  obtain ⟨figures, hplan⟩ := hlight.exists_plan h hb hn
  rcases hwhy hto with herror | hlost
  · cases herror.symm.trans hplan
  · exact hn hlost

end

theorem Manager.Counts.setAttribute {hw : Hardware} {m m' : Manager} {id : ObjectId} {attr : Attribute}
    {r : Except Fault Unit} (h : m.Counts hw) (hrun : (ManagerM.setAttribute id attr).run m = (r, m')) :
    m'.Counts hw := by
  obtain rfl : ((ManagerM.setAttribute id attr).run m).2 = m' := by rw [hrun]
  rw [← PlanM.snd_run_map _ fun _ => nullId]
  exact h.call (.request (.setAttribute id attr))

/-! ## Consumers in a row -/

/-- the port of a priority group or queue is there -/
theorem Wired.port_of_mem {hw : Hardware} {s : Store Record} {L : Layout} (w : Wired hw s L none) {R : Roster}
    (hR : R.ownerKind = .port) {x o : Key} (hx : x ∈ L R o) : s.contains o = true ∧ o.kind = .port := by
  obtain ⟨hc, hk⟩ := w.takes_of_mem hx
  have hhome : x.kind.home? = some R := by
    cases R <;> cases hkind : x.kind <;> simp_all [Roster.ownerKind, Roster.takes, ObjectKind.home?]
  obtain ⟨o', hx', ho, hkind⟩ := w.home x R hc hhome (by simp)
  obtain rfl := w.linked.owner_unique hx hx'
  exact ⟨ho, hkind.trans hR⟩

/-- consumers stay on their tiles -/
theorem Store.Continues.tileOf_eq {hw : Hardware} {s t : Store Record} {L L' : Layout} (h : s.Continues t)
    (w : Wired hw s L none) (w' : Wired hw t L' none) {x : Key} (hc : s.contains x = true)
    (hk : Roster.profileConsumers.takes x.kind = true) : t.tileOf x = s.tileOf x := by
  refine w.tileOf_congr w' (fun o ho _ => Store.coreAt_of_settingsAt (h.settings o ho)) (fun R o y hR hy => ?_) hc hk
  obtain ⟨ho, hkind⟩ := w.port_of_mem hR hy
  have hlisted := h.listed R o hR hkind ho
  rw [w.requireMembers_eq ho (hkind.trans hR.symm), w'.requireMembers_eq (h.contains ho) (hkind.trans hR.symm),
    Except.ok.injEq] at hlisted
  rwa [hlisted]

namespace PlanM

variable {α : Type} {hw : Hardware} {p p' : PlanState} {t : BindingTable} {step : String} {profile : ProfileId}
  {xs : List Key} {o : Key}

theorem request_ok {action : ManagerM α} {a : α} (h : (request step action).run p = (.ok a, p')) :
    action.run p.manager = (.ok a, p'.manager) ∧ p'.applied = p.applied := by
  rw [request, ExceptT.run_mk] at h
  rcases hr : action.run p.manager with ⟨fault | b, m'⟩ <;> rw [hr] at h <;> cases h
  exact ⟨rfl, rfl⟩

theorem request_error {action : ManagerM α} {e : PlanError} (h : (request step action).run p = (.error e, p')) :
    ∃ fault, e = .rejected step fault ∧ action.run p.manager = (.error fault, p'.manager) ∧
      p'.applied = p.applied := by
  rw [request, ExceptT.run_mk] at h
  rcases hr : action.run p.manager with ⟨fault | b, m'⟩ <;> rw [hr] at h <;> cases h
  exact ⟨fault, rfl, rfl, rfl⟩

/-- **Consumers of a table are bound in a row**, and their kind may be. -/
theorem bindEach_ok (hm : p.manager.Counts hw)
    (hxs : ∀ x ∈ xs, p.manager.store.contains x = true ∧ x.kind = t.kind) (hid : Key.ofId? profile.raw = some o)
    (h : (bindEach t step profile xs).run p = (.ok (), p')) :
    p'.applied = p.applied ∧ p'.manager.Counts hw ∧ p.manager.Binds xs o p'.manager ∧
      (xs ≠ [] → p.manager.BindsTo t.kind profile.raw (some o)) := by
  induction xs generalizing p with
  | nil =>
    cases h
    exact ⟨rfl, hm, ⟨.refl _, fun y => by simp⟩, fun hne => absurd rfl hne⟩
  | cons x xs ih =>
    obtain ⟨hc, hk⟩ := hxs x List.mem_cons_self
    obtain ⟨rfl, L, hs⟩ := hm.1
    rcases hr : (request step (ManagerM.setAttribute x.id ⟨t.profileAttribute, .oid profile.raw⟩)).run p with
      ⟨e | ⟨⟩, p₁⟩
    · cases (run_bind_error hr).symm.trans h
    · obtain ⟨hset, happlied⟩ := request_ok hr
      obtain ⟨hto, hbinds⟩ := (ManagerM.setBinding_ends hs hc hk hid).ok hset
      obtain ⟨hsame, hcounts, hall, -⟩ := ih (hm.setAttribute hset)
        (fun y hy => (hxs y (List.mem_cons_of_mem _ hy)).imp_left hbinds.continues.contains)
        ((run_bind_ok hr).symm.trans h)
      exact ⟨hsame.trans happlied, hcounts, hbinds.cons hall, fun _ => hto⟩

/-- **Consumers of one tile are bound all or none**: one that is refused after others were bound is one that was lost
count of, and there are too many to count. -/
theorem bindEach_error (hm : p.manager.Counts hw)
    (hxs : ∀ x ∈ xs, p.manager.store.contains x = true ∧ x.kind = t.kind) (hid : Key.ofId? profile.raw = some o)
    {tile : UInt32} (htile : ∀ x ∈ xs, p.manager.store.tileOf x = tile) {e : PlanError}
    (h : (bindEach t step profile xs).run p = (.error e, p')) :
    e.step? = some step ∧ ∃ done rest q, xs = done ++ rest ∧ (bindEach t step profile done).run p = (.ok (), q) ∧
      p'.manager.store = q.manager.store ∧ (done ≠ [] → UInt32.size ≤ p.manager.store.consumers.length) := by
  obtain ⟨done, x, rest, q, rfl, hdone, hrefused⟩ := forEntries_error h
  have hdonelive : ∀ y ∈ done, p.manager.store.contains y = true ∧ y.kind = t.kind := fun y hy =>
    hxs y (List.mem_append_left _ hy)
  obtain ⟨hc, hk⟩ := hxs x (List.mem_append_right _ List.mem_cons_self)
  obtain ⟨-, ⟨⟨hhw, L', hs'⟩, htallied⟩, hall, hto⟩ := bindEach_ok hm hdonelive hid hdone
  have hcq := hall.continues.contains hc
  subst hhw
  obtain ⟨fault, rfl, hset, -⟩ := request_error hrefused
  obtain ⟨⟨audit, errors, hsame⟩, -⟩ := (ManagerM.setBinding_ends hs' hcq hk hid).error hset
  refine ⟨rfl, done, x :: rest, q, rfl, hdone, by rw [hsame], fun hne => ?_⟩
  by_contra hfew
  -- the first of those that were bound draws from the tile of the one that was refused
  obtain ⟨y, done, rfl⟩ := List.exists_cons_of_ne_nil hne
  have hyx : q.manager.store.tileOf y = q.manager.store.tileOf x := by
    obtain ⟨-, L, hs⟩ := hm.1
    obtain ⟨hcy, hky⟩ := hdonelive y List.mem_cons_self
    rw [hall.continues.tileOf_eq hs.wired hs'.wired hcy (hky ▸ t.takes_kind),
      hall.continues.tileOf_eq hs.wired hs'.wired hc (hk ▸ t.takes_kind),
      htile y (by simp), htile x (by simp)]
  have hfewer : q.manager.store.consumers.length < UInt32.size := by
    refine lt_of_le_of_lt (Store.consumers_le fun k hk hc => ?_) (Nat.lt_of_not_le hfew)
    rwa [← hall.continues.consumers k hk]
  obtain ⟨-, L'', hs'', ht⟩ := (htallied hfewer).tight
  exact ht.not_uncounted hs''.wired (ManagerM.setBinding_refused hs'' hcq hk hid
    ((hto hne).continues hall.continues) (by rw [hall.binding]; simp) hyx hset)

end PlanM

end SharedBuffer
