/-
Priority groups and queues by their indexes.

A plan names priority groups and queues by index, and finds them by their place in the list of the port. The two agree:
a port lists what it came with in the order of the indexes, and nothing joins or leaves such a list afterwards, whatever
is bound, moved or removed. A port that was registered, so that the call was answered with it, has just what was asked
for. A call that handles run out for halfway is refused and abandons its port: it is found all the same, with less. That
a plan binds what its keys cover is `PlanEntry.bindsSpan`.

Results: `Turn.ports`, what one call does to ports; `reached_ports_in_order`; and `overlong_half_built`, a port that is
found and was never registered.
-/
import SharedBuffer.Proofs.Manager.Counters
import SharedBuffer.Proofs.Manager.Ports

namespace SharedBuffer

open Manager

/-! ## One call -/

/-- a call that registers a port: it asks for one, and is answered with it -/
def Turn.Registers (e : Turn) (n groups queues : UInt32) (port : PortId) : Prop :=
  e.call = .request (.registerPort n groups queues) ∧ e.answer = .ok port.raw

/-- a call that abandons a port: it asks for one and is refused, as handles run out, but the port is there afterwards -/
def Turn.Abandons (e : Turn) (n groups queues : UInt32) (port : PortId) : Prop :=
  e.call = .request (.registerPort n groups queues) ∧ (∃ fault, e.answer = .error fault ∧ fault.IsExhausted) ∧
    e.before.store.contains port.key = false ∧ e.after.store.contains port.key = true

/-- a call that brings up a port, either way -/
def Turn.BringsUp (e : Turn) (n groups queues : UInt32) (port : PortId) : Prop :=
  e.Registers n groups queues port ∨ e.Abandons n groups queues port

/-- so many priority groups and queues are as many as a call asked for, if it was answered, and fewer if it was not -/
structure Turn.Yields (e : Turn) (groups queues : UInt32) (gs qs : Nat) : Prop where
  full : ∀ id, e.answer = .ok id → gs = groups.toNat ∧ qs = queues.toNat
  short : ∀ fault, e.answer = .error fault → FallsShort groups queues gs qs

/-- what a call does to ports: it leaves those that are there as they are, and brings up none or one -/
inductive Turn.Ports (e : Turn) : Prop where
  | kept (kept : e.before.store.PortsKept e.after.store)
    (old : ∀ o, o.kind = .port → e.after.store.contains o = true → e.before.store.contains o = true)
    (none : ∀ n groups queues port, ¬ e.BringsUp n groups queues port)
  | arrived {n groups queues : UInt32} {port : PortId} {gs qs : List Key} (up : e.BringsUp n groups queues port)
    (arrives : e.before.store.Arrives e.after.store n port.key gs qs)
    (yields : e.Yields groups queues gs.length qs.length)

theorem Turn.BringsUp.call {e : Turn} {n groups queues : UInt32} {port : PortId} (h : e.BringsUp n groups queues port) :
    e.call = .request (.registerPort n groups queues) := h.elim And.left And.left

/-- where no port comes that was not there, none is brought up by a call that is refused -/
theorem Turn.not_bringsUp {e : Turn} {fault : Fault} (hanswer : e.answer = .error fault)
    (hold : ∀ o, o.kind = .port → e.after.store.contains o = true → e.before.store.contains o = true)
    (n groups queues : UInt32) (port : PortId) : ¬ e.BringsUp n groups queues port := by
  rintro (⟨-, hid⟩ | ⟨-, -, hnew, hlive⟩)
  · cases hanswer.symm.trans hid
  · cases hnew.symm.trans (hold _ rfl hlive)

/-- a call that is refused with a port arrived abandons it -/
theorem Turn.exists_abandons {e : Turn} {n groups queues : UInt32} {fault : Fault} {k : Key} {gs qs : List Key}
    (hcall : e.call = .request (.registerPort n groups queues)) (hanswer : e.answer = .error fault)
    (hexhausted : fault.IsExhausted) (harrives : e.before.store.Arrives e.after.store n k gs qs) :
    ∃ port : PortId, port.key = k ∧ e.Abandons n groups queues port := by
  have hkey : (⟨k.id⟩ : PortId).key = k := Handle.key_mk harrives.kind
  refine ⟨⟨k.id⟩, hkey, hcall, ⟨fault, hanswer, hexhausted⟩, ?_, ?_⟩ <;> rw [hkey]
  · exact harrives.new
  · exact harrives.live

/-- **Every call leaves ports as they are, but for the one that it brings up.** -/
theorem Turn.ports {hw : Hardware} {e : Turn} (h : e.before.IsSound hw) : e.Ports := by
  obtain ⟨m, c⟩ := e
  obtain ⟨-, L', hs'⟩ := h.call c
  obtain ⟨rfl, L, hs⟩ := h
  rcases c.sorts with ⟨n, groups, queues, rfl⟩ | hsort
  · have hends := Call.registration_arrives hs n groups queues
    rcases hr : (Call.request (.registerPort n groups queues)).perform.run m with ⟨fault | id, m'⟩
    · have hanswer : answer ⟨m, .request (.registerPort n groups queues)⟩ = .error fault := congrArg Prod.fst hr
      have hafter : after ⟨m, .request (.registerPort n groups queues)⟩ = m' := congrArg Prod.snd hr
      rcases hends.error hr with ⟨hsame, -⟩ | ⟨hexhausted, port, gs, qs, harrives, hshort⟩
      · have hold : ∀ o, o.kind = .port → m'.store.contains o = true → m.store.contains o = true :=
          fun _ _ hc => hsame ▸ hc
        refine .kept ?_ (hafter ▸ hold) (not_bringsUp hanswer (hafter ▸ hold))
        rw [hafter, hsame]
        exact .refl _
      · rw [← hafter] at harrives
        obtain ⟨port, rfl, habandons⟩ := exists_abandons rfl hanswer hexhausted harrives
        refine .arrived (.inr habandons) harrives ⟨fun id hid => ?_, fun _ _ => hshort⟩
        cases hanswer.symm.trans hid
    · obtain ⟨port, rfl, gs, qs, harrives, hgs, hqs⟩ := hends.ok hr
      have hanswer : answer ⟨m, .request (.registerPort n groups queues)⟩ = .ok port.raw := congrArg Prod.fst hr
      have hafter : after ⟨m, .request (.registerPort n groups queues)⟩ = m' := congrArg Prod.snd hr
      refine .arrived (.inl ⟨rfl, hanswer⟩) (hafter ▸ harrives) ⟨fun _ _ => ⟨hgs, hqs⟩, fun fault hfault => ?_⟩
      cases hanswer.symm.trans hfault
  · have hc := Call.registers_eq_false hsort
    refine .kept (.of_keepsPorts (Call.keepsPorts hs hc) hs.wired hs'.wired) (fun o ho hlive => ?_)
      fun n groups queues port hup => ?_
    · exact Call.consumer_before hs hc (by rw [ho]; rfl) hlive
    · have hcall : c = .request (.registerPort n groups queues) := hup.call
      subst hcall
      cases hc

/-! ## One store -/

/-- ports list what has indexes in a row, from zero on, and no two ports have one number -/
structure Store.InOrder (s : Store Record) : Prop where
  numbered : ∀ R o l, R.ownerKind = .port → o.kind = .port → s.contains o = true → s.requireMembers R o = .ok l →
    ∀ i x, l[i]? = some x → s.indexAt x = some (UInt32.ofNat i)
  distinct : ∀ o o', o.kind = .port → s.contains o = true → o'.kind = .port → s.contains o' = true →
    s.hardwareNumberAt o = s.hardwareNumberAt o' → o = o'

namespace Store.InOrder

variable {hw : Hardware} {s t : Store Record} {L : Layout} {n : UInt32} {o port : Key} {gs qs : List Key}

/-- the lists of a port that stays are in order still -/
theorem numbered_of_kept (h : s.InOrder) (w : Wired hw s L none) (hkept : s.PortsKept t) (ho : o.kind = .port)
    (hc : s.contains o = true) {R : Roster} (hR : R.ownerKind = .port) {l : List Key}
    (hl : t.requireMembers R o = .ok l) {i : Nat} {x : Key} (hx : l[i]? = some x) : t.indexAt x = some (UInt32.ofNat i) := by
  rw [hkept.listed R o hR ho hc] at hl
  have hmem : x ∈ L R o := by
    rw [w.requireMembers_eq hc (ho.trans hR.symm), Except.ok.injEq] at hl
    exact hl ▸ List.mem_of_getElem? hx
  obtain ⟨hlive, htakes⟩ := w.takes_of_mem hmem
  rw [Store.indexAt_of_settingsAt (hkept.settings x (Roster.consumer_of_port hR htakes) hlive)]
  exact h.numbered R o l hR ho hc hl i x hx

theorem kept (h : s.InOrder) (w : Wired hw s L none) (hkept : s.PortsKept t)
    (hold : ∀ o, o.kind = .port → t.contains o = true → s.contains o = true) : t.InOrder := by
  refine ⟨fun R o l hR ho hc hl i x hx => h.numbered_of_kept w hkept ho (hold o ho hc) hR hl hx,
    fun o o' ho hc ho' hc' hsame => h.distinct o o' ho (hold o ho hc) ho' (hold o' ho' hc') ?_⟩
  rwa [hkept.number ho (hold o ho hc), hkept.number ho' (hold o' ho' hc')] at hsame

theorem arrives (h : s.InOrder) (w : Wired hw s L none) (ha : s.Arrives t n port gs qs) : t.InOrder := by
  have hother : ∀ {o}, o.kind = .port → s.contains o = true → t.hardwareNumberAt o ≠ some n := fun ho hc => by
    rw [ha.kept.number ho hc]
    exact ha.free _ ho hc
  refine ⟨fun R o l hR ho hc hl i x hx => ?_, fun o o' ho hc ho' hc' hsame => ?_⟩
  · rcases ha.only o ho hc with hold | rfl
    · exact h.numbered_of_kept w ha.kept ho hold hR hl hx
    · refine ha.numbered l ?_ i x hx
      cases R
      case portPriorityGroups => exact .inl (Except.ok.inj (hl.symm.trans ha.groups))
      case portQueues => exact .inr (Except.ok.inj (hl.symm.trans ha.queues))
      all_goals cases hR
  · rcases ha.only o ho hc with hold | rfl <;> rcases ha.only o' ho' hc' with hold' | rfl
    · rw [ha.kept.number ho hold, ha.kept.number ho' hold'] at hsame
      exact h.distinct o o' ho hold ho' hold' hsame
    · exact absurd (hsame.trans ha.number) (hother ho hold)
    · exact absurd (hsame.symm.trans ha.number) (hother ho' hold')
    · rfl

end Store.InOrder

/-! ## A run -/

/-- what a call has brought up is in a store with its number, and lists what it came with -/
def Turn.Leaves (e : Turn) (s : Store Record) (n groups queues : UInt32) (port : Key) : Prop :=
  s.contains port = true ∧ s.hardwareNumberAt port = some n ∧
    ∃ gs qs, s.requireMembers .portPriorityGroups port = .ok gs ∧ s.requireMembers .portQueues port = .ok qs ∧
      e.Yields groups queues gs.length qs.length

theorem Turn.Leaves.kept {e : Turn} {s t : Store Record} {n groups queues : UInt32} {port : Key}
    (h : e.Leaves s n groups queues port) (hport : port.kind = .port) (hkept : s.PortsKept t) :
    e.Leaves t n groups queues port := by
  obtain ⟨hc, hn, gs, qs, hgs, hqs, hyields⟩ := h
  refine ⟨hkept.contains (by rw [hport]; rfl) hc, (hkept.number hport hc).trans hn, gs, qs, ?_, ?_, hyields⟩
  · rwa [hkept.listed .portPriorityGroups port rfl hport hc]
  · rwa [hkept.listed .portQueues port rfl hport hc]

theorem Handle.key_inj {kind : ObjectKind} {h h' : Handle kind} : h.key = h'.key ↔ h = h' := by
  obtain ⟨id⟩ := h
  obtain ⟨id'⟩ := h'
  simp [key]

/-- a call brings up one port at most -/
theorem Turn.BringsUp.unique {e : Turn} {n n' groups groups' queues queues' : UInt32} {port port' : PortId}
    {gs qs : List Key} (h : e.BringsUp n groups queues port)
    (harrives : e.before.store.Arrives e.after.store n port.key gs qs)
    (h' : e.BringsUp n' groups' queues' port') : n' = n ∧ groups' = groups ∧ queues' = queues ∧ port' = port := by
  obtain ⟨rfl, rfl, rfl⟩ : n' = n ∧ groups' = groups ∧ queues' = queues := by
    simpa using h'.call.symm.trans h.call
  refine ⟨rfl, rfl, rfl, ?_⟩
  rcases h' with ⟨-, hid'⟩ | ⟨-, ⟨fault, hfault, -⟩, hnew, hlive⟩
  · rcases h with ⟨-, hid⟩ | ⟨-, ⟨fault, hfault, -⟩, -⟩
    · exact congrArg Handle.mk (Except.ok.inj (hid'.symm.trans hid))
    · cases hfault.symm.trans hid'
  · exact Handle.key_inj.1 ((harrives.only _ rfl hlive).resolve_left (by simp [hnew]))

/-- the ports that a run has brought up, and no others, are in a store, in order -/
structure Traced.Ports (log : List Turn) (s : Store Record) : Prop where
  ordered : s.InOrder
  left : ∀ e ∈ log, ∀ n groups queues port, e.BringsUp n groups queues port → e.Leaves s n groups queues port.key
  told : ∀ port : PortId, s.contains port.key = true → ∃ e ∈ log, ∃ n groups queues, e.BringsUp n groups queues port

/-- at the start there are none -/
theorem Traced.Ports.empty : Ports [] {} := by
  refine ⟨⟨fun R o l hR ho hc => ?_, fun o o' ho hc => ?_⟩, fun e he => absurd he List.not_mem_nil, fun port hc => ?_⟩
  all_goals cases hc

/-- one call more -/
theorem Traced.Ports.call {hw : Hardware} {log : List Turn} {m : Manager} (h : Ports log m.store) (hs : m.IsSound hw)
    (c : Call) : Ports (⟨m, c⟩ :: log) (c.perform.run m).2.store := by
  obtain ⟨L, hsound⟩ := hs.exists_layout
  cases Turn.ports (e := ⟨m, c⟩) hs with
  | kept hkept hold hnone =>
    refine ⟨h.ordered.kept hsound.wired hkept hold, fun e he n groups queues port hup => ?_, fun port hport => ?_⟩
    · rcases List.mem_cons.1 he with rfl | he
      · exact absurd hup (hnone n groups queues port)
      · exact (h.left e he n groups queues port hup).kept rfl hkept
    · obtain ⟨e, he, hup⟩ := h.told port (hold _ rfl hport)
      exact ⟨e, List.mem_cons_of_mem _ he, hup⟩
  | @arrived n groups queues new gs qs hnew harrives hyields =>
    refine ⟨h.ordered.arrives hsound.wired harrives, fun e he n' groups' queues' port hup => ?_, fun port hport => ?_⟩
    · rcases List.mem_cons.1 he with rfl | he
      · obtain ⟨rfl, rfl, rfl, rfl⟩ := hnew.unique harrives hup
        exact ⟨harrives.live, harrives.number, gs, qs, harrives.groups, harrives.queues, hyields⟩
      · exact (h.left e he n' groups' queues' port hup).kept rfl harrives.kept
    · rcases harrives.only _ rfl hport with hold | hsame
      · obtain ⟨e, he, hup⟩ := h.told port hold
        exact ⟨e, List.mem_cons_of_mem _ he, hup⟩
      · obtain rfl := Handle.key_inj.1 hsame
        exact ⟨_, List.mem_cons_self, n, groups, queues, hnew⟩

/-- **The ports that are there are those that calls brought up**, as they were brought up. -/
theorem Traced.ports {hw : Hardware} {log : List Turn} {m : Manager} (h : Traced hw log m) : Ports log m.store := by
  induction h with
  | start watched => exact .empty
  | call h c ih => exact ih.call h.sound c
  | outbox h watched events audit ih => exact ih

/-! ## Ports that are found -/

section

variable {hw : Hardware} {m : Manager} {L : Layout} {n : UInt32} {port : PortId}

/-- the port that is found has the number -/
theorem Manager.number_of_findPort? (h : m.findPort? n = some port) : m.store.hardwareNumberAt port.key = some n := by
  rw [Store.findPort?_eq, Option.bind_eq_some_iff] at h
  obtain ⟨k, hk, hport⟩ := h
  have hkind := (Store.mem_keysOf.1 (List.mem_of_find?_eq_some hk)).2
  rw [Handle.ofKey?, if_pos hkind, Option.some.injEq] at hport
  subst hport
  have hn := List.find?_some hk
  rw [Handle.key_mk hkind]
  exact eq_of_beq hn

/-- where numbers are distinct, the port with a number is found -/
theorem Store.InOrder.findPort?_eq_some (h : m.store.InOrder) :
    m.findPort? n = some port ↔ m.store.contains port.key = true ∧ m.store.hardwareNumberAt port.key = some n := by
  refine ⟨fun hport => ⟨contains_of_findPort? hport, number_of_findPort? hport⟩, ?_⟩
  rintro ⟨hc, hn⟩
  cases hfind : m.findPort? n with
  | none => exact absurd hn (free_of_findPort? hfind rfl hc)
  | some port' =>
    have hsame := (number_of_findPort? hfind).trans hn.symm
    exact congrArg some (Handle.key_inj.1 (h.distinct _ _ rfl (contains_of_findPort? hfind) rfl hc hsame))

end

/-! ## Members of a list, by index -/

/-- a port lists these, each of them live, with its place in the list for an index, and of this port; and no other port
lists any of them -/
structure Manager.ListsInOrder (m : Manager) {kind : ObjectKind}
    (membersOf : Manager → PortId → Except Fault (List (Handle kind))) (port : PortId) (members : List (Handle kind)) :
    Prop where
  listed : membersOf m port = .ok members
  indexed : ∀ i x, members[i]? = some x → ∃ r index, m.store.get? x.key = some r ∧ r.kind = kind ∧
    r.parentPort? = some port.key ∧ r.index? = some index ∧ index.toNat = i
  exclusive : ∀ x ∈ members, ∀ port' members', membersOf m port' = .ok members' → x ∈ members' → port' = port

/-- what ports list names its port in one place -/
theorem Record.parentPort?_of_takes {r : Record} {R : Roster} (hR : R.ownerKind = .port) (h : R.takes r.kind = true) :
    r.parentPort? = r.ownerIn? R := by
  cases R <;> cases r <;> simp_all [Roster.ownerKind, Roster.takes, kind, parentPort?, ownerIn?, link?]

section

variable {hw : Hardware} {m : Manager} {L : Layout} {R : Roster} {kind : ObjectKind} {port : PortId} {x : Key}
  {membersOf : Manager → PortId → Except Fault (List (Handle kind))}

/-- only owners that are there have a list -/
theorem Store.contains_of_requireMembers {s : Store Record} {o : Key} {l : List Key}
    (h : s.requireMembers R o = .ok l) : s.contains o = true := by
  cases hm : s.members R o with
  | error e =>
    rw [requireMembers, hm] at h
    cases h
  | ok l' =>
    obtain ⟨hd, hhd⟩ := exists_head_of_members hm
    exact contains_of_headAt hhd

/-- what a port lists has its place for an index, and names the port -/
theorem Store.InOrder.getElem?_eq_some (h : m.store.InOrder) (w : Wired hw m.store L none) (hR : R.ownerKind = .port)
    (hkind : ∀ j, R.takes j = true ↔ j = kind) (hc : m.store.contains port.key = true) {i : Nat} :
    (L R port.key)[i]? = some x ↔ ∃ r index, m.store.get? x = some r ∧ r.kind = kind ∧
      r.parentPort? = some port.key ∧ r.index? = some index ∧ index.toNat = i := by
  have hat : ∀ {i x}, (L R port.key)[i]? = some x → ∃ r index, m.store.get? x = some r ∧ r.kind = kind ∧
      r.parentPort? = some port.key ∧ r.index? = some index ∧ index.toNat = i := by
    intro i x hx
    have hmem := List.mem_of_getElem? hx
    obtain ⟨-, htakes⟩ := w.takes_of_mem hmem
    obtain ⟨r, hr, howner⟩ := Option.bind_eq_some_iff.1 (w.linked.ownerOf?_eq_some.2 hmem)
    have hindex := h.numbered R port.key _ hR rfl hc (w.requireMembers_eq hc hR.symm) i x hx
    rw [Store.indexAt, hr, Option.bind_some] at hindex
    have hlt : i < UInt32.size := ((List.getElem?_eq_some_iff.1 hx).1).trans (w.length_lt_of_port hR port.key)
    rw [← w.kind_eq hr] at htakes
    refine ⟨r, UInt32.ofNat i, hr, (hkind _).1 htakes, ?_, hindex, UInt32.toNat_ofNat_of_lt' hlt⟩
    rw [Record.parentPort?_of_takes hR htakes, howner]
  refine ⟨hat, ?_⟩
  rintro ⟨r, index, hr, hrk, hparent, hindex, hi⟩
  rw [Record.parentPort?_of_takes hR ((hkind _).2 hrk)] at hparent
  have howner : m.store.ownerOf? R x = some port.key := by rw [Store.ownerOf?, hr, Option.bind_some, hparent]
  obtain ⟨j, hj⟩ := List.getElem?_of_mem (w.linked.ownerOf?_eq_some.1 howner)
  obtain ⟨r', index', hr', -, -, hindex', rfl⟩ := hat hj
  obtain rfl := Option.some.inj (hr.symm.trans hr')
  obtain rfl := Option.some.inj (hindex.symm.trans hindex')
  rwa [← hi]

/-- **A port lists its members by index.** -/
theorem Store.InOrder.listsInOrder (h : m.store.InOrder) (w : Wired hw m.store L none) (hR : R.ownerKind = .port)
    (hkind : ∀ j, R.takes j = true ↔ j = kind)
    (hmembers : ∀ port, membersOf m port = m.store.requireMembers R port.key >>= fun l => l.mapM (Handle.require kind))
    (hc : m.store.contains port.key = true) : m.ListsInOrder membersOf port ((L R port.key).map fun j => ⟨j.id⟩) := by
  have hlist : ∀ {port : PortId}, m.store.contains port.key = true →
      membersOf m port = .ok ((L R port.key).map fun j => ⟨j.id⟩) := fun {port} hc =>
    (hmembers port).trans (w.listed_handles hc hR.symm fun j => (hkind j).1)
  have hkey : ∀ {port : PortId} {j}, j ∈ L R port.key → (⟨j.id⟩ : Handle kind).key = j := fun hj =>
    Handle.key_mk ((hkind _).1 (w.takes_of_mem hj).2)
  refine ⟨hlist hc, fun i x hx => ?_, fun x hx port' members' hmembers' hx' => ?_⟩
  · rw [List.getElem?_map, Option.map_eq_some_iff] at hx
    obtain ⟨j, hj, rfl⟩ := hx
    rw [hkey (List.mem_of_getElem? hj)]
    exact (h.getElem?_eq_some w hR hkind hc).1 hj
  · have hc' : m.store.contains port'.key = true := by
      rw [hmembers] at hmembers'
      cases hl : m.store.requireMembers R port'.key with
      | error e => rw [hl] at hmembers'; cases hmembers'
      | ok l => exact Store.contains_of_requireMembers hl
    obtain rfl := Except.ok.inj ((hlist hc').symm.trans hmembers')
    obtain ⟨j, hj, rfl⟩ := List.mem_map.1 hx
    obtain ⟨j', hj', hsame⟩ := List.mem_map.1 hx'
    obtain rfl : j' = j := by rw [← hkey hj, ← hkey hj', hsame]
    exact Handle.key_inj.1 (w.linked.owner_unique hj' hj)

/-! ## Indexes in a plan -/

/-- the consumers that are there, by their place among the members -/
theorem Span.mem_present {span : Span} :
    x ∈ span.present ↔ ∃ i, span.first ≤ i ∧ i < span.first + span.count ∧ span.members[i]? = some x := by
  rw [present, List.mem_iff_getElem?]
  constructor
  · rintro ⟨j, hj⟩
    rw [List.getElem?_take, List.getElem?_drop] at hj
    split at hj
    case isTrue hlt => exact ⟨span.first + j, Nat.le_add_right .., Nat.add_lt_add_left hlt _, hj⟩
    case isFalse => cases hj
  · rintro ⟨i, hle, hlt, hi⟩
    refine ⟨i - span.first, ?_⟩
    rw [List.getElem?_take, List.getElem?_drop, if_pos (by omega), Nat.add_sub_cancel' hle, hi]

/-- a priority group or queue that a key of a plan names: one of the port, with an index in the range of the key -/
def BindingTable.Names (t : BindingTable) (m : Manager) (text : String) (x : Key) : Prop :=
  ∃ key port r index, ConsumerKey.ofText? text = some key ∧ m.findPort? key.port = some port ∧
    m.store.get? x = some r ∧ r.kind = t.kind ∧ r.parentPort? = some port.key ∧ r.index? = some index ∧
      key.first ≤ index ∧ index ≤ key.last

/-- **A key of a plan covers what it names.** -/
theorem Store.InOrder.covers_iff (h : m.store.InOrder) (w : Wired hw m.store L none) (hR : R.ownerKind = .port)
    {t : BindingTable} (hkind : ∀ j, R.takes j = true ↔ j = t.kind) {text : String}
    {membersOf : Manager → PortId → Except Fault (List (Handle t.kind))}
    (hmembers : ∀ port, membersOf m port = m.store.requireMembers R port.key >>= fun l => l.mapM (Handle.require t.kind))
    (hspan : t.span? m text = m.spanOf? membersOf text) : t.Covers m text x ↔ t.Names m text x := by
  unfold BindingTable.Covers BindingTable.Names
  rw [hspan, Manager.spanOf?]
  cases hkey : ConsumerKey.ofText? text with
  | none => simp
  | some key =>
    cases hport : m.findPort? key.port with
    | none => simp [hport]
    | some port =>
      have hc := Store.contains_of_findPort? hport
      have hlist := (h.listsInOrder w hR hkind hmembers hc).listed
      have hkeys : ((L R port.key).map fun j => (⟨j.id⟩ : Handle t.kind)).map Handle.key = L R port.key :=
        Handle.map_key fun j hj => (hkind _).1 (w.takes_of_mem hj).2
      simp only [Option.bind_eq_bind, Option.bind_some, hport, hlist, Except.toOption, hkeys, Option.pure_def,
        Option.some.injEq, exists_eq_left', Span.mem_present, h.getElem?_eq_some w hR hkind hc]
      constructor
      · rintro ⟨_, hfirst, hlast, r, index, hr, hk, hparent, hindex, rfl⟩
        exact ⟨key, port, r, index, rfl, hport, hr, hk, hparent, hindex, UInt32.le_iff_toNat_le.2 hfirst,
          UInt32.le_iff_toNat_le.2 (by omega)⟩
      · rintro ⟨_, port', r, index, rfl, hport', hr, hk, hparent, hindex, hfirst, hlast⟩
        obtain rfl := Option.some.inj (hport.symm.trans hport')
        rw [UInt32.le_iff_toNat_le] at hfirst hlast
        exact ⟨index.toNat, hfirst, by omega, r, index, hr, hk, hparent, hindex, rfl⟩

end

/-! ## Whatever is reached -/

/-- each call of a list is made of the manager that the calls before it left -/
theorem Manager.mem_turns (m : Manager) (pre : List Call) (c : Call) (post : List Call) :
    ⟨m.live (pre.map .call), c⟩ ∈ m.turns (pre ++ c :: post) := by
  induction pre generalizing m with
  | nil => exact List.mem_append_right _ List.mem_cons_self
  | cons a pre ih => exact List.mem_append_left _ (ih _)

theorem Roster.takes_portPriorityGroups (kind : ObjectKind) : portPriorityGroups.takes kind = true ↔
    kind = .priorityGroup := by cases kind <;> simp [takes]

theorem Roster.takes_portQueues (kind : ObjectKind) : portQueues.takes kind = true ↔ kind = .queue := by
  cases kind <;> simp [takes]

section

variable {hw : Hardware} {log : List Turn} {m : Manager} {e : Turn} {n groups queues : UInt32} {port : PortId}

/-- what a call has brought up is there, and lists its members by index -/
theorem Traced.lists (h : Traced hw log m) (he : e ∈ log) (hup : e.BringsUp n groups queues port) :
    m.store.contains port.key = true ∧ m.store.hardwareNumberAt port.key = some n ∧
      ∃ gs qs, m.ListsInOrder priorityGroupsOf port gs ∧ m.ListsInOrder queuesOf port qs ∧
        e.Yields groups queues gs.length qs.length := by
  obtain ⟨L, hs⟩ := h.sound.exists_layout
  obtain ⟨hordered, hleft, -⟩ := h.ports
  obtain ⟨hc, hn, gs, qs, hgs, hqs, hyields⟩ := hleft e he n groups queues port hup
  obtain rfl := Except.ok.inj ((hs.wired.requireMembers_eq (R := .portPriorityGroups) hc rfl).symm.trans hgs)
  obtain rfl := Except.ok.inj ((hs.wired.requireMembers_eq (R := .portQueues) hc rfl).symm.trans hqs)
  refine ⟨hc, hn, _, _, hordered.listsInOrder hs.wired rfl Roster.takes_portPriorityGroups (fun _ => rfl) hc,
    hordered.listsInOrder hs.wired rfl Roster.takes_portQueues (fun _ => rfl) hc, ?_⟩
  rwa [List.length_map, List.length_map]

/-- a port is found by a number exactly if a call has brought it up with that number -/
theorem Traced.findPort?_eq_some (h : Traced hw log m) :
    m.findPort? n = some port ↔ ∃ e ∈ log, ∃ groups queues, e.BringsUp n groups queues port := by
  obtain ⟨hordered, hleft, htold⟩ := h.ports
  rw [hordered.findPort?_eq_some]
  constructor
  · rintro ⟨hc, hn⟩
    obtain ⟨e, he, n', groups, queues, hup⟩ := htold port hc
    obtain ⟨-, hn', -⟩ := hleft e he n' groups queues port hup
    obtain rfl := Option.some.inj (hn.symm.trans hn')
    exact ⟨e, he, groups, queues, hup⟩
  · rintro ⟨e, he, groups, queues, hup⟩
    obtain ⟨hc, hn, -⟩ := hleft e he n groups queues port hup
    exact ⟨hc, hn⟩

/-- a run goes on with a call that abandons a port -/
theorem Traced.abandoned {m' : Manager} {fault : Fault} {k : Key} {gs qs : List Key} (h : Traced hw log m)
    (hrun : (Request.registerPort n groups queues).perform.run m = (.error fault, m')) (hexhausted : fault.IsExhausted)
    (harrives : m.store.Arrives m'.store n k gs qs) :
    ∃ (e : Turn) (port : PortId), e.call = .request (.registerPort n groups queues) ∧ Traced hw (e :: log) m' ∧
      e.Abandons n groups queues port := by
  let e : Turn := ⟨m, .request (.registerPort n groups queues)⟩
  have hanswer : e.answer = .error fault := congrArg Prod.fst hrun
  have hafter : e.after = m' := congrArg Prod.snd hrun
  rw [← hafter] at harrives
  obtain ⟨port, -, habandons⟩ := Turn.exists_abandons (e := e) rfl hanswer hexhausted harrives
  exact ⟨e, port, rfl, hafter ▸ h.call e.call, habandons⟩

/-- where no call for a number abandons a port, all that are brought up with it are registered -/
theorem Turn.bringsUp_iff (h : ∀ e ∈ log, ∀ groups queues port, ¬ e.Abandons n groups queues port) :
    (∃ e ∈ log, ∃ groups queues, e.BringsUp n groups queues port) ↔
      ∃ e ∈ log, ∃ groups queues, e.Registers n groups queues port := by
  constructor
  · rintro ⟨e, he, groups, queues, hregisters | habandons⟩
    · exact ⟨e, he, groups, queues, hregisters⟩
    · exact absurd habandons (h e he groups queues port)
  · rintro ⟨e, he, groups, queues, hregisters⟩
    exact ⟨e, he, groups, queues, .inl hregisters⟩

end

/-- **Ports keep their groups and queues in index order.** However the calls are told that led to what is reached: a
port that one of them registered is there with its hardware number, and lists as many priority groups and queues as were
asked for, the i-th of which is live, has the index i, names the port, and is listed by no other. A port with a number
is found exactly if it was registered with it, where no call with that number abandoned one. A port that was abandoned
is found, with less than was asked for, but in order all the same; there are no other ports. Numbers are distinct, and
a key of a plan covers just the groups or queues of its port that have an index in its range. -/
theorem reached_ports_in_order {hw : Hardware} {m : Manager} (hm : Reached hw m) :
    (∃ log, Traced hw log m) ∧
      (∀ log, Traced hw log m →
        (∀ e ∈ log, ∀ n groups queues port, e.Registers n groups queues port →
          m.store.contains port.key = true ∧ m.store.hardwareNumberAt port.key = some n ∧
            ∃ gs qs, m.ListsInOrder priorityGroupsOf port gs ∧ m.ListsInOrder queuesOf port qs ∧
              gs.length = groups.toNat ∧ qs.length = queues.toNat) ∧
        (∀ n, (∀ e ∈ log, ∀ groups queues port, ¬ e.Abandons n groups queues port) →
          ∀ port, m.findPort? n = some port ↔ ∃ e ∈ log, ∃ groups queues, e.Registers n groups queues port) ∧
        (∀ e ∈ log, ∀ n groups queues port, e.Abandons n groups queues port →
          m.findPort? n = some port ∧ ∃ gs qs, m.ListsInOrder priorityGroupsOf port gs ∧
            m.ListsInOrder queuesOf port qs ∧ FallsShort groups queues gs.length qs.length) ∧
        ∀ port : PortId, m.store.contains port.key = true → ∃ e ∈ log, ∃ n groups queues,
          e.Registers n groups queues port ∨ e.Abandons n groups queues port) ∧
      (∀ port port' : PortId, m.store.contains port.key = true → m.store.contains port'.key = true →
        m.store.hardwareNumberAt port.key = m.store.hardwareNumberAt port'.key → port = port') ∧
      ∀ t text x, t ≠ BindingTable.ports → (t.Covers m text x ↔ t.Names m text x) := by
  obtain ⟨L, hs⟩ := hm.sound.exists_layout
  obtain ⟨log₀, hlog₀⟩ := hm.exists_traced
  have hordered := hlog₀.ports.ordered
  refine ⟨hm.exists_traced, fun log hlog => ⟨fun e he n groups queues port hregisters => ?_, fun n hnone port => ?_,
    fun e he n groups queues port habandons => ?_, hlog.ports.told⟩, fun port port' hc hc' hsame => ?_,
    fun t text x ht => ?_⟩
  · obtain ⟨hc, hn, gs, qs, hgs, hqs, hyields⟩ := hlog.lists he (.inl hregisters)
    exact ⟨hc, hn, gs, qs, hgs, hqs, hyields.full _ hregisters.2⟩
  · exact hlog.findPort?_eq_some.trans (Turn.bringsUp_iff hnone)
  · obtain ⟨-, -, gs, qs, hgs, hqs, hyields⟩ := hlog.lists he (.inr habandons)
    have hport := hlog.findPort?_eq_some.2 ⟨e, he, groups, queues, .inr habandons⟩
    obtain ⟨-, ⟨fault, hfault, -⟩, -⟩ := habandons
    exact ⟨hport, gs, qs, hgs, hqs, hyields.short fault hfault⟩
  · exact Handle.key_inj.1 (hordered.distinct _ _ rfl hc rfl hc' hsame)
  · cases t with
    | groups => exact hordered.covers_iff hs.wired rfl Roster.takes_portPriorityGroups (fun _ => rfl) rfl
    | queues => exact hordered.covers_iff hs.wired rfl Roster.takes_portQueues (fun _ => rfl) rfl
    | ports => exact absurd rfl ht

/-- two ports, and a group of the second that goes from profile to profile, the first of which is removed -/
def rearranging : List Call :=
  [.request (.registerPort 0 2 1), .request (.registerPort 1 3 2), .createPool .ingress 10000 none,
    .createProfile { pool := firstPool, size := 1000, threshold := .dynamic 1 },
    .createProfile { pool := firstPool, size := 500, threshold := .dynamic 1 },
    .bindGroup ⟨(Key.make .priorityGroup 0 3).id⟩ (some (profileAfter 0)),
    .bindGroup ⟨(Key.make .priorityGroup 0 3).id⟩ (some (profileAfter 1)), .removeProfile (profileAfter 0)]

/-- the second port has its three groups, and a key finds the one that went about by its index -/
theorem rearranging_ports_in_order :
    let m := (start twoTiles true).live (rearranging.map .call)
    let port : PortId := ⟨(Key.make .port 0 1).id⟩
    m.findPort? 1 = some port ∧ (∃ gs, m.ListsInOrder priorityGroupsOf port gs ∧ gs.length = 3) ∧
      BindingTable.groups.Covers m "Ethernet1|1" (Key.make .priorityGroup 0 3) := by
  intro m port
  have hreached : Reached twoTiles m := ⟨true, rearranging.map .call, rfl⟩
  obtain ⟨-, hports, -, hkeys⟩ := reached_ports_in_order hreached
  obtain ⟨hregistered, hfound, -⟩ := hports _ (Traced.started twoTiles true rearranging)
  let e : Turn := ⟨(start twoTiles true).live [.call (.request (.registerPort 0 2 1))], .request (.registerPort 1 3 2)⟩
  have he : e ∈ (start twoTiles true).turns rearranging :=
    mem_turns _ [.request (.registerPort 0 2 1)] (.request (.registerPort 1 3 2)) (rearranging.drop 2)
  have hregisters : e.Registers 1 3 2 port := ⟨rfl, by decide +kernel⟩
  have hanswered : ∀ e ∈ (start twoTiles true).turns rearranging, e.answer.isOk = true := by decide +kernel
  have hport : m.findPort? 1 = some port := by
    refine (hfound 1 fun e he groups queues port habandons => ?_) port |>.2 ⟨e, he, 3, 2, hregisters⟩
    obtain ⟨-, ⟨fault, hfault, -⟩, -⟩ := habandons
    have hok := hanswered e he
    rw [hfault] at hok
    cases hok
  obtain ⟨-, -, gs, qs, hgs, -, hlength, -⟩ := hregistered e he 1 3 2 port hregisters
  refine ⟨hport, ⟨gs, hgs, hlength⟩, (hkeys .groups _ _ (by decide)).2 ?_⟩
  have hgroup : (m.store.get? (Key.make .priorityGroup 0 3)).any (fun r => r.kind = .priorityGroup &&
      r.parentPort? = some port.key && r.index? = some 1) = true := by decide +kernel
  obtain ⟨r, hr, hsays⟩ := (Option.any_eq_true ..).1 hgroup
  simp only [Bool.and_eq_true, decide_eq_true_eq] at hsays
  exact ⟨⟨1, 1, 1⟩, port, r, 1, by decide +kernel, hport, hr, hsays.1.1, hsays.1.2, hsays.2, by decide, by decide⟩

/-- a run of two calls, the second of which asks for the only port with the number 1 and is refused; but such a port is
found, with fewer groups than were asked for -/
theorem overlong_half_built :
    ∃ log m, Traced {} log m ∧
      log.map Turn.call = [.request (.registerPort 1 0xFFFFFFFF 0), .request (.registerPort 0 1 0)] ∧
      (∀ e ∈ log, ∀ groups queues port, ¬ e.Registers 1 groups queues port) ∧
      ∃ port gs, m.findPort? 1 = some port ∧ m.priorityGroupsOf port = .ok gs ∧ gs.length < 0xFFFFFFFF := by
  have hone : Traced {} [⟨start {} true, .request (.registerPort 0 1 0)⟩] onePort :=
    (Traced.start true).calls [.request (.registerPort 0 1 0)]
  obtain ⟨fault, m', hrun, hexhausted, _, _, _, harrives, -⟩ := onePort_overlong
  obtain ⟨e, port, hcall, hlog, habandons⟩ := hone.abandoned hrun hexhausted harrives
  obtain ⟨-, -, gs, qs, hgs, -, hyields⟩ := hlog.lists List.mem_cons_self (.inr habandons)
  have hfound := hlog.findPort?_eq_some.2 ⟨e, List.mem_cons_self, _, _, .inr habandons⟩
  obtain ⟨-, ⟨_, hanswer, -⟩, -⟩ := habandons
  refine ⟨_, m', hlog, by rw [List.map_cons, hcall]; rfl, fun e' he groups queues port' hregisters => ?_, _, gs, hfound,
    hgs.listed, ?_⟩
  · obtain ⟨hcall', hok⟩ := hregisters
    rcases List.mem_pair.1 he with rfl | rfl
    · cases hanswer.symm.trans hok
    · exact absurd (Request.registerPort.inj (Call.request.inj hcall')).1 (by decide)
  · have hmax : (0xFFFFFFFF : UInt32).toNat = 0xFFFFFFFF := by decide
    rcases hyields.short _ hanswer with ⟨hfew, -⟩ | ⟨-, hnone⟩
    · exact hmax ▸ hfew
    · exact absurd hnone (Nat.not_lt_zero _)

end SharedBuffer
