/-
What lasts while a plan is made.

A plan creates pools and profiles and binds consumers. None of this takes anything away or changes what an object was
set to, and ports are not touched (`Store.Continues`). So a key of a plan names the same consumers from the first entry
to the last.

Results: `Manager.Makes.continues` and `Change.Outcome.continues`, for what a plan asks for, and
`Store.Continues.span?_eq`.
-/
import SharedBuffer.Proofs.Manager.Compatibility
import SharedBuffer.Proofs.Plan.Entries
import SharedBuffer.Proofs.Store.Scans

namespace SharedBuffer

/-! ## What objects were set to -/

/-- the record without its lists, its places in lists, its count and its figures -/
def Record.settings : Record → Record
  | .pool p =>
    .pool { p with sharedSize := 0, tileReserved := [], tilesTotalReserved := 0, profiles := {}, refCount := 0 }
  | r => r.bare

namespace Record

theorem settings_bare (r : Record) : r.bare.settings = r.settings := by cases r <;> rfl

theorem core_settings (r : Record) : r.settings.core = r.core := by cases r <;> rfl

theorem settings_withTotals (tot : Totals) (r : Record) : (r.mapPool (Pool.withTotals tot)).settings = r.settings := by
  cases r <;> rfl

end Record

namespace Store

variable {s t u : Store Record} {k : Key}

/-- the settings of the record under a key -/
def settingsAt (s : Store Record) (k : Key) : Option Record := (s.get? k).map Record.settings

theorem settingsAt_eq (s : Store Record) (k : Key) : s.settingsAt k = (s.bareAt k).map Record.settings := by
  unfold settingsAt bareAt
  cases s.get? k with
  | none => rfl
  | some r => simp [Record.settings_bare]

theorem contains_eq_settingsAt : s.contains k = (s.settingsAt k).isSome := by
  rw [settingsAt, Option.isSome_map]
  rfl

theorem coreAt_of_settingsAt (h : t.settingsAt k = s.settingsAt k) : t.coreAt k = s.coreAt k := by
  have hview : ∀ u : Store Record, u.coreAt k = (u.settingsAt k).map Record.core := fun u => by
    rw [coreAt, settingsAt]
    cases u.get? k with
    | none => rfl
    | some r => simp [Record.core_settings]
  rw [hview, hview, h]

/-- writing figures sets nothing -/
theorem settingsAt_written (s : Store Record) (figures : List (Key × Totals)) (k : Key) :
    (s.written figures).settingsAt k = s.settingsAt k := by
  refine view_written (fun s => s.settingsAt k) (fun s j tot => ?_) s figures
  rw [settingsAt, settingsAt, get?_edit]
  split
  · cases s.get? k <;> simp [Record.settings_withTotals]
  · rfl

theorem pool?_of_settingsAt (h : t.settingsAt k = s.settingsAt k) {q : Pool} (hq : s.pool? k = some q) :
    ∃ q', t.pool? k = some q' ∧ q'.size = q.size ∧ q'.regime = q.regime := by
  rw [settingsAt, settingsAt, pool?_eq_some.1 hq, Option.map_some] at h
  obtain ⟨r, hr, hsame⟩ := Option.map_eq_some_iff.1 h
  cases r
  case pool q' =>
    simp only [Record.settings, Record.pool.injEq, Pool.mk.injEq] at hsame
    exact ⟨q', pool?_eq_some.2 hr, hsame.2.1, Prod.ext hsame.1 hsame.2.2.1⟩
  all_goals cases hsame

theorem profile?_of_settingsAt (h : t.settingsAt k = s.settingsAt k) {p : Profile} (hp : s.profile? k = some p) :
    ∃ p', t.profile? k = some p' ∧ p'.size = p.size ∧ p'.terms = p.terms := by
  rw [settingsAt, settingsAt, profile?_eq_some.1 hp, Option.map_some] at h
  obtain ⟨r, hr, hsame⟩ := Option.map_eq_some_iff.1 h
  cases r
  case profile p' =>
    simp only [Record.settings, Record.bare, Record.profile.injEq, Profile.mk.injEq] at hsame
    exact ⟨p', profile?_eq_some.2 hr, hsame.1, by simp [Profile.terms, hsame]⟩
  all_goals cases hsame

/-- the hardware number of the port under a key -/
def hardwareNumberAt (s : Store Record) (k : Key) : Option UInt32 := (s.port? k).map Port.hardwareNumber

theorem hardwareNumberAt_of_settingsAt (h : t.settingsAt k = s.settingsAt k) :
    t.hardwareNumberAt k = s.hardwareNumberAt k := by
  have hview : ∀ u : Store Record, u.hardwareNumberAt k =
      ((u.settingsAt k).bind Record.asPort?).map Port.hardwareNumber := fun u => by
    unfold hardwareNumberAt port? settingsAt
    rcases u.get? k with - | (_ | _ | _ | _ | _) <;> rfl
  rw [hview, hview, h]

/-! ## Continuity -/

/-- all that is in `s` is in `t`, set to what it was and in the pool it was in; ports, their lists and all that is in
them are the same -/
structure Continues (s t : Store Record) : Prop where
  settings : ∀ k, s.contains k = true → t.settingsAt k = s.settingsAt k
  pool : ∀ k, s.contains k = true → t.ownerOf? .poolProfiles k = s.ownerOf? .poolProfiles k
  consumers : ∀ k, Roster.profileConsumers.takes k.kind = true → t.contains k = s.contains k
  listed : ∀ R k, R.ownerKind = .port → k.kind = .port → s.contains k = true →
    t.requireMembers R k = s.requireMembers R k

namespace Continues

theorem refl (s : Store Record) : Continues s s := ⟨fun _ _ => rfl, fun _ _ => rfl, fun _ _ => rfl, fun _ _ _ _ _ => rfl⟩

theorem contains (h : Continues s t) (hk : s.contains k = true) : t.contains k = true := by
  rw [contains_eq_settingsAt, h.settings k hk, ← contains_eq_settingsAt, hk]

theorem trans (h : Continues s t) (h' : Continues t u) : Continues s u :=
  ⟨fun k hk => (h'.settings k (h.contains hk)).trans (h.settings k hk),
    fun k hk => (h'.pool k (h.contains hk)).trans (h.pool k hk),
    fun k hk => (h'.consumers k hk).trans (h.consumers k hk),
    fun R k hR hkind hk => (h'.listed R k hR hkind (h.contains hk)).trans (h.listed R k hR hkind hk)⟩

/-- lists of ports that have the same members -/
theorem of_wired {hw : Hardware} {L L' : Layout} (w : Wired hw s L none) (w' : Wired hw t L' none)
    (hlists : ∀ R, R.ownerKind = .port → L' R = L R)
    (settings : ∀ k, s.contains k = true → t.settingsAt k = s.settingsAt k)
    (pool : ∀ k, s.contains k = true → t.ownerOf? .poolProfiles k = s.ownerOf? .poolProfiles k)
    (consumers : ∀ k, Roster.profileConsumers.takes k.kind = true → t.contains k = s.contains k) : Continues s t := by
  refine ⟨settings, pool, consumers, fun R k hR hkind hk => ?_⟩
  have hk' : t.contains k = true := (consumers k (by rw [hkind]; rfl)).trans hk
  rw [w.requireMembers_eq hk (hkind.trans hR.symm), w'.requireMembers_eq hk' (hkind.trans hR.symm), hlists R hR]

end Continues

/-! ## Ports -/

/-- a port is found by the first key with its hardware number -/
theorem findPort?_eq (m : Manager) (n : UInt32) : m.findPort? n =
    ((m.store.keysOf .port).find? fun k => m.store.hardwareNumberAt k == some n).bind (Handle.ofKey? .port) := by
  rw [Manager.findPort?, keysOf, List.find?_map, Option.bind_map]
  refine congrArg (Option.bind · _) (List.find?_congr fun e he => ?_)
  obtain ⟨k, r⟩ := e
  rw [ofKind_eq, List.mem_filter] at he
  have hr : m.store.get? k = some r := KeyMap.get?_eq_some.2 he.1
  simp only [Function.comp, hardwareNumberAt, port?, hr, Option.bind_some]
  cases r.asPort? <;> simp

/-- the port that is found is there -/
theorem contains_of_findPort? {m : Manager} {n : UInt32} {port : PortId} (h : m.findPort? n = some port) :
    m.store.contains port.key = true := by
  rw [findPort?_eq, Option.bind_eq_some_iff] at h
  obtain ⟨k, hk, hport⟩ := h
  obtain ⟨hc, hkind⟩ := mem_keysOf.1 (List.mem_of_find?_eq_some hk)
  rw [Handle.ofKey?, if_pos hkind, Option.some.injEq] at hport
  subst hport
  rwa [Handle.key, ← hkind]

namespace Continues

variable {m m' : Manager}

theorem findPort?_eq (h : Continues m.store m'.store) (n : UInt32) : m'.findPort? n = m.findPort? n := by
  rw [Store.findPort?_eq, Store.findPort?_eq, keysOf_congr fun k hk => h.consumers k (by rw [hk]; rfl)]
  refine congrArg (Option.bind · _) (List.find?_congr fun k hk => ?_)
  rw [hardwareNumberAt_of_settingsAt (h.settings k (mem_keysOf.1 hk).1)]

theorem spanOf?_eq {kind : ObjectKind} {membersOf : Manager → PortId → Except Fault (List (Handle kind))}
    (h : Continues m.store m'.store)
    (hmembers : ∀ port : PortId, m.store.contains port.key = true → membersOf m' port = membersOf m port)
    (text : String) : m'.spanOf? membersOf text = m.spanOf? membersOf text := by
  unfold Manager.spanOf?
  cases ConsumerKey.ofText? text with
  | none => rfl
  | some key =>
    simp only [Option.bind_eq_bind, Option.bind_some, h.findPort?_eq]
    cases hport : m.findPort? key.port with
    | none => rfl
    | some port => simp only [Option.bind_some, hmembers port (contains_of_findPort? hport)]

/-- **A key names the same consumers** while a plan is made. -/
theorem span?_eq (h : Continues m.store m'.store) (t : BindingTable) (text : String) :
    t.span? m' text = t.span? m text := by
  cases t with
  | groups =>
    refine h.spanOf?_eq (fun port hport => ?_) text
    rw [Manager.priorityGroupsOf, Manager.priorityGroupsOf, h.listed .portPriorityGroups port.key rfl rfl hport]
  | queues =>
    refine h.spanOf?_eq (fun port hport => ?_) text
    rw [Manager.queuesOf, Manager.queuesOf, h.listed .portQueues port.key rfl rfl hport]
  | ports => simp only [BindingTable.span?, h.findPort?_eq]

end Continues

end Store

/-! ## What a plan asks for -/

section

variable {hw : Hardware} {s t u : Store Record} {L : Layout} {k x o : Key} {kind : ObjectKind} {r : Record}
  {target : Option Key}

theorem Store.Inserted.settingsAt (h : Store.Inserted s t kind k r) (hs : s.Handed) (hx : s.contains x = true) :
    t.settingsAt x = s.settingsAt x := by
  rw [Store.settingsAt, h.get, if_neg (h.ne_of_contains hs hx)]
  rfl

theorem Store.Inserted.contains_consumer (h : Store.Inserted s t kind k r)
    (hkind : Roster.profileConsumers.takes kind = false) (hx : Roster.profileConsumers.takes x.kind = true) :
    t.contains x = s.contains x := by
  have hne : x ≠ k := by
    rintro rfl
    rw [h.kind, hkind] at hx
    cases hx
  simp [h.contains, hne]

/-- a profile that a request describes joins the list of its pool, and the store stays sound -/
theorem Store.Adopted.of_asked {m : Manager} {attrs : List Attribute} {p : Profile}
    (h : Store.Adopted m.store t o k p) (asked : m.profileOfAttributes attrs = .ok (o, p))
    (hs : Sound m.hardware m.store L) :
    ∃ u, Store.Inserted m.store u .profile k (.profile p) ∧ (Record.profile p).Unlinked ∧
      (Store.attach .poolProfiles o k).run u = (.ok (), t) ∧
      Sound m.hardware t (L.set .poolProfiles o (L .poolProfiles o ++ [k])) ∧ ∀ x, t.bareAt x = u.bareAt x := by
  obtain ⟨u, hins, hattach⟩ := h
  obtain ⟨⟨id, hres⟩, hlink, hcons, hrefs⟩ := Manager.profileOfAttributes_ok asked
  obtain ⟨-, hpk, hpc⟩ := ManagerM.resolve?_eq_some hres
  have hr := Profile.unlinked hlink hcons hrefs
  obtain ⟨t', hrun, hs', -⟩ := hs.adopt hins hr rfl rfl hpc hpk
  obtain rfl := congrArg Prod.snd (hattach.symm.trans hrun)
  refine ⟨u, hins, hr, hattach, hs', fun x => ?_⟩
  have hkeep := (Store.steady_attach .poolProfiles o k u).2 x
  rwa [hattach] at hkeep

/-- a new profile is as it was described, in its pool -/
theorem Store.Adopted.exists_profile {m : Manager} {attrs : List Attribute} {p : Profile}
    (h : Store.Adopted m.store t o k p) (asked : m.profileOfAttributes attrs = .ok (o, p))
    (hs : Sound m.hardware m.store L) :
    ∃ p', t.profile? k = some p' ∧ p'.pool? = some o ∧ p'.size = p.size ∧ p'.terms = p.terms := by
  obtain ⟨u, hins, -, -, hs', hbare⟩ := h.of_asked asked hs
  have hu : u.profile? k = some p := Store.profile?_eq_some.2 (by rw [hins.get, if_pos rfl])
  have hsettings : t.settingsAt k = u.settingsAt k := by rw [Store.settingsAt_eq, hbare, ← Store.settingsAt_eq]
  obtain ⟨p', hp', hsize, hterms⟩ := Store.profile?_of_settingsAt hsettings hu
  refine ⟨p', hp', ?_, hsize, hterms⟩
  rw [← Store.ownerOf?_of_profile? hp', hs'.wired.linked.ownerOf?_eq_some]
  simp

/-- **Creating a pool or a profile leaves the rest as it was**, and whoever is bound. -/
theorem Manager.Makes.continues {m : Manager} {attrs : List Attribute} (h : m.Makes attrs k t kind)
    (hs : Sound m.hardware m.store L) :
    m.store.Continues t ∧ ∀ x, t.ownerOf? .profileConsumers x = m.store.ownerOf? .profileConsumers x := by
  have hhanded := hs.wired.handed
  cases h with
  | @pool r asked new =>
    have hr := Pool.unlinked_fresh r.direction r.size r.mode m.hardware.tileSlots
    obtain ⟨hs', -⟩ := hs.insert new hr rfl (fun p hp => by cases hp) rfl fun p hp => by cases hp; rfl
    exact ⟨.of_wired hs.wired hs'.wired (fun _ _ => rfl) (fun k hk => new.settingsAt hhanded hk)
      (fun k _ => new.ownerOf?_eq hr hhanded _) fun k hk => new.contains_consumer rfl hk,
      fun x => new.ownerOf?_eq hr hhanded _⟩
  | @profile pool p asked new =>
    obtain ⟨u, hins, hr, hattach, hs', hbare⟩ := new.of_asked asked hs
    have howner : ∀ R x, ¬ (R = .poolProfiles ∧ x = k) → t.ownerOf? R x = m.store.ownerOf? R x := fun R x hne => by
      have hkeep := Store.Apart.attach (Store.apart_ownerOf? hne :
        Store.Apart (fun s => s.ownerOf? R x) .poolProfiles pool k) u
      rw [hattach] at hkeep
      exact hkeep.trans (hins.ownerOf?_eq hr hhanded R)
    refine ⟨.of_wired hs.wired hs'.wired (fun R hR => ?_) (fun x hx => ?_) (fun x hx => ?_) fun x hx => ?_,
      fun x => howner _ x fun e => nomatch e.1⟩
    · funext o
      refine Layout.set_of_ne fun e => ?_
      rw [e.1] at hR
      cases hR
    · rw [Store.settingsAt_eq, hbare, ← Store.settingsAt_eq]
      exact hins.settingsAt hhanded hx
    · exact howner _ x fun e => hins.ne_of_contains hhanded hx e.2
    · rw [Store.contains_eq_bareAt, hbare, ← Store.contains_eq_bareAt]
      exact hins.contains_consumer rfl hx

/-- **Binding a consumer leaves the rest as it was.** -/
theorem Change.Outcome.continues (h : (Change.bind x target).Outcome hw s t) (hs : Sound hw s L)
    (hb : (Change.bind x target).Buildable s) : s.Continues t := by
  have hwired := (h.applied hs hb).1
  refine .of_wired hs.wired hwired (fun R hR => ?_) (fun k _ => ?_) (fun k _ => ?_) fun k _ => h.contains
  · funext o
    cases R <;> first | rfl | cases hR
  · obtain ⟨figures, u, -, hrun, rfl⟩ := h
    rw [Store.settingsAt_written, Store.settingsAt_eq, Store.settingsAt_eq, bareAt_apply hrun,
      funext (rewrite_eq_self (fun _ _ => rfl) fun _ _ => rfl), Option.map_id']
  · exact hs.wired.linked.ownerOf?_congr hwired.linked fun o => Iff.rfl

end

end SharedBuffer
