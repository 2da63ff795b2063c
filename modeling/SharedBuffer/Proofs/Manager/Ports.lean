/-
What becomes of ports.

A port comes with its priority groups and queues, all of them new and listed in the order of their indexes. No call
touches a port again, or any of what it lists: consumers join and leave profiles by another place of their records, and
what comes and goes besides are pools and profiles. So a call leaves the ports that are there as they were
(`Store.PortsKept`), and one that brings up a port adds this port alone (`Store.Arrives`). A port that asks for more
than there are handles for is refused, but what there were handles for is there.

Results: `Move.keepsPorts`, `Call.keepsPorts`, `ManagerM.registerPort_arrives` and `Call.registration_overlong`.
-/
import SharedBuffer.Proofs.Manager.Census
import SharedBuffer.Proofs.Manager.Measured
import SharedBuffer.Proofs.Plan.Continuity

namespace SharedBuffer

/-- the index of a priority group or of a queue -/
def Record.index? : Record → Option UInt32
  | priorityGroup g => some g.index
  | queue q => some q.index
  | _ => none

theorem Record.index?_settings (r : Record) : r.settings.index? = r.index? := by cases r <;> rfl

/-- a kind of list that ports own takes consumers -/
theorem Roster.consumer_of_port {R : Roster} {kind : ObjectKind} (hR : R.ownerKind = .port) (h : R.takes kind = true) :
    profileConsumers.takes kind = true := by
  revert hR h
  cases R <;> cases kind <;> decide

namespace Layout

variable {L : Layout} {R : Roster} {o : Key} {l l' : List Key}

theorem set_eq_self : L.set R o (L R o) = L := by
  funext R' o'
  rw [set]
  split
  case isTrue h => rw [h.1, h.2]
  case isFalse => rfl

theorem set_set : (L.set R o l).set R o l' = L.set R o l' := by
  funext R' o'
  rw [set, set, set]
  split <;> rfl

end Layout

namespace Store

variable {s t u : Store Record} {k : Key} {n : UInt32}

/-- the index of the record under a key -/
def indexAt (s : Store Record) (k : Key) : Option UInt32 := (s.get? k).bind Record.index?

theorem indexAt_eq (s : Store Record) (k : Key) : s.indexAt k = (s.settingsAt k).bind Record.index? := by
  rw [indexAt, settingsAt]
  cases s.get? k with
  | none => rfl
  | some r => exact (Record.index?_settings r).symm

theorem indexAt_of_settingsAt (h : t.settingsAt k = s.settingsAt k) : t.indexAt k = s.indexAt k := by
  rw [indexAt_eq, indexAt_eq, h]

/-- what is steady sets nothing -/
theorem settingsAt_of_steady {x : LinkM Unit} (hx : x.Steady) {a : Except LinkError Unit} (hrun : x.run s = (a, t))
    (k : Key) : t.settingsAt k = s.settingsAt k := by
  have hbare := (hx s).2 k
  rw [hrun] at hbare
  rw [settingsAt_eq, settingsAt_eq, hbare]

/-! ## What calls do not touch -/

/-- the record under a key is set as it was, and is where it was as far as lists of ports go -/
structure PortsAlike (s t : Store Record) (k : Key) : Prop where
  settings : t.settingsAt k = s.settingsAt k
  head : ∀ R, R.ownerKind = .port → t.headAt R k = s.headAt R k
  link : ∀ R, R.ownerKind = .port → t.linkAt R k = s.linkAt R k

/-- ports, priority groups and queues are alike -/
def KeepsPorts (s t : Store Record) : Prop :=
  ∀ k, Roster.profileConsumers.takes k.kind = true → s.PortsAlike t k

namespace KeepsPorts

theorem refl (s : Store Record) : s.KeepsPorts s := fun _ _ => ⟨rfl, fun _ _ => rfl, fun _ _ => rfl⟩

theorem trans (h : s.KeepsPorts t) (h' : t.KeepsPorts u) : s.KeepsPorts u := fun k hk =>
  ⟨(h' k hk).settings.trans (h k hk).settings, fun R hR => ((h' k hk).head R hR).trans ((h k hk).head R hR),
    fun R hR => ((h' k hk).link R hR).trans ((h k hk).link R hR)⟩

/-- where consumers have the records that they had -/
theorem of_get? (h : ∀ k, Roster.profileConsumers.takes k.kind = true → t.get? k = s.get? k) : s.KeepsPorts t := by
  refine fun k hk => ⟨?_, fun R _ => ?_, fun R _ => ?_⟩
  · rw [settingsAt, settingsAt, h k hk]
  · rw [headAt, headAt, h k hk]
  · rw [linkAt, linkAt, h k hk]

/-- a run that sees to no list of a port -/
theorem of_run {x : LinkM Unit} (hrun : x.run s = (.ok (), t))
    (hset : ∀ k, Roster.profileConsumers.takes k.kind = true → t.settingsAt k = s.settingsAt k)
    (hports : ∀ R k, R.ownerKind = .port →
      LinkM.Keeps (fun s => s.headAt R k) x ∧ LinkM.Keeps (fun s => s.linkAt R k) x) : s.KeepsPorts t :=
  fun k hk => ⟨hset k hk, fun R hR => (hports R k hR).1.of_run hrun, fun R hR => (hports R k hR).2.of_run hrun⟩

/-- a profile joins or leaves the list of a pool -/
theorem of_steady {x : LinkM Unit} {o m : Key} (hrun : x.run s = (.ok (), t)) (hx : x.Steady)
    (hapart : ∀ {γ : Type} {V : Store Record → γ}, Apart V .poolProfiles o m → LinkM.Keeps V x) : s.KeepsPorts t := by
  refine of_run hrun (fun k _ => settingsAt_of_steady hx hrun k) fun R k hR => ?_
  have hne : R ≠ .poolProfiles := Roster.ne_of_port hR (by decide)
  exact ⟨hapart (apart_headAt fun e => hne e.1), hapart (apart_linkAt hne)⟩

theorem written (s : Store Record) (figures : List (Key × Totals)) : s.KeepsPorts (s.written figures) := fun k _ =>
  ⟨settingsAt_written s figures k, fun R _ => headAt_written s figures R k, fun R _ => linkAt_written s figures R k⟩

end KeepsPorts

end Store

section

variable {hw : Hardware} {s t : Store Record} {L L' : Layout} {R : Roster} {o k : Key}

/-- a port is in no list of a port -/
theorem Wired.not_mem_of_port {out : Option Key} {port : Key} (w : Wired hw s L out) (hR : R.ownerKind = .port)
    (hk : k.kind = .port) : k ∉ L R port := by
  intro hm
  have htakes := (w.takes_of_mem hm).2
  rw [hk] at htakes
  revert hR htakes
  cases R <;> decide

/-- a planned change sets no consumer otherwise -/
theorem Change.settingsAt_apply {c : Change} (w : Wired hw s L none) (hrun : c.apply.run s = (.ok (), t))
    (hk : Roster.profileConsumers.takes k.kind = true) : t.settingsAt k = s.settingsAt k := by
  rw [Store.settingsAt_eq, Store.settingsAt_eq, bareAt_apply hrun]
  cases hr : s.bareAt k with
  | none => rfl
  | some r =>
    rw [← w.typed k r hr] at hk
    cases r
    case pool | profile => cases hk
    all_goals rfl

/-- **A move that brings no consumer leaves ports alone.** -/
theorem Move.keepsPorts (hs : Sound hw s L) (hm : Move hw s t)
    (hold : ∀ k, Roster.profileConsumers.takes k.kind = true → t.contains k = true → s.contains k = true) :
    s.KeepsPorts t := by
  have hput : ∀ {kind j r} {u : Store Record}, Store.Inserted s u kind j r →
      Roster.profileConsumers.takes kind = false → s.KeepsPorts u := fun new hkind =>
    .of_get? fun k hk => (new.get k).trans (if_neg fun e => by rw [e, new.kind, hkind] at hk; cases hk)
  have hgone : ∀ {j} {u v : Store Record}, Store.Retired u v j → Roster.profileConsumers.takes j.kind = false →
      u.KeepsPorts v := fun gone hkind =>
    .of_get? fun k hk => (gone.get k).trans (if_neg fun e => by rw [e, hkind] at hk; cases hk)
  -- what comes is no consumer
  have hfresh : ∀ {kind j r} {u : Store Record}, Store.Inserted s u kind j r → t.contains j = true →
      Roster.profileConsumers.takes kind = false := fun new hj => Bool.eq_false_iff.2 fun hkind =>
    new.new (hs.wired.handed.issued (hold _ (by rwa [new.kind]) hj))
  cases hm with
  | newPool room new => exact hput new rfl
  | newPort free new => exact hput new (hfresh new (by simp [new.contains]))
  | @newMember kind R j o r u t home owner unlinked rkind asked new joined =>
    have hj : t.contains j = true := by
      have hsteady := (Store.steady_attach R o j).contains u j
      rw [joined] at hsteady
      simpa [new.contains] using hsteady
    have hkind := hfresh new hj
    have hR : R = .poolProfiles := by cases kind <;> cases home <;> first | rfl | cases hkind
    subst hR
    exact (hput new hkind).trans (.of_steady joined (Store.steady_attach _ _ _) fun ha => ha.attach)
  | @change c figures t buildable countable permitted planned made =>
    exact (Store.KeepsPorts.of_run made (fun k hk => c.settingsAt_apply hs.wired made hk) fun R k hR =>
      c.keeps_ports hR k).trans (.written _ _)
  | @threshold j o p q threshold profile pool owner mode =>
    have hkind := hs.wired.kind_of_profile? profile
    refine .of_get? fun k hk => (Store.get?_edit ..).trans (if_neg ?_)
    rintro rfl
    rw [hkind] at hk
    cases hk
  | poolGone live kind unused gone => exact hgone gone (by rw [kind]; rfl)
  | profileGone live kind unused left gone planned =>
    exact ((Store.KeepsPorts.of_steady left (Store.steady_detach _ _ _) fun ha => ha.detach).trans
      (hgone gone (by rw [kind]; rfl))).trans (.written _ _)

theorem Moves.keepsPorts (h : Moves hw s t)
    (hold : ∀ k, Roster.profileConsumers.takes k.kind = true → t.contains k = true → s.contains k = true) :
    s.KeepsPorts t := by
  induction h with
  | refl => exact .refl s
  | @tail u t hsu hstep ih =>
    obtain ⟨⟨L, hs⟩, hm⟩ := hstep
    refine (ih fun k hk hu => hold k hk (hm.consumer_stays hk hu)).trans (hm.keepsPorts hs fun k hk ht => ?_)
    exact Moves.consumer_stays hsu hk (hold k hk ht)

/-! ## Lists that stay -/

/-- sequences that start alike, of members with the same places, are the same -/
theorem Linked.suffix_eq (hl : Linked s L) (hl' : Linked t L') (hlink : ∀ m ∈ L R o, t.linkAt R m = s.linkAt R m)
    (pre pre' : List Key) {suf suf' : List Key} (h : L R o = pre ++ suf) (h' : L' R o = pre' ++ suf')
    (hhead : suf'.head? = suf.head?) : suf' = suf := by
  induction suf generalizing pre pre' suf' with
  | nil => simpa using hhead
  | cons m post ih =>
    obtain ⟨post', rfl⟩ : ∃ post', suf' = m :: post' := List.head?_eq_some_iff.1 hhead
    have hnext := hl'.link h'
    rw [hlink m (by simp [h]), hl.link h] at hnext
    simp only [Option.some.injEq, Link.mk.injEq] at hnext
    rw [ih (pre ++ [m]) (pre' ++ [m]) (by simp [h]) (by simp [h']) hnext.2.2.symm]

/-- the ports of `s` are in `t` with what they list, all set as it was -/
structure Store.PortsKept (s t : Store Record) : Prop where
  settings : ∀ k, Roster.profileConsumers.takes k.kind = true → s.contains k = true → t.settingsAt k = s.settingsAt k
  listed : ∀ R o, R.ownerKind = .port → o.kind = .port → s.contains o = true →
    t.requireMembers R o = s.requireMembers R o

namespace Store.PortsKept

theorem refl (s : Store Record) : s.PortsKept s := ⟨fun _ _ _ => rfl, fun _ _ _ _ _ => rfl⟩

theorem contains (h : s.PortsKept t) (hk : Roster.profileConsumers.takes k.kind = true) (hc : s.contains k = true) :
    t.contains k = true := by
  rw [Store.contains_eq_settingsAt, h.settings k hk hc, ← Store.contains_eq_settingsAt, hc]

/-- ports keep their numbers -/
theorem number (h : s.PortsKept t) (hk : k.kind = .port) (hc : s.contains k = true) :
    t.hardwareNumberAt k = s.hardwareNumberAt k :=
  Store.hardwareNumberAt_of_settingsAt (h.settings k (by rw [hk]; rfl) hc)

/-- where records and places are alike, lists are -/
theorem of_keepsPorts (h : s.KeepsPorts t) (w : Wired hw s L none) (w' : Wired hw t L' none) : s.PortsKept t := by
  refine ⟨fun k hk _ => (h k hk).settings, fun R o hR ho hc => ?_⟩
  have hport := h o (by rw [ho]; rfl)
  have hc' : t.contains o = true := by
    rw [Store.contains_eq_settingsAt, hport.settings, ← Store.contains_eq_settingsAt, hc]
  rw [w.requireMembers_eq hc (ho.trans hR.symm), w'.requireMembers_eq hc' (ho.trans hR.symm)]
  obtain ⟨d, hd⟩ := w.exists_head hc (ho.trans hR.symm)
  refine congrArg _ (w.linked.suffix_eq w'.linked (fun m hm => ?_) [] [] rfl rfl ?_)
  · exact (h m (Roster.consumer_of_port hR (w.takes_of_mem hm).2)).link R hR
  · rw [← (w.linked.head hd).1, ← (w'.linked.head ((hport.head R hR).trans hd)).1]

end Store.PortsKept

end

/-! ## Calls that bring up no port -/

section

variable {m : Manager} {L : Layout} {c : Call} {k : Key}

/-- consumers come with ports alone -/
theorem Call.consumer_before (h : Sound m.hardware m.store L) (hc : c.registers = false)
    (hk : Roster.profileConsumers.takes k.kind = true) (hlive : (c.perform.run m).2.store.contains k = true) :
    m.store.contains k = true := by
  rcases sorts c with ⟨number, groups, queues, rfl⟩ | hsort
  · cases hc
  rcases hr : c.perform.run m with ⟨e | id, m'⟩ <;> rw [hr] at hlive
  · rwa [((clean h hc).error hr).store] at hlive
  rcases hsort with ⟨⟨kind, attrs⟩, hcreation⟩ | ⟨object, hremoval⟩ | ⟨⟨object, a⟩, hsetting⟩
  · rw [run_of_creation h hcreation] at hr
    obtain ⟨-, -, j, -, -, hmade⟩ := (ManagerM.create_ends h kind attrs).ok hr
    rwa [(hmade.continues h).1.consumers k hk] at hlive
  · obtain ⟨j, -, -, hwithout⟩ := (removal_ends h hremoval).ok hr
    rw [hwithout.contains] at hlive
    exact (Bool.and_eq_true_iff.1 hlive).2
  · obtain ⟨j, -, -, -, hj, -, hsets⟩ := Call.sets h hsetting hr
    rwa [(hsets.kept h hj).1] at hlive

/-- **A call that brings up no port leaves ports alone.** -/
theorem Call.keepsPorts (h : Sound m.hardware m.store L) (hc : c.registers = false) :
    m.store.KeepsPorts (c.perform.run m).2.store :=
  (Manager.IsSound.moves_call ⟨rfl, L, h⟩ c).keepsPorts fun _ hk hlive => consumer_before h hc hk hlive

end

/-! ## Bringing up a port -/

/-- `t` is `s` with new records at the end of a list, with indexes in a row; what was there is set as it was -/
structure Store.Lengthens (hw : Hardware) (s : Store Record) (L : Layout) (t : Store Record) (R : Roster) (port : Key)
    (first : UInt32) (new : List Key) : Prop where
  sound : Sound hw t (L.set R port (L R port ++ new))
  settings : ∀ k, s.contains k = true → t.settingsAt k = s.settingsAt k
  fresh : ∀ k, t.contains k = true → s.contains k = true ∨ k ∈ new
  numbered : ∀ i x, new[i]? = some x → t.indexAt x = some (first + UInt32.ofNat i)

namespace Store.Lengthens

variable {hw : Hardware} {s t u : Store Record} {L : Layout} {R : Roster} {port k x : Key} {first : UInt32}
  {new : List Key}

theorem contains (h : Lengthens hw s L t R port first new) (hk : s.contains k = true) : t.contains k = true := by
  rw [contains_eq_settingsAt, h.settings k hk, ← contains_eq_settingsAt, hk]

/-- indexes of what was there are what they were -/
theorem indexAt (h : Lengthens hw s L t R port first new) {i : UInt32} (hk : s.indexAt k = some i) :
    t.indexAt k = some i := by
  obtain ⟨r, hr, -⟩ := Option.bind_eq_some_iff.1 hk
  rw [indexAt_of_settingsAt (h.settings k (contains_iff.2 ⟨r, hr⟩)), hk]

theorem nil (h : Sound hw s L) : Lengthens hw s L s R port first [] := by
  refine ⟨?_, fun _ _ => rfl, fun _ hk => .inl hk, fun i x hx => by cases hx⟩
  rwa [List.append_nil, Layout.set_eq_self]

/-- one record, and then others behind it -/
theorem cons (h : Lengthens hw s L t R port first [x])
    (h' : Lengthens hw t (L.set R port (L R port ++ [x])) u R port (first + 1) new) :
    Lengthens hw s L u R port first (x :: new) := by
  refine ⟨?_, fun k hk => (h'.settings k (h.contains hk)).trans (h.settings k hk), fun k hk => ?_, fun i y hy => ?_⟩
  · have hsound := h'.sound
    rwa [Layout.set_self, Layout.set_set, List.append_assoc, List.singleton_append] at hsound
  · rcases h'.fresh k hk with ht | hnew
    · rcases h.fresh k ht with hs | hx
      · exact .inl hs
      · exact .inr (List.mem_singleton.1 hx ▸ List.mem_cons_self)
    · exact .inr (List.mem_cons_of_mem x hnew)
  · cases i with
    | zero => exact h'.indexAt (h.numbered 0 y hy)
    | succ i =>
      rw [h'.numbered i y hy, UInt32.add_assoc, UInt32.ofNat_add, UInt32.add_comm 1]
      rfl

end Store.Lengthens

/-- `t` is `s` with a port of a hardware number that no port has, and with what it lists; the ports of `s` are as they
were -/
structure Store.Arrives (s t : Store Record) (n : UInt32) (port : Key) (gs qs : List Key) : Prop where
  kind : port.kind = .port
  new : s.contains port = false
  live : t.contains port = true
  only : ∀ o, o.kind = .port → t.contains o = true → s.contains o = true ∨ o = port
  number : t.hardwareNumberAt port = some n
  free : ∀ o, o.kind = .port → s.contains o = true → s.hardwareNumberAt o ≠ some n
  groups : t.requireMembers .portPriorityGroups port = .ok gs
  queues : t.requireMembers .portQueues port = .ok qs
  numbered : ∀ l, l = gs ∨ l = qs → ∀ i x, l[i]? = some x → t.indexAt x = some (UInt32.ofNat i)
  kept : s.PortsKept t

/-- so many priority groups and queues are fewer than were asked for; the queues come after the groups -/
def FallsShort (groups queues : UInt32) (gs qs : Nat) : Prop :=
  gs < groups.toNat ∧ qs = 0 ∨ gs = groups.toNat ∧ qs < queues.toNat

/-- where no port is found with a number, none has it -/
theorem Manager.free_of_findPort? {m : Manager} {n : UInt32} {o : Key} (h : m.findPort? n = none) (hk : o.kind = .port)
    (hc : m.store.contains o = true) : m.store.hardwareNumberAt o ≠ some n := by
  rw [Store.findPort?_eq] at h
  intro ho
  cases hfind : (m.store.keysOf .port).find? fun k => m.store.hardwareNumberAt k == some n with
  | none =>
    have hnone := List.find?_eq_none.1 hfind o (Store.mem_keysOf.2 ⟨hc, hk⟩)
    simp [ho] at hnone
  | some k =>
    have hport := (Store.mem_keysOf.1 (List.mem_of_find?_eq_some hfind)).2
    rw [hfind, Option.bind_some, Handle.ofKey?, if_pos hport] at h
    cases h

/-- a new port, with its priority groups and then its queues, arrives -/
theorem Store.Arrives.of_lengthens {hw : Hardware} {s t u v : Store Record} {L : Layout} {n : UInt32} {port : Key}
    {p : Port} {gs qs : List Key} (hs : Sound hw s L) (hins : Store.Inserted s t .port port (.port p))
    (hp : p.hardwareNumber = n) (hfree : ∀ o, o.kind = .port → s.contains o = true → s.hardwareNumberAt o ≠ some n)
    (hgroups : Store.Lengthens hw t L u .portPriorityGroups port 0 gs)
    (hqueues : Store.Lengthens hw u (L.set .portPriorityGroups port gs) v .portQueues port 0 qs) :
    s.Arrives v n port gs qs := by
  have hnew : s.contains port = false := Bool.eq_false_iff.2 fun hc => hins.new (hs.wired.handed.issued hc)
  have hold : ∀ {k}, s.contains k = true → t.contains k = true := fun hk => by simp [hins.contains, hk]
  have hlive : t.contains port = true := by simp [hins.contains]
  have hkept : ∀ {k}, t.contains k = true → v.contains k = true := fun hk => hqueues.contains (hgroups.contains hk)
  have hset : ∀ {k}, t.contains k = true → v.settingsAt k = t.settingsAt k := fun hk =>
    (hqueues.settings _ (hgroups.contains hk)).trans (hgroups.settings _ hk)
  have hnil : L.set .portPriorityGroups port gs .portQueues port = [] :=
    (Layout.set_of_ne (by simp)).trans (hs.wired.eq_nil_of_new hins.new .portQueues)
  have hwired := hqueues.sound.wired
  rw [hnil, List.nil_append] at hwired
  -- the lists of the port, in the end
  have hgs : ((L.set .portPriorityGroups port gs).set .portQueues port qs) .portPriorityGroups port = gs :=
    (Layout.set_of_ne (by simp)).trans (Layout.set_self ..)
  have hqs : ((L.set .portPriorityGroups port gs).set .portQueues port qs) .portQueues port = qs := Layout.set_self ..
  refine ⟨hins.kind, hnew, hkept hlive, fun o ho hc => ?_, ?_, hfree, ?_, ?_, ?_, ?_, ?_⟩
  · have hnone : o ∉ gs ∧ o ∉ qs := ⟨hgs ▸ hwired.not_mem_of_port rfl ho, hqs ▸ hwired.not_mem_of_port rfl ho⟩
    have hu := (hqueues.fresh o hc).resolve_right hnone.2
    have ht := (hgroups.fresh o hu).resolve_right hnone.1
    rw [hins.contains, Bool.or_eq_true, decide_eq_true_eq] at ht
    exact ht.symm
  · rw [Store.hardwareNumberAt_of_settingsAt (hset hlive), Store.hardwareNumberAt, Store.port?, hins.get, if_pos rfl]
    exact congrArg some hp
  · rw [hwired.requireMembers_eq (R := .portPriorityGroups) (hkept hlive) hins.kind, hgs]
  · rw [hwired.requireMembers_eq (R := .portQueues) (hkept hlive) hins.kind, hqs]
  · rintro l (rfl | rfl) i x hx
    · simpa using hqueues.indexAt (hgroups.numbered i x hx)
    · simpa using hqueues.numbered i x hx
  · exact fun k _ hk => (hset (hold hk)).trans (hins.settingsAt hs.wired.handed hk)
  · intro R o hR ho hc
    have hne : o ≠ port := hins.ne_of_contains hs.wired.handed hc
    rw [hwired.requireMembers_eq (hkept (hold hc)) (ho.trans hR.symm),
      hs.wired.requireMembers_eq hc (ho.trans hR.symm), Layout.set_of_ne fun e => hne e.2,
      Layout.set_of_ne fun e => hne e.2]

namespace ManagerM

variable {m : Manager} {L : Layout} {R : Roster} {port : Key}

/-- priority groups or queues are added to a port one behind the other, until there are enough or no handle is left -/
theorem addSubqueues_lengthens (kind : ObjectKind) {toRecord : Subqueue → Record} (hhome : kind.home? = some R)
    (hR : R.ownerKind = .port) (hun : ∀ i, (toRecord { index := i }).Unlinked)
    (hkind : ∀ i, (toRecord { index := i }).kind = kind) (hindex : ∀ i, (toRecord { index := i }).index? = some i)
    (hport : port.kind = .port) (n : Nat) (first : UInt32) (h : Sound m.hardware m.store L)
    (hc : m.store.contains port = true) :
    Ends (addSubqueues kind R toRecord port n first) m
      (fun _ m' => ∃ t new, m' = { m with store := t } ∧
        Store.Lengthens m.hardware m.store L t R port first new ∧ new.length = n)
      (fun e m' => e.IsExhausted ∧ ∃ t new, m' = { m with store := t } ∧
        Store.Lengthens m.hardware m.store L t R port first new ∧ new.length < n) := by
  induction n generalizing m L first with
  | zero => exact Ends.pure ⟨m.store, [], rfl, .nil h, rfl⟩
  | succ n ih =>
    refine Ends.bind ((onStore_ends (Store.insertNew_ends h.wired.handed kind _)).mono (fun _ _ hk => hk) ?_)
      fun member m' hm => ?_
    · rintro e m' ⟨e', t, rfl, rfl, rfl, rfl, -⟩
      exact ⟨⟨kind, rfl⟩, m.store, [], rfl, .nil h, Nat.succ_pos n⟩
    obtain ⟨t, rfl, hins, -⟩ := hm
    obtain ⟨u, hrun, hsound, -, hcu⟩ := h.adopt hins (hun first) (hkind first) hhome hc (hport.trans hR.symm)
    have hset : ∀ k, u.settingsAt k = t.settingsAt k := Store.settingsAt_of_steady (Store.steady_attach _ _ _) hrun
    have hone : Store.Lengthens m.hardware m.store L u R port first [member] := by
      refine ⟨hsound, fun k hk => (hset k).trans (hins.settingsAt h.wired.handed hk), fun k hk => ?_, fun i x hx => ?_⟩
      · rw [hcu, hins.contains, Bool.or_eq_true, decide_eq_true_eq] at hk
        exact hk.symm.imp_right fun e => List.mem_singleton.2 e
      · obtain ⟨rfl, rfl⟩ : i = 0 ∧ x = member := by
          cases i <;> simp_all
        rw [Store.indexAt_of_settingsAt (hset x), Store.indexAt, hins.get, if_pos rfl, Option.bind_some, hindex]
        simp
    refine Ends.bind_ok (onLists_run_ok (m := { m with store := t }) hrun) ?_
    refine (ih (m := { m with store := u }) (first + 1) hsound (hone.contains hc)).mono ?_ ?_
    · rintro _ m' ⟨v, new, rfl, hnew, hlength⟩
      exact ⟨v, member :: new, rfl, hone.cons hnew, by rw [List.length_cons, hlength]⟩
    · rintro e m' ⟨he, v, new, rfl, hnew, hlength⟩
      exact ⟨he, v, member :: new, rfl, hone.cons hnew, Nat.succ_lt_succ hlength⟩

/-- **A port that is brought up arrives with all that it lists**, in the order of the indexes. Nothing arrives where its
number is taken or no handle is left for it; where handles run out later, it arrives with less than was asked for. -/
theorem registerPort_arrives (h : Sound m.hardware m.store L) (n groups queues : UInt32) :
    Ends (registerPort n groups queues) m
      (fun handle m' => ∃ gs qs, m.store.Arrives m'.store n handle.key gs qs ∧ gs.length = groups.toNat ∧
        qs.length = queues.toNat)
      (fun e m' => m'.store = m.store ∧ ((m.findPort? n).isSome = true ∨ ¬ m.store.HasRoom .port) ∨
        e.IsExhausted ∧ ∃ port gs qs, m.store.Arrives m'.store n port gs qs ∧
          FallsShort groups queues gs.length qs.length) := by
  refine Ends.bind_ok (a := m.findPort? n) (t := m) rfl ?_
  by_cases htaken : (m.findPort? n).isSome = true
  · rw [if_pos htaken]
    exact Ends.of_run_error rfl (.inl ⟨rfl, .inl htaken⟩)
  rw [if_neg htaken]
  refine Ends.bind_ok (a := m.hardware.tileOf n) (t := m) rfl ?_
  refine Ends.bind ((onStore_ends (Store.insertNew_ends h.wired.handed .port _)).mono (fun _ _ hk => hk) ?_)
    fun port m' hm => ?_
  · rintro e m' ⟨e', t, rfl, rfl, rfl, rfl, hfull⟩
    exact .inl ⟨rfl, .inr hfull⟩
  obtain ⟨t, rfl, hins, -⟩ := hm
  have hnone : m.findPort? n = none := by simpa using htaken
  have hfree : ∀ o, o.kind = .port → m.store.contains o = true → m.store.hardwareNumberAt o ≠ some n :=
    fun o hk hc => Manager.free_of_findPort? hnone hk hc
  have htile : ∀ p, (Record.port { hardwareNumber := n, tile := m.hardware.tileOf n }).bare = .port p →
      p.tile ≤ m.hardware.lastTile := by
    rintro p ⟨⟩
    exact m.hardware.tileOf_le n
  obtain ⟨hsound, -⟩ := h.insert hins (Port.unlinked ..) rfl htile rfl fun p hp => by cases hp
  have hnil : ∀ R, L R port = [] := h.wired.eq_nil_of_new hins.new
  have hc : t.contains port = true := by simp [hins.contains]
  refine Ends.bind ((addSubqueues_lengthens (m := { m with store := t }) .priorityGroup rfl rfl
    (fun i => (Subqueue.unlinked i).1) (fun _ => rfl) (fun _ => rfl) hins.kind groups.toNat 0 hsound hc).mono
    (fun _ _ hg => hg) ?_) fun _ m₁ h₁ => ?_
  · rintro e m₁ ⟨he, u, gs, rfl, hgs, hgroups⟩
    have hsound' := hgs.sound
    rw [hnil, List.nil_append] at hsound'
    exact .inr ⟨he, port, gs, [], .of_lengthens h hins rfl hfree hgs (.nil hsound'), .inl ⟨hgroups, rfl⟩⟩
  obtain ⟨u, gs, rfl, hgs, hgroups⟩ := h₁
  have hsound' := hgs.sound
  rw [hnil, List.nil_append] at hsound'
  refine Ends.bind ((addSubqueues_lengthens (m := { m with store := u }) .queue rfl rfl
    (fun i => (Subqueue.unlinked i).2) (fun _ => rfl) (fun _ => rfl) hins.kind queues.toNat 0 hsound'
    (hgs.contains hc)).mono (fun _ _ hg => hg) ?_) fun _ m₂ h₂ => ?_
  · rintro e m₂ ⟨he, v, qs, rfl, hqs, hqueues⟩
    exact .inr ⟨he, port, gs, qs, .of_lengthens h hins rfl hfree hgs hqs, .inr ⟨hgroups, hqueues⟩⟩
  obtain ⟨v, qs, rfl, hqs, hqueues⟩ := h₂
  refine Ends.bind (logChange_ends ..).sure fun _ m₃ h₃ => ?_
  obtain ⟨audit, rfl⟩ := h₃
  refine Ends.of_run_ok (a := ⟨port.id⟩) (t := { m with store := v, audit }) ?_ ⟨gs, qs, ?_, hgroups, hqueues⟩
  · simp only [reading, Handle.require, Handle.ofKey?, hins.kind, if_true, ExceptT.run_mk]
  · rw [Handle.key_mk hins.kind]
    exact .of_lengthens h hins rfl hfree hgs hqs

end ManagerM

/-- a port that is brought up by a call -/
theorem Call.registration_arrives {m : Manager} {L : Layout} (h : Sound m.hardware m.store L)
    (n groups queues : UInt32) :
    Ends (request (.registerPort n groups queues)).perform m
      (fun id m' => ∃ port : PortId, port.raw = id ∧ ∃ gs qs, m.store.Arrives m'.store n port.key gs qs ∧
        gs.length = groups.toNat ∧ qs.length = queues.toNat)
      (fun e m' => m'.store = m.store ∧ ((m.findPort? n).isSome = true ∨ ¬ m.store.HasRoom .port) ∨
        e.IsExhausted ∧ ∃ port gs qs, m.store.Arrives m'.store n port gs qs ∧
          FallsShort groups queues gs.length qs.length) :=
  Ends.bind (ManagerM.registerPort_arrives h n groups queues) fun port _ hp => Ends.pure ⟨port, rfl, hp⟩

/-! ## More groups than there are handles -/

/-- a port that arrives leaves room for what another port lists already -/
theorem Store.Arrives.length_add_lt {hw : Hardware} {s t : Store Record} {L : Layout} {n : UInt32} {port o : Key}
    {gs qs held : List Key} (h : s.Arrives t n port gs qs) (w : Wired hw t L none) (ho : o.kind = .port)
    (hc : s.contains o = true) (hheld : s.requireMembers .portPriorityGroups o = .ok held) :
    held.length + gs.length < UInt32.size := by
  have hne : o ≠ port := by
    rintro rfl
    cases h.new.symm.trans hc
  have hold := w.requireMembers_eq (R := .portPriorityGroups) (h.kept.contains (by rw [ho]; rfl) hc) ho
  rw [h.kept.listed .portPriorityGroups o rfl ho hc, hheld, Except.ok.injEq] at hold
  have hnew := w.requireMembers_eq (R := .portPriorityGroups) h.live h.kind
  rw [h.groups, Except.ok.injEq] at hnew
  rw [hold, hnew]
  exact w.length_add_lt_of_port rfl hne

/-- **A port that asks for more priority groups than are left stays all the same.** The call is refused, and the port is
there with what there were handles for. -/
theorem Call.registration_overlong {m : Manager} {L : Layout} (h : Sound m.hardware m.store L)
    {n groups queues : UInt32} {o : Key} {held : List Key} (hfree : m.findPort? n = none)
    (hroom : m.store.HasRoom .port) (ho : o.kind = .port) (hc : m.store.contains o = true)
    (hheld : m.store.requireMembers .portPriorityGroups o = .ok held)
    (hmany : UInt32.size ≤ held.length + groups.toNat) :
    ∃ e m', (request (.registerPort n groups queues)).perform.run m = (.error e, m') ∧ e.IsExhausted ∧
      ∃ port gs qs, m.store.Arrives m'.store n port gs qs ∧ FallsShort groups queues gs.length qs.length := by
  have hends := registration_arrives h n groups queues
  obtain ⟨-, L', hs'⟩ := Manager.IsSound.call ⟨rfl, L, h⟩ (request (.registerPort n groups queues))
  rcases hr : (request (.registerPort n groups queues)).perform.run m with ⟨e | id, m'⟩ <;> rw [hr] at hs'
  · rcases hends.error hr with ⟨-, htaken | hfull⟩ | ⟨hexhausted, hleft⟩
    · rw [hfree] at htaken
      cases htaken
    · exact absurd hroom hfull
    · exact ⟨e, m', rfl, hexhausted, hleft⟩
  · obtain ⟨port, -, gs, qs, harrives, hgroups, -⟩ := hends.ok hr
    have hlt := harrives.length_add_lt hs'.wired ho hc hheld
    omega

/-- a switch with one port, which has a priority group -/
def onePort : Manager := (Manager.start {} true).live [.call (.request (.registerPort 0 1 0))]

/-- a second port, with all the priority groups that there are handles for, is refused and stays with fewer -/
theorem onePort_overlong :
    ∃ e m', (Request.registerPort 1 0xFFFFFFFF 0).perform.run onePort = (.error e, m') ∧ e.IsExhausted ∧
      ∃ port gs qs, onePort.store.Arrives m'.store 1 port gs qs ∧ FallsShort 0xFFFFFFFF 0 gs.length qs.length := by
  obtain ⟨hhardware, L, hs⟩ := (Manager.Reached.sound ⟨true, [.call (.request (.registerPort 0 1 0))], rfl⟩ :
    onePort.IsSound {})
  have hheld : onePort.store.requireMembers .portPriorityGroups (Key.make .port 0 0) =
      .ok [Key.make .priorityGroup 0 0] := by decide +kernel
  exact Call.registration_overlong (hhardware ▸ hs) (by decide +kernel) (by decide +kernel) rfl (by decide +kernel)
    hheld (by decide)

end SharedBuffer
