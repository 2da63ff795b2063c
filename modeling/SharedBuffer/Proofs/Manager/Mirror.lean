/-
A listener's picture of the buffer.

A listener who starts with nothing, notes what an announcement shows of an object in place of what was noted of it
before, and strikes out what is announced to be gone, always has at hand what the manager would show: all live pools and
profiles, each as it stands. It takes two things. Of whatever a call shows otherwise than before there is an
announcement, and an announcement is true of the store at the end of its call (`Narrates`); so the last one about an
object is.

Results: `mirrored_live`, for all that happens to a manager with a listener; and, for calls, what is announced.
-/
import SharedBuffer.Proofs.Manager.Guarantees

namespace SharedBuffer

open Manager

/-- what a listener has noted of pools and profiles -/
structure Mirror where
  pools : ObjectId → Option PoolSnapshot := fun _ => none
  profiles : ObjectId → Option ProfileSnapshot := fun _ => none

namespace Mirror

/-- a listener takes note of an announcement -/
def observe (v : Mirror) : Event → Mirror
  | .poolChanged id snapshot => { v with pools := Function.update v.pools id (some snapshot) }
  | .poolRemoved id => { v with pools := Function.update v.pools id none }
  | .profileChanged id snapshot => { v with profiles := Function.update v.profiles id (some snapshot) }
  | .profileRemoved id => { v with profiles := Function.update v.profiles id none }

/-- what is noted of the object under a key -/
def shown (v : Mirror) (k : Key) : Option Snapshot :=
  match k.kind with
  | .pool => (v.pools k.id).map .pool
  | .profile => (v.profiles k.id).map .profile
  | _ => none

/-- a picture that agrees with what a store shows -/
def Faithful (v : Mirror) (s : Store Record) : Prop := ∀ k, v.shown k = s.display k

theorem shown_observe (v : Mirror) (e : Event) (k : Key) :
    (v.observe e).shown k = if k = e.object then e.said else v.shown k := by
  obtain ⟨kind, id⟩ := k
  cases e <;> cases kind <;>
    simp only [observe, shown, Event.object, Event.said, Function.update_apply, Key.mk.injEq, reduceCtorEq, false_and,
      true_and, if_false]
  all_goals split <;> rfl

/-- after some announcements that are true, whatever was true before, or was announced, is -/
theorem shown_foldl {s : Store Record} {es : List Event} (hsaid : ∀ e ∈ es, e.said = s.display e.object) {k : Key}
    (v : Mirror) (hk : v.shown k = s.display k ∨ ∃ e ∈ es, e.object = k) :
    (es.foldl observe v).shown k = s.display k := by
  induction es generalizing v with
  | nil => exact hk.resolve_right (by simp)
  | cons e es ih =>
    refine ih (fun e' he' => hsaid e' (List.mem_cons_of_mem _ he')) (v.observe e) ?_
    rw [shown_observe]
    by_cases hke : k = e.object
    · rw [if_pos hke, hke]
      exact .inl (hsaid e List.mem_cons_self)
    · rw [if_neg hke]
      refine hk.imp_right fun ⟨e', he', hk'⟩ => ⟨e', ?_, hk'⟩
      exact (List.mem_cons.1 he').resolve_left fun h => hke (h ▸ hk'.symm)

/-- **Who is told the whole story knows how it ends.** -/
theorem Faithful.narrated {s t : Store Record} {es : List Event} {v : Mirror} (hv : v.Faithful s)
    (h : Narrates s es t) : (es.foldl observe v).Faithful t := fun k => by
  refine shown_foldl h.current v ?_
  by_cases hk : t.display k = s.display k
  · exact .inl ((hv k).trans hk.symm)
  · exact .inr (h.complete k hk)

theorem faithful_empty : ({} : Mirror).Faithful {} := fun k => by
  have hempty : ({} : Store Record).display k = none := Store.display_of_absent rfl
  rw [hempty, shown]
  split <;> rfl

end Mirror

/-! ## Calls -/

/-- an announcement that is true of a store -/
def Event.Current (s : Store Record) : Event → Prop
  | poolChanged id snapshot => s.poolSnapshot ⟨.pool, id⟩ = .ok snapshot
  | poolRemoved id => s.contains ⟨.pool, id⟩ = false
  | profileChanged id snapshot => s.profileSnapshot ⟨.profile, id⟩ = .ok snapshot
  | profileRemoved id => s.contains ⟨.profile, id⟩ = false

section

variable {hw : Hardware} {m : Manager} {L : Layout} {s : Store Record} {k : Key} {id : ObjectId}

/-- what is shown of a pool is its snapshot -/
theorem Store.display_eq_pool {snapshot : PoolSnapshot} (hk : k.kind = .pool) :
    s.display k = some (.pool snapshot) ↔ s.poolSnapshot k = .ok snapshot := by
  rw [display, hk]
  cases s.poolSnapshot k <;> simp [Except.toOption]

/-- what is shown of a profile is its snapshot -/
theorem Store.display_eq_profile {snapshot : ProfileSnapshot} (hk : k.kind = .profile) :
    s.display k = some (.profile snapshot) ↔ s.profileSnapshot k = .ok snapshot := by
  rw [display, hk]
  cases s.profileSnapshot k <;> simp [Except.toOption]

namespace Mirror.Faithful

variable {v : Mirror}

theorem pools_eq_some (hv : v.Faithful s) {snapshot : PoolSnapshot} :
    v.pools id = some snapshot ↔ s.poolSnapshot ⟨.pool, id⟩ = .ok snapshot := by
  have hshown : (v.pools id).map Snapshot.pool = s.display ⟨.pool, id⟩ := hv ⟨.pool, id⟩
  rw [← Store.display_eq_pool rfl, ← hshown, Option.map_eq_some_iff]
  simp

theorem profiles_eq_some (hv : v.Faithful s) {snapshot : ProfileSnapshot} :
    v.profiles id = some snapshot ↔ s.profileSnapshot ⟨.profile, id⟩ = .ok snapshot := by
  have hshown : (v.profiles id).map Snapshot.profile = s.display ⟨.profile, id⟩ := hv ⟨.profile, id⟩
  rw [← Store.display_eq_profile rfl, ← hshown, Option.map_eq_some_iff]
  simp

theorem isSome_pools (hv : v.Faithful s) (w : Wired hw s L none) :
    (v.pools id).isSome = true ↔ s.contains ⟨.pool, id⟩ = true := by
  have hshown : (v.pools id).map Snapshot.pool = s.display ⟨.pool, id⟩ := hv ⟨.pool, id⟩
  rw [← Option.isSome_map (f := Snapshot.pool), hshown, w.isSome_display]
  exact and_iff_left (.inl rfl)

theorem isSome_profiles (hv : v.Faithful s) (w : Wired hw s L none) :
    (v.profiles id).isSome = true ↔ s.contains ⟨.profile, id⟩ = true := by
  have hshown : (v.profiles id).map Snapshot.profile = s.display ⟨.profile, id⟩ := hv ⟨.profile, id⟩
  rw [← Option.isSome_map (f := Snapshot.profile), hshown, w.isSome_display]
  exact and_iff_left (.inr rfl)

end Mirror.Faithful

theorem Wired.current_iff (w : Wired hw s L none) (e : Event) : e.Current s ↔ e.said = s.display e.object := by
  have hgone : ∀ {k : Key}, k.kind = .pool ∨ k.kind = .profile → (s.contains k = false ↔ none = s.display k) := by
    intro k hk
    rw [eq_comm (a := none), ← Option.not_isSome_iff_eq_none, w.isSome_display, and_iff_left hk, Bool.not_eq_true]
  cases e with
  | poolChanged id snapshot => exact (Store.display_eq_pool rfl).symm.trans eq_comm
  | profileChanged id snapshot => exact (Store.display_eq_profile rfl).symm.trans eq_comm
  | poolRemoved id => exact hgone (.inl rfl)
  | profileRemoved id => exact hgone (.inr rfl)

/-- every call reports what it changes -/
theorem Manager.IsSound.reports_call (h : m.IsSound hw) (c : Call) : Reports m (c.perform.run m).2 := by
  obtain ⟨rfl, L, hs⟩ := h
  rcases (c.settles hs).cases with ⟨audit, errors, hsame⟩ | hf
  · rw [hsame]
    exact Reports.refl m
  · exact hf.reports

end

/-! ### Calls that ask for nothing new -/

/-- a call that binds a consumer as it is bound, or moves a profile to the pool it is in -/
def Manager.Repeats (m : Manager) (c : Call) : Prop :=
  ∃ object a k id, c.setting? = some (object, a) ∧ Key.ofId? object = some k ∧ a.value.asOid? = some id ∧
    (Roster.profileConsumers.takes k.kind = true ∧ id = idOrNull (m.store.ownerOf? .profileConsumers k) ∨
      k.kind = .profile ∧ ProfileAttribute.ofId? a.id = some .poolId ∧
        id = idOrNull (m.store.ownerOf? .poolProfiles k))

namespace ManagerM

variable {α β : Type} {m : Manager} {L : Layout} {k : Key} {id : ObjectId} {a : Attribute} {f : α → β} {x : ManagerM α}
  {y : ManagerM β}

/-- an action that announces nothing where it goes through -/
def Quiet (x : ManagerM α) (m : Manager) : Prop := Ends x m (fun _ m' => m'.events = m.events) fun _ _ => True

theorem Quiet.of_wraps (h : Quiet x m) (hy : Wraps f m y x) : Quiet y m :=
  hy.ends h (fun _ _ _ _ he => he) fun _ _ _ _ _ => trivial

theorem Quiet.reading {r : Manager → Except Fault β} {g : β → ManagerM α} (h : ∀ b, r m = .ok b → Quiet (g b) m) :
    Quiet (reading r >>= g) m := ends_reading h fun _ _ => trivial

/-- the id of an owner leads back to it -/
theorem eq_of_idOrNull (h : Sound m.hardware m.store L) {R : Roster} {o : Key}
    (hid : Key.ofId? (idOrNull (m.store.ownerOf? R k)) = some o) : m.store.ownerOf? R k = some o := by
  cases ho : m.store.ownerOf? R k with
  | none =>
    rw [ho] at hid
    cases hid
  | some o' =>
    obtain ⟨hissued, -⟩ := h.wired.owners R o' k (h.wired.linked.ownerOf?_eq_some.1 ho)
    rw [ho] at hid
    exact hissued.isHandle.ofId?.symm.trans hid

/-- what a binding to the profile that a consumer has asks for is that profile, or none where it has none -/
theorem owner_eq_of_bindsTo (h : Sound m.hardware m.store L) {kind : ObjectKind} {target : Option Key}
    (hto : m.BindsTo kind (idOrNull (m.store.ownerOf? .profileConsumers k)) target) :
    m.store.ownerOf? .profileConsumers k = target := by
  cases target with
  | some target => exact eq_of_idOrNull h (resolve?_eq_some hto.2.1).1
  | none =>
    cases ho : m.store.ownerOf? .profileConsumers k with
    | none => rfl
    | some o =>
      have hhandle := (h.wired.owners _ o k (h.wired.linked.ownerOf?_eq_some.1 ho)).1.isHandle.ofId?
      have hnull : o.id = nullId := by
        rw [ho] at hto
        exact hto
      rw [hnull] at hhandle
      cases hhandle

theorem quiet_tryBind (h : Sound m.hardware m.store L) (hc : m.store.contains k = true)
    (hk : Roster.profileConsumers.takes k.kind = true) :
    Quiet (tryBind k (idOrNull (m.store.ownerOf? .profileConsumers k))) m := by
  refine (tryBind_ends h hc hk _).mono ?_ fun _ _ _ => trivial
  rintro _ m' ⟨-, target, hto, ⟨-, rfl, -⟩ | ⟨hother, -⟩⟩
  · rfl
  · exact absurd (owner_eq_of_bindsTo h hto) hother

theorem quiet_moveProfile (h : Sound m.hardware m.store L) (hc : m.store.contains k = true) (hk : k.kind = .profile) :
    Quiet (moveProfile k (idOrNull (m.store.ownerOf? .poolProfiles k))) m := by
  obtain ⟨p, hp⟩ := h.wired.exists_profile hc hk
  obtain ⟨o, q, -, ho, hq⟩ := exists_poolOf_run h hp
  refine (moveProfile_ends h hp ho hq _).mono ?_ fun _ _ _ => trivial
  rintro _ m' ⟨-, target, hto, ⟨-, rfl⟩ | ⟨hother, -⟩⟩
  · rfl
  · have hsame := eq_of_idOrNull h (resolve?_eq_some hto).1
    rw [h.wired.linked.ownerOf?_eq_some.2 ho] at hsame
    exact absurd (Option.some.inj hsame) hother

/-- **What is so already is not announced.** -/
theorem quiet_of_repeats (h : Sound m.hardware m.store L) {c : Call} (hc : m.Repeats c) : Quiet c.perform m := by
  obtain ⟨object, a, k, id, hset, hkey, hvalue, hsame⟩ := hc
  rw [Call.perform_of_setting hset]
  refine Quiet.of_wraps ?_ (Wraps.map (fun _ => nullId) _ m)
  rw [setAttribute_eq]
  refine Quiet.of_wraps (Quiet.reading fun k' hk' => Quiet.reading fun _ _ => Quiet.reading fun r hr => ?_)
    (wraps_counted _ m)
  obtain rfl : k' = k := Option.some.inj ((Key.require_eq_ok hk').symm.trans hkey)
  have hlive : m.store.contains k' = true := by
    by_contra hout
    cases (Store.require_of_absent (Bool.eq_false_iff.2 hout)).symm.trans hr
  rcases hsame with ⟨htakes, rfl⟩ | ⟨hprofile, ha, rfl⟩
  · rw [setObject_consumer htakes, bindObject, hvalue]
    exact (quiet_tryBind h hlive htakes).of_wraps (wraps_bindConsumer k' _ m)
  · simp only [setObject, hprofile]
    refine Quiet.of_wraps ?_ (wraps_setProfile k' a m)
    unfold trySetProfile
    rw [ha]
    exact (quiet_moveProfile h hlive hprofile).of_wraps (Wraps.reading (valueOf_eq hvalue))

end ManagerM

/-- **What a call announces** is true when it ends; and a call that is refused, or asks for nothing new, announces
nothing. -/
theorem Manager.IsSound.announces {hw : Hardware} {m : Manager} (h : m.IsSound hw) (hw' : m.watched = true) (c : Call) :
    ∃ es, (c.perform.run m).2.events = m.events ++ es ∧ (∀ e ∈ es, e.Current (c.perform.run m).2.store) ∧
      ((∃ fault, (c.perform.run m).1 = .error fault) ∨ m.Repeats c → es = []) := by
  obtain ⟨-, L', hs'⟩ := h.call c
  obtain ⟨-, es, hes, hnarrates⟩ := h.reports_call c
  refine ⟨es, hes, fun e he => (hs'.wired.current_iff e).2 ((hnarrates hw').current e he), fun hnone => ?_⟩
  have hsilent : (c.perform.run m).2.events = m.events := by
    obtain ⟨rfl, L, hs⟩ := h
    rcases hr : c.perform.run m with ⟨e | a, m'⟩
    · exact ((c.settles hs).error hr).events
    · refine (ManagerM.quiet_of_repeats hs (hnone.resolve_left ?_)).ok hr
      rw [hr]
      rintro ⟨fault, hfault⟩
      cases hfault
  exact List.append_right_eq_self.1 (hes.symm.trans hsilent)

/-! ## Runs -/

namespace Manager

/-- what is announced during an act -/
def announced (m : Manager) (a : Act) : List Event := (m.act a).events.drop m.events.length

/-- the picture of a listener after some acts -/
def mirrored (m : Manager) (v : Mirror) : List Act → Mirror
  | [] => v
  | a :: acts => (m.act a).mirrored ((m.announced a).foldl Mirror.observe v) acts

/-- some announcements later, a manager whose listener has the right picture -/
structure Heard (hw : Hardware) (base : List Event) (v : Mirror) (m : Manager) : Prop where
  sound : m.IsSound hw
  watched : m.watched = true
  told : ∃ es, m.events = base ++ es ∧ (es.foldl Mirror.observe v).Faithful m.store

theorem Heard.call {hw : Hardware} {base : List Event} {v : Mirror} {m : Manager} (h : Heard hw base v m) (c : Call) :
    Heard hw base v (c.perform.run m).2 := by
  obtain ⟨es, hes, hv⟩ := h.told
  obtain ⟨hwatched, es', hes', hnarrates⟩ := h.sound.reports_call c
  refine ⟨h.sound.call c, hwatched.trans h.watched, es ++ es', ?_, ?_⟩
  · rw [hes', hes, List.append_assoc]
  · rw [List.foldl_append]
    exact hv.narrated (hnarrates h.watched)

/-- **Every act leaves a listener with the right picture**, as long as the listener stays. -/
theorem heard_act {hw : Hardware} {m : Manager} (h : m.IsSound hw) (hwatched : m.watched = true) {v : Mirror}
    (hv : v.Faithful m.store) {a : Act} (ha : a ≠ .watch false) :
    (m.act a).watched = true ∧ ((m.announced a).foldl Mirror.observe v).Faithful (m.act a).store := by
  have hstart : Heard hw m.events v m := ⟨h, hwatched, [], by simp, hv⟩
  have hdone : ∀ {m' : Manager}, Heard hw m.events v m' →
      m'.watched = true ∧ ((m'.events.drop m.events.length).foldl Mirror.observe v).Faithful m'.store := by
    rintro m' ⟨-, hw', es, hes, hv'⟩
    rw [hes, List.drop_left]
    exact ⟨hw', hv'⟩
  cases a with
  | call c => exact hdone (hstart.call c)
  | plan p =>
    have hplan : Heard hw m.events v (p.apply m).2 := by
      obtain ⟨hs', hw', hv'⟩ :=
        PlanM.keeps_applySteps (I := Heard hw m.events v) (fun m c hm => hm.call c) p { manager := m } hstart
      exact ⟨hs', hw', hv'⟩
    exact hdone hplan
  | watch watched =>
    cases watched with
    | false => exact absurd rfl ha
    | true => exact ⟨rfl, by simpa [announced, act] using hv⟩
  | drain => exact ⟨hwatched, by simpa [announced, act, cleared] using hv⟩

theorem mirrored_faithful {hw : Hardware} {m : Manager} (h : m.IsSound hw) (hwatched : m.watched = true) {v : Mirror}
    (hv : v.Faithful m.store) {acts : List Act} (hacts : ∀ a ∈ acts, a ≠ .watch false) :
    (m.live acts).watched = true ∧ (m.mirrored v acts).Faithful (m.live acts).store := by
  induction acts generalizing m v with
  | nil => exact ⟨hwatched, hv⟩
  | cons a acts ih =>
    obtain ⟨hwatched', hv'⟩ := heard_act h hwatched hv (hacts a List.mem_cons_self)
    exact ih (h.act a) hwatched' hv' fun a' ha' => hacts a' (List.mem_cons_of_mem _ ha')

end Manager

/-- **Announcements are a faithful mirror.** A listener who is there from the start, and starts with nothing, has noted
the snapshot of every live pool and profile as it stands, and nothing else. What a call announces of an object is so
when the call ends; and a call that is refused, or that asks for a binding or a move that is already made, announces
nothing. -/
theorem mirrored_live {hw : Hardware} {acts : List Act} (hacts : ∀ a ∈ acts, a ≠ .watch false) :
    let m := (start hw true).live acts
    let v := (start hw true).mirrored {} acts
    (∀ id, (v.pools id).isSome = m.store.contains ⟨.pool, id⟩ ∧
        ∀ snapshot, v.pools id = some snapshot ↔ m.store.poolSnapshot ⟨.pool, id⟩ = .ok snapshot) ∧
      (∀ id, (v.profiles id).isSome = m.store.contains ⟨.profile, id⟩ ∧
        ∀ snapshot, v.profiles id = some snapshot ↔ m.store.profileSnapshot ⟨.profile, id⟩ = .ok snapshot) ∧
      ∀ c : Call, ∃ es, (c.perform.run m).2.events = m.events ++ es ∧
        (∀ e ∈ es, e.Current (c.perform.run m).2.store) ∧
        ((∃ fault, (c.perform.run m).1 = .error fault) ∨ m.Repeats c → es = []) := by
  intro m v
  obtain ⟨hwatched, hv⟩ := mirrored_faithful (isSound_start hw true) rfl Mirror.faithful_empty hacts
  have hsound : m.IsSound hw := ((isSound_start hw true).moves_live acts).1
  obtain ⟨-, L, hs⟩ := id hsound
  refine ⟨fun id => ⟨?_, fun snapshot => ?_⟩, fun id => ⟨?_, fun snapshot => ?_⟩, fun c => hsound.announces hwatched c⟩
  · rw [Bool.eq_iff_iff, hv.isSome_pools hs.wired]
  · exact hv.pools_eq_some
  · rw [Bool.eq_iff_iff, hv.isSome_profiles hs.wired]
  · exact hv.profiles_eq_some

/-- a listener has noted that the pool of the small switch has two profiles, and hears nothing of a binding that is made
once more -/
theorem crowded_mirrored :
    (∃ snapshot, ((start twoTiles true).mirrored {} crowding).pools firstPool.raw = some snapshot ∧
        snapshot.profileCount = 2) ∧
      ((Call.bindGroup firstGroup (some (profileAfter 0))).perform.run crowded).2.events = crowded.events := by
  have hacts : ∀ a ∈ crowding, a ≠ .watch false := by
    unfold crowding
    simp only [List.forall_mem_cons, ne_eq, reduceCtorEq, not_false_eq_true, List.not_mem_nil, false_imp_iff,
      implies_true, and_self]
  obtain ⟨hpools, -, hcalls⟩ := @mirrored_live twoTiles _ hacts
  simp only [show (start twoTiles true).live crowding = crowded from rfl] at hpools hcalls
  constructor
  · have hcount : (crowded.store.poolSnapshot firstPool.key).toOption.map PoolSnapshot.profileCount = some 2 := by
      decide +kernel
    obtain ⟨snapshot, hsnapshot, hcount⟩ := Option.map_eq_some_iff.1 hcount
    refine ⟨snapshot, ((hpools firstPool.raw).2 snapshot).2 ?_, hcount⟩
    cases hs : crowded.store.poolSnapshot firstPool.key with
    | error e =>
      rw [hs] at hsnapshot
      cases hsnapshot
    | ok snapshot' =>
      rw [hs] at hsnapshot
      exact hs.trans (congrArg Except.ok (Option.some.inj hsnapshot))
  · obtain ⟨es, hes, -, hnone⟩ := hcalls (.bindGroup firstGroup (some (profileAfter 0)))
    have hrepeats : crowded.Repeats (.bindGroup firstGroup (some (profileAfter 0))) :=
      ⟨_, _, firstGroup.key, (profileAfter 0).raw, rfl, by decide +kernel, by decide +kernel,
        .inl ⟨rfl, by decide +kernel⟩⟩
    obtain rfl : es = [] := hnone (.inr hrepeats)
    exact hes.trans (List.append_nil _)

end SharedBuffer
