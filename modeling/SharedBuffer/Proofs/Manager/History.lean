/-
The ids that a manager has handed out.

What an act hands out are the ids of the objects that are new after it (`Manager.newIds`): the answers of the calls that
create, and the priority groups and queues that a new port lists. `Manager.handedOut` is all of them, one act after the
other. Moves only go onward, so a key that is new was never issued, and an object that is gone stays gone.

Result: `ids_never_recycled`.
-/
import SharedBuffer.Proofs.Manager.Absent

namespace SharedBuffer

namespace Manager

variable {hw : Hardware} {m m' : Manager} {id : ObjectId} {acts : List Act}

/-- the ids of the objects of one manager that another does not have -/
def newIds (m m' : Manager) : List ObjectId :=
  (m'.store.entries.filter fun e => !m.store.contains e.1).map fun e => e.1.id

/-- the ids that some acts hand out, one act after the other -/
def handedOut (m : Manager) : List Act → List ObjectId
  | [] => []
  | a :: acts => m.newIds (m.act a) ++ (m.act a).handedOut acts

theorem mem_newIds : id ∈ m.newIds m' ↔ ∃ k, k.id = id ∧ m'.store.contains k = true ∧ m.store.contains k = false := by
  simp only [newIds, List.mem_map, List.mem_filter, Bool.not_eq_true']
  constructor
  · rintro ⟨⟨k, r⟩, ⟨hk, hold⟩, rfl⟩
    exact ⟨k, rfl, Store.contains_iff.2 ⟨r, KeyMap.get?_eq_some.2 hk⟩, hold⟩
  · rintro ⟨k, rfl, hk, hold⟩
    obtain ⟨r, hr⟩ := Store.contains_iff.1 hk
    exact ⟨(k, r), ⟨KeyMap.get?_eq_some.1 hr, hold⟩, rfl⟩

/-- a run hands out what its parts hand out -/
theorem handedOut_append (pre post : List Act) :
    m.handedOut (pre ++ post) = m.handedOut pre ++ (m.live pre).handedOut post := by
  induction pre generalizing m with
  | nil => rfl
  | cons a pre ih => rw [List.cons_append, handedOut, handedOut, ih, List.append_assoc]; rfl

/-! ## One act -/

theorem IsSound.exists_layout (h : m.IsSound hw) : ∃ L, Sound m.hardware m.store L := by
  obtain ⟨rfl, hs⟩ := h
  exact hs

theorem IsSound.handed (h : m.IsSound hw) : m.store.Handed := by
  obtain ⟨L, hs⟩ := h.exists_layout
  exact hs.wired.handed

/-- what an act hands out was never issued before, and is issued from then on -/
theorem IsSound.fresh (h : m.IsSound hw) {a : Act} (hid : id ∈ m.newIds (m.act a)) :
    ∃ k, Key.ofId? id = some k ∧ ¬ m.store.Issued k ∧ (m.act a).store.Issued k := by
  obtain ⟨k, rfl, hk, hold⟩ := mem_newIds.1 hid
  have hnew : ¬ m.store.Issued k := ((h.moves_act a).onward.new k hk).resolve_left (by simp [hold])
  have hhanded := (h.act a).handed
  exact ⟨k, (hhanded.isHandle k hk).ofId?, hnew, hhanded.issued hk⟩

/-- no two objects of an act have one id -/
theorem IsSound.nodup_newIds (h : m'.IsSound hw) (m : Manager) : (m.newIds m').Nodup := by
  have hhandle : ∀ e ∈ m'.store.entries, e.1.IsHandle := fun e he =>
    h.handed.isHandle e.1 (Store.contains_iff.2 ⟨e.2, KeyMap.get?_eq_some.2 he⟩)
  rw [List.Nodup, newIds, List.pairwise_map]
  refine List.Pairwise.imp_of_mem ?_ (m'.store.records.ascending.filter _)
  intro e e' he he' hlt hsame
  have hkeys := (hhandle e (List.mem_of_mem_filter he)).eq_of_id_eq (hhandle e' (List.mem_of_mem_filter he')) hsame
  exact Key.ne_of_lt hlt hkeys

/-! ## Runs -/

/-- what is issued stays issued, to the end of the run -/
theorem IsSound.onward (h : m.IsSound hw) (acts : List Act) : Onward m.store (m.live acts).store :=
  (h.moves_live acts).2.onward

theorem IsSound.fresh_of_handedOut (h : m.IsSound hw) (hid : id ∈ m.handedOut acts) :
    ∃ k, Key.ofId? id = some k ∧ ¬ m.store.Issued k := by
  induction acts generalizing m with
  | nil => cases hid
  | cons a acts ih =>
    rcases List.mem_append.1 hid with hid | hid
    · obtain ⟨k, hk, hnew, -⟩ := h.fresh hid
      exact ⟨k, hk, hnew⟩
    · obtain ⟨k, hk, hnew⟩ := ih (h.act a) hid
      exact ⟨k, hk, fun hold => hnew ((h.moves_act a).onward.issued k hold)⟩

/-- **No id is handed out twice.** -/
theorem IsSound.nodup_handedOut (h : m.IsSound hw) (acts : List Act) : (m.handedOut acts).Nodup := by
  induction acts generalizing m with
  | nil => exact List.nodup_nil
  | cons a acts ih =>
    refine List.nodup_append'.2 ⟨(h.act a).nodup_newIds m, ih (h.act a), fun id hnow hlater => ?_⟩
    obtain ⟨k, hk, -, hissued⟩ := h.fresh hnow
    obtain ⟨k', hk', hnew⟩ := (h.act a).fresh_of_handedOut hlater
    rw [Option.some.inj (hk.symm.trans hk')] at hissued
    exact hnew hissued

/-- what is there at the end was there at the start, or has been handed out -/
theorem mem_handedOut_of_live {k : Key} (hk : (m.live acts).store.contains k = true) :
    m.store.contains k = true ∨ k.id ∈ m.handedOut acts := by
  induction acts generalizing m with
  | nil => exact .inl hk
  | cons a acts ih =>
    rcases ih (m := m.act a) hk with hnow | hlater
    · cases hold : m.store.contains k with
      | true => exact .inl rfl
      | false => exact .inr (List.mem_append_left _ (mem_newIds.2 ⟨k, rfl, hnow, hold⟩))
    · exact .inr (List.mem_append_right _ hlater)

/-- what is gone stays gone -/
theorem IsSound.lacks (h : m.IsSound hw) {k : Key} (hissued : m.store.Issued k) (hk : Key.ofId? id = some k)
    (hgone : m.store.contains k = false) (acts : List Act) : (m.live acts).Lacks id := by
  obtain ⟨rfl, L, hs⟩ := (h.moves_live acts).1
  refine Lacks.of_ofId? hs hk (Bool.eq_false_iff.2 fun hback => ?_)
  rcases (h.onward acts).new k hback with hlive | hnew
  · cases hlive.symm.trans hgone
  · exact hnew hissued

end Manager

/-! ## The lists of a port -/

/-- a key is that of a handle of its kind -/
theorem Handle.key_mk {kind : ObjectKind} {k : Key} (h : k.kind = kind) : (⟨k.id⟩ : Handle kind).key = k := by
  rw [key, ← h]

/-- keys of one kind are those of their handles -/
theorem Handle.map_key {kind : ObjectKind} {l : List Key} (h : ∀ k ∈ l, k.kind = kind) :
    (l.map fun k => (⟨k.id⟩ : Handle kind)).map key = l := by
  rw [List.map_map]
  exact (List.map_congr_left fun k hk => key_mk (h k hk)).trans (List.map_id l)

/-- the members of a list whose members are of one kind, as handles -/
theorem Handle.mapM_require {kind : ObjectKind} {l : List Key} (h : ∀ k ∈ l, k.kind = kind) :
    l.mapM (Handle.require kind) = .ok (l.map fun k => ⟨k.id⟩) := by
  induction l with
  | nil => rfl
  | cons k l ih =>
    have hk : Handle.require kind k = .ok ⟨k.id⟩ := by
      rw [Handle.require, Handle.ofKey?, if_pos (h k List.mem_cons_self)]
    rw [List.mapM_cons, hk, ih fun j hj => h j (List.mem_cons_of_mem k hj)]
    rfl

section

variable {hw : Hardware} {m : Manager} {L : Layout} {k : Key}

/-- the members of a list that takes one kind, as handles -/
theorem Wired.listed_handles (w : Wired hw m.store L none) {R : Roster} {kind : ObjectKind}
    (hc : m.store.contains k = true) (hk : k.kind = R.ownerKind) (hkind : ∀ j, R.takes j = true → j = kind) :
    (m.store.requireMembers R k >>= fun l => l.mapM (Handle.require kind)) =
      .ok ((L R k).map fun j => ⟨j.id⟩) := by
  rw [w.requireMembers_eq hc hk]
  exact Handle.mapM_require fun j hj => hkind _ (w.takes_of_mem hj).2

theorem Wired.priorityGroupsOf_eq (w : Wired hw m.store L none) (hc : m.store.contains k = true)
    (hk : k.kind = .port) : m.priorityGroupsOf ⟨k.id⟩ = .ok ((L .portPriorityGroups k).map fun j => ⟨j.id⟩) := by
  obtain ⟨kind, id⟩ := k
  obtain rfl : kind = .port := hk
  exact w.listed_handles hc rfl fun j hj => by cases j <;> first | rfl | cases hj

theorem Wired.queuesOf_eq (w : Wired hw m.store L none) (hc : m.store.contains k = true)
    (hk : k.kind = .port) : m.queuesOf ⟨k.id⟩ = .ok ((L .portQueues k).map fun j => ⟨j.id⟩) := by
  obtain ⟨kind, id⟩ := k
  obtain rfl : kind = .port := hk
  exact w.listed_handles hc rfl fun j hj => by cases j <;> first | rfl | cases hj

end

/-! ## Calls -/

namespace Call

open ManagerM Manager

variable {m m' : Manager} {L : Layout} {c : Call} {id : ObjectId}

/-- whether a call creates an object and answers its id -/
def creates : Call → Bool
  | request (.registerPort ..) | request (.create ..) | createPool .. | createProfile .. => true
  | _ => false

/-- a call that creates answers the id of something new -/
theorem creates_ends (h : Sound m.hardware m.store L) (hc : c.creates = true) :
    Ends c.perform m (fun id m' => ∃ kind k, k.id = id ∧ Created m m' kind k) (Declines m L) := by
  have hraw : ∀ {kind : ObjectKind} {x : ManagerM (Handle kind)} {P : Handle kind → Manager → Prop}
      {Q : Fault → Manager → Prop}, Ends x m P Q →
      (∀ handle m', P handle m' → ∃ k, k.id = handle.raw ∧ Created m m' kind k) →
      Ends (x >>= fun handle => pure handle.raw) m (fun id m' => ∃ kind k, k.id = id ∧ Created m m' kind k) Q :=
    fun {kind _ _ _} hx hp => Ends.bind hx fun handle m' ha => Ends.pure ⟨kind, hp handle m' ha⟩
  cases c with
  | request r =>
    cases r with
    | registerPort n groups queues =>
      refine hraw ((registerPort_ends h n groups queues).mono (fun _ _ hp => hp) fun _ _ he =>
        he.elim Declines.of_eq fun he => .inr ⟨he.1, he.2.1, he.2.2.1⟩) fun handle m' hp => ?_
      obtain ⟨-, k, hk, hnew, -⟩ := hp
      exact ⟨k, hk, hnew⟩
    | create kind attrs =>
      refine (create_ends h kind attrs).mono (fun _ _ hp => ?_) fun _ _ he => .inl he
      obtain ⟨-, -, k, hk, hnew, -⟩ := hp
      exact ⟨kind, k, hk, hnew⟩
    | _ => cases hc
  | createPool | createProfile =>
    refine hraw ((createTyped_ends h _ _).mono (fun _ _ hp => hp) fun _ _ he => .inl he) fun _ _ hp => ?_
    obtain ⟨-, k, hk, hnew, -⟩ := hp
    exact ⟨k, hk, hnew⟩
  | _ => cases hc

theorem mem_newIds_of_creates (h : Sound m.hardware m.store L) (hc : c.creates = true)
    (hrun : c.perform.run m = (.ok id, m')) : id ∈ m.newIds m' := by
  obtain ⟨kind, k, rfl, hnew⟩ := (creates_ends h hc).ok hrun
  refine mem_newIds.2 ⟨k, rfl, hnew.live, Bool.eq_false_iff.2 fun hold => hnew.new ?_⟩
  exact h.wired.handed.issued hold

/-- the priority groups and queues of a new port are handed out with it -/
theorem subqueues_newIds (h : Sound m.hardware m.store L) {n groups queues : UInt32}
    (hrun : (request (.registerPort n groups queues)).perform.run m = (.ok id, m')) :
    ∃ gs qs, m'.priorityGroupsOf ⟨id⟩ = .ok gs ∧ m'.queuesOf ⟨id⟩ = .ok qs ∧
      (∀ x ∈ gs, x.raw ∈ m.newIds m') ∧ ∀ x ∈ qs, x.raw ∈ m.newIds m' := by
  obtain ⟨-, port, rfl, hcreated, -, L', hs, hnew⟩ := (registration_ends h n groups queues).ok hrun
  have hlisted : ∀ R {kind} (x : Handle kind), x ∈ (L' R port).map (fun j => ⟨j.id⟩) → x.raw ∈ m.newIds m' := by
    intro R kind x hx
    obtain ⟨j, hj, rfl⟩ := List.mem_map.1 hx
    exact mem_newIds.2 ⟨j, rfl, (hs.wired.takes_of_mem hj).1, hnew R j hj⟩
  exact ⟨_, _, hs.wired.priorityGroupsOf_eq hcreated.live hcreated.kind,
    hs.wired.queuesOf_eq hcreated.live hcreated.kind, hlisted _, hlisted _⟩

/-- a call that removes finds its object, and takes it out -/
theorem removal_ends (h : Sound m.hardware m.store L) (hc : c.removal? = some id) :
    Ends c.perform m (fun _ m' => ∃ k, Key.ofId? id = some k ∧ m.store.contains k = true ∧
      m.store.Without m'.store k) fun _ m' => Refused m m' := by
  rw [perform_of_removal hc]
  exact Ends.bind (remove_ends h id) fun _ _ hp => Ends.pure hp.2

end Call

namespace Manager

/-- what a run hands out at a call was not handed out before -/
theorem IsSound.not_mem_handedOut {hw : Hardware} {m m' : Manager} (h : m.IsSound hw) {pre : List Act} {c : Call}
    {x : Except Fault ObjectId} (hrun : c.perform.run (m.live pre) = (x, m')) {id : ObjectId}
    (hid : id ∈ (m.live pre).newIds m') : id ∉ m.handedOut pre := by
  have hact : (m.live pre).act (.call c) = m' := congrArg Prod.snd hrun
  have hnodup := h.nodup_handedOut (pre ++ [.call c])
  rw [handedOut_append, handedOut, handedOut, List.append_nil, hact] at hnodup
  exact fun hold => (List.nodup_append'.1 hnodup).2.2 hold hid

end Manager

open Manager in
/-- **Ids are never recycled.** Over any run, no id is handed out twice, and every object has one that was. What a call
creates gets an id that no act before it has handed out; so do the priority groups and queues of a port. And once an
object has been removed, nothing that is asked of its id is answered, to the end of the run. -/
theorem ids_never_recycled (hw : Hardware) (watched : Bool) (acts : List Act) :
    ((start hw watched).handedOut acts).Nodup ∧
      (∀ k, ((start hw watched).live acts).store.contains k = true → k.id ∈ (start hw watched).handedOut acts) ∧
      ∀ pre c post id m', acts = pre ++ .call c :: post →
        c.perform.run ((start hw watched).live pre) = (.ok id, m') →
        (c.creates = true →
          id ∈ ((start hw watched).live pre).newIds m' ∧ id ∉ (start hw watched).handedOut pre) ∧
        (∀ n groups queues, c = .request (.registerPort n groups queues) →
          ∃ gs qs, m'.priorityGroupsOf ⟨id⟩ = .ok gs ∧ m'.queuesOf ⟨id⟩ = .ok qs ∧
            (∀ x ∈ gs, x.raw ∈ ((start hw watched).live pre).newIds m') ∧
            ∀ x ∈ qs, x.raw ∈ ((start hw watched).live pre).newIds m') ∧
        ∀ gone, c.removal? = some gone → ((start hw watched).live acts).Disowns gone := by
  have hstart := isSound_start hw watched
  refine ⟨hstart.nodup_handedOut acts, fun k hk => (mem_handedOut_of_live hk).resolve_left fun hold => ?_, ?_⟩
  · cases hold
  rintro pre c post id m' rfl hrun
  have hpre := (hstart.moves_live pre).1
  obtain ⟨L, hs⟩ := hpre.exists_layout
  refine ⟨fun hc => ?_, ?_, fun gone hc => ?_⟩
  · have hid := Call.mem_newIds_of_creates hs hc hrun
    exact ⟨hid, hstart.not_mem_handedOut hrun hid⟩
  · rintro n groups queues rfl
    exact Call.subqueues_newIds hs hrun
  · obtain ⟨k, hk, hc, hwithout⟩ := (Call.removal_ends hs hc).ok hrun
    have hgone : m'.store.contains k = false := by simp [hwithout.contains]
    have hend : (start hw watched).live (pre ++ .call c :: post) = m'.live post := by
      rw [live, List.foldl_append, List.foldl_cons]
      exact congrArg (fun m => live m post) (congrArg Prod.snd hrun)
    have hcall := hpre.call c
    have honward := (hpre.moves_call c).onward
    rw [hrun] at hcall honward
    have hlacks := hcall.lacks (honward.issued k (hpre.handed.issued hc)) hk hgone post
    obtain ⟨L', hs'⟩ := (hcall.moves_live post).1.exists_layout
    rw [hend]
    exact hlacks.disowns (Key.ne_nullId_of_ofId? hk) hs'

open Manager in
/-- a pool that comes, goes and comes again on one index has two ids, and nothing answers to the first any more -/
theorem churned_never_recycled :
    let first : PoolId := ⟨(Key.make .pool 0 0).id⟩
    let acts : List Act := [.call (.createPool .ingress 1000 none), .call (.removePool first),
      .call (.createPool .ingress 1000 none)]
    (start {} true).handedOut acts = [first.raw, (Key.make .pool 1 0).id] ∧
      ((start {} true).live acts).Disowns first.raw := by
  intro first acts
  have hremoved : ((Call.removePool first).perform.run ((start {} true).live (acts.take 1))).1 = .ok nullId := by
    decide +kernel
  obtain ⟨-, -, hcalls⟩ := ids_never_recycled {} true acts
  obtain ⟨-, -, hgone⟩ := hcalls (acts.take 1) (.removePool first) (acts.drop 2) nullId _ rfl (Prod.ext hremoved rfl)
  exact ⟨by decide +kernel, hgone first.raw rfl⟩

end SharedBuffer
