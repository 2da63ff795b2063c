/-
Reading again what there was no room for.

A get request that meets a list without room for it stops there: what stands before is filled in, and the list states
the room that it needs. Made again with what it left, the request does not stop there a second time, and what is filled
in has room for itself; so each list stops it once at most, the lists further on later.

Result: `reached_retry_converges`.
-/
import SharedBuffer.Proofs.Manager.Views

namespace SharedBuffer

open Manager

/-- a get request made again and again with the attributes as the call before left them, until it is answered: the
positions of the lists that there was no room for, one for each call but the last, and the attributes in the end -/
inductive Manager.Retries (m : Manager) (id : ObjectId) : List Attribute → List Nat → List Attribute → Prop where
  | answered {attrs final : List Attribute} (call : m.getAttributes id attrs = (final, .ok ())) :
    Retries m id attrs [] final
  | again {attrs left final : List Attribute} {position : Nat} {stops : List Nat} {needed : UInt32}
    (call : m.getAttributes id attrs = (left, .error (.bufferOverflow (UInt32.ofNat position) needed)))
    (rest : Retries m id left stops final) : Retries m id attrs (position :: stops) final

/-- the number of lists among some attributes -/
def countLists (kind : ObjectKind) (attrs : List Attribute) : Nat :=
  attrs.countP fun a => (attributeSpec? kind a.id).any fun spec => spec.kind.isList

/-- the list that a value carries -/
def AttributeValue.list? : AttributeValue → Option CountedList
  | .objectList l => some l
  | .u64List l => some l
  | _ => none

section

variable {hw : Hardware} {m : Manager} {L : Layout} {k : Key} {r : Record} {a : Attribute} {c : UInt32 → Content}
  {attrs done rest : List Attribute}

/-! ## One call -/

theorem Manager.Holds.countLists_cons (h : m.Holds k r c a) :
    countLists k.kind (a :: rest) = countLists k.kind rest + (c a.id).isList.toNat := by
  obtain ⟨spec, hspec, hreads⟩ := h.reads
  rw [countLists, List.countP_cons, hspec, Option.any_some, ← hreads.isList, countLists]
  cases (c a.id).isList <;> rfl

/-- a call stops at the first list without room, which then states what it needs; all before it is filled in -/
theorem Wired.getAttributes_short (w : Wired hw m.store L none) (hr : m.store.get? k = some r)
    (hdone : ∀ a ∈ done, m.Holds k r c a) (hroom : ∀ a ∈ done, ¬ a.value.room < (c a.id).needed)
    (ha : m.Holds k r c a) (hshort : a.value.room < (c a.id).needed) (hrest : ∀ a ∈ rest, m.Holds k r c a) :
    m.getAttributes k.id (done ++ a :: rest) = (done.map (Attribute.filledIn c) ++ ⟨a.id, (c a.id).emptied⟩ :: rest,
      .error (.bufferOverflow (UInt32.ofNat done.length) (c a.id).needed)) := by
  have hknown : ∀ b ∈ done ++ a :: rest, (attributeSpec? k.kind b.id).isSome = true := fun b hb => by
    rcases List.mem_append.1 hb with hb | hb
    · exact (hdone b hb).known
    · rcases List.mem_cons.1 hb with rfl | hb
      · exact ha.known
      · exact (hrest b hb).known
  have hstop : readAttributes m.store k r done.length (a :: rest) =
      (⟨a.id, (c a.id).emptied⟩ :: rest, some (.bufferOverflow (UInt32.ofNat done.length) (c a.id).needed)) := by
    rw [readAttributes, ha.read_eq, if_pos hshort]
  have hread := readAttributes_append hdone hroom (a :: rest) 0
  rw [Nat.zero_add, hstop] at hread
  rw [getAttributes, w.readable_eq hr hknown]
  simp only [hread]

/-! ## All calls -/

/-- **Retrying converges**, where there is room for what stands before some position: no call stops there, and each list
from there on stops one call at most. -/
theorem Wired.retries (w : Wired hw m.store L none) (hr : m.store.get? k = some r)
    (hdone : ∀ a ∈ done, m.Holds k r c a) (hroom : ∀ a ∈ done, ¬ a.value.room < (c a.id).needed)
    (hrest : ∀ a ∈ rest, m.Holds k r c a) :
    ∃ stops, m.Retries k.id (done ++ rest) stops ((done ++ rest).map (Attribute.filledIn c)) ∧
      stops.Pairwise (· < ·) ∧ (∀ p ∈ stops, done.length ≤ p ∧ p < done.length + rest.length) ∧
        stops.length ≤ countLists k.kind rest := by
  -- what moves from the rest to the front has room from then on, as it was sent or as the failed call left it
  induction rest generalizing done with
  | nil =>
    rw [List.append_nil]
    exact ⟨[], .answered (w.getAttributes_eq hr hdone hroom), .nil, by simp, Nat.zero_le _⟩
  | cons a rest ih =>
    rw [List.forall_mem_cons] at hrest
    obtain ⟨ha, hrest⟩ := hrest
    by_cases hshort : a.value.room < (c a.id).needed
    · have hcall := w.getAttributes_short hr hdone hroom ha hshort hrest
      have hnext : ∀ b ∈ done.map (Attribute.filledIn c) ++ [⟨a.id, (c a.id).emptied⟩],
          m.Holds k r c b ∧ ¬ b.value.room < (c b.id).needed := fun b hb => by
        rcases List.mem_append.1 hb with hb | hb
        · obtain ⟨d, hd, rfl⟩ := List.mem_map.1 hb
          exact ⟨(hdone d hd).replaced Content.suits_filled, Content.not_short_filled⟩
        · obtain rfl := List.mem_singleton.1 hb
          exact ⟨ha.replaced Content.suits_emptied, Content.not_short_emptied⟩
      obtain ⟨stops, hretries, hascending, hbounds, hcount⟩ :=
        ih (fun b hb => (hnext b hb).1) (fun b hb => (hnext b hb).2) hrest
      rw [List.length_append, List.length_map, List.length_singleton] at hbounds
      rw [List.append_assoc, List.map_append, List.map_map] at hretries
      rw [List.map_append]
      refine ⟨done.length :: stops, .again hcall hretries, ?_, ?_, ?_⟩
      · exact List.pairwise_cons.2 ⟨fun p hp => (hbounds p hp).1, hascending⟩
      · rw [List.length_cons, List.forall_mem_cons]
        exact ⟨by omega, fun p hp => by have := hbounds p hp; omega⟩
      · rw [ha.countLists_cons, Content.isList_of_short hshort]
        exact Nat.succ_le_succ hcount
    · have hnext : ∀ b ∈ done ++ [a], m.Holds k r c b ∧ ¬ b.value.room < (c b.id).needed := fun b hb => by
        rcases List.mem_append.1 hb with hb | hb
        · exact ⟨hdone b hb, hroom b hb⟩
        · obtain rfl := List.mem_singleton.1 hb
          exact ⟨ha, hshort⟩
      obtain ⟨stops, hretries, hascending, hbounds, hcount⟩ :=
        ih (fun b hb => (hnext b hb).1) (fun b hb => (hnext b hb).2) hrest
      rw [List.append_assoc] at hretries
      rw [List.length_append, List.length_singleton] at hbounds
      refine ⟨stops, hretries, hascending, fun p hp => ?_, ?_⟩
      · have := hbounds p hp
        rw [List.length_cons]
        omega
      · rw [ha.countLists_cons]
        omega

/-! ## The lengths of lists -/

/-- a pool has as many figures of tiles as the hardware has tiles, or none -/
theorem Balanced.length_lt {p : Pool} (h : Balanced hw m.store k p) : p.tileReserved.length < UInt32.size := by
  by_cases ht : 1 < hw.tileCount
  · have hlength := congrArg List.length (h.tiles ht)
    rw [List.length_map, Store.tilesReserved, List.length_map, List.length_range] at hlength
    exact hlength ▸ hw.tileCount.toNat_lt
  · rw [(h.flat (UInt32.not_lt.1 ht)).2.1]
    decide

/-- **No list is longer than its count can say**, where no profile has more consumers than that. -/
theorem Sound.content_size_lt (h : Sound m.hardware m.store L) (hfits : m.Fits)
    (hr : m.store.get? k = some r) {n : UInt32} {c : Content} (hc : m.content? k n = some c) :
    c.size < UInt32.size := by
  have hlive := Store.contains_of_get? hr
  have hkind := (h.wired.kind_eq hr).symm
  cases r with
  | pool q =>
    rw [content?_pool (Store.snapshot_of_get? hr)] at hc
    obtain ⟨a, -, rfl⟩ := Option.map_eq_some_iff.1 hc
    cases a
    case tileReserved => exact (h.balanced (Store.pool?_eq_some.2 hr)).length_lt
    all_goals exact Nat.zero_lt_succ _
  | profile p =>
    have hp := Store.profile?_eq_some.2 hr
    obtain ⟨o, q, ho, hq⟩ := h.wired.exists_housed hp
    rw [content?_profile (h.wired.snapshot_profile hp ho hq)] at hc
    obtain ⟨a, -, rfl⟩ := Option.map_eq_some_iff.1 hc
    cases a
    case consumerList =>
      obtain ⟨hd, hhd⟩ := h.wired.exists_head (R := .profileConsumers) hlive hkind
      exact (List.length_map _).trans_lt (hfits k _ hkind (h.wired.linked.members_eq hhd))
    all_goals exact Nat.zero_lt_succ _
  | priorityGroup g =>
    rw [content?_priorityGroup (Store.snapshot_of_get? hr)] at hc
    obtain ⟨a, -, rfl⟩ := Option.map_eq_some_iff.1 hc
    cases a <;> exact Nat.zero_lt_succ _
  | queue q =>
    rw [content?_queue (Store.snapshot_of_get? hr)] at hc
    obtain ⟨a, -, rfl⟩ := Option.map_eq_some_iff.1 hc
    cases a <;> exact Nat.zero_lt_succ _
  | port p =>
    rw [content?_port (Store.snapshot_of_get? hr) (h.wired.priorityGroupsOf_eq hlive hkind)
      (h.wired.queuesOf_eq hlive hkind)] at hc
    obtain ⟨a, -, rfl⟩ := Option.map_eq_some_iff.1 hc
    have hlength : ∀ {R : Roster} {kind : ObjectKind}, R.ownerKind = .port →
        (((L R k).map fun j => (⟨j.id⟩ : Handle kind)).map Handle.raw).length < UInt32.size := fun hR => by
      rw [List.length_map, List.length_map]
      exact h.wired.length_lt_of_port hR k
    cases a
    case groupList => exact hlength (R := .portPriorityGroups) rfl
    case queueList => exact hlength (R := .portQueues) rfl
    all_goals exact Nat.zero_lt_succ _

/-- a list that is filled in states its length -/
theorem Manager.Reads.count_filled {spec : AttributeSpec} {n : UInt32} {c : Content} (h : m.Reads k r spec n c)
    (hsize : c.size < UInt32.size) {l : CountedList} (hl : c.filled.list? = some l) :
    l.count.toNat = l.items.length := by
  cases c with
  | value v =>
    have hnone := h.isList
    rw [← h.kind] at hnone
    cases v <;> first | exact (Bool.false_ne_true hnone).elim | cases hl
  | _ =>
    obtain rfl := Option.some.inj hl
    exact UInt32.toNat_ofNat_of_lt' hsize

end

/-- **A get request that is made again is answered in the end.** Whatever is reached, a request for attributes of a live
object, lists with any list of their kind for a value and the others with any value, fails for want of room only,
further on each time, and at most once for each list. In the end it has what a single call with ample room is answered,
and where no profile has more consumers than 32 bits can count, every list states its length. -/
theorem reached_retry_converges {hw : Hardware} {m : Manager} (hm : m.Reached hw) {k : Key}
    (hk : m.store.contains k = true) {attrs : List Attribute} (hask : ∀ a ∈ attrs, a.Askable k.kind) :
    ∃ stops final, m.Retries k.id attrs stops final ∧ stops.Pairwise (· < ·) ∧ (∀ p ∈ stops, p < attrs.length) ∧
      stops.length ≤ countLists k.kind attrs ∧
      (∀ ample, ample.map Attribute.id = attrs.map Attribute.id → (∀ a ∈ ample, m.Ample k a) →
        m.getAttributes k.id ample = (final, .ok ())) ∧
      (m.Fits →
        ∀ a ∈ final, ∀ l, a.value.list? = some l → l.count.toNat = l.items.length) := by
  have hsuited := hm.suited
  obtain ⟨rfl, L, hs⟩ := hm.sound
  obtain ⟨r, hr⟩ := Store.contains_iff.1 hk
  obtain ⟨c, hholds⟩ := hs.wired.exists_holds hsuited hr
  have hall : ∀ a ∈ attrs, m.Holds k r c a := fun a ha => hholds a (hask a ha)
  obtain ⟨stops, hretries, hascending, hbounds, hcount⟩ := hs.wired.retries hr
    (List.forall_mem_nil _) (List.forall_mem_nil _) hall
  refine ⟨stops, attrs.map (Attribute.filledIn c), hretries, hascending, fun p hp => ?_, hcount,
    fun ample hids hample => ?_, fun hfits a ha l hl => ?_⟩
  · simpa using (hbounds p hp).2
  · have hall' : ∀ a ∈ ample, m.Holds k r c a := fun a ha => hholds a (hs.wired.askable hsuited hr (hample a ha))
    rw [hs.wired.getAttributes_eq hr hall' fun a ha => (hample a ha).not_short (hall' a ha)]
    have hsame := congrArg (List.map fun id => (⟨id, (c id).filled⟩ : Attribute)) hids
    rw [List.map_map, List.map_map] at hsame
    exact Prod.ext hsame rfl
  · obtain ⟨b, hb, rfl⟩ := List.mem_map.1 ha
    obtain ⟨spec, -, hreads⟩ := (hall b hb).reads
    exact hreads.count_filled (hs.content_size_lt hfits hr hreads.shown) hl

/-- asked for a port's tile, groups and queues with no room for lists, the small switch answers at the third call at the
latest, and each list has the one member that there is -/
theorem crowded_retry_converges :
    let k := Key.make .port 0 0
    let attrs (groups queues : CountedList) : List Attribute := [⟨PortAttribute.tile.id, .bool true⟩,
      ⟨PortAttribute.groupList.id, .objectList groups⟩, ⟨PortAttribute.queueList.id, .objectList queues⟩]
    ∃ stops, crowded.Retries k.id (attrs ⟨0, [5]⟩ {}) stops [⟨PortAttribute.tile.id, .u32 0⟩,
        ⟨PortAttribute.groupList.id, .objectList ⟨1, [firstGroup.raw]⟩⟩,
        ⟨PortAttribute.queueList.id, .objectList ⟨1, [(Key.make .queue 0 0).id]⟩⟩] ∧
      stops.Pairwise (· < ·) ∧ stops.length ≤ 2 := by
  intro k attrs
  have hask : ∀ a ∈ attrs ⟨0, [5]⟩ {}, a.Askable k.kind := by
    simp only [attrs, List.forall_mem_cons]
    exact ⟨⟨PortAttribute.tile.spec, rfl, fun h => (by cases h)⟩, ⟨PortAttribute.groupList.spec, rfl, fun _ => rfl⟩,
      ⟨PortAttribute.queueList.spec, rfl, fun _ => rfl⟩, by simp⟩
  obtain ⟨stops, final, hretries, hascending, -, hcount, hample, -⟩ :=
    reached_retry_converges (m := crowded) ⟨true, crowding, rfl⟩ (k := k) (by decide +kernel) hask
  have htile : crowded.content? k PortAttribute.tile.id = some (.value (.u32 0)) := by decide +kernel
  have hgroups : crowded.content? k PortAttribute.groupList.id = some (.objects [firstGroup.raw]) := by decide +kernel
  have hqueues : crowded.content? k PortAttribute.queueList.id = some (.objects [(Key.make .queue 0 0).id]) := by
    decide +kernel
  have hfinal := hample (attrs ⟨1, []⟩ ⟨1, []⟩) rfl (by
    simp only [attrs, List.forall_mem_cons]
    exact ⟨.of_content rfl htile (Content.fits_value _ _),
      .of_content rfl hgroups ⟨fun _ => rfl, fun _ => by decide⟩,
      .of_content rfl hqueues ⟨fun _ => rfl, fun _ => by decide⟩, by simp⟩)
  have hshown : (crowded.getAttributes k.id (attrs ⟨1, []⟩ ⟨1, []⟩)).1 = [⟨PortAttribute.tile.id, .u32 0⟩,
      ⟨PortAttribute.groupList.id, .objectList ⟨1, [firstGroup.raw]⟩⟩,
      ⟨PortAttribute.queueList.id, .objectList ⟨1, [(Key.make .queue 0 0).id]⟩⟩] := by decide +kernel
  rw [hfinal] at hshown
  exact ⟨stops, hshown ▸ hretries, hascending, hcount⟩

end SharedBuffer
