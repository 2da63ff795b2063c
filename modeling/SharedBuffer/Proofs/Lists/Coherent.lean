/-
Lists over a whole history of calls.

A `ListCall` is any call that hands out keys, files blank records, attaches, detaches or removes, with any arguments. A
call may be refused; what it changed until then stays. `Store.after` is the store that a history leaves, starting from
nothing. `Coherent` is what can be read off a store: it mentions no layout, only heads, links, counts and walks.

Results:
- `ListCall.threaded`: one call keeps heads, links and counts in step;
- `after_coherent`: every history in which no owner has more members than can be counted leaves a coherent store.
-/
import SharedBuffer.Proofs.Lists.Threaded

namespace SharedBuffer

/-- a call on a store of lists -/
inductive ListCall where
  | insertNew (kind : ObjectKind) (r : Record) (blank : r.Blank)
  | insert (k : Key) (r : Record) (blank : r.Blank)
  | allocate (kind : ObjectKind)
  | release (k : Key)
  | attach (R : Roster) (owner member : Key)
  | detach (R : Roster) (owner member : Key)
  | removeAssociated (k : Key)

/-- the store that a call leaves, whether it answers or is refused -/
def ListCall.leaves : ListCall → Store Record → Store Record
  | insertNew kind r _, s => ((Store.insertNew kind r).run s).2
  | insert k r _, s => ((Store.insert k r).run s).2
  | allocate kind, s => ((Store.allocate kind : StoreM Record Key).run s).2
  | release k, s => s.release k
  | attach R owner member, s => ((Store.attach R owner member).run s).2
  | detach R owner member, s => ((Store.detach R owner member).run s).2
  | removeAssociated k, s => ((Store.removeAssociated k).run s).2

namespace Store

variable {s : Store Record} {L : Layout} {R : Roster} {o m k : Key} {h : ListHead}

/-- the store that a history of calls leaves -/
def after (calls : List ListCall) : Store Record := calls.foldl (fun s c => c.leaves s) {}

/-- the list under a head is a sequence of live records: walks from the head meet it and stop, it ends where the head
says and is as long, and each link names the owner and both neighbours -/
structure Spells (s : Store Record) (R : Roster) (o : Key) (h : ListHead) (l : List Key) : Prop where
  nodup : l.Nodup
  live : ∀ m ∈ l, s.contains m = true
  walk : ∀ n, s.walk R n h.first = l.take n
  members : s.members R o = .ok l
  last : h.last = l.getLast?
  length : h.length.toNat = l.length
  link : ∀ pre m post, l = pre ++ m :: post → s.linkAt R m = some (some ⟨o, pre.getLast?, post.head?⟩)

/-- the lists of a store are as its heads, links and counts say -/
structure Coherent (s : Store Record) : Prop where
  lists : ∀ R o h, s.headAt R o = some h → ∃ l, s.Spells R o h l
  placed : ∀ R m place, s.linkAt R m = some (some place) → ∃ l, s.members R place.owner = .ok l ∧ m ∈ l
  counted : ∀ o r, s.get? o = some r →
    r.refCount.toNat = (Roster.all.map fun R => (r.head? R).elim 0 fun h => h.length.toNat).sum
  /-- no head and no link names a key without a record -/
  heads : ∀ R o h k, s.headAt R o = some h → h.first = some k ∨ h.last = some k → s.contains k = true
  links : ∀ R m place k, s.linkAt R m = some (some place) →
    place.owner = k ∨ place.previous = some k ∨ place.next = some k → s.contains k = true

end Store

namespace Threaded

variable {s : Store Record} {L : Layout} {R : Roster} {o m k : Key} {h : ListHead}

theorem spells (w : Threaded s L) (ho : s.headAt R o = some h) : s.Spells R o h (L R o) := by
  constructor
  case nodup => exact w.linked.nodup R o
  case live => exact fun m hm => w.linked.contains_of_mem hm
  case walk =>
    intro n
    rw [(w.linked.head ho).1]
    exact w.linked.walk_eq n [] _ rfl
  case members => exact w.linked.members_eq ho
  case last => exact (w.linked.head ho).2
  case length => exact w.length ho
  case link => exact fun pre m post hs => w.linked.link hs

theorem coherent (w : Threaded s L) : s.Coherent := by
  constructor
  case lists => exact fun R o h ho => ⟨L R o, w.spells ho⟩
  case placed =>
    intro R m place hm
    have hmem := w.linked.member hm
    obtain ⟨h, ho⟩ := w.owned hmem
    exact ⟨_, w.linked.members_eq ho, hmem⟩
  case counted =>
    intro o r hg
    have hlen : ∀ R, (L R o).length = (r.head? R).elim 0 fun h => h.length.toNat := by
      intro R
      have hhead : s.headAt R o = r.head? R := by rw [Store.headAt, hg, Option.bind_some]
      cases hr : r.head? R with
      | some h => exact (w.length (hhead.trans hr)).symm
      | none =>
        refine List.length_eq_zero_iff.2 (List.eq_nil_iff_forall_not_mem.2 fun m hm => ?_)
        obtain ⟨h, ho⟩ := w.owned hm
        rw [hhead, hr] at ho
        cases ho
    have hrefs := w.counted o
    rw [Store.refsAt, hg, Option.elim_some] at hrefs
    rw [hrefs, Layout.total]
    simp only [hlen]
  case heads => exact fun R o h k ho hk => w.linked.contains_of_mem (w.linked.end_mem ho hk)
  case links =>
    intro R m place k hm hk
    rcases hk with rfl | hk
    · obtain ⟨h, ho⟩ := w.owned (w.linked.member hm)
      exact Store.contains_of_headAt ho
    · exact w.linked.contains_of_mem (w.linked.neighbour_mem hm hk)

end Threaded

/-! ## One call -/

namespace Store

variable {s : Store Record} {k : Key} {r : Record}

theorem get?_leaves_allocate (s : Store Record) (kind : ObjectKind) (j : Key) :
    ((allocate kind : StoreM Record Key).run s).2.get? j = s.get? j := by
  unfold allocate
  simp only [ExceptT.run_mk]
  split <;> rfl

/-- what is inserted finds its key free, or nothing is -/
theorem get?_leaves_insert (s : Store Record) (k : Key) (r : Record) :
    (∀ j, ((insert k r).run s).2.get? j = s.get? j) ∨
      s.contains k = false ∧ ∀ j, ((insert k r).run s).2.get? j = if j = k then some r else s.get? j := by
  by_cases hk : s.contains k = true
  · have hrun : (insert k r).run s = (.error (.duplicateKey k), s) := by
      unfold insert
      simp only [ExceptT.run_mk]
      exact if_pos hk
    rw [hrun]
    exact .inl fun j => rfl
  · have hrun : (insert k r).run s = (.ok (), { s with records := s.records.insert k r }) := by
      unfold insert
      simp only [ExceptT.run_mk]
      exact if_neg hk
    rw [hrun]
    exact .inr ⟨Bool.eq_false_iff.2 hk, fun j => KeyMap.get?_insert ..⟩

theorem get?_leaves_insertNew (s : Store Record) (kind : ObjectKind) (r : Record) :
    (∀ j, ((insertNew kind r).run s).2.get? j = s.get? j) ∨
      ∃ k, s.contains k = false ∧ ∀ j, ((insertNew kind r).run s).2.get? j = if j = k then some r else s.get? j := by
  have hget := get?_leaves_allocate s kind
  unfold insertNew
  rw [run_bind]
  rcases hr : (allocate kind : StoreM Record Key).run s with ⟨e | k, t⟩
  all_goals rw [hr] at hget
  · exact .inl hget
  · have hrun : ((insert k r >>= fun _ => pure k : StoreM Record Key).run t).2 = ((insert k r).run t).2 := by
      rw [run_bind]
      rcases (insert k r).run t with ⟨e | u, t'⟩ <;> rfl
    simp only [hrun]
    rcases get?_leaves_insert t k r with h | ⟨hk, h⟩
    · exact .inl fun j => (h j).trans (hget j)
    · refine .inr ⟨k, ?_, fun j => (h j).trans ?_⟩
      · rw [← hk]
        exact congrArg Option.isSome (hget k).symm
      · split
        · rfl
        · exact hget j

end Store

/-- **One call keeps heads, links and counts in step**, if its owners have room for their members. -/
theorem ListCall.threaded {s : Store Record} {L : Layout} (w : Threaded s L) (c : ListCall)
    (hroom : ∀ o, (c.leaves s).memberCount o < UInt32.size) : ∃ L', Threaded (c.leaves s) L' := by
  cases c with
  | insertNew kind r blank =>
    rcases Store.get?_leaves_insertNew s kind r with hget | ⟨k, hk, hget⟩
    · exact ⟨L, w.congr hget⟩
    · exact ⟨L, w.insert blank hk hget⟩
  | insert k r blank =>
    rcases Store.get?_leaves_insert s k r with hget | ⟨hk, hget⟩
    · exact ⟨L, w.congr hget⟩
    · exact ⟨L, w.insert blank hk hget⟩
  | allocate kind => exact ⟨L, w.congr (Store.get?_leaves_allocate s kind)⟩
  | release k => exact ⟨L, w.congr (Store.get?_release s k)⟩
  | attach R owner member =>
    have hends := w.linked.attach_ends R owner member
    change ∀ o, ((Store.attach R owner member).run s).2.memberCount o < UInt32.size at hroom
    change ∃ L', Threaded ((Store.attach R owner member).run s).2 L'
    rcases hr : (Store.attach R owner member).run s with ⟨e | u, t⟩
    · obtain rfl := hends.error hr
      exact ⟨L, w⟩
    · obtain ⟨h, ho, hm, rfl⟩ := hends.ok hr
      refine ⟨_, w.attached ho hm ?_⟩
      rw [← (w.linked.attached ho hm).memberCount_eq]
      rw [hr] at hroom
      exact hroom owner
  | detach R owner member =>
    have hends := w.linked.detach_ends R owner member
    change ∃ L', Threaded ((Store.detach R owner member).run s).2 L'
    rcases hr : (Store.detach R owner member).run s with ⟨e | u, t⟩
    · obtain rfl := hends.error hr
      exact ⟨L, w⟩
    · obtain ⟨-, h, pre, post, ho, hs, rfl⟩ := hends.ok hr
      exact ⟨_, w.detached ho hs⟩
  | removeAssociated k =>
    have hends := w.removeAssociated_ends k
    change ∃ L', Threaded ((Store.removeAssociated k).run s).2 L'
    rcases hr : (Store.removeAssociated k).run s with ⟨e | u, t⟩
    · obtain ⟨rfl, -⟩ := hends.error hr
      exact ⟨L, w⟩
    · exact ⟨_, (hends.ok hr).2.2.1⟩

/-! ## A history -/

/-- whether no owner ever has more members than can be counted -/
def Roomy (calls : List ListCall) : Prop :=
  ∀ pre, pre <+: calls → ∀ o, (Store.after pre).memberCount o < UInt32.size

/-- a history of few records has room for every count -/
theorem Roomy.of_size {calls : List ListCall}
    (h : ∀ pre ∈ calls.inits, Roster.all.length * (Store.after pre).size < UInt32.size) : Roomy calls :=
  fun pre hpre o => Nat.lt_of_le_of_lt (Store.memberCount_le _ o) (h pre ((List.mem_inits ..).2 hpre))

theorem after_threaded {calls : List ListCall} (h : Roomy calls) : ∃ L, Threaded (Store.after calls) L := by
  induction calls using List.reverseRecOn with
  | nil => exact ⟨_, Threaded.empty⟩
  | append_singleton calls c ih =>
    obtain ⟨L, w⟩ := ih fun pre hpre => h pre (hpre.trans (List.prefix_append ..))
    have hstep : Store.after (calls ++ [c]) = c.leaves (Store.after calls) := by
      unfold Store.after
      rw [List.foldl_append]
      rfl
    rw [hstep]
    refine c.threaded w fun o => ?_
    rw [← hstep]
    exact h _ (List.prefix_refl _) o

/-- **Lists stay whole.** After any history in which no owner gets more members than can be counted, every list is a
sequence of live records without repetition, spelled out alike by its head and its links; every link is in the list it
names; every count is the number of members; and nothing names a key that is gone. -/
theorem after_coherent {calls : List ListCall} (h : Roomy calls) : (Store.after calls).Coherent := by
  obtain ⟨L, w⟩ := after_threaded h
  exact w.coherent

/-- a pool with three profiles, of which the middle one and then the first are moved away; a profile with a priority
group and a port, of which the first goes; refused calls in between -/
def exchange : List ListCall :=
  let profile : Record := .profile { size := 1, mode := .inherited, threshold := .dynamic 0 }
  let pool : Record := .pool (Pool.fresh .ingress 8 .dynamic 0)
  [.insertNew .pool pool (by decide), .insertNew .pool pool (by decide),
    .insertNew .profile profile (by decide), .insertNew .profile profile (by decide),
    .insert ⟨.profile, 7⟩ profile (by decide), .insert ⟨.profile, 7⟩ profile (by decide),
    .insertNew .priorityGroup (.priorityGroup { index := 0 }) (by decide),
    .insertNew .port (.port { hardwareNumber := 0, tile := 0 }) (by decide),
    .attach .poolProfiles (.make .pool 0 0) (.make .profile 0 0),
    .attach .poolProfiles (.make .pool 0 0) (.make .profile 0 1),
    .attach .poolProfiles (.make .pool 0 0) ⟨.profile, 7⟩,
    .attach .profileConsumers ⟨.profile, 7⟩ (.make .priorityGroup 0 0),
    .attach .profileConsumers ⟨.profile, 7⟩ (.make .port 0 0),
    .attach .portPriorityGroups (.make .port 0 0) (.make .priorityGroup 0 0),
    .attach .poolProfiles (.make .pool 0 1) (.make .profile 0 0),
    .detach .poolProfiles (.make .pool 0 0) (.make .profile 0 1),
    .attach .poolProfiles (.make .pool 0 1) (.make .profile 0 1),
    .removeAssociated ⟨.profile, 7⟩,
    .removeAssociated (.make .priorityGroup 0 0), .release (.make .priorityGroup 0 0),
    .removeAssociated (.make .profile 0 0)]

theorem exchange_coherent : Roomy exchange ∧ (Store.after exchange).Coherent ∧
    (Store.after exchange).members .poolProfiles (.make .pool 0 0) = .ok [⟨.profile, 7⟩] ∧
    (Store.after exchange).members .profileConsumers ⟨.profile, 7⟩ = .ok [.make .port 0 0] := by
  have hroomy : Roomy exchange := .of_size (by decide +kernel)
  exact ⟨hroomy, after_coherent hroomy, by decide +kernel, by decide +kernel⟩

end SharedBuffer
