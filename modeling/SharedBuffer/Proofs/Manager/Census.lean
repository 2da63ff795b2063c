/-
How many pools, profiles and bound consumers there are.

Keys are counted, each once, so what matters is which keys come and go: a call that creates adds one of its kind, one
that removes takes one away, and one that binds moves at most one consumer in or out of those that are bound. That is
what its upshot says (`Store.Altered`), and the counters have nothing to do with it.

Result: `Call.alters`.
-/
import SharedBuffer.Proofs.Manager.Counting
import SharedBuffer.Proofs.Manager.History
import SharedBuffer.Proofs.Store.Scans

namespace SharedBuffer

/-! ## Counting keys -/

namespace Store

variable {s t : Store Record} {k : Key} {kind : ObjectKind}

/-- the consumers that are bound to a profile -/
def bound (s : Store Record) : List Key := (s.entries.filter fun e => e.2.boundProfile?.isSome).map Prod.fst

theorem nodup_bound (s : Store Record) : s.bound.Nodup :=
  List.pairwise_map.2 ((s.records.ascending.imp Key.ne_of_lt).filter _)

theorem mem_bound : k ∈ s.bound ↔ (s.ownerOf? .profileConsumers k).isSome = true := by
  rw [bound, List.mem_map]
  constructor
  · rintro ⟨⟨j, r⟩, he, rfl⟩
    obtain ⟨he, hr⟩ := List.mem_filter.1 he
    have hget : s.get? j = some r := KeyMap.get?_eq_some.2 he
    rw [ownerOf?, hget]
    exact hr
  · intro hk
    obtain ⟨r, hr, -⟩ := Option.bind_eq_some_iff.1 (Option.eq_some_of_isSome hk)
    rw [ownerOf?, hr] at hk
    exact ⟨(k, r), List.mem_filter.2 ⟨KeyMap.get?_eq_some.1 hr, hk⟩, rfl⟩

theorem length_keysOf (s : Store Record) (kind : ObjectKind) : (s.keysOf kind).length = s.countKind kind :=
  List.length_map ..

end Store

/-- one member more is one more in length -/
theorem length_eq_succ_of_mem_iff {α : Type} {l l' : List α} (hl : l.Nodup) (hl' : l'.Nodup) {b : α} (hb : b ∉ l)
    (h : ∀ a, a ∈ l' ↔ a = b ∨ a ∈ l) : l'.length = l.length + 1 :=
  ((List.perm_ext_iff_of_nodup hl' (List.nodup_cons.2 ⟨hb, hl⟩)).2 fun a => (h a).trans List.mem_cons.symm).length_eq

namespace Store

variable {s t : Store Record} {k : Key} {kind : ObjectKind}

theorem countKind_congr (h : ∀ k, k.kind = kind → t.contains k = s.contains k) : t.countKind kind = s.countKind kind := by
  rw [← length_keysOf, ← length_keysOf, keysOf_congr h]

/-- a new key is one more of its kind -/
theorem countKind_of_new (hnew : s.contains k = false) (h : ∀ j, t.contains j = (decide (j = k) || s.contains j))
    (kind : ObjectKind) : t.countKind kind = s.countKind kind + if k.kind = kind then 1 else 0 := by
  by_cases hk : k.kind = kind
  · rw [if_pos hk, ← length_keysOf, ← length_keysOf]
    refine length_eq_succ_of_mem_iff (b := k) (nodup_keysOf ..) (nodup_keysOf ..) (fun hm => ?_) fun j => ?_
    · cases hnew.symm.trans (mem_keysOf.1 hm).1
    · rw [mem_keysOf, mem_keysOf, h, Bool.or_eq_true, decide_eq_true_eq, or_and_right]
      refine or_congr_left (and_iff_left_of_imp ?_)
      rintro rfl
      exact hk
  · rw [if_neg hk]
    refine countKind_congr fun j hj => ?_
    have hjk : j ≠ k := fun e => hk ((congrArg Key.kind e).symm.trans hj)
    rw [h, decide_eq_false hjk, Bool.false_or]

theorem length_bound_congr
    (h : ∀ x, (t.ownerOf? .profileConsumers x).isSome = (s.ownerOf? .profileConsumers x).isSome) :
    t.bound.length = s.bound.length :=
  ((List.perm_ext_iff_of_nodup (nodup_bound t) (nodup_bound s)).2 fun k => by rw [mem_bound, mem_bound, h]).length_eq

/-- a consumer that gets a profile is one more that is bound -/
theorem length_bound_succ (hk : s.ownerOf? .profileConsumers k = none)
    (hk' : (t.ownerOf? .profileConsumers k).isSome = true)
    (h : ∀ x, x ≠ k → t.ownerOf? .profileConsumers x = s.ownerOf? .profileConsumers x) :
    t.bound.length = s.bound.length + 1 := by
  refine length_eq_succ_of_mem_iff (b := k) (nodup_bound s) (nodup_bound t) (fun hm => ?_) fun x => ?_
  · rw [mem_bound, hk] at hm
    cases hm
  · rw [mem_bound, mem_bound]
    by_cases hx : x = k
    · simp [hx, hk']
    · simp [hx, h x hx]

end Store

/-! ## What a call does -/

/-- `t` has so many pools, profiles and bound consumers more or less than `s` as an upshot says -/
structure Store.Altered (s : Store Record) (u : Upshot) (t : Store Record) : Prop where
  objects : ∀ kind, kind = .pool ∨ kind = .profile → t.countKind kind + (if u = .removed kind then 1 else 0) =
    s.countKind kind + if u = .created kind then 1 else 0
  bound : t.bound.length + (if u = .unbound then 1 else 0) = s.bound.length + if u.isBound then 1 else 0

namespace Store.Altered

variable {s t : Store Record} {k : Key}

/-- where no pool or profile comes or goes, and nothing is bound otherwise -/
theorem of_kept (hc : ∀ j : Key, j.kind = .pool ∨ j.kind = .profile → t.contains j = s.contains j)
    (hb : ∀ x, t.ownerOf? .profileConsumers x = s.ownerOf? .profileConsumers x) : s.Altered .nothing t :=
  ⟨fun _ hkind => countKind_congr fun j hj => hc j (hj ▸ hkind), length_bound_congr fun x => by rw [hb]⟩

theorem created (hnew : s.contains k = false) (hc : ∀ j, t.contains j = (decide (j = k) || s.contains j))
    (hb : ∀ x, t.ownerOf? .profileConsumers x = s.ownerOf? .profileConsumers x) : s.Altered (.created k.kind) t :=
  ⟨fun kind _ => by simp [countKind_of_new hnew hc kind], length_bound_congr fun x => by rw [hb]⟩

theorem removed (hold : s.contains k = true) (hc : ∀ j, t.contains j = (!decide (j = k) && s.contains j))
    (hb : ∀ x, t.ownerOf? .profileConsumers x = s.ownerOf? .profileConsumers x) : s.Altered (.removed k.kind) t := by
  have hnew : t.contains k = false := by simp [hc]
  have hback : ∀ j, s.contains j = (decide (j = k) || t.contains j) := fun j => by
    by_cases hj : j = k
    · simp [hj, hold]
    · simp [hc, hj]
  exact ⟨fun kind _ => by simp [countKind_of_new hnew hback kind], length_bound_congr fun x => by rw [hb]⟩

/-- where one object at most is bound otherwise -/
theorem rebound (hc : ∀ j, t.contains j = s.contains j)
    (hb : ∀ x, x ≠ k → t.ownerOf? .profileConsumers x = s.ownerOf? .profileConsumers x) (consumer : ObjectKind) :
    s.Altered (.ofBinding consumer (s.ownerOf? .profileConsumers k) (t.ownerOf? .profileConsumers k)) t := by
  have hsame : ∀ kind, t.countKind kind = s.countKind kind := fun kind => countKind_congr fun j _ => hc j
  have hkept : (t.ownerOf? .profileConsumers k).isSome = (s.ownerOf? .profileConsumers k).isSome →
      t.bound.length = s.bound.length := fun hk => length_bound_congr fun x => by
    by_cases hx : x = k
    · rw [hx, hk]
    · rw [hb x hx]
  cases ho : s.ownerOf? .profileConsumers k <;> cases ho' : t.ownerOf? .profileConsumers k
  case none.none => exact ⟨fun kind _ => hsame kind, hkept (by rw [ho, ho'])⟩
  case none.some => exact ⟨fun kind _ => hsame kind, length_bound_succ ho (by rw [ho']; rfl) hb⟩
  case some.none =>
    exact ⟨fun kind _ => hsame kind, (length_bound_succ ho' (by rw [ho]; rfl) fun x hx => (hb x hx).symm).symm⟩
  case some.some o o' =>
    have hlength := hkept (by rw [ho, ho']; rfl)
    by_cases hoo : o = o'
    · rw [Upshot.ofBinding, if_pos hoo]
      exact ⟨fun kind _ => hsame kind, hlength⟩
    · rw [Upshot.ofBinding, if_neg hoo]
      exact ⟨fun kind _ => hsame kind, hlength⟩

end Store.Altered

/-! ## Calls -/

section

variable {m m' : Manager} {L : Layout} {k : Key} {a : Attribute}

/-- what is added for a port is no pool and no profile, and bound to nothing -/
theorem Store.Enlarged.altered {s t : Store Record} {port : Key} (h : s.Enlarged t port) (hport : port.kind = .port) :
    s.Altered .nothing t := by
  refine .of_kept (fun j hj => ?_) h.binding
  refine Bool.eq_iff_iff.2 ⟨fun ht => (h.fresh j ht).resolve_right ?_, h.kept j⟩
  rintro (rfl | hk | hk)
  · rw [hport] at hj
    rcases hj with hj | hj <;> cases hj
  all_goals
    rw [hk] at hj
    rcases hj with hj | hj <;> cases hj

theorem Manager.Makes.altered {attrs : List Attribute} {t : Store Record} {kind : ObjectKind}
    (hs : Sound m.hardware m.store L) (h : m.Makes attrs k t kind) : m.store.Altered (.created kind) t := by
  have hnew : ∀ {u kind r}, Store.Inserted m.store u kind k r → m.store.contains k = false := fun hins =>
    Bool.eq_false_iff.2 fun hc => hins.new (hs.wired.handed.issued hc)
  cases h with
  | pool asked new =>
    have hmade := Store.Altered.created (hnew new) (fun _ => new.contains) fun x =>
      new.ownerOf?_eq (j := x) (Pool.unlinked_fresh ..) hs.wired.handed _
    rwa [new.kind] at hmade
  | @profile pool p asked new =>
    obtain ⟨u, hins, hattach⟩ := new
    obtain ⟨-, hlink, hcons, hrefs⟩ := Manager.profileOfAttributes_ok asked
    have hcontains : ∀ j, t.contains j = (decide (j = k) || m.store.contains j) := fun j => by
      have hsteady := (Store.steady_attach .poolProfiles pool k).contains u j
      rw [hattach] at hsteady
      exact hsteady.trans hins.contains
    have hmade := Store.Altered.created (hnew hins) hcontains fun x =>
      (Store.binding_of_attach (by decide) hattach).trans
        (hins.ownerOf?_eq (Profile.unlinked hlink hcons hrefs) hs.wired.handed _)
    rwa [hins.kind] at hmade

/-- a set request leaves everything in place, and every other consumer where it is -/
theorem Manager.Sets.kept (hs : Sound m.hardware m.store L) (hc : m.store.contains k = true) (h : m.Sets k a m') :
    (∀ j, m'.store.contains j = m.store.contains j) ∧
      ∀ x, x ≠ k → m'.store.ownerOf? .profileConsumers x = m.store.ownerOf? .profileConsumers x := by
  cases h with
  | @change c asked obtained =>
    have hb := asked.buildable hs.wired hc
    refine ⟨fun j => obtained.contains, fun x hx => ?_⟩
    cases asked with
    | binding hk hid hto => rw [obtained.binding hs hb, if_neg hx]
    | _ =>
      rcases obtained with hout | ⟨-, hsame⟩
      · exact hout.binding_of_ne hs hb (fun _ _ e => by cases e) x
      · rw [hsame]
  | @threshold threshold hk given edited =>
    have hkeep : Record.KeepsWiring (Record.mapProfile fun p => { p with threshold }) :=
      Record.keepsWiring_mapProfile (fun _ => rfl) (fun _ => rfl) fun _ => rfl
    refine ⟨fun j => by rw [edited, Store.contains_edit], fun x _ => ?_⟩
    rw [edited, Store.ownerOf?_eq, Store.linkAt_edit fun r => hkeep.link r _, ← Store.ownerOf?_eq]

/-- **What a call does** to the numbers of pools, profiles and bound consumers is what it comes to. -/
theorem Call.alters (h : Sound m.hardware m.store L) (c : Call) :
    Ends c.perform m (fun _ m' => m.store.Altered (c.upshot m m') m'.store)
      fun _ m' => m.store.Altered .nothing m'.store := by
  have hsame : ∀ {m' : Manager}, m'.store = m.store → m.store.Altered .nothing m'.store := fun e =>
    .of_kept (fun _ _ => by rw [e]) fun _ => by rw [e]
  rcases sorts c with ⟨number, groups, queues, rfl⟩ | hsort
  · refine Ends.bind ((ManagerM.registerPort_ends h number groups queues).mono (fun _ _ hp => hp) fun e m' he => ?_)
      fun _ m' hp => Ends.pure ?_
    · rcases he with rfl | ⟨-, -, -, port, hport, henlarged⟩
      · exact hsame rfl
      · exact henlarged.altered hport
    · obtain ⟨-, port, -, hcreated, henlarged, -⟩ := hp
      exact henlarged.altered hcreated.kind
  have hrefused := clean h (registers_eq_false hsort)
  rcases hr : c.perform.run m with ⟨e | id, m'⟩
  · exact Ends.of_run_error hr (hsame (hrefused.error hr).store)
  refine Ends.of_run_ok hr ?_
  rcases hsort with ⟨⟨kind, attrs⟩, hc⟩ | ⟨object, hc⟩ | ⟨⟨object, a⟩, hc⟩
  · rw [run_of_creation h hc] at hr
    obtain ⟨-, -, k, -, -, hmade⟩ := (ManagerM.create_ends h kind attrs).ok hr
    rw [upshot_of_creation hc]
    exact hmade.altered h
  · obtain ⟨k, hk, hlive, hwithout⟩ := (removal_ends h hc).ok hr
    rw [upshot_of_removal hc hk]
    exact .removed hlive hwithout.contains hwithout.binding
  · obtain ⟨k, -, hk, -, hlive, -, hsets⟩ := Call.sets h hc hr
    rw [upshot_of_setting hc hk]
    obtain ⟨hkept, hothers⟩ := hsets.kept h hlive
    exact .rebound hkept hothers k.kind

end

end SharedBuffer
