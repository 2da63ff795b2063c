/-
How the records of a buffer store hang together.

Every record is filed under a key of its own kind. A profile is in the list of a live pool, a priority group or queue
in the list of a live port: its home list, which it joins when it is made and leaves only to join another of the kind
or to be removed. A pool counts its profiles exactly. `Wired` says all this of a store and a layout, with at most one
record out of its home list for the moment.

Results: each way in which requests change a store keeps it wired.
- `Wired.attach`, `Wired.detach`: one member more or less in one list;
- `Wired.insert`, `Wired.retire`, `Wired.adopt`: one record more or less, and a new one in its home list;
- `Wired.edit`: other contents of a record.
-/
import SharedBuffer.Hardware.Profile
import SharedBuffer.Proofs.Lists.Attach
import SharedBuffer.Proofs.Lists.Detach
import SharedBuffer.Proofs.Store.Handles

namespace SharedBuffer

/-! ## Which kinds own and join which lists -/

/-- the kind of the owners of a kind of list -/
def Roster.ownerKind : Roster → ObjectKind
  | poolProfiles => .pool
  | profileConsumers => .profile
  | portPriorityGroups | portQueues => .port

/-- whether objects of a kind can be in a kind of list -/
def Roster.takes : Roster → ObjectKind → Bool
  | poolProfiles, .profile => true
  | profileConsumers, .priorityGroup | profileConsumers, .queue | profileConsumers, .port => true
  | portPriorityGroups, .priorityGroup => true
  | portQueues, .queue => true
  | _, _ => false

/-- the kind of list that every object of a kind is in -/
def ObjectKind.home? : ObjectKind → Option Roster
  | profile => some .poolProfiles
  | priorityGroup => some .portPriorityGroups
  | queue => some .portQueues
  | _ => none

theorem ObjectKind.takes_of_home? {kind : ObjectKind} {R : Roster} (h : kind.home? = some R) :
    R.takes kind = true := by
  cases kind <;> simp_all [home?] <;> subst h <;> rfl

theorem Roster.eq_poolProfiles {R : Roster} (h : R.ownerKind = .pool) : R = .poolProfiles := by
  cases R
  · rfl
  all_goals exact absurd h (by decide)

theorem Roster.eq_profile_of_takes {kind : ObjectKind} (h : Roster.poolProfiles.takes kind = true) :
    kind = .profile := by
  cases kind
  case profile => rfl
  all_goals exact absurd h (by decide)

theorem Record.isSome_head? (r : Record) (R : Roster) : (r.head? R).isSome = decide (r.kind = R.ownerKind) := by
  cases r <;> cases R <;> rfl

theorem Record.isSome_link? (r : Record) (R : Roster) : (r.link? R).isSome = R.takes r.kind := by
  cases r <;> cases R <;> rfl

/-- a record in no list and with no members -/
def Record.Unlinked (r : Record) : Prop :=
  (∀ R h, r.head? R = some h → h.first = none ∧ h.last = none) ∧ (∀ R l, r.link? R ≠ some (some l)) ∧ r.refCount = 0

/-- a change of a record that leaves its kind, its lists, its places and its count as they are, and ports altogether -/
structure Record.KeepsWiring (f : Record → Record) : Prop where
  kind : ∀ r, (f r).kind = r.kind
  head : ∀ r R, (f r).head? R = r.head? R
  link : ∀ r R, (f r).link? R = r.link? R
  refs : ∀ r, (f r).refCount = r.refCount
  port : ∀ p, f (.port p) = .port p

/-- the records of a store hang together as a layout says, but for one key that may be out of its home list -/
structure Wired (hw : Hardware) (s : Store Record) (L : Layout) (out : Option Key) : Prop where
  linked : Linked s L
  handed : s.Handed
  typed : ∀ k r, s.bareAt k = some r → r.kind = k.kind
  /-- only keys that were issued own members; an owner whose members outran its count may be gone -/
  owners : ∀ R o m, m ∈ L R o → s.Issued o ∧ o.kind = R.ownerKind
  home : ∀ k R, s.contains k = true → k.kind.home? = some R → out ≠ some k →
    ∃ o, k ∈ L R o ∧ s.contains o = true ∧ o.kind = R.ownerKind
  counted : ∀ k, s.contains k = true → k.kind = .pool → s.refsAt k = (L .poolProfiles k).length
  tiled : ∀ k p, s.bareAt k = some (.port p) → p.tile ≤ hw.lastTile

namespace Wired

variable {hw : Hardware} {s t : Store Record} {L : Layout} {out : Option Key} {R : Roster} {k o m : Key}

theorem kind_eq (w : Wired hw s L out) {r : Record} (h : s.get? k = some r) : r.kind = k.kind := by
  have := w.typed k r.bare (by rw [Store.bareAt, h]; rfl)
  rwa [Record.kind_bare] at this

/-- a live key of the owners' kind has a list -/
theorem exists_head (w : Wired hw s L out) (hc : s.contains o = true) (hk : o.kind = R.ownerKind) :
    ∃ h, s.headAt R o = some h := by
  obtain ⟨r, hr⟩ := Store.contains_iff.1 hc
  refine Option.isSome_iff_exists.1 ?_
  rw [Store.headAt, hr, Option.bind_some, Record.isSome_head?, w.kind_eq hr]
  exact decide_eq_true hk

/-- a live key of a member's kind has a place -/
theorem exists_link (w : Wired hw s L out) (hc : s.contains m = true) (hk : R.takes m.kind = true) :
    ∃ l, s.linkAt R m = some l := by
  obtain ⟨r, hr⟩ := Store.contains_iff.1 hc
  refine Option.isSome_iff_exists.1 ?_
  rw [Store.linkAt, hr, Option.bind_some, Record.isSome_link?, w.kind_eq hr]
  exact hk

theorem takes_of_link (w : Wired hw s L out) {l : Option Link} (h : s.linkAt R m = some l) :
    s.contains m = true ∧ R.takes m.kind = true := by
  have hc := Store.contains_of_linkAt h
  obtain ⟨r, hr⟩ := Store.contains_iff.1 hc
  refine ⟨hc, ?_⟩
  rw [← w.kind_eq hr, ← Record.isSome_link?]
  rw [Store.linkAt, hr, Option.bind_some] at h
  rw [h]
  rfl

theorem takes_of_mem (w : Wired hw s L out) (h : m ∈ L R o) : s.contains m = true ∧ R.takes m.kind = true := by
  obtain ⟨l, hl, -⟩ := w.linked.owner_of_mem h
  exact w.takes_of_link hl

/-- the pool of a profile is there and counts it -/
theorem pool_of_mem (w : Wired hw s L none) (hm : m ∈ L .poolProfiles o) :
    s.contains o = true ∧ o.kind = .pool ∧ s.refsAt o ≠ 0 := by
  obtain ⟨hc, hk⟩ := w.takes_of_mem hm
  obtain ⟨o', hm', ho, hkind⟩ := w.home m .poolProfiles hc (by rw [Roster.eq_profile_of_takes hk]; rfl) (by simp)
  obtain rfl := w.linked.owner_unique hm hm'
  refine ⟨ho, hkind, ?_⟩
  rw [w.counted o ho hkind]
  exact (List.length_pos_of_mem hm).ne'

theorem members_eq (w : Wired hw s L out) (hc : s.contains o = true) (hk : o.kind = R.ownerKind) :
    s.members R o = .ok (L R o) := by
  obtain ⟨h, hh⟩ := w.exists_head hc hk
  exact w.linked.members_eq hh

theorem requireMembers_eq (w : Wired hw s L out) (hc : s.contains o = true) (hk : o.kind = R.ownerKind) :
    s.requireMembers R o = .ok (L R o) := by
  rw [Store.requireMembers, w.members_eq hc hk]
  rfl

/-! ## One member more or less -/

/-- one sequence changed in a way that the home lists and the pools' counts allow -/
theorem of_relisted (w : Wired hw s L out) {l : List Key} {refs : Nat} {out' : Option Key}
    (h : Relisted s t L R o l refs) (hiss : s.Issued o) (hkind : o.kind = R.ownerKind)
    (hhome : ∀ k R', s.contains k = true → k.kind.home? = some R' → out' ≠ some k →
      ∃ o', k ∈ L.set R o l R' o' ∧ s.contains o' = true ∧ o'.kind = R'.ownerKind)
    (hcount : s.contains o = true → o.kind = .pool → refs = (L.set R o l .poolProfiles o).length) :
    Wired hw t (L.set R o l) out' := by
  have hc := h.frame.contains
  refine ⟨h.linked, w.handed.congr hc h.frame.allocators, fun k r hr => w.typed k r (h.frame.bare k ▸ hr),
    fun R' o' m hm => ?_, fun k R' hk hR hk' => ?_, fun k hk hp => ?_, fun k p hp => w.tiled k p (h.frame.bare k ▸ hp)⟩
  · by_cases hro : R' = R ∧ o' = o
    · obtain ⟨rfl, rfl⟩ := hro
      exact ⟨hiss.congr hc h.frame.allocators, hkind⟩
    · rw [Layout.set_of_ne hro] at hm
      obtain ⟨hi, hk⟩ := w.owners R' o' m hm
      exact ⟨hi.congr hc h.frame.allocators, hk⟩
  · rw [hc] at hk
    obtain ⟨o', hm, ho', hkind⟩ := hhome k R' hk hR hk'
    exact ⟨o', hm, by rwa [hc], hkind⟩
  · rw [hc] at hk
    rw [h.refs]
    by_cases hko : k = o
    · subst hko
      rw [if_pos rfl]
      exact hcount hk hp
    · rw [if_neg hko, Layout.set_of_ne fun e => hko e.2]
      exact w.counted k hk hp

/-- **Attaching keeps a store wired.** The member may be the one that was out of its home list. -/
theorem attach (w : Wired hw s L out) (ho : s.contains o = true) (hk : o.kind = R.ownerKind)
    (hm : s.linkAt R m = some none) {out' : Option Key} (hout : out' = out ∨ out = some m ∧ m.kind.home? = some R) :
    ∃ t, (Store.attach R o m).run s = (.ok (), t) ∧ Wired hw t (L.set R o (L R o ++ [m])) out' ∧
      Relisted s t L R o (L R o ++ [m]) (min (s.refsAt o + 1) maxRefs) := by
  obtain ⟨h, hh⟩ := w.exists_head ho hk
  obtain ⟨t, hrun, hrel⟩ := w.linked.attach_run hh hm
  refine ⟨t, hrun, w.of_relisted hrel (w.handed.issued ho) hk (fun k R' hck hR hko => ?_) (fun _ hpool => ?_), hrel⟩
  · have hgrow : ∀ {o'}, k ∈ L R' o' → k ∈ L.set R o (L R o ++ [m]) R' o' := by
      intro o' hk'
      by_cases hro : R' = R ∧ o' = o
      · obtain ⟨rfl, rfl⟩ := hro
        rw [Layout.set_self]
        exact List.mem_append_left _ hk'
      · rwa [Layout.set_of_ne hro]
    by_cases hkm : out = some k
    · rcases hout with rfl | ⟨hom, hmR⟩
      · exact absurd hkm hko
      · rw [hom, Option.some.injEq] at hkm
        subst hkm
        rw [hR, Option.some.injEq] at hmR
        subst hmR
        exact ⟨o, by simp, ho, hk⟩
    · obtain ⟨o', hmem, ho', hkind⟩ := w.home k R' hck hR hkm
      exact ⟨o', hgrow hmem, ho', hkind⟩
  · obtain rfl := Roster.eq_poolProfiles (hk.symm.trans hpool)
    have hlen : (L .poolProfiles o ++ [m]).length < UInt32.size := by
      have hnd := hrel.linked.nodup .poolProfiles o
      rw [Layout.set_self] at hnd
      have hlive : ∀ k ∈ L .poolProfiles o ++ [m], s.contains k = true ∧ k.kind = .profile := by
        intro k hkm
        have hck : s.contains k = true ∧ Roster.poolProfiles.takes k.kind = true := by
          rcases List.mem_append.1 hkm with hkm | hkm
          · exact w.takes_of_mem hkm
          · rw [List.mem_singleton.1 hkm]
            exact w.takes_of_link hm
        exact ⟨hck.1, Roster.eq_profile_of_takes hck.2⟩
      exact w.handed.length_le hnd hlive
    rw [Layout.set_self, w.counted o ho hpool]
    simp only [List.length_append, List.length_singleton, maxRefs] at hlen ⊢
    omega

/-- **Detaching keeps a store wired.** A member that leaves its home list is out of it. -/
theorem detach (w : Wired hw s L out) (ho : s.contains o = true) (hk : o.kind = R.ownerKind) (hm : m ∈ L R o)
    (hp : s.refsAt o ≠ 0) {out' : Option Key}
    (hout : out' = some m ∧ out = none ∨ out' = out ∧ m.kind.home? ≠ some R) :
    ∃ t, (Store.detach R o m).run s = (.ok (), t) ∧
      Wired hw t (L.set R o ((L R o).filter fun x => x ≠ m)) out' ∧
      Relisted s t L R o ((L R o).filter fun x => x ≠ m) (s.refsAt o - 1) := by
  obtain ⟨h, hh⟩ := w.exists_head ho hk
  obtain ⟨t, hrun, hrel⟩ := w.linked.detach_run hh hm hp
  refine ⟨t, hrun, w.of_relisted hrel (w.handed.issued ho) hk (fun k R' hck hR hko => ?_) (fun _ hpool => ?_), hrel⟩
  · have hkout : out ≠ some k := by
      rcases hout with ⟨-, rfl⟩ | ⟨rfl, -⟩
      · simp
      · exact hko
    obtain ⟨o', hmem, ho', hkind⟩ := w.home k R' hck hR hkout
    refine ⟨o', ?_, ho', hkind⟩
    by_cases hro : R' = R ∧ o' = o
    · obtain ⟨rfl, rfl⟩ := hro
      have hkm : k ≠ m := by
        rintro rfl
        rcases hout with ⟨rfl, -⟩ | ⟨-, hne⟩
        · exact hko rfl
        · exact hne hR
      rw [Layout.set_self]
      simpa [hkm] using hmem
    · rwa [Layout.set_of_ne hro]
  · obtain rfl := Roster.eq_poolProfiles (hk.symm.trans hpool)
    obtain ⟨pre, post, hs⟩ := List.append_of_mem hm
    rw [Layout.set_self, w.counted o ho hpool, hs, Linked.filter_ne_eq (hs ▸ w.linked.nodup _ o)]
    simp only [List.length_append, List.length_cons]
    omega

/-! ## One record more or less -/

/-- **A new record keeps a store wired.** One of a kind with a home list is out of it. -/
theorem insert (w : Wired hw s L none) {kind : ObjectKind} {r : Record} (h : Store.Inserted s t kind k r)
    (hr : r.Unlinked) (hkind : r.kind = kind) (htile : ∀ p, r.bare = .port p → p.tile ≤ hw.lastTile)
    {out' : Option Key} (hout : out' = some k ∨ out' = none ∧ kind.home? = none) : Wired hw t L out' := by
  obtain ⟨hheads, hlinks, hrefs⟩ := hr
  have hnew : s.contains k = false := by
    by_contra hc
    exact h.new (w.handed.issued (Bool.eq_true_of_not_eq_false hc))
  have hempty : ∀ R, L R k = [] := fun R => List.eq_nil_iff_forall_not_mem.2 fun m hm => h.new (w.owners R k m hm).1
  have hbare : ∀ j, t.bareAt j = if j = k then some r.bare else s.bareAt j := by
    intro j
    rw [Store.bareAt, h.get]
    split <;> rfl
  have hlive : ∀ j, t.contains j = true → j = k ∨ s.contains j = true := by
    intro j hj
    rw [h.contains] at hj
    simpa using hj
  have hkeep : ∀ j, s.contains j = true → t.contains j = true := fun j hj => by simp [h.contains, hj]
  have hne : ∀ {j}, s.contains j = true → j ≠ k := by
    rintro j hj rfl
    simp [hnew] at hj
  refine ⟨w.linked.insert h.get hnew hempty hheads hlinks, h.handed, fun j q hq => ?_,
    fun R o m hm => (w.owners R o m hm).imp_left (h.issued o), fun j R hj hR hjk => ?_, fun j hj hp => ?_,
    fun j p hp => ?_⟩
  · rw [hbare] at hq
    split at hq
    · rename_i hjk
      rw [Option.some.injEq] at hq
      rw [← hq, Record.kind_bare, hkind, hjk, h.kind]
    · exact w.typed j q hq
  · rcases hlive j hj with rfl | hj
    · rcases hout with rfl | ⟨-, hno⟩
      · exact absurd rfl hjk
      · rw [h.kind, hno] at hR
        exact absurd hR (by simp)
    · obtain ⟨o, hm, ho, hk⟩ := w.home j R hj hR (by simp)
      exact ⟨o, hm, hkeep o ho, hk⟩
  · rcases hlive j hj with rfl | hj
    · rw [hempty, Store.refsAt, h.get, if_pos rfl]
      simp [hrefs]
    · rw [Store.refsAt, h.get, if_neg (hne hj)]
      exact w.counted j hj hp
  · rw [hbare] at hp
    split at hp
    · rw [Option.some.injEq] at hp
      exact htile p hp
    · exact w.tiled j p hp

/-- **Taking out a record keeps a store wired**, if it is in no list and nothing has its home with it. -/
theorem retire (w : Wired hw s L out) (h : Store.Retired s t k) (hout : out = none ∨ out = some k)
    (hfree : ∀ R o, k ∉ L R o) (hhome : ∀ R m, m ∈ L R k → m.kind.home? ≠ some R) : Wired hw t L none := by
  have hlive : ∀ j, t.contains j = true → j ≠ k ∧ s.contains j = true := by
    intro j hj
    rw [h.contains] at hj
    simpa using hj
  have hbare : ∀ j, t.bareAt j = if j = k then none else s.bareAt j := by
    intro j
    rw [Store.bareAt, h.get]
    split <;> rfl
  have hold : ∀ {j r}, t.bareAt j = some r → s.bareAt j = some r := by
    intro j r hr
    rw [hbare] at hr
    split at hr
    · simp at hr
    · exact hr
  refine ⟨w.linked.erase h.get hfree, h.handed, fun j q hq => w.typed j q (hold hq),
    fun R o m hm => (w.owners R o m hm).imp_left (h.issued o), fun j R hj hR hjk => ?_, fun j hj hp => ?_,
    fun j p hp => w.tiled j p (hold hp)⟩
  · obtain ⟨hne, hj⟩ := hlive j hj
    have hjo : out ≠ some j := by
      rcases hout with rfl | rfl
      · simp
      · exact fun e => hne (Option.some.inj e).symm
    obtain ⟨o, hm, ho, hk⟩ := w.home j R hj hR hjo
    refine ⟨o, hm, ?_, hk⟩
    have hok : o ≠ k := by
      rintro rfl
      exact hhome R j hm hR
    simp [h.contains, hok, ho]
  · obtain ⟨hne, hj⟩ := hlive j hj
    rw [Store.refsAt, h.get, if_neg hne]
    exact w.counted j hj hp

/-- a profile that has left its pool can be taken out -/
theorem retire_profile {u : Store Record} (w : Wired hw s L none) (hm : k ∈ L .poolProfiles o)
    (hu : Wired hw u (L.set .poolProfiles o ((L .poolProfiles o).filter fun x => x ≠ k)) (some k))
    (h : Store.Retired u t k) :
    Wired hw t (L.set .poolProfiles o ((L .poolProfiles o).filter fun x => x ≠ k)) none := by
  have hk : k.kind = .profile := Roster.eq_profile_of_takes (w.takes_of_mem hm).2
  refine hu.retire h (.inr rfl) (fun R i hmem => ?_) fun R m hmem hmR => ?_
  · have htake := (hu.takes_of_mem hmem).2
    rw [hk] at htake
    obtain rfl : R = .poolProfiles := by cases R <;> first | rfl | cases htake
    by_cases hio : i = o
    · subst hio
      simp at hmem
    · rw [Layout.set_of_ne fun e => hio e.2] at hmem
      exact hio (w.linked.owner_unique hmem hm)
  · have hown := (hu.owners R k m hmem).2
    rw [hk] at hown
    cases R
    case profileConsumers => cases hmk : m.kind <;> simp [hmk, ObjectKind.home?] at hmR
    all_goals exact absurd hown (by decide)

/-- **A new record joins its home list.** -/
theorem adopt (w : Wired hw s L none) {kind : ObjectKind} {r : Record} (h : Store.Inserted s t kind k r)
    (hr : r.Unlinked) (hkind : r.kind = kind) (hhome : kind.home? = some R) (ho : s.contains o = true)
    (hok : o.kind = R.ownerKind) :
    ∃ u, (Store.attach R o k).run t = (.ok (), u) ∧ Wired hw u (L.set R o (L R o ++ [k])) none ∧ Frame R t u ∧
      ∀ j, j ≠ o → u.refsAt j = t.refsAt j := by
  have hport : ∀ p, r.bare = .port p → p.tile ≤ hw.lastTile := by
    intro p hp
    rw [← hkind, ← Record.kind_bare, hp] at hhome
    cases hhome
  have w' := w.insert h hr hkind hport (.inl rfl)
  have hlink : t.linkAt R k = some none := by
    have hplace : (r.link? R).isSome = true := by
      rw [Record.isSome_link?, hkind]
      exact ObjectKind.takes_of_home? hhome
    obtain ⟨l, hl⟩ := Option.isSome_iff_exists.1 hplace
    rw [Store.linkAt, h.get, if_pos rfl, Option.bind_some, hl]
    cases l with
    | none => rfl
    | some l => exact absurd hl (hr.2.1 R l)
  obtain ⟨u, hrun, hwu, hrel⟩ := w'.attach (by simp [h.contains, ho]) hok hlink
    (.inr ⟨rfl, by rw [h.kind]; exact hhome⟩ : none = some k ∨ _)
  exact ⟨u, hrun, hwu, hrel.frame, fun j hj => by rw [hrel.refs, if_neg hj]⟩

/-! ## Other contents -/

/-- **Other contents keep a store wired.** -/
theorem edit (w : Wired hw s L out) {f : Record → Record} (hf : Record.KeepsWiring f) :
    Wired hw (s.edit k f) L out := by
  have hc : ∀ j, (s.edit k f).contains j = s.contains j := fun j => Store.contains_edit s k j f
  have hlinked : Linked (s.edit k f) L := by
    refine ⟨w.linked.nodup, fun hh => w.linked.head ?_, fun hs => ?_, fun hm => w.linked.member ?_⟩
    · rwa [Store.headAt_edit fun r => hf.head r _] at hh
    · rw [Store.linkAt_edit fun r => hf.link r _]
      exact w.linked.link hs
    · rwa [Store.linkAt_edit fun r => hf.link r _] at hm
  have hbare : ∀ {j r}, (s.edit k f).bareAt j = some r → ∃ q, s.get? j = some q ∧ (r = q.bare ∨ r = (f q).bare) := by
    intro j r hr
    rw [Store.bareAt, Store.get?_edit] at hr
    cases hg : s.get? j with
    | none => simp [hg] at hr
    | some q =>
      refine ⟨q, rfl, ?_⟩
      rw [hg] at hr
      split at hr
      · exact .inr (by simpa using hr.symm)
      · exact .inl (by simpa using hr.symm)
  refine ⟨hlinked, w.handed.congr hc rfl, fun j r hr => ?_,
    fun R o m hm => (w.owners R o m hm).imp_left fun hi => hi.congr hc rfl, fun j R hj hR hjo => ?_,
    fun j hj hp => ?_, fun j p hp => ?_⟩
  · obtain ⟨q, hq, rfl | rfl⟩ := hbare hr
    · rw [Record.kind_bare, w.kind_eq hq]
    · rw [Record.kind_bare, hf.kind, w.kind_eq hq]
  · obtain ⟨o, hm, ho, hk⟩ := w.home j R (hc j ▸ hj) hR hjo
    exact ⟨o, hm, by rwa [hc], hk⟩
  · rw [Store.refsAt_edit hf.refs]
    exact w.counted j (hc j ▸ hj) hp
  · obtain ⟨q, hq, hp' | hp'⟩ := hbare hp
    · exact w.tiled j p (by rw [Store.bareAt, hq, hp']; rfl)
    · have hk : q.kind = .port := by rw [← hf.kind, ← Record.kind_bare, ← hp']; rfl
      obtain ⟨p', rfl⟩ : ∃ p', q = .port p' := by
        cases q
        case port p' => exact ⟨p', rfl⟩
        all_goals exact absurd hk (by simp [Record.kind])
      rw [hf.port] at hp'
      exact w.tiled j p (by rw [Store.bareAt, hq, hp']; rfl)

theorem empty (hw : Hardware) : Wired hw {} (fun _ _ => []) none := by
  have hg : ∀ k, ({} : Store Record).get? k = none := fun _ => rfl
  refine ⟨⟨fun _ _ => List.nodup_nil, fun hh => ?_, fun hs => ?_, fun hm => ?_⟩, Store.handed_empty, fun k r hr => ?_,
    fun R o m hm => ?_, fun k R hk => ?_, fun k hk => ?_, fun k p hp => ?_⟩
  all_goals simp_all [Store.headAt, Store.linkAt, Store.bareAt, Store.contains_eq_bareAt]

end Wired

end SharedBuffer
