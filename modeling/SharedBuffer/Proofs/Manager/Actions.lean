/-
The actions that requests are made of, run from a given manager.

What can be refused is refused before anything changes; writing figures and announcing cannot be refused at all. A
request is therefore a row of looks at the manager, then one planned change (`Leads.of_plan`), then its figures and
announcements (`commit_ends`), of all that is shown otherwise than before.
-/
import SharedBuffer.Proofs.Accounting.Outcome
import SharedBuffer.Proofs.Manager.Announcements

namespace SharedBuffer

/-- a manager with one thing more on record -/
def Logged (m m' : Manager) : Prop := ∃ audit, m' = { m with audit }

/-- a sound store that a manager can bring its own to; profiles go on counting exactly while they can -/
structure Leads (m : Manager) (L : Layout) (t : Store Record) : Prop where
  moves : Moves m.hardware m.store t
  sound : ∃ L', Sound m.hardware t L' ∧ (Tight m.store L → Fits t L' → Tight t L')

/-- a manager that another comes to, with a sound store and after a report of what has changed -/
structure Follows (m : Manager) (L : Layout) (m' : Manager) : Prop where
  hardware : m'.hardware = m.hardware
  leads : Leads m L m'.store
  reports : Reports m m'

namespace Follows

variable {m m' : Manager} {L : Layout}

theorem moves (h : Follows m L m') : Moves m.hardware m.store m'.store := h.leads.moves

theorem sound (h : Follows m L m') :
    ∃ L', Sound m.hardware m'.store L' ∧ (Tight m.store L → Fits m'.store L' → Tight m'.store L') := h.leads.sound

theorem refl (h : Sound m.hardware m.store L) : Follows m L m :=
  ⟨rfl, ⟨.refl _, L, h, fun ht _ => ht⟩, .refl m⟩

/-- counters and records of the audit do not matter -/
theorem recorded (h : Follows m L m') {audit : List AuditRecord} {counters : Counters} :
    Follows m L { m' with audit, counters } := ⟨h.hardware, h.leads, h.reports⟩

end Follows

/-- a store that a manager leads to, and a report of it -/
theorem Leads.follows {m m' : Manager} {L : Layout} {t : Store Record} {ks : List Key} (h : Leads m L t)
    (hshown : ∀ k, t.display k ≠ m.store.display k → k ∈ ks) (ht : Told ks { m with store := t } m') :
    Follows m L m' := by
  have hreports := Reports.of_told ht hshown
  obtain ⟨es, rfl, -⟩ := ht
  exact ⟨rfl, h, hreports⟩

/-- where nothing goes, it is enough to report what is there -/
theorem Leads.follows_visible {m m' : Manager} {L : Layout} {t : Store Record} {ks : List Key} (h : Leads m L t)
    (hs : Sound m.hardware m.store L) (hkept : ∀ k, m.store.contains k = true → t.contains k = true)
    (hsame : ∀ k, k ∉ ks → t.display k = m.store.display k) (ht : Told (t.visible ks) { m with store := t } m') :
    Follows m L m' := by
  obtain ⟨L', hs', -⟩ := h.sound
  exact h.follows (hs.mem_visible hs' hkept hsame) ht

namespace ManagerM

variable {α : Type} {m : Manager} {k : Key}

/-! ## Operations of the store -/

theorem onStore_run_ok {op : StoreM Record α} {a : α} {t : Store Record} (h : op.run m.store = (.ok a, t)) :
    (onStore op).run m = (.ok a, { m with store := t }) := by
  simp [onStore, h, Except.mapError]

theorem onStore_run_error {op : StoreM Record α} {e : StoreError} {t : Store Record}
    (h : op.run m.store = (.error e, t)) : (onStore op).run m = (.error e.toFault, { m with store := t }) := by
  simp [onStore, h, Except.mapError]

theorem onLists_run_ok {x : LinkM α} {a : α} {t : Store Record} (h : x.run m.store = (.ok a, t)) :
    (onLists x).run m = (.ok a, { m with store := t }) := by
  simp [onLists, h, Except.mapError]

theorem onLists_run_error {x : LinkM α} {e : LinkError} {t : Store Record} (h : x.run m.store = (.error e, t)) :
    (onLists x).run m = (.error e.toFault, { m with store := t }) := by
  simp [onLists, h, Except.mapError]

theorem onStore_ends {op : StoreM Record α} {P : α → Store Record → Prop} {Q : StoreError → Store Record → Prop}
    (h : Ends op m.store P Q) : Ends (onStore op) m (fun a m' => ∃ t, m' = { m with store := t } ∧ P a t)
      (fun e m' => ∃ e' t, e = e'.toFault ∧ m' = { m with store := t } ∧ Q e' t) := by
  rcases hr : op.run m.store with ⟨e | a, t⟩
  · exact Ends.of_run_error (onStore_run_error hr) ⟨e, t, rfl, rfl, h.error hr⟩
  · exact Ends.of_run_ok (onStore_run_ok hr) ⟨t, rfl, h.ok hr⟩

theorem modifyPool_run {p : Pool} (h : m.store.pool? k = some p) (f : Pool → Pool) :
    (modifyPool k f).run m = (.ok (), { m with store := m.store.edit k (Record.mapPool f) }) := by
  have hc := Store.contains_of_pool? h
  refine (run_bind_ok (a := p) (t := m) ?_).trans (onStore_run_ok ?_)
  · rw [← Store.poolAt_eq h]
    rfl
  · simp [Store.modify, hc, Store.edit]

theorem modifyProfile_run {p : Profile} (h : m.store.profile? k = some p) (f : Profile → Profile) :
    (modifyProfile k f).run m = (.ok (), { m with store := m.store.edit k (Record.mapProfile f) }) := by
  have hc := Store.contains_of_profile? h
  refine (run_bind_ok (a := p) (t := m) ?_).trans (onStore_run_ok ?_)
  · rw [← Store.profileAt_eq h]
    rfl
  · simp [Store.modify, hc, Store.edit]

/-- writing figures into live pools cannot be refused -/
theorem writeTotals_run {figures : List (Key × Totals)}
    (h : ∀ k ∈ figures.map Prod.fst, ∃ p, m.store.pool? k = some p) :
    (writeTotals figures).run m = (.ok (), { m with store := m.store.written figures }) := by
  induction figures generalizing m with
  | nil => rfl
  | cons f figures ih =>
    obtain ⟨k, t⟩ := f
    obtain ⟨p, hp⟩ := h k (by simp)
    refine (run_bind_ok (modifyPool_run hp (Pool.withTotals t))).trans (ih fun j hj => ?_)
    obtain ⟨q, hq⟩ := h j (List.mem_cons_of_mem _ hj)
    simp only [Store.pool?, Store.get?_edit, Store.pool?_eq_some.1 hq]
    split <;> exact ⟨_, rfl⟩

/-! ## Looking up -/

theorem resolve?_eq_some {kind : ObjectKind} {id : ObjectId} (h : m.resolve? kind id = some k) :
    Key.ofId? id = some k ∧ k.kind = kind ∧ m.store.contains k = true := by
  unfold Manager.resolve? at h
  rw [Option.filter_eq_some_iff] at h
  simpa using h

theorem resolve?_of {kind : ObjectKind} {id : ObjectId} (hid : Key.ofId? id = some k)
    (hk : k.kind = kind) (hc : m.store.contains k = true) : m.resolve? kind id = some k := by
  unfold Manager.resolve?
  rw [Option.filter_eq_some_iff]
  simp [hid, hk, hc]

/-- an id resolves to the live pool that has it -/
theorem resolve?_pool_eq_some (h : Sound m.hardware m.store L) {id : ObjectId} :
    m.resolve? .pool id = some k ↔ k.id = id ∧ ∃ q, m.store.pool? k = some q := by
  constructor
  · intro hres
    obtain ⟨hid, hkind, hc⟩ := resolve?_eq_some hres
    exact ⟨Key.id_of_ofId? hid, h.wired.exists_pool hc hkind⟩
  · rintro ⟨rfl, q, hq⟩
    have hc := Store.contains_of_pool? hq
    exact resolve?_of (h.wired.handed.isHandle k hc).ofId? (h.wired.kind_of_pool? hq) hc

theorem reading_run_ok {f : Manager → Except Fault α} {a : α} (h : f m = .ok a) : (reading f).run m = (.ok a, m) := by
  rw [← h]
  rfl

theorem readingStore_run_ok {f : Store Record → Except Fault α} {a : α} (h : f m.store = .ok a) :
    (readingStore f).run m = (.ok a, m) := by
  rw [← h]
  rfl

/-- the pool of a live profile, as a request looks it up -/
theorem exists_poolOf_run {L : Layout} (h : Sound m.hardware m.store L) {p : Profile}
    (hp : m.store.profile? k = some p) :
    ∃ o q, (poolOf k).run m = (.ok o, m) ∧ k ∈ L .poolProfiles o ∧ m.store.pool? o = some q := by
  obtain ⟨o, ho, hm, hoc, hok⟩ := h.wired.exists_poolOf (Store.contains_of_profile? hp) (h.wired.kind_of_profile? hp)
  obtain ⟨q, hq⟩ := h.wired.exists_pool hoc hok
  refine ⟨o, q, readingStore_run_ok ?_, hm, hq⟩
  have hpool := (h.wired.mem_poolProfiles_iff hp).1 hm
  rw [Store.profileAt_eq hp]
  simp only [bind, Except.bind, Store.poolOfProfile, hpool]

/-! ## Records and figures -/

theorem logChange_ends (category : AuditCategory) (action : String) (object : Key) (details : Json) :
    Ends (logChange category action object details) m (fun _ m' => Logged m m') fun _ _ => False :=
  Ends.of_run_ok (a := ()) rfl ⟨_, rfl⟩

theorem logSnapshot_ends (category : AuditCategory) (action : String) (object : Key) :
    Ends (logSnapshot category action object) m (fun _ m' => Logged m m') fun _ _ => False :=
  ends_reading (fun details _ => logChange_ends category action object details) fun e he => by cases he

/-- writing figures and announcing their pools cannot be refused -/
theorem commit_ends {figures : List (Key × Totals)}
    (h : ∀ k ∈ figures.map Prod.fst, k.kind = .pool ∧ ∃ p, m.store.pool? k = some p) :
    Ends (commit figures) m (fun _ m' => Told ((m.store.written figures).visible (figures.map Prod.fst))
      { m with store := m.store.written figures } m') fun _ _ => False :=
  Ends.bind_ok (writeTotals_run fun k hk => (h k hk).2) (announcePools_ends fun k hk => (h k hk).1)

end ManagerM

/-! ## Planned changes -/

section

variable {m : Manager} {L : Layout} {c : Change} {figures : List (Key × Totals)} {t : Store Record}

/-- **A planned change leads to a sound store**, once its figures are written, and shows anew what it names at most. -/
theorem Leads.of_plan (h : Sound m.hardware m.store L) (hb : c.Buildable m.store) (hn : c.Countable m.store)
    (hp : c.Permitted m.hardware m.store)
    (hplan : Accounting.plan m.hardware m.store c = .ok figures) (hrun : c.apply.run m.store = (.ok (), t)) :
    Leads m L (t.written figures) ∧ (∀ k ∈ figures.map Prod.fst, k.kind = .pool ∧ ∃ p, t.pool? k = some p) ∧
      (∀ k, (t.written figures).contains k = m.store.contains k) ∧
      ∀ k, k ∉ figures.map Prod.fst ++ c.named m.store → (t.written figures).display k = m.store.display k := by
  obtain ⟨t', hrun', w', happ, hkeep, htight⟩ := Change.apply_run h.wired hb hn
  rw [hrun, Prod.mk.injEq] at hrun'
  obtain rfl := hrun'.2
  obtain ⟨ks, hks, hlive⟩ := h.wired.exists_affectedPools hb hn
  have hfst := (Accounting.plan_ok hplan).1
  rw [hks, Except.ok.injEq] at hfst
  have hc : ∀ k, (t.written figures).contains k = t.contains k := fun k =>
    (Change.applied_written k t figures).contains
  have hsound : Sound m.hardware (t.written figures) (c.relayout L) :=
    ⟨w'.written figures, happ.accounted h.wired w' hb h.accounted hplan hkeep⟩
  have hmove : Move m.hardware m.store (t.written figures) := .change hb hn hp hplan hrun
  refine ⟨⟨.single h hmove, c.relayout L, hsound, fun ht hfit => ?_⟩, fun k hk => ?_, fun k => ?_, fun k hk => ?_⟩
  · have hfit' : Fits t (c.relayout L) := fun k hk hp => hfit k ((hc k).trans hk) hp
    exact (htight ht hfit').congr (fun k _ => hc k) (fun k _ => Store.refsAt_written k t figures) fun _ => rfl
  · rw [← hfst] at hk
    obtain ⟨hc, hkind⟩ := hlive k hk
    exact ⟨hkind, w'.exists_pool (happ.contains.trans hc) hkind⟩
  · exact (hc k).trans happ.contains
  · exact Change.display_written h hb hplan hrun hmove hsound.wired hk

end

end SharedBuffer
