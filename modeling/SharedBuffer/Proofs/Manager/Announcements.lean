/-
What a listener is told.

A request announces at its end, when its changes are made. `Told ks m m'` says of some announcements that each is true
of the store as it stands, and that there is one for every key of `ks` if anybody listens. `Narrates s es t` says of
the announcements of a whole request, from a store to another, that they are true of the second store and leave out
nothing that is shown otherwise than in the first.

Results: `announcePools_ends`, `announceProfile_ends` and `announceOptional_ends`, what is told; and `Reports.of_told`.
-/
import SharedBuffer.Proofs.Action
import SharedBuffer.Proofs.Manager.Display

namespace SharedBuffer

namespace Event

/-- the object an announcement is about -/
def object : Event → Key
  | poolChanged id _ | poolRemoved id => ⟨.pool, id⟩
  | profileChanged id _ | profileRemoved id => ⟨.profile, id⟩

/-- what an announcement says of its object -/
def said : Event → Option Snapshot
  | poolChanged _ snapshot => some (.pool snapshot)
  | profileChanged _ snapshot => some (.profile snapshot)
  | poolRemoved _ | profileRemoved _ => none

end Event

/-- announcements that bring whoever knows what a store shows to know what another shows -/
structure Narrates (s : Store Record) (es : List Event) (t : Store Record) : Prop where
  current : ∀ e ∈ es, e.said = t.display e.object
  complete : ∀ k, t.display k ≠ s.display k → ∃ e ∈ es, e.object = k

/-- what a listener is told between two managers -/
def Reports (m m' : Manager) : Prop :=
  m'.watched = m.watched ∧ ∃ es, m'.events = m.events ++ es ∧ (m.watched = true → Narrates m.store es m'.store)

/-- a manager after announcements that are true of its store, of each of some objects if anybody listens -/
def Told (ks : List Key) (m m' : Manager) : Prop :=
  ∃ es, m' = { m with events := m.events ++ es } ∧ (∀ e ∈ es, e.said = m.store.display e.object) ∧
    (m.watched = true → ∀ k ∈ ks, ∃ e ∈ es, e.object = k)

namespace Told

variable {ks ks' : List Key} {m m' m'' : Manager}

theorem store (h : Told ks m m') : m'.store = m.store := by
  obtain ⟨es, rfl, -⟩ := h
  rfl

theorem nil (m : Manager) : Told [] m m := ⟨[], by simp, by simp, by simp⟩

theorem trans (h : Told ks m m') (h' : Told ks' m' m'') : Told (ks ++ ks') m m'' := by
  obtain ⟨es, rfl, hsaid, hall⟩ := h
  obtain ⟨es', rfl, hsaid', hall'⟩ := h'
  refine ⟨es ++ es', by simp, fun e he => ?_, fun hw k hk => ?_⟩
  · rcases List.mem_append.1 he with he | he
    · exact hsaid e he
    · exact hsaid' e he
  · rcases List.mem_append.1 hk with hk | hk
    · obtain ⟨e, he, hek⟩ := hall hw k hk
      exact ⟨e, List.mem_append_left _ he, hek⟩
    · obtain ⟨e, he, hek⟩ := hall' hw k hk
      exact ⟨e, List.mem_append_right _ he, hek⟩

end Told

/-- the keys under which something is shown -/
def Store.visible (s : Store Record) (ks : List Key) : List Key := ks.filter fun k => (s.display k).isSome

theorem Store.visible_append (s : Store Record) (ks ks' : List Key) :
    s.visible (ks ++ ks') = s.visible ks ++ s.visible ks' := List.filter_append ..

theorem Reports.refl (m : Manager) : Reports m m :=
  ⟨rfl, [], by simp, fun _ => ⟨by simp, fun _ h => absurd rfl h⟩⟩

/-- who is told of all that is shown otherwise than before has had a report -/
theorem Reports.of_told {ks : List Key} {m m' : Manager} {t : Store Record} (h : Told ks { m with store := t } m')
    (hshown : ∀ k, t.display k ≠ m.store.display k → k ∈ ks) : Reports m m' := by
  obtain ⟨es, rfl, hsaid, hall⟩ := h
  exact ⟨rfl, es, rfl, fun hw => ⟨hsaid, fun k hk => hall hw k (hshown k hk)⟩⟩

/-- what is shown otherwise than before is shown, if everything is still there -/
theorem Sound.mem_visible {hw : Hardware} {s t : Store Record} {L L' : Layout} {ks : List Key} (hs : Sound hw s L)
    (ht : Sound hw t L') (hkept : ∀ k, s.contains k = true → t.contains k = true)
    (hsame : ∀ k, k ∉ ks → t.display k = s.display k) (k : Key) (hk : t.display k ≠ s.display k) :
    k ∈ t.visible ks := by
  refine List.mem_filter.2 ⟨not_imp_comm.1 (hsame k) hk, ?_⟩
  cases hd : s.display k with
  | none =>
    rw [hd] at hk
    exact Option.isSome_iff_ne_none.2 hk
  | some shown =>
    have hlive := hs.wired.isSome_display.1 (Option.isSome_iff_exists.2 ⟨shown, hd⟩)
    exact ht.wired.isSome_display.2 ⟨hkept k hlive.1, hlive.2⟩

namespace ManagerM

variable {m : Manager} {k : Key}

/-- an announcement that is true of the store as it stands -/
theorem announce_ends {e : Event} (h : e.said = m.store.display e.object) :
    Ends (announce e) m (fun _ m' => Told [e.object] m m') fun _ _ => False := by
  refine Ends.of_run_ok (a := ()) rfl ?_
  dsimp only
  split
  · exact ⟨[e], rfl, by simpa using h, by simp⟩
  · rename_i hw
    exact ⟨[], by simp, by simp, fun hw' => absurd hw' hw⟩

/-- a snapshot is announced if it can be taken -/
theorem announceShown_ends {α : Type} (taken : Except Fault α) (event : α → Event) (shown : α → Snapshot)
    {x : ManagerM Unit} (hdisplay : m.store.display k = taken.toOption.map shown)
    (hobject : ∀ a, (event a).object = k) (hsaid : ∀ a, (event a).said = some (shown a))
    (hok : ∀ a, taken = .ok a → x.run m = (announce (event a)).run m)
    (herror : ∀ e, taken = .error e → x.run m = (.ok (), m)) :
    Ends x m (fun _ m' => Told (m.store.visible [k]) m m') fun _ _ => False := by
  cases taken with
  | ok a =>
    have hsome : m.store.visible [k] = [(event a).object] := by
      simp [Store.visible, hdisplay, hobject, Except.toOption]
    have htold := announce_ends (m := m) (e := event a) (by rw [hobject, hdisplay, hsaid]; rfl)
    obtain ⟨_, m', hrun, htold⟩ := htold.exists_ok
    rw [hsome]
    exact Ends.of_run_ok ((hok a rfl).trans hrun) htold
  | error e =>
    have hnone : m.store.visible [k] = [] := by simp [Store.visible, hdisplay, Except.toOption]
    rw [hnone]
    exact Ends.of_run_ok (herror e rfl) (.nil m)

theorem announcePool_ends (hk : k.kind = .pool) :
    Ends (announcePool k) m (fun _ m' => Told (m.store.visible [k]) m m') fun _ _ => False := by
  have hkey : (⟨.pool, k.id⟩ : Key) = k := by rw [← hk]
  have htaken : (attempt (readingStore fun s => s.poolSnapshot k)).run m =
      (.ok (m.store.poolSnapshot k), m) := rfl
  refine announceShown_ends (m.store.poolSnapshot k) (.poolChanged k.id) .pool
    (by rw [Store.display, hk]) (fun _ => hkey) (fun _ => rfl) (fun snapshot h => ?_) fun e h => ?_
  · exact (run_bind_ok htaken).trans (by rw [h]; dsimp only; rw [announceOf_eq hk])
  · exact (run_bind_ok htaken).trans (by rw [h]; rfl)

theorem announceProfile_ends (hk : k.kind = .profile) :
    Ends (announceProfile k) m (fun _ m' => Told (m.store.visible [k]) m m') fun _ _ => False := by
  have hkey : (⟨.profile, k.id⟩ : Key) = k := by rw [← hk]
  have htaken : (attempt (readingStore fun s => s.profileSnapshot k)).run m =
      (.ok (m.store.profileSnapshot k), m) := rfl
  refine announceShown_ends (m.store.profileSnapshot k) (.profileChanged k.id) .profile
    (by rw [Store.display, hk]) (fun _ => hkey) (fun _ => rfl) (fun snapshot h => ?_) fun e h => ?_
  · exact (run_bind_ok htaken).trans (by rw [h]; dsimp only; rw [announceOf_eq hk])
  · exact (run_bind_ok htaken).trans (by rw [h]; rfl)

theorem announceOptional_ends {k : Option Key} (hk : ∀ p, k = some p → p.kind = .profile) :
    Ends (announceOptional k) m (fun _ m' => Told (m.store.visible k.toList) m m') fun _ _ => False := by
  cases k with
  | none => exact Ends.pure (.nil m)
  | some k => exact announceProfile_ends (hk k rfl)

theorem announcePools_ends {ks : List Key} (hks : ∀ k ∈ ks, k.kind = .pool) :
    Ends (announcePools ks) m (fun _ m' => Told (m.store.visible ks) m m') fun _ _ => False := by
  induction ks generalizing m with
  | nil => exact Ends.pure (.nil m)
  | cons k ks ih =>
    refine Ends.bind (announcePool_ends (hks k (by simp))) fun _ m' h => ?_
    refine (ih (m := m') fun j hj => hks j (by simp [hj])).mono (fun _ m'' h' => ?_) fun _ _ hf => hf
    rw [h.store] at h'
    rw [← List.singleton_append, Store.visible_append]
    exact h.trans h'

end ManagerM

end SharedBuffer
