/-
What a change makes of the contents of the records.

Apart from heads, links and counts, the structural part of a change rewrites one record at most, and writing figures
touches the figures of pools alone. Neither needs an invariant: a change that is made has made just this.

Results: `Change.bareAt_apply`, and for written figures `Store.get?_written`, `Store.profile?_written`,
`Store.regimeAt_written` and `Store.ownerOf?_written`.
-/
import SharedBuffer.Proofs.Accounting.Accounted
import SharedBuffer.Proofs.Lists.Steady

namespace SharedBuffer

namespace Change

variable {c : Change} {s t : Store Record} {k : Key}

theorem bare_rewrite (c : Change) (k : Key) (r : Record) : (c.rewrite k r).bare = c.rewrite k r.bare := by
  cases r
  case pool p =>
    cases c
    case poolSize changed size =>
      by_cases hk : changed = k <;> simp [rewrite, resize, Record.mapPool, Record.mapProfile, Record.bare, hk]
    all_goals rfl
  case profile p =>
    cases c
    case profileSize changed size =>
      by_cases hk : changed = k <;> simp [rewrite, recharge, Record.mapPool, Record.mapProfile, Record.bare, hk]
    case profileHeadroom changed xoff xon =>
      by_cases hk : changed = k <;> simp [rewrite, recharge, Record.mapPool, Record.mapProfile, Record.bare, hk]
    all_goals rfl
  all_goals rfl

/-- a change of one record's contents rewrites that record -/
theorem bareAt_apply_edit {j : Key} {f : Record → Record} (happly : c.apply = .ofStore (Store.modify j f))
    (hat : ∀ r, f r = c.rewrite j r) (hother : ∀ i r, i ≠ j → c.rewrite i r = r)
    (h : c.apply.run s = (.ok (), t)) : t.bareAt k = (s.bareAt k).map (c.rewrite k) := by
  rw [happly] at h
  obtain ⟨-, rfl⟩ := Store.of_ofStore_modify h
  unfold Store.bareAt
  rw [Store.get?_edit]
  by_cases hk : k = j
  · subst hk
    cases s.get? k <;> simp [hat, bare_rewrite]
  · cases s.get? k <;> simp [hk, hother k _ hk]

/-- a change that moves members from list to list rewrites nothing -/
theorem bareAt_apply_steady {x : LinkM Unit} (happly : c.apply = x) (hx : x.Steady) (hs : ∀ k p, c.resize k p = p)
    (hc : ∀ k p, c.recharge k p = p) (h : c.apply.run s = (.ok (), t)) :
    t.bareAt k = (s.bareAt k).map (c.rewrite k) := by
  have hbare := (hx s).2 k
  rw [← happly, h] at hbare
  rw [hbare, funext (rewrite_eq_self hs hc)]
  exact Option.map_id'.symm

/-- **A change that is made has rewritten the record it is about**, and no other. -/
theorem bareAt_apply (h : c.apply.run s = (.ok (), t)) : t.bareAt k = (s.bareAt k).map (c.rewrite k) := by
  cases c with
  | bind consumer target =>
    exact bareAt_apply_steady rfl (Store.steady_relink _ _ _) (fun _ _ => rfl) (fun _ _ => rfl) h
  | profilePool profile pool =>
    exact bareAt_apply_steady rfl (Store.steady_relink _ _ _) (fun _ _ => rfl) (fun _ _ => rfl) h
  | recompute pool =>
    exact bareAt_apply_steady rfl (LinkM.Steady.pure ()) (fun _ _ => rfl) (fun _ _ => rfl) h
  | profileSize profile size =>
    refine bareAt_apply_edit rfl (fun r => ?_) (fun i r hi => ?_) h
    · cases r <;> simp [rewrite, Record.mapPool, Record.mapProfile, resize, recharge]
    · cases r <;> simp [rewrite, Record.mapPool, Record.mapProfile, resize, recharge, Ne.symm hi]
  | profileHeadroom profile xoff xon =>
    refine bareAt_apply_edit rfl (fun r => ?_) (fun i r hi => ?_) h
    · cases r <;> simp [rewrite, Record.mapPool, Record.mapProfile, resize, recharge]
    · cases r <;> simp [rewrite, Record.mapPool, Record.mapProfile, resize, recharge, Ne.symm hi]
  | poolSize pool size =>
    refine bareAt_apply_edit rfl (fun r => ?_) (fun i r hi => ?_) h
    · cases r <;> simp [rewrite, Record.mapPool, Record.mapProfile, resize, recharge]
    · cases r <;> simp [rewrite, Record.mapPool, Record.mapProfile, resize, recharge, Ne.symm hi]

theorem contains_apply (h : c.apply.run s = (.ok (), t)) : t.contains k = s.contains k := by
  rw [Store.contains_eq_bareAt, Store.contains_eq_bareAt, bareAt_apply h, Option.isSome_map]

end Change

/-- the direction and the mode of a pool -/
def Pool.regime (p : Pool) : Direction × ThresholdMode := (p.direction, p.mode)

namespace Store

variable {s t : Store Record} {figures : List (Key × Totals)} {k : Key} {R : Roster}

/-- the direction and the mode of the pool under a key -/
def regimeAt (s : Store Record) (k : Key) : Option (Direction × ThresholdMode) := (s.pool? k).map Pool.regime

theorem regimeAt_eq (s : Store Record) (k : Key) :
    s.regimeAt k = ((s.coreAt k).bind Record.asPool?).map Pool.regime := by
  unfold regimeAt pool? coreAt
  rcases s.get? k with - | (_ | _ | _ | _ | _) <;> rfl

theorem regimeAt_congr (h : t.bareAt k = s.bareAt k) : t.regimeAt k = s.regimeAt k := by
  rw [regimeAt_eq, regimeAt_eq, coreAt_eq, coreAt_eq, h]

theorem bareAt_of_get? (h : t.get? k = s.get? k) : t.bareAt k = s.bareAt k := congrArg (Option.map Record.bare) h

/-- the record under a key that no figures are written for -/
theorem get?_written (s : Store Record) (h : k ∉ figures.map Prod.fst) : (s.written figures).get? k = s.get? k := by
  induction figures generalizing s with
  | nil => rfl
  | cons f figures ih =>
    rw [List.map_cons, List.mem_cons, not_or] at h
    obtain ⟨j, tot⟩ := f
    rw [written_cons, ih _ h.2, get?_edit, if_neg h.1]

/-- a record that is not of a pool takes no figures -/
theorem profile?_written (s : Store Record) (figures : List (Key × Totals)) (k : Key) :
    (s.written figures).profile? k = s.profile? k := by
  refine view_written (fun s => s.profile? k) (fun s j tot => ?_) s figures
  rw [profile?, profile?, get?_edit]
  split
  · rcases s.get? k with - | (_ | _ | _ | _ | _) <;> rfl
  · rfl

theorem linkAt_written (s : Store Record) (figures : List (Key × Totals)) (R : Roster) (k : Key) :
    (s.written figures).linkAt R k = s.linkAt R k :=
  view_written (fun s => s.linkAt R k) (fun _ _ tot => linkAt_edit fun r => (keepsWiring_withTotals tot).link r R) s figures

theorem headAt_written (s : Store Record) (figures : List (Key × Totals)) (R : Roster) (k : Key) :
    (s.written figures).headAt R k = s.headAt R k :=
  view_written (fun s => s.headAt R k) (fun _ _ tot => headAt_edit fun r => (keepsWiring_withTotals tot).head r R) s figures

theorem allocators_written (s : Store Record) (figures : List (Key × Totals)) :
    (s.written figures).allocators = s.allocators :=
  view_written (fun s => s.allocators) (fun _ _ _ => rfl) s figures

theorem written_append (s : Store Record) (figures figures' : List (Key × Totals)) :
    (s.written figures).written figures' = s.written (figures ++ figures') := List.foldl_append.symm

/-- the record under a key, with the figures that were written into it last -/
theorem exists_get?_written (s : Store Record) (figures : List (Key × Totals)) (k : Key) :
    ∃ tot, (s.written figures).get? k = (s.get? k).map (Record.mapPool (Pool.withTotals tot)) := by
  induction figures generalizing s with
  | nil =>
    -- a pool keeps its own figures, and no other record has any
    change ∃ tot, s.get? k = _
    rcases s.get? k with - | (p | _ | _ | _ | _)
    case some.pool => exact ⟨p.totals, rfl⟩
    all_goals exact ⟨⟨0, [], 0⟩, rfl⟩
  | cons f figures ih =>
    obtain ⟨j, tot'⟩ := f
    obtain ⟨tot, htot⟩ := ih (s.edit j (Record.mapPool (Pool.withTotals tot')))
    refine ⟨tot, ?_⟩
    rw [written_cons, htot, get?_edit]
    split
    · rcases s.get? k with - | (_ | _ | _ | _ | _) <;> rfl
    · rfl

theorem regimeAt_written (s : Store Record) (figures : List (Key × Totals)) (k : Key) :
    (s.written figures).regimeAt k = s.regimeAt k := by
  rw [regimeAt_eq, regimeAt_eq, (Change.applied_written k s figures).core, funext (Change.rewrite_recompute k k),
    Option.map_id']

theorem ownerOf?_written (s : Store Record) (figures : List (Key × Totals)) (R : Roster) (k : Key) :
    (s.written figures).ownerOf? R k = s.ownerOf? R k := by
  rw [ownerOf?_eq, ownerOf?_eq, linkAt_written]

theorem ownerOf?_of_get? {R : Roster} (h : t.get? k = s.get? k) : t.ownerOf? R k = s.ownerOf? R k :=
  congrArg (Option.bind · (Record.ownerIn? R)) h

/-- what is in a list once a record has gone was in it before -/
theorem Retired.ownerOf?_of_some {j o : Key} (h : Retired s t j) (ho : t.ownerOf? R k = some o) :
    s.ownerOf? R k = some o := by
  unfold ownerOf? at ho ⊢
  rw [h.get] at ho
  split at ho
  · cases ho
  · exact ho

/-- a record that goes was in no list of some kind: the members of those lists are where they were -/
theorem Retired.ownerOf?_eq {j : Key} (h : Retired s t j) (hfree : s.ownerOf? R j = none) :
    t.ownerOf? R k = s.ownerOf? R k := by
  by_cases hk : k = j
  · rw [hk, hfree, ownerOf?, h.get, if_pos rfl]
    rfl
  · exact ownerOf?_of_get? ((h.get k).trans (if_neg hk))

/-- what joins a list that is not of consumers leaves all consumers where they are -/
theorem binding_of_attach {o j : Key} (hR : Roster.profileConsumers ≠ R) (h : (attach R o j).run s = (.ok (), t)) :
    t.ownerOf? .profileConsumers k = s.ownerOf? .profileConsumers k := by
  have hkeep := Apart.attach (apart_ownerOf? fun e => hR e.1 :
    Apart (fun s => s.ownerOf? .profileConsumers k) R o j) s
  rw [h] at hkeep
  exact hkeep

/-- a profile that leaves its pool leaves all consumers where they are -/
theorem binding_of_detach {o j : Key} (h : (detach .poolProfiles o j).run s = (.ok (), t)) :
    t.ownerOf? .profileConsumers k = s.ownerOf? .profileConsumers k := by
  have hkeep := Apart.detach (apart_ownerOf? fun e => by cases e.1 :
    Apart (fun s => s.ownerOf? .profileConsumers k) .poolProfiles o j) s
  rw [h] at hkeep
  exact hkeep

/-- the pool that a profile names -/
theorem ownerOf?_of_profile? {p : Profile} (hp : s.profile? k = some p) : s.ownerOf? .poolProfiles k = p.pool? := by
  rw [ownerOf?, profile?_eq_some.1 hp]
  simp [Record.ownerIn?, Record.link?, Profile.pool?]

end Store

end SharedBuffer
