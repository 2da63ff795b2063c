/-
A batch of bindings.

Free consumers that are bound one after the other come to the end of the lists of their profiles, in the order of the
batch (`Layout.bindings`), and are counted there until a count is used up. Nothing else tells the order: what profiles
hold, and with it the figures of pools, is a matter of who is bound to what. On the way profiles only come to hold more,
so what fits at the end of a batch fits at every step of it, whichever way it is ordered.

Results: `Store.Admitted.step`, `Store.Admitted.exists_plan` and `Store.Admitted.agrees`.
-/
import SharedBuffer.Proofs.Accounting.Rebinding

namespace SharedBuffer

open Accounting

/-! ## Lists -/

/-- the consumers that a batch brings to a profile -/
def Layout.boundTo (bs : List (Key × Option Key)) (o : Key) : List Key :=
  (bs.filter fun b => b.2 = some o).map Prod.fst

/-- the layout with a batch of bindings -/
def Layout.bindings (L : Layout) (bs : List (Key × Option Key)) : Layout :=
  fun R o => L R o ++ if R = .profileConsumers then boundTo bs o else []

namespace Layout

variable {L : Layout} {R : Roster} {bs bs' : List (Key × Option Key)} {x o : Key} {target : Option Key}

theorem bindings_nil (L : Layout) : L.bindings [] = L := by
  funext R o
  simp [bindings, boundTo]

theorem bindings_of_ne (hR : R ≠ .profileConsumers) : L.bindings bs R o = L R o := by
  rw [bindings, if_neg hR, List.append_nil]

theorem bindings_consumers : L.bindings bs .profileConsumers o = L .profileConsumers o ++ boundTo bs o := by
  rw [bindings, if_pos rfl]

theorem boundTo_append : boundTo (bs ++ [(x, target)]) o = boundTo bs o ++ if target = some o then [x] else [] := by
  by_cases ho : target = some o <;> simp [boundTo, List.filter_append, ho]

/-- a consumer that is bound to nothing is in no list afterwards either -/
theorem bindings_idle : L.bindings (bs ++ [(x, none)]) = L.bindings bs := by
  funext R o
  simp [bindings, boundTo_append]

/-- one more binding comes behind the batch -/
theorem relink_bindings (h : ∀ o, x ∉ L.bindings bs .profileConsumers o) :
    (L.bindings bs).relink .profileConsumers x target = L.bindings (bs ++ [(x, target)]) := by
  funext R o
  by_cases hR : R = .profileConsumers
  · subst hR
    rw [relink, if_pos rfl, filter_ne_of_not_mem (h o), bindings_consumers, bindings_consumers, boundTo_append,
      List.append_assoc]
  · rw [relink, if_neg hR, bindings_of_ne hR, bindings_of_ne hR]

theorem boundTo_perm (h : bs.Perm bs') (o : Key) : (boundTo bs o).Perm (boundTo bs' o) := (h.filter _).map _

theorem boundTo_subset (h : bs ⊆ bs') (o : Key) : boundTo bs o ⊆ boundTo bs' o := List.map_subset _ (List.filter_subset _ h)

theorem bindings_subset (h : bs ⊆ bs') (o : Key) :
    L.bindings bs .profileConsumers o ⊆ L.bindings bs' .profileConsumers o := by
  rw [bindings_consumers, bindings_consumers]
  refine List.append_subset.2 ⟨List.subset_append_left _ _, ?_⟩
  exact List.subset_append_of_subset_right _ (boundTo_subset h o)

end Layout

/-! ## Holdings -/

section

variable {hw : Hardware} {s t u : Store Record} {L L' : Layout} {k x : Key} {target : Option Key}

/-- the profiles of a pool hold no less where they have the consumers that they had, and maybe others -/
theorem Store.Rebound.lighter (h : s.Rebound t) (hlive : ∀ j ∈ L .poolProfiles k, ∃ p, s.profile? j = some p)
    (hlist : L' .poolProfiles k = L .poolProfiles k)
    (hsub : ∀ o, L .profileConsumers o ⊆ L' .profileConsumers o) (slots : Nat) (direction : Direction) :
    Holding.Lighter slots direction (s.holdings (.recompute k) L k) (t.holdings (.recompute k) L' k) := by
  have hholds : t.holdings (.recompute k) L' k = (L .poolProfiles k).map (t.holding (.recompute k) L') :=
    congrArg (List.map _) hlist
  rw [hholds]
  refine .of_map fun j hj => ?_
  obtain ⟨p, hp⟩ := hlive j hj
  exact h.within hp (hsub j) k k

/-! ## Counts -/

/-- what is counted once a free consumer is bound -/
theorem Change.Outcome.refs_bind (h : (Change.bind x target).Outcome hw s t) (w : Wired hw s L none)
    (hb : (Change.bind x target).Buildable s) (hfree : s.ownerOf? .profileConsumers x = none) (k : Key) :
    t.refsAt k = if target = some k then min (s.refsAt k + 1) maxRefs else s.refsAt k := by
  obtain ⟨figures, u, -, hrun, rfl⟩ := h
  have hout := w.linked.ownerOf?_eq_none.1 hfree
  have hhome : x.kind.home? = some .profileConsumers → target ≠ none := by
    cases x.kind <;> intro hhome <;> cases hhome
  obtain ⟨u', hrun', -, -, hrefs⟩ := w.relink_run hb.1.1 hb.1.2 (fun o hm => absurd hm (hout o)) hb.2 hhome
  obtain rfl : u = u' := congrArg Prod.snd (hrun.symm.trans hrun')
  rw [Store.refsAt_written, hrefs]
  simp only [hout, if_false]

/-! ## Batches -/

/-- a batch of free consumers has been bound: they are in the lists and in the counts, and every pool holds them -/
structure Store.Admitted (hw : Hardware) (s : Store Record) (L : Layout) (bs : List (Key × Option Key))
    (t : Store Record) : Prop where
  sound : Sound hw t (L.bindings bs)
  rebound : s.Rebound t
  refs : ∀ k, t.refsAt k = min (s.refsAt k + (Layout.boundTo bs k).length) maxRefs

/-- two stores that agree on all but the order in which profiles list their consumers -/
structure Store.Agrees (s t : Store Record) : Prop where
  core : ∀ k, t.coreAt k = s.coreAt k
  pools : ∀ k p, s.pool? k = some p → ∃ p', t.pool? k = some p' ∧ p'.size = p.size ∧ p'.totals = p.totals
  bindings : ∀ x, t.ownerOf? .profileConsumers x = s.ownerOf? .profileConsumers x
  refs : ∀ k, t.refsAt k = s.refsAt k
  consumers : ∀ k, s.contains k = true → k.kind = .profile → ∃ xs ys,
    s.members .profileConsumers k = .ok xs ∧ t.members .profileConsumers k = .ok ys ∧ ys.Perm xs

namespace Store.Admitted

variable {bs bs' : List (Key × Option Key)}

theorem nil (h : Sound hw s L) : s.Admitted hw L [] s := by
  refine ⟨by rwa [Layout.bindings_nil], .refl s, fun k => ?_⟩
  exact (Nat.min_eq_left (s.refsAt_le k)).symm

/-- **One more free consumer is bound.** -/
theorem step (h : s.Admitted hw L bs t) (hb : (Change.bind x target).Buildable t)
    (hfree : t.ownerOf? .profileConsumers x = none) (hout : (Change.bind x target).Outcome hw t u) :
    s.Admitted hw L (bs ++ [(x, target)]) u := by
  have hapart := h.sound.wired.linked.ownerOf?_eq_none.1 hfree
  refine ⟨?sound, h.rebound.trans (hout.rebound h.sound hb), ?refs⟩
  case sound =>
    rw [← Layout.relink_bindings hapart, ← Change.relayout_bind]
    exact hout.sound h.sound hb
  case refs =>
    intro k
    rw [hout.refs_bind h.sound.wired hb hfree, h.refs, Layout.boundTo_append, List.length_append]
    split
    · simp only [List.length_singleton]
      omega
    · rfl

/-- a consumer that is to stay free makes no difference -/
theorem idle (h : s.Admitted hw L bs t) (x : Key) : s.Admitted hw L (bs ++ [(x, none)]) t := by
  refine ⟨by rw [Layout.bindings_idle]; exact h.sound, h.rebound, fun k => ?_⟩
  rw [Layout.boundTo_append, if_neg (by simp), List.append_nil, h.refs]

/-- a batch that brings no consumers but those of another gives no pool more to hold -/
theorem lighter {bs₁ : List (Key × Option Key)} (h : s.Admitted hw L bs t) (h' : s.Admitted hw L bs' u)
    (hsub : bs₁ ⊆ bs') (k : Key) (slots : Nat) (direction : Direction) :
    Holding.Lighter slots direction (t.holdings (.recompute k) (L.bindings bs₁) k)
      (u.holdings (.recompute k) (L.bindings bs') k) := by
  have hlists : ∀ cs : List (Key × Option Key), L.bindings cs .poolProfiles k = L .poolProfiles k := fun _ =>
    Layout.bindings_of_ne (by decide)
  refine (h.rebound.symm.trans h'.rebound).lighter (fun j hj => ?_) ?_ (Layout.bindings_subset hsub) slots direction
  · rw [hlists, ← hlists bs] at hj
    exact h.sound.wired.exists_profile_of_mem hj
  · rw [hlists, hlists]

/-- **What fits at the end of a batch fits on the way.** -/
theorem exists_plan (h : s.Admitted hw L bs t) (h' : s.Admitted hw L bs' u)
    (hb : (Change.bind x target).Buildable t) (hfree : t.ownerOf? .profileConsumers x = none)
    (hsub : bs ++ [(x, target)] ⊆ bs') : ∃ figures, plan hw t (.bind x target) = .ok figures := by
  have hapart := h.sound.wired.linked.ownerOf?_eq_none.1 hfree
  refine h.sound.wired.exists_plan hb (Store.not_uncounted_of_free hfree) fun k p hp => ?_
  obtain ⟨p', hp', hsize, hdir⟩ := (h.rebound.symm.trans h'.rebound).pool? hp
  have hfits := h'.sound.accounted.figure_eq h'.sound.wired hp'
  rw [hsize, hdir] at hfits
  refine exists_figure_of_lighter ?_ hfits
  rw [t.holdings_bind, Layout.relink_bindings hapart]
  exact h.lighter h' hsub k _ _

/-- **A batch comes to the same in any order.** -/
theorem agrees (h : s.Admitted hw L bs t) (h' : s.Admitted hw L bs' u) (hperm : bs'.Perm bs) : t.Agrees u := by
  have hrebound := h.rebound.symm.trans h'.rebound
  have hconsumers : ∀ o, (L.bindings bs' .profileConsumers o).Perm (L.bindings bs .profileConsumers o) := fun o => by
    rw [Layout.bindings_consumers, Layout.bindings_consumers]
    exact (Layout.boundTo_perm hperm o).append_left _
  refine ⟨hrebound.core, ?pools, ?bindings, ?refs, ?consumers⟩
  case pools =>
    intro k p hp
    obtain ⟨p', hp', hsize, hdir⟩ := hrebound.pool? hp
    have hbalance := h.sound.accounted.balances h.sound.wired hp
    have hbalance' := h'.sound.accounted.balances h'.sound.wired hp'
    rw [hsize, hdir] at hbalance'
    -- either holds no more than the other
    have hle := h.lighter h' hperm.symm.subset k hw.tileSlots p.direction
    have hge := h'.lighter h hperm.subset k hw.tileSlots p.direction
    exact ⟨p', hp', hsize, hbalance'.unique hbalance hge hle⟩
  case bindings =>
    intro x
    exact h.sound.wired.linked.ownerOf?_congr h'.sound.wired.linked fun o => (hconsumers o).mem_iff
  case refs =>
    intro k
    calc u.refsAt k = min (s.refsAt k + (Layout.boundTo bs' k).length) maxRefs := h'.refs k
      _ = min (s.refsAt k + (Layout.boundTo bs k).length) maxRefs := by rw [(Layout.boundTo_perm hperm k).length_eq]
      _ = t.refsAt k := (h.refs k).symm
  case consumers =>
    intro k hc hk
    have hc' : u.contains k = true := hrebound.contains.trans hc
    exact ⟨_, _, h.sound.wired.members_eq hc hk, h'.sound.wired.members_eq hc' hk, hconsumers k⟩

end Store.Admitted

end

end SharedBuffer
