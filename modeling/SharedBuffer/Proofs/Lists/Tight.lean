/-
Profiles that count their consumers exactly.

A reference count has 32 bits and stops at its largest value, and a list's length has 32 bits too. A profile with fewer
consumers than that counts them exactly, and cannot be removed while it has any: `Tight`. Other than for the counts of
pools, which index spaces keep small enough, this holds only as long as no profile gets more consumers than can be
counted (`Fits`).

Results: `Tight.relink`, `Tight.insert`, `Tight.retire` and `Tight.congr`, one for each way in which a store changes.
Where bindings and profiles only go, exact counts bound the lists themselves: `Tight.fits`.
-/
import SharedBuffer.Proofs.Lists.Relink

namespace SharedBuffer

/-- the profile that a consumer is bound to is gone, or has lost count of its consumers -/
def Store.Uncounted (s : Store Record) (consumer : Key) : Prop :=
  ∃ profile, s.ownerOf? .profileConsumers consumer = some profile ∧ s.refsAt profile = 0

/-- a free consumer is not lost count of -/
theorem Store.not_uncounted_of_free {s : Store Record} {x : Key} (h : s.ownerOf? .profileConsumers x = none) :
    ¬ s.Uncounted x := by
  rintro ⟨o, ho, -⟩
  cases h.symm.trans ho

theorem Store.refsAt_le (s : Store Record) (k : Key) : s.refsAt k ≤ maxRefs := by
  unfold refsAt
  cases s.get? k with
  | none => exact Nat.zero_le _
  | some r => exact Nat.le_pred_of_lt r.refCount.toNat_lt

/-- a consumer that is counted where it is bound is bound to a live profile -/
theorem Wired.bound_of_counted {hw : Hardware} {s : Store Record} {L : Layout} {out : Option Key} {m o : Key}
    (w : Wired hw s L out) (h : ¬ s.Uncounted m) (hm : m ∈ L .profileConsumers o) :
    s.contains o = true ∧ o.kind = .profile ∧ s.refsAt o ≠ 0 := by
  have hne : s.refsAt o ≠ 0 := fun hz => h ⟨o, w.linked.ownerOf?_eq_some.2 hm, hz⟩
  refine ⟨?_, (w.owners _ o m hm).2, hne⟩
  by_contra hc
  exact hne (by rw [Store.refsAt, Store.get?_eq_none (Bool.eq_false_iff.2 hc)]; rfl)

/-- no profile has more consumers than can be counted -/
def Fits (s : Store Record) (L : Layout) : Prop :=
  ∀ k, s.contains k = true → k.kind = .profile → (L .profileConsumers k).length < UInt32.size

/-- profiles count their consumers exactly, and consumers are bound to profiles that are there -/
structure Tight (s : Store Record) (L : Layout) : Prop where
  counted : ∀ k, s.contains k = true → k.kind = .profile → s.refsAt k = (L .profileConsumers k).length
  live : ∀ o m, m ∈ L .profileConsumers o → s.contains o = true ∧ o.kind = .profile

namespace Tight

variable {hw : Hardware} {s t : Store Record} {L L' : Layout} {k m o : Key}

/-- a profile that a consumer is bound to is there, and its count is not used up -/
theorem refs_ne_zero (h : Tight s L) (hm : m ∈ L .profileConsumers o) :
    s.contains o = true ∧ o.kind = .profile ∧ s.refsAt o ≠ 0 := by
  obtain ⟨hc, hk⟩ := h.live o m hm
  refine ⟨hc, hk, ?_⟩
  rw [h.counted o hc hk]
  exact (List.length_pos_of_mem hm).ne'

/-- where counts are exact, no consumer is lost count of -/
theorem not_uncounted (h : Tight s L) (w : Wired hw s L none) : ¬ s.Uncounted m := by
  rintro ⟨o, ho, hzero⟩
  exact (h.refs_ne_zero (w.linked.ownerOf?_eq_some.1 ho)).2.2 hzero

/-- where bindings and profiles only go, no profile gets too many consumers -/
theorem fits (h : Tight s L) (w : Wired hw s L none) (w' : Wired hw t L' none)
    (hc : ∀ k, t.contains k = true → s.contains k = true)
    (ho : ∀ x o, t.ownerOf? .profileConsumers x = some o → s.ownerOf? .profileConsumers x = some o) : Fits t L' := by
  intro k hk hp
  have hsub : L' .profileConsumers k ⊆ L .profileConsumers k := fun x hx =>
    w.linked.ownerOf?_eq_some.1 (ho x k (w'.linked.ownerOf?_eq_some.2 hx))
  calc (L' .profileConsumers k).length ≤ (L .profileConsumers k).length :=
        ((w'.linked.nodup .profileConsumers k).subperm hsub).length_le
    _ = s.refsAt k := (h.counted k (hc k hk) hp).symm
    _ < UInt32.size := (s.refsAt_le k).trans_lt (by decide)

/-- nothing changes for profiles -/
theorem congr (h : Tight s L) (hc : ∀ k, k.kind = .profile → t.contains k = s.contains k)
    (hr : ∀ k, k.kind = .profile → t.refsAt k = s.refsAt k)
    (hL : ∀ k, L' .profileConsumers k = L .profileConsumers k) : Tight t L' := by
  refine ⟨fun k hk hp => ?_, fun o m hm => ?_⟩
  · rw [hr k hp, hL, h.counted k (hc k hp ▸ hk) hp]
  · rw [hL] at hm
    obtain ⟨ho, hp⟩ := h.live o m hm
    exact ⟨by rwa [hc o hp], hp⟩

/-- a consumer changes its profile -/
theorem relink (h : Tight s L) (w : Wired hw s L none) {target : Option Key}
    (htarget : ∀ p, target = some p → s.contains p = true ∧ p.kind = .profile)
    (hc : ∀ k, t.contains k = s.contains k)
    (hr : ∀ k, t.refsAt k = if target = some k then
      min ((if m ∈ L .profileConsumers k then s.refsAt k - 1 else s.refsAt k) + 1) maxRefs
      else if m ∈ L .profileConsumers k then s.refsAt k - 1 else s.refsAt k)
    (hfit : Fits t (L.relink .profileConsumers m target)) : Tight t (L.relink .profileConsumers m target) := by
  have hlen : ∀ k, ((L .profileConsumers k).filter fun x => x ≠ m).length =
      if m ∈ L .profileConsumers k then (L .profileConsumers k).length - 1 else (L .profileConsumers k).length := by
    intro k
    by_cases hm : m ∈ L .profileConsumers k
    · obtain ⟨pre, post, hs⟩ := List.append_of_mem hm
      rw [if_pos hm, hs, Linked.filter_ne_eq (hs ▸ w.linked.nodup _ k)]
      simp only [List.length_append, List.length_cons]
      omega
    · rw [if_neg hm, Layout.filter_ne_of_not_mem hm]
  refine ⟨fun k hk hp => ?_, fun o x hx => ?_⟩
  · have hk' : s.contains k = true := hc k ▸ hk
    have hbound := hfit k hk hp
    simp only [Layout.relink, if_true, List.length_append, hlen] at hbound ⊢
    rw [hr, h.counted k hk' hp]
    simp only [maxRefs]
    by_cases ht : target = some k
    · simp only [ht, if_true, List.length_singleton] at hbound ⊢
      split at hbound <;> rename_i hm <;> simp only [hm, if_true, if_false] <;> omega
    · simp only [ht, if_false, List.length_nil]
      omega
  · rw [hc]
    simp only [Layout.relink, if_true] at hx
    rcases List.mem_append.1 hx with hx | hx
    · exact h.live o x (List.mem_of_mem_filter hx)
    · split at hx
      · rename_i ht
        exact htarget o ht
      · simp at hx

/-- a new record that is no profile, or a profile without consumers -/
theorem insert (h : Tight s L) (w : Wired hw s L none) {kind : ObjectKind} {r : Record}
    (hi : Store.Inserted s t kind k r) (hr : r.refCount = 0) : Tight t L := by
  refine ⟨fun j hj hp => ?_, fun o m hm => ?_⟩
  · by_cases hjk : j = k
    · subst hjk
      have hempty : L .profileConsumers j = [] :=
        List.eq_nil_iff_forall_not_mem.2 fun m hm => hi.new (w.owners _ j m hm).1
      rw [hempty, Store.refsAt, hi.get, if_pos rfl]
      simp [hr]
    · rw [Store.refsAt, hi.get, if_neg hjk]
      exact h.counted j (by simpa [hi.contains, hjk] using hj) hp
  · obtain ⟨ho, hp⟩ := h.live o m hm
    exact ⟨by simp [hi.contains, ho], hp⟩

/-- a record without references goes -/
theorem retire (h : Tight s L) (hret : Store.Retired s t k) (hk : s.contains k = true) (hzero : s.refsAt k = 0) :
    Tight t L := by
  refine ⟨fun j hj hp => ?_, fun o m hm => ?_⟩
  · obtain ⟨hjk, hj⟩ : j ≠ k ∧ s.contains j = true := by simpa [hret.contains] using hj
    rw [Store.refsAt, hret.get, if_neg hjk]
    exact h.counted j hj hp
  · obtain ⟨ho, hp⟩ := h.live o m hm
    have hne : o ≠ k := by
      rintro rfl
      have := h.counted o ho hp
      rw [hzero, eq_comm, List.length_eq_zero_iff] at this
      rw [this] at hm
      simp at hm
    exact ⟨by simp [hret.contains, hne, ho], hp⟩

theorem empty : Tight {} (fun _ _ => []) := by
  refine ⟨fun k hk => ?_, fun o m hm => ?_⟩
  · have : ({} : Store Record).contains k = false := rfl
    rw [this] at hk
    cases hk
  · simp at hm

end Tight

end SharedBuffer
