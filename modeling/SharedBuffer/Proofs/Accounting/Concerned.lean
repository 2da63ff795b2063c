/-
The pools that a change concerns.

An evaluation derives new figures for a few pools only: those of the profiles a consumer leaves and joins, of the
profile that changes, or the pool itself. Every other pool would come out as it stands.

Results:
- `exists_affectedPools`: for a change of objects that are there, these pools are found, and they are there;
- `totals_unconcerned`: any other pool would keep its figures;
- `plan_ok`, `plan_error`: a plan is the figures of these pools, or the refusal of one of them.
-/
import SharedBuffer.Proofs.Accounting.WhatIf

namespace SharedBuffer

theorem mem_dedupRuns {α : Type} [DecidableEq α] {a : α} {l : List α} : a ∈ dedupRuns l ↔ a ∈ l := by
  induction l with
  | nil => rfl
  | cons b l ih =>
    rw [dedupRuns]
    split
    · rename_i h
      rw [ih, List.mem_cons]
      constructor
      · exact .inr
      · rintro (rfl | h')
        · exact List.mem_of_head? h
        · exact h'
    · rw [List.mem_cons, List.mem_cons, ih]

namespace Accounting

variable {hw : Hardware} {s : Store Record} {c : Change} {figures : List (Key × Totals)} {e : Fault}

theorem bind_ok {α β : Type} {x : Except Fault α} {f : α → Except Fault β} {b : β} (h : x >>= f = .ok b) :
    ∃ a, x = .ok a ∧ f a = .ok b := by
  cases x with
  | error e => cases h
  | ok a => exact ⟨a, rfl, h⟩

/-- only pools have figures -/
theorem exists_pool_of_totals {k : Key} {t : Totals} (h : totals hw s c k = .ok t) : ∃ p, s.pool? k = some p := by
  obtain ⟨_, hsize, -⟩ := bind_ok h
  obtain ⟨p, hp, -⟩ := bind_ok hsize
  obtain ⟨r, hr, hp⟩ := bind_ok hp
  unfold Store.require Store.get at hr
  cases hg : s.get? k with
  | none => rw [hg] at hr; cases hr
  | some r' =>
    rw [hg] at hr
    cases hr
    cases r
    case pool q => exact ⟨q, Store.pool?_eq_some.2 hg⟩
    all_goals cases hp

/-- planned figures are those of the pools a change concerns -/
theorem plan_ok (h : plan hw s c = .ok figures) :
    affectedPools s c = .ok (figures.map Prod.fst) ∧ ∀ k t, (k, t) ∈ figures → totals hw s c k = .ok t := by
  obtain ⟨ks, hks, h⟩ := bind_ok h
  have hall : ∀ (ks : List Key) (figures : List (Key × Totals)),
      ks.mapM (fun k => do Except.ok (k, ← totals hw s c k)) = .ok figures →
      figures.map Prod.fst = ks ∧ ∀ k t, (k, t) ∈ figures → totals hw s c k = .ok t := by
    intro ks
    induction ks with
    | nil =>
      intro figures h
      cases h
      simp
    | cons k ks ih =>
      intro figures h
      rw [List.mapM_cons] at h
      obtain ⟨⟨k', t⟩, hk, h⟩ := bind_ok h
      obtain ⟨t', ht, hk⟩ := bind_ok hk
      cases hk
      obtain ⟨rest, hrest, h⟩ := bind_ok h
      cases h
      obtain ⟨rfl, hr⟩ := ih rest hrest
      refine ⟨rfl, fun j u hj => ?_⟩
      rcases List.mem_cons.1 hj with hj | hj
      · cases hj
        exact ht
      · exact hr j u hj
  obtain ⟨hfst, ht⟩ := hall ks figures h
  exact ⟨hfst ▸ hks, ht⟩

/-- a refused plan is the refusal of a pool, if the pools are found -/
theorem plan_error {ks : List Key} (h : plan hw s c = .error e) (hks : affectedPools s c = .ok ks) :
    ∃ k ∈ ks, totals hw s c k = .error e := by
  unfold plan at h
  rw [hks] at h
  change ks.mapM (fun k => do Except.ok (k, ← totals hw s c k)) = .error e at h
  clear hks
  induction ks with
  | nil => cases h
  | cons k ks ih =>
    rw [List.mapM_cons] at h
    cases ht : totals hw s c k with
    | error e' =>
      rw [ht] at h
      cases h
      exact ⟨k, by simp, ht⟩
    | ok t =>
      rw [ht] at h
      change (ks.mapM (fun k => do Except.ok (k, ← totals hw s c k)) >>= fun rest =>
        Except.ok ((k, t) :: rest)) = .error e at h
      cases hr : ks.mapM (fun k => do Except.ok (k, ← totals hw s c k)) with
      | error e' =>
        rw [hr] at h
        cases h
        obtain ⟨j, hj, he⟩ := ih hr
        exact ⟨j, List.mem_cons_of_mem _ hj, he⟩
      | ok figures =>
        rw [hr] at h
        cases h

/-- the pool of a profile, if one is named -/
def poolOfOption (s : Store Record) : Option Key → Except Fault (List Key)
  | some profile => do .ok [← poolOf s profile]
  | none => .ok []

theorem affectedPools_bind (consumer : Key) (target : Option Key) :
    affectedPools s (.bind consumer target) = (do
      let r ← s.require consumer
      let current ← poolOfOption s r.boundProfile?
      let joined ← poolOfOption s target
      Except.ok (dedupRuns (current ++ joined))) := by
  unfold affectedPools poolOfOption
  dsimp only
  cases s.require consumer with
  | error e => rfl
  | ok r =>
    simp only [bind, Except.bind]
    cases r.boundProfile? with
    | none =>
      cases target with
      | none => rfl
      | some p => simp only; cases poolOf s p <;> rfl
    | some b =>
      simp only
      cases poolOf s b with
      | error e => rfl
      | ok o =>
        cases target with
        | none => rfl
        | some p => simp only; cases poolOf s p <;> rfl

end Accounting

namespace Wired

open Accounting

variable {hw : Hardware} {s : Store Record} {L : Layout} {c : Change} {k o : Key} {ks : List Key}

theorem mem_of_poolOf (w : Wired hw s L none) (h : Accounting.poolOf s k = .ok o) : k ∈ L .poolProfiles o := by
  unfold Accounting.poolOf at h
  obtain ⟨r, hr, h⟩ := bind_ok h
  have hg := Store.get?_of_require hr
  cases r
  case profile p =>
    refine (w.mem_poolProfiles_iff (Store.profile?_eq_some.2 hg)).2 ?_
    change (match p.pool? with
      | some pool => Except.ok pool
      | none => _) = Except.ok o at h
    cases hp : p.pool? with
    | none =>
      rw [hp] at h
      cases h
    | some o' =>
      rw [hp] at h
      cases h
      rfl
  all_goals cases h

/-- the pools of the profiles and the pools that a change is about -/
def Covers (c : Change) (L : Layout) (ks : List Key) : Prop :=
  match c with
  | .bind consumer target =>
    ∀ p, consumer ∈ L .profileConsumers p ∨ target = some p → ∃ o ∈ ks, p ∈ L .poolProfiles o
  | .profileSize p _ | .profileHeadroom p _ _ => ∃ o ∈ ks, p ∈ L .poolProfiles o
  | .profilePool p pool => (∃ o ∈ ks, p ∈ L .poolProfiles o) ∧ pool ∈ ks
  | .poolSize pool _ | .recompute pool => pool ∈ ks

theorem covers_affectedPools (w : Wired hw s L none) (h : affectedPools s c = .ok ks) : Covers c L ks := by
  have hone : ∀ {p o pools}, Accounting.poolOf s p = .ok o → o ∈ pools → ∃ o ∈ dedupRuns pools, p ∈ L .poolProfiles o :=
    fun {p o _} hpo ho => ⟨o, mem_dedupRuns.2 ho, w.mem_of_poolOf hpo⟩
  cases c with
  | bind consumer target =>
    rw [affectedPools_bind] at h
    obtain ⟨r, hr, h⟩ := bind_ok h
    obtain ⟨current, hcur, h⟩ := bind_ok h
    obtain ⟨joined, hj, h⟩ := bind_ok h
    cases h
    rintro p (hp | rfl)
    · have hown := w.linked.ownerOf?_eq_some.2 hp
      unfold Store.ownerOf? at hown
      unfold Store.require Store.get at hr
      cases hg : s.get? consumer with
      | none => simp [hg] at hown
      | some r' =>
        rw [hg] at hr
        cases hr
        rw [hg, Option.bind_some] at hown
        rw [Record.boundProfile?, hown] at hcur
        obtain ⟨o, ho, hcur⟩ := bind_ok hcur
        cases hcur
        exact hone ho (by simp)
    · obtain ⟨o, ho, hj⟩ := bind_ok hj
      cases hj
      exact hone ho (by simp)
  | profileSize p size | profileHeadroom p xoff xon =>
    obtain ⟨o, ho, h⟩ := bind_ok h
    cases h
    exact hone ho (by simp)
  | profilePool p pool =>
    obtain ⟨o, ho, h⟩ := bind_ok h
    cases h
    exact ⟨hone ho (by simp), mem_dedupRuns.2 (by simp)⟩
  | poolSize pool size | recompute pool =>
    cases h
    exact mem_dedupRuns.2 (by simp)

/-- a pool whose figures depend on a change -/
def DrawsOn (s : Store Record) (k : Key) : Change → Prop
  | .bind consumer target => ∃ p, (s.ownerOf? .profileConsumers consumer = some p ∨ target = some p) ∧
      s.ownerOf? .poolProfiles p = some k
  | .profileSize p _ | .profileHeadroom p _ _ => s.ownerOf? .poolProfiles p = some k
  | .profilePool p pool => s.ownerOf? .poolProfiles p = some k ∨ pool = k
  | .poolSize pool _ | .recompute pool => pool = k

/-- no other pools are found -/
theorem drawsOn_of_mem (w : Wired hw s L none) (h : affectedPools s c = .ok ks) (hk : k ∈ ks) : DrawsOn s k c := by
  have hone : ∀ {p o}, Accounting.poolOf s p = .ok o → s.ownerOf? .poolProfiles p = some o := fun hpo =>
    w.linked.ownerOf?_eq_some.2 (w.mem_of_poolOf hpo)
  have hoption : ∀ {target pools}, poolOfOption s target = .ok pools → k ∈ pools →
      ∃ p, target = some p ∧ s.ownerOf? .poolProfiles p = some k := by
    intro target pools hpools hk
    cases target with
    | none =>
      cases hpools
      cases hk
    | some p =>
      obtain ⟨o, ho, hpools⟩ := bind_ok hpools
      cases hpools
      obtain rfl := List.mem_singleton.1 hk
      exact ⟨p, rfl, hone ho⟩
  cases c with
  | bind consumer target =>
    rw [affectedPools_bind] at h
    obtain ⟨r, hr, h⟩ := bind_ok h
    obtain ⟨current, hcur, h⟩ := bind_ok h
    obtain ⟨joined, hj, h⟩ := bind_ok h
    cases h
    rcases List.mem_append.1 (mem_dedupRuns.1 hk) with hk | hk
    · obtain ⟨p, hp, ho⟩ := hoption hcur hk
      refine ⟨p, .inl ?_, ho⟩
      rw [Store.ownerOf?, Store.get?_of_require hr]
      exact hp
    · obtain ⟨p, hp, ho⟩ := hoption hj hk
      exact ⟨p, .inr hp, ho⟩
  | profileSize p size | profileHeadroom p xoff xon =>
    obtain ⟨o, ho, h⟩ := bind_ok h
    cases h
    obtain rfl := List.mem_singleton.1 (mem_dedupRuns.1 hk)
    exact hone ho
  | profilePool p pool =>
    obtain ⟨o, ho, h⟩ := bind_ok h
    cases h
    rcases List.mem_pair.1 (mem_dedupRuns.1 hk) with rfl | rfl
    · exact .inl (hone ho)
    · exact .inr rfl
  | poolSize pool size | recompute pool =>
    cases h
    exact (List.mem_singleton.1 (mem_dedupRuns.1 hk)).symm

/-- **The pools that a change concerns are found**, if its consumer is counted where it is. -/
theorem exists_affectedPools (w : Wired hw s L none) (hb : c.Buildable s) (hn : c.Countable s) :
    ∃ ks, affectedPools s c = .ok ks ∧ ∀ k ∈ ks, s.contains k = true ∧ k.kind = .pool := by
  have hone : ∀ {p}, s.contains p = true ∧ p.kind = .profile →
      ∃ o, Accounting.poolOf s p = .ok o ∧ s.contains o = true ∧ o.kind = .pool := by
    rintro p ⟨hc, hk⟩
    obtain ⟨o, ho, -, hlive⟩ := w.exists_poolOf hc hk
    exact ⟨o, ho, hlive⟩
  have hopt : ∀ target : Option Key, (∀ p, target = some p → s.contains p = true ∧ p.kind = .profile) →
      ∃ ks, poolOfOption s target = .ok ks ∧ ∀ k ∈ ks, s.contains k = true ∧ k.kind = .pool := by
    intro target htarget
    cases target with
    | none => exact ⟨[], rfl, by simp⟩
    | some p =>
      obtain ⟨o, ho, hlive⟩ := hone (htarget p rfl)
      exact ⟨[o], by simp only [poolOfOption, ho, bind, Except.bind], by simpa using hlive⟩
  cases c with
  | bind consumer target =>
    obtain ⟨⟨hc, hk⟩, htarget⟩ := hb
    obtain ⟨r, hr⟩ := Store.contains_iff.1 hc
    obtain ⟨ks, hks, hlive⟩ := hopt r.boundProfile? fun p hp => by
      have hm := w.linked.ownerOf?_eq_some.1 (by rw [Store.ownerOf?, hr]; exact hp)
      exact ⟨(w.bound_of_counted hn hm).1, (w.bound_of_counted hn hm).2.1⟩
    obtain ⟨ks', hks', hlive'⟩ := hopt target htarget
    refine ⟨dedupRuns (ks ++ ks'), ?_, fun k hk => ?_⟩
    · rw [affectedPools_bind]
      simp only [Store.require, Store.get, hr, Except.mapError, bind, Except.bind, hks, hks']
    · rcases List.mem_append.1 (mem_dedupRuns.1 hk) with hk | hk
      · exact hlive k hk
      · exact hlive' k hk
  | profileSize p size | profileHeadroom p xoff xon =>
    obtain ⟨o, ho, hlive⟩ := hone hb
    refine ⟨[o], ?_, by simpa using hlive⟩
    simp only [affectedPools, ho, bind, Except.bind, pure, Except.pure]
    rfl
  | profilePool p pool =>
    obtain ⟨o, ho, hlive⟩ := hone hb.1
    refine ⟨dedupRuns [o, pool], ?_, fun k hk => ?_⟩
    · simp only [affectedPools, ho, bind, Except.bind, pure, Except.pure]
    · rcases List.mem_cons.1 (mem_dedupRuns.1 hk) with rfl | hk
      · exact hlive
      · rw [List.mem_singleton.1 hk]
        exact hb.2
  | poolSize pool size | recompute pool =>
    exact ⟨[pool], rfl, fun k hk => by rw [List.mem_singleton.1 hk]; exact hb⟩

/-- a plan passes where every pool can hold what the change gives it to hold -/
theorem exists_plan (w : Wired hw s L none) (hb : c.Buildable s) (hn : c.Countable s)
    (h : ∀ k p, s.pool? k = some p →
      ∃ tot, figure hw k (c.resize k p).size p.direction (s.holdings c L k) = .ok tot) :
    ∃ figures, plan hw s c = .ok figures := by
  cases hplan : plan hw s c with
  | ok figures => exact ⟨figures, rfl⟩
  | error e =>
    obtain ⟨ks, hks, hlive⟩ := w.exists_affectedPools hb hn
    obtain ⟨k, hk, herror⟩ := plan_error hplan hks
    obtain ⟨p, hp⟩ := w.exists_pool (hlive k hk).1 (hlive k hk).2
    obtain ⟨tot, htot⟩ := h k p hp
    rw [w.totals_eq hb hw hp, htot] at herror
    cases herror

/-- **A pool that a change does not concern would keep its figures.** -/
theorem totals_unconcerned (w : Wired hw s L none) (hb : c.Buildable s) (hcov : Covers c L ks) (hk : k ∉ ks)
    (hlive : s.contains k = true ∧ k.kind = .pool) (hw' : Hardware) :
    totals hw' s c k = totals hw' s (.recompute k) k := by
  obtain ⟨p, hp⟩ := w.exists_pool hlive.1 hlive.2
  have hfar : ∀ {q}, (∃ o ∈ ks, q ∈ L .poolProfiles o) → q ∉ L .poolProfiles k := by
    rintro q ⟨o, ho, hq⟩ hqk
    exact hk (w.linked.owner_unique hq hqk ▸ ho)
  have hsize : (c.resize k p).size = p.size := by
    cases c
    case poolSize changed size =>
      have hne : changed ≠ k := fun e => hk (e ▸ hcov)
      simp only [Change.resize, if_neg hne]
    all_goals rfl
  have hlist : c.relayout L .poolProfiles k = L .poolProfiles k := by
    cases c
    case profilePool q pool =>
      have hpool : pool ≠ k := fun e => hk (e ▸ hcov.2)
      simp only [Change.relayout, Change.relist, if_neg hpool, List.append_nil]
      exact Layout.filter_ne_of_not_mem (hfar hcov.1)
    all_goals rfl
  have hhold : ∀ q ∈ L .poolProfiles k, s.holding c L q = s.holding (.recompute k) L q := by
    intro q hq
    have hcharge : ∀ r : Profile, c.recharge q r = r := by
      intro r
      cases c
      case profileSize changed size => exact if_neg fun e : changed = q => hfar hcov (e ▸ hq)
      case profileHeadroom changed xoff xon => exact if_neg fun e : changed = q => hfar hcov (e ▸ hq)
      all_goals rfl
    have hcons : c.relayout L .profileConsumers q = L .profileConsumers q := by
      cases c
      case bind consumer target =>
        have htarget : target ≠ some q := fun e => hfar (hcov q (.inr e)) hq
        simp only [Change.relayout, Change.relist, if_neg htarget, List.append_nil]
        exact Layout.filter_ne_of_not_mem fun hm => hfar (hcov q (.inl hm)) hq
      all_goals rfl
    unfold Store.holding
    cases s.profile? q with
    | none => rfl
    | some r =>
      simp only [hcharge, hcons]
      rfl
  rw [w.totals_eq hb hw' hp, w.totals_eq (c := .recompute k) hlive hw' hp, hsize]
  have hholds : s.holdings c L k = s.holdings (.recompute k) L k := by
    unfold Store.holdings
    rw [hlist]
    exact List.map_congr_left hhold
  rw [hholds]
  rfl

end Wired

end SharedBuffer
