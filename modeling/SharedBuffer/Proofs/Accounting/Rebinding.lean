/-
A consumer that changes its profile, in one step or in two.

A binding changes nothing that figures are derived from but who is bound to what (`Store.Rebound`). Whether the plan of
a binding is refused depends on the pool that the consumer comes to draw from alone: to every other pool it can only
give back. That pool comes to hold the same whether the consumer was unbound before or not, and neither the lists nor
the figures that are written in the end tell how the consumer got there.

Results: `Sound.plan_bind_error_iff`, `Store.Rebound.totals_bind` and `Change.Outcome.eq_of_unbound`.
-/
import SharedBuffer.Proofs.Accounting.Outcome

namespace SharedBuffer

open Accounting

/-! ## Other bindings -/

/-- `t` is `s` with other bindings, and with the counts and the figures that go with them -/
structure Store.Rebound (s t : Store Record) : Prop where
  core : ∀ k, t.coreAt k = s.coreAt k
  owners : ∀ R x, R ≠ .profileConsumers → t.ownerOf? R x = s.ownerOf? R x

namespace Store.Rebound

variable {hw : Hardware} {s t u : Store Record} {L L' : Layout} {k x : Key}

theorem refl (s : Store Record) : s.Rebound s := ⟨fun _ => rfl, fun _ _ _ => rfl⟩

theorem symm (h : s.Rebound t) : t.Rebound s := ⟨fun k => (h.core k).symm, fun R x hR => (h.owners R x hR).symm⟩

theorem trans (h : s.Rebound t) (h' : t.Rebound u) : s.Rebound u :=
  ⟨fun k => (h'.core k).trans (h.core k), fun R x hR => (h'.owners R x hR).trans (h.owners R x hR)⟩

theorem contains (h : s.Rebound t) : t.contains k = s.contains k := by
  rw [Store.contains_eq_coreAt, Store.contains_eq_coreAt, h.core]

theorem pool? (h : s.Rebound t) {p : Pool} (hp : s.pool? k = some p) :
    ∃ p', t.pool? k = some p' ∧ p'.size = p.size ∧ p'.direction = p.direction :=
  Change.pool?_of_core (Wired.rewrite_of_coreAt (h.core k)) hp

theorem profile? (h : s.Rebound t) {p : Profile} (hp : s.profile? k = some p) :
    ∃ p', t.profile? k = some p' ∧ p'.size = p.size ∧ p'.headroom = p.headroom :=
  Change.profile?_of_core (Wired.rewrite_of_coreAt (h.core k)) hp

theorem tileOf (h : s.Rebound t) : t.tileOf k = s.tileOf k := by
  refine Store.tileOf_of_ports (fun o => Change.port?_of_core (Wired.rewrite_of_coreAt (h.core o))) fun R hR => ?_
  refine h.owners R k ?_
  rintro rfl
  cases hR

/-- a profile holds no less where it has the consumers that it had, and maybe others -/
theorem within (h : s.Rebound t) {p : Profile} (hp : s.profile? k = some p)
    (hsub : L .profileConsumers k ⊆ L' .profileConsumers k) (i j : Key) :
    (s.holding (.recompute i) L k).Within (t.holding (.recompute j) L' k) := by
  obtain ⟨p', hp', hsize, hhead⟩ := h.profile? hp
  simp only [Store.holding, hp, hp', Change.recharge]
  refine ⟨UInt64.le_of_eq hsize.symm, UInt64.le_of_eq hhead.symm, fun tile htile => ?_⟩
  obtain ⟨y, hy, rfl⟩ := List.mem_map.1 htile
  exact List.mem_map.2 ⟨y, hsub hy, h.tileOf⟩

/-- a profile holds what it held where it has the same consumers -/
theorem holding (h : s.Rebound t) {p : Profile} (hp : s.profile? k = some p) (L : Layout) (i j : Key) :
    t.holding (.recompute j) L k = s.holding (.recompute i) L k := by
  obtain ⟨p', hp', hsize, hhead⟩ := h.profile? hp
  simp only [Store.holding, hp, hp', Change.recharge, hsize, hhead, Holding.mk.injEq, true_and]
  exact List.map_congr_left fun y _ => h.tileOf

end Store.Rebound

section

variable {hw : Hardware} {s t u : Store Record} {L : Layout} {k x q o : Key} {target : Option Key}

/-- what a profile holds once a consumer is bound -/
theorem Store.holding_bind (s : Store Record) (L : Layout) (x : Key) (target : Option Key) (k j : Key) :
    s.holding (.bind x target) L k = s.holding (.recompute j) (L.relink .profileConsumers x target) k := by
  unfold Store.holding
  rw [Change.relayout_bind]
  rfl

/-- what the profiles of a pool hold once a consumer is bound -/
theorem Store.holdings_bind (s : Store Record) (L : Layout) (x : Key) (target : Option Key) (k : Key) :
    s.holdings (.bind x target) L k = s.holdings (.recompute k) (L.relink .profileConsumers x target) k := by
  unfold Store.holdings
  rw [Change.relayout_bind]
  exact List.map_congr_left fun j _ => s.holding_bind L x target j k

/-- **What a binding comes to** differs in bindings alone. -/
theorem Change.Outcome.rebound (h : (Change.bind x target).Outcome hw s t) (hs : Sound hw s L)
    (hb : (Change.bind x target).Buildable s) : s.Rebound t := by
  obtain ⟨w, happ⟩ := h.applied hs hb
  refine ⟨fun k => ?_, fun R y hR => ?_⟩
  · rw [happ.core, funext (rewrite_eq_self (fun _ _ => rfl) fun _ _ => rfl)]
    exact Option.map_id'
  · refine hs.wired.linked.ownerOf?_congr w.linked fun o => ?_
    rw [relayout_bind, Layout.relink, if_neg hR]

/-! ## The plan of a binding -/

/-- a pool that the consumer does not come to draw from is left as if the consumer were unbound -/
theorem Wired.totals_bind_elsewhere (w : Wired hw s L none) (hb : (Change.bind x (some q)).Buildable s) {p : Pool}
    (hp : s.pool? k = some p) (hq : q ∉ L .poolProfiles k) :
    totals hw s (.bind x (some q)) k = totals hw s (.bind x none) k := by
  have hholds : s.holdings (.bind x (some q)) L k = s.holdings (.bind x none) L k := by
    rw [s.holdings_bind, s.holdings_bind]
    refine List.map_congr_left fun j hj => ?_
    have hne : some q ≠ some j := fun e => hq (Option.some.inj e ▸ hj)
    simp [Store.holding, Change.relayout, Change.relist, Layout.relink, hne]
  rw [w.totals_eq hb hw hp, w.totals_eq hb.unbind hw hp, hholds]
  rfl

/-- **The plan of a binding is refused by the pool of the profile**, if at all. -/
theorem Sound.plan_bind_error_iff (hs : Sound hw s L) (hb : (Change.bind x (some q)).Buildable s)
    (hn : ¬ s.Uncounted x) (ho : s.ownerOf? .poolProfiles q = some o) {e : Fault} :
    plan hw s (.bind x (some q)) = .error e ↔ totals hw s (.bind x (some q)) o = .error e := by
  have hrefused : ∀ e, plan hw s (.bind x (some q)) = .error e → totals hw s (.bind x (some q)) o = .error e := by
    intro e hplan
    obtain ⟨ks, hks, hlive⟩ := hs.wired.exists_affectedPools hb hn
    obtain ⟨k, hk, he⟩ := plan_error hplan hks
    by_cases hko : k = o
    · rw [← hko, he]
    -- any other pool is given back to
    obtain ⟨p, hp⟩ := hs.wired.exists_pool (hlive k hk).1 (hlive k hk).2
    have hq : q ∉ L .poolProfiles k := fun hq =>
      hko (hs.wired.linked.owner_unique hq (hs.wired.linked.ownerOf?_eq_some.1 ho))
    obtain ⟨tot, htot, -⟩ := (Change.lightens_bind fun _ h => nomatch h :
      (Change.bind x none).Lightens hw s L).exists_figure hs hp
    rw [hs.wired.totals_bind_elsewhere hb hp hq, hs.wired.totals_eq hb.unbind hw hp, htot] at he
    cases he
  refine ⟨hrefused e, fun he => ?_⟩
  cases hplan : plan hw s (.bind x (some q)) with
  | error e' => rw [Except.error.inj ((hrefused e' hplan).symm.trans he)]
  | ok figures =>
    obtain ⟨hks, hfigures⟩ := plan_ok hplan
    obtain ⟨o', ho', hq⟩ := hs.wired.covers_affectedPools hks q (.inr rfl)
    obtain rfl := hs.wired.linked.owner_unique hq (hs.wired.linked.ownerOf?_eq_some.1 ho)
    obtain ⟨⟨_, tot⟩, hmem, rfl⟩ := List.mem_map.1 ho'
    cases (hfigures _ tot hmem).symm.trans he

/-- **A pool comes to hold the same** whether a consumer that is bound was unbound before or not. -/
theorem Store.Rebound.totals_bind (h : s.Rebound t) (w : Wired hw s L none)
    (w' : Wired hw t (L.relink .profileConsumers x none) none) (hb : (Change.bind x target).Buildable s)
    (hb' : (Change.bind x target).Buildable t) {p : Pool} (hp : s.pool? k = some p) :
    totals hw t (.bind x target) k = totals hw s (.bind x target) k := by
  obtain ⟨p', hp', hsize, hdir⟩ := h.pool? hp
  have hholds : t.holdings (.bind x target) (L.relink .profileConsumers x none) k = s.holdings (.bind x target) L k := by
    rw [t.holdings_bind, Layout.relink_relink, s.holdings_bind]
    refine List.map_congr_left fun j hj => ?_
    obtain ⟨r, hr⟩ := w.exists_profile_of_mem (o := k) hj
    exact h.holding hr _ k k
  have hresize : ∀ r : Pool, ((Change.bind x target).resize k r).size = r.size := fun _ => rfl
  rw [w.totals_eq hb hw hp, w'.totals_eq hb' hw hp', hholds, hresize, hresize, hsize, hdir]

/-! ## How the consumer got there -/

/-- counting does not see figures -/
theorem Record.retain_withTotals (r : Record) (tot : Totals) :
    (r.mapPool (Pool.withTotals tot)).retain = r.retain.mapPool (Pool.withTotals tot) := by
  have hrefs : (r.mapPool (Pool.withTotals tot)).refCount = r.refCount := by cases r <;> rfl
  have hset : ∀ n, (r.mapPool (Pool.withTotals tot)).setRefCount n =
      (r.setRefCount n).mapPool (Pool.withTotals tot) := fun n => by cases r <;> rfl
  unfold retain
  rw [hrefs]
  split
  · exact hset _
  · rfl

/-- attaching a member does not see figures -/
theorem Store.attached_edit_figures (s : Store Record) (tot : Totals) {R : Roster} {h : ListHead} {o m : Key} :
    (s.edit k (Record.mapPool (Pool.withTotals tot))).attached R h o m =
      (s.attached R h o m).edit k (Record.mapPool (Pool.withTotals tot)) := by
  have hlink : ∀ (s : Store Record) j g, (s.edit k (Record.mapPool (Pool.withTotals tot))).edit j (Record.mapLink R g) =
      (s.edit j (Record.mapLink R g)).edit k (Record.mapPool (Pool.withTotals tot)) := fun s j g =>
    edit_comm fun r => by cases r <;> cases R <;> rfl
  have hhead : ∀ (s : Store Record) g, (s.edit k (Record.mapPool (Pool.withTotals tot))).edit o (Record.mapHead R g) =
      (s.edit o (Record.mapHead R g)).edit k (Record.mapPool (Pool.withTotals tot)) := fun s g =>
    edit_comm fun r => by cases r <;> cases R <;> rfl
  have hcount : ∀ s : Store Record, (s.edit k (Record.mapPool (Pool.withTotals tot))).edit o Record.retain =
      (s.edit o Record.retain).edit k (Record.mapPool (Pool.withTotals tot)) := fun s =>
    edit_comm fun r => (r.retain_withTotals tot).symm
  unfold attached appended
  cases h.last <;> simp only [extendLast, hlink, hhead, hcount]

theorem Store.attached_written (s : Store Record) (figures : List (Key × Totals)) {R : Roster} {h : ListHead}
    {o m : Key} : (s.written figures).attached R h o m = (s.attached R h o m).written figures := by
  induction figures generalizing s with
  | nil => rfl
  | cons f figures ih =>
    obtain ⟨j, tot⟩ := f
    rw [written_cons, ih, attached_edit_figures, written_cons]

/-- attaching a member comes to the same before figures are written and after -/
theorem Store.attach_written {R : Roster} {o m : Key} {figures : List (Key × Totals)}
    (h : (attach R o m).run s = (.ok (), t)) (h' : (attach R o m).run (s.written figures) = (.ok (), u)) :
    u = t.written figures := by
  obtain ⟨hd, hhead, -, rfl⟩ := (attach_ends s R o m).ok h
  obtain ⟨hd', hhead', -, rfl⟩ := (attach_ends (s.written figures) R o m).ok h'
  obtain rfl : hd = hd' := Option.some.inj (hhead.symm.trans ((headAt_written s figures R o).symm.trans hhead'))
  exact s.attached_written figures

/-- **Figures that account for every pool are the same**, whatever was written in between. -/
theorem Wired.written_unique {figures figures' : List (Key × Totals)} (w : Wired hw s L none)
    (h : Accounted hw (s.written figures)) (h' : Accounted hw (s.written figures')) :
    s.written figures = s.written figures' := by
  have hderived : ∀ {figures k p}, Accounted hw (s.written figures) → (s.written figures).pool? k = some p →
      totals hw s (.recompute k) k = .ok p.totals := by
    intro figures k p h hp
    have hlive : (s.written figures).contains k = true ∧ k.kind = .pool :=
      ⟨Store.contains_of_pool? hp, (w.written figures).kind_of_pool? hp⟩
    have happ := Change.applied_written k s figures
    rw [happ.contains] at hlive
    rw [← happ.totals_eq w (w.written figures) hlive hlive]
    exact h k p hp
  refine Store.ext_get? ?_ fun k => ?_
  · rw [Store.allocators_written, Store.allocators_written]
  obtain ⟨tot, hget⟩ := s.exists_get?_written figures k
  obtain ⟨tot', hget'⟩ := s.exists_get?_written figures' k
  rw [hget, hget']
  rcases hr : s.get? k with - | (p | _ | _ | _ | _)
  case some.pool =>
    rw [hr] at hget hget'
    have htot := hderived h (Store.pool?_eq_some.2 hget)
    obtain rfl : tot = tot' := Except.ok.inj (htot.symm.trans (hderived h' (Store.pool?_eq_some.2 hget')))
    rfl
  all_goals rfl

/-- **Unbound first or not, the store is the same** once a consumer is bound. -/
theorem Change.Outcome.eq_of_unbound {t₀ t₁ t₂ : Store Record} (hs : Sound hw s L)
    (hb : (Change.bind x (some q)).Buildable s) (h₁ : (Change.bind x (some q)).Outcome hw s t₁)
    (h₀ : (Change.bind x none).Outcome hw s t₀) (h₂ : (Change.bind x (some q)).Outcome hw t₀ t₂) : t₂ = t₁ := by
  have hs₀ := h₀.sound hs hb.unbind
  have hb₂ : (Change.bind x (some q)).Buildable t₀ := hb.congr fun _ => h₀.contains
  have hunbound : t₀.ownerOf? .profileConsumers x = none := by rw [h₀.binding hs hb.unbind, if_pos rfl]
  have haccounted₁ := (h₁.sound hs hb).accounted
  have haccounted₂ := (h₂.sound hs₀ hb₂).accounted
  obtain ⟨figures₁, u₁, -, hrun₁, rfl⟩ := h₁
  obtain ⟨figures₀, u₀, -, hrun₀, rfl⟩ := h₀
  obtain ⟨figures₂, u₂, -, hrun₂, rfl⟩ := h₂
  -- both leave the old profile in the same way
  obtain ⟨v, hleave, hjoin₁⟩ := Store.relink_halves hrun₁
  obtain ⟨v₀, hleave₀, hjoin₀⟩ := Store.relink_halves hrun₀
  obtain rfl : v = v₀ := congrArg Prod.snd (hleave.symm.trans hleave₀)
  obtain rfl : v = u₀ := congrArg Prod.snd hjoin₀
  -- what joins the new one is in no list any more
  obtain ⟨v₂, hleave₂, hjoin₂⟩ := Store.relink_halves hrun₂
  rw [hunbound] at hleave₂
  obtain rfl : v.written figures₀ = v₂ := congrArg Prod.snd hleave₂
  obtain rfl : u₂ = u₁.written figures₀ := Store.attach_written hjoin₁ hjoin₂
  obtain ⟨w₁, -⟩ := Change.Made.applied ⟨hb, hrun₁⟩ hs.wired
  rw [Store.written_append] at haccounted₂ ⊢
  exact w₁.written_unique haccounted₂ haccounted₁

end

end SharedBuffer
