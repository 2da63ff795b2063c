/-
What the entries of a plan that have gone through come to.

Three things hold of the entries that are done, whatever is still to come (`Progress`): the pools and profiles that they
describe are there under their names (`Made`), the keys of these are new (`New`), and a consumer is bound by the last of
them that covers it, or as it was before the plan (`Rebound`). Each has a lemma for the entries that add to it and one
for those that leave it alone; a plan that goes through is its entries one after the other.

Result: `Progress.of_entries`.
-/
import SharedBuffer.Proofs.Plan.Steps

namespace SharedBuffer

open Manager

/-! ## Entries by kind -/

namespace PlanEntry

/-- the pool that an entry describes -/
def pool? : PlanEntry → Option (String × PoolPlan)
  | pool name plan => some (name, plan)
  | profile .. | binding .. => none

/-- the profile that an entry describes -/
def profile? : PlanEntry → Option (String × ProfilePlan)
  | profile name plan => some (name, plan)
  | pool .. | binding .. => none

/-- the binding that an entry is -/
def binding? : PlanEntry → Option (BindingTable × String × String)
  | binding t text name => some (t, text, name)
  | pool .. | profile .. => none

end PlanEntry

namespace Plan

variable (plan : Plan)

theorem pools_entries : plan.entries.filterMap PlanEntry.pool? = plan.pools := by
  simp [entries, List.filterMap_map, Function.comp_def, PlanEntry.pool?]

theorem profiles_entries : plan.entries.filterMap PlanEntry.profile? = plan.profiles := by
  simp [entries, List.filterMap_map, Function.comp_def, PlanEntry.profile?]

theorem bindings_entries : plan.entries.filterMap PlanEntry.binding? = plan.bindings := by
  simp [entries, List.filterMap_map, Function.comp_def, PlanEntry.binding?]

end Plan

/-! ## What is made -/

/-- for each of some named plans something of its name was made that suits it, and nothing else was -/
structure Made {β ι : Type} (Suits : β → ι → Prop) (plans : List (String × β)) (made : List (String × ι)) : Prop where
  names : made.map Prod.fst = plans.map Prod.fst
  each : ∀ name b, (name, b) ∈ plans → ∃ id, (name, id) ∈ made ∧ Suits b id

namespace Made

variable {β ι : Type} {Suits Suits' : β → ι → Prop} {plans : List (String × β)} {made : List (String × ι)}
  {name : String} {b : β} {id : ι}

theorem imp (h : Made Suits plans made) (himp : ∀ b id, Suits b id → Suits' b id) : Made Suits' plans made :=
  ⟨h.names, fun name b hb => (h.each name b hb).imp fun id hid => hid.imp_right (himp b id)⟩

/-- what is made last goes to the end, if the plans are in order -/
theorem putByName_eq (h : Made Suits plans made) (hbehind : ∀ e ∈ plans, e.1 < name) (id : ι) :
    putByName name id made = made ++ [(name, id)] := by
  refine putByName_append fun f hf => ?_
  have hname : f.1 ∈ plans.map Prod.fst := h.names ▸ List.mem_map_of_mem hf
  obtain ⟨e, he, hsame⟩ := List.mem_map.1 hname
  exact hsame ▸ hbehind e he

theorem put (h : Made Suits plans made) (hbehind : ∀ e ∈ plans, e.1 < name) (hid : Suits b id) :
    Made Suits (plans ++ [(name, b)]) (putByName name id made) := by
  rw [h.putByName_eq hbehind id]
  refine ⟨by simp [h.names], fun n b' hmem => ?_⟩
  rcases List.mem_append.1 hmem with hmem | hmem
  · obtain ⟨id', hmade, hsuits⟩ := h.each n b' hmem
    exact ⟨id', List.mem_append_left _ hmade, hsuits⟩
  · cases List.mem_singleton.1 hmem
    exact ⟨id, by simp, hid⟩

end Made

/-- the pool of a plan is there -/
def PoolPlan.IsMade (s : Store Record) (plan : PoolPlan) (id : PoolId) : Prop :=
  ∃ q, s.pool? id.key = some q ∧ plan.Describes q

/-- the profile of a plan is there, in the pool that it names -/
def ProfilePlan.IsMade (s : Store Record) (pools : List (String × PoolId)) (plan : ProfilePlan) (id : ProfileId) :
    Prop :=
  ∃ pool q, (plan.pool, pool) ∈ pools ∧ s.profile? id.key = some q ∧ s.ownerOf? .poolProfiles id.key = some pool.key ∧
    plan.Describes q

theorem PoolPlan.IsMade.continues {s t : Store Record} {plan : PoolPlan} {id : PoolId} (h : plan.IsMade s id)
    (hkeep : s.Continues t) : plan.IsMade t id := by
  obtain ⟨q, hq, hdescribes⟩ := h
  obtain ⟨q', hq', hsize, hregime⟩ := Store.pool?_of_settingsAt (hkeep.settings _ (Store.contains_of_pool? hq)) hq
  exact ⟨q', hq', hdescribes.congr hsize hregime⟩

theorem ProfilePlan.IsMade.continues {s t : Store Record} {pools pools' : List (String × PoolId)} {plan : ProfilePlan}
    {id : ProfileId} (h : plan.IsMade s pools id) (hkeep : s.Continues t) (hpools : pools ⊆ pools') :
    plan.IsMade t pools' id := by
  obtain ⟨pool, q, hpool, hq, hin, hdescribes⟩ := h
  have hc := Store.contains_of_profile? hq
  obtain ⟨q', hq', hsize, hterms⟩ := Store.profile?_of_settingsAt (hkeep.settings _ hc) hq
  exact ⟨pool, q', hpools hpool, hq', (hkeep.pool _ hc).trans hin, hdescribes.congr hsize hterms⟩

/-! ## What is new -/

/-- keys of different objects that are there now and were not before -/
structure New (m m' : Manager) (keys : List Key) : Prop where
  nodup : keys.Nodup
  decoded : ∀ k ∈ keys, Key.ofId? k.id = some k
  fresh : ∀ k ∈ keys, m.store.contains k = false
  live : ∀ k ∈ keys, m'.store.contains k = true

namespace New

variable {m m' m'' : Manager} {keys keys' : List Key}

theorem continues (h : New m m' keys) (hkeep : m'.store.Continues m''.store) : New m m'' keys :=
  ⟨h.nodup, h.decoded, h.fresh, fun k hk => hkeep.contains (h.live k hk)⟩

theorem add {kind : ObjectKind} {id : Handle kind} (h : New m m' keys) (hkeep : m.store.Continues m'.store)
    (hadds : m'.Adds id m'') (hperm : keys'.Perm (id.key :: keys)) : New m m'' keys' := by
  have hnew : id.key ∉ keys := fun hk => by cases hadds.new.symm.trans (h.live _ hk)
  have hmem : ∀ k ∈ keys', k = id.key ∨ k ∈ keys := fun k hk => List.mem_cons.1 (hperm.mem_iff.1 hk)
  refine ⟨hperm.nodup_iff.2 (List.nodup_cons.2 ⟨hnew, h.nodup⟩), fun k hk => ?_, fun k hk => ?_, fun k hk => ?_⟩
  · rcases hmem k hk with rfl | hk
    · exact hadds.key
    · exact h.decoded k hk
  · rcases hmem k hk with rfl | hk
    · exact Bool.eq_false_iff.2 fun hc => by cases hadds.new.symm.trans (hkeep.contains hc)
    · exact h.fresh k hk
  · rcases hmem k hk with rfl | hk
    · exact hadds.live
    · exact hadds.continues.contains (h.live k hk)

end New

/-- the keys of what a plan has made -/
def AppliedPlan.keys (a : AppliedPlan) : List Key := a.pools.map (fun e => e.2.key) ++ a.profiles.map fun e => e.2.key

/-! ## Who is bound -/

/-- bindings name consumers that are there, and a consumer is bound to the profile of the last of them that covers it,
or as it was -/
structure Rebound (m m' : Manager) (profiles : List (String × ProfileId))
    (bindings : List (BindingTable × String × String)) : Prop where
  named : ∀ b ∈ bindings, ∃ span, b.1.span? m b.2.1 = some span ∧ ¬ span.Overruns
  kept : ∀ x, (∀ b ∈ bindings, ¬ b.1.Covers m b.2.1 x) →
    m'.store.ownerOf? .profileConsumers x = m.store.ownerOf? .profileConsumers x
  last : ∀ pre t text name post x, bindings = pre ++ (t, text, name) :: post → t.Covers m text x →
    (∀ b ∈ post, ¬ b.1.Covers m b.2.1 x) →
      ∃ profile, (name, profile) ∈ profiles ∧ m'.store.ownerOf? .profileConsumers x = some profile.key

namespace Rebound

variable {m m' m'' : Manager} {profiles profiles' : List (String × ProfileId)}
  {bindings : List (BindingTable × String × String)}

theorem same (h : Rebound m m' profiles bindings)
    (hsame : ∀ x, m''.store.ownerOf? .profileConsumers x = m'.store.ownerOf? .profileConsumers x)
    (hmade : profiles ⊆ profiles') : Rebound m m'' profiles' bindings :=
  ⟨h.named, fun x hx => (hsame x).trans (h.kept x hx), fun pre t text name post x hsplit hcovers hpost => by
    obtain ⟨profile, hprofile, hbound⟩ := h.last pre t text name post x hsplit hcovers hpost
    exact ⟨profile, hmade hprofile, (hsame x).trans hbound⟩⟩

theorem bind {t : BindingTable} {text name : String} {profile : ProfileId} {span : Span}
    (h : Rebound m m' profiles bindings) (hspan : t.span? m text = some span) (hall : ¬ span.Overruns)
    (hname : (name, profile) ∈ profiles) (hbinds : m'.Binds span.present profile.key m'') :
    Rebound m m'' profiles (bindings ++ [(t, text, name)]) := by
  have hcovers : ∀ x, t.Covers m text x ↔ x ∈ span.present := fun x =>
    ⟨fun ⟨span', hspan', hx⟩ => Option.some.inj (hspan.symm.trans hspan') ▸ hx, fun hx => ⟨span, hspan, hx⟩⟩
  refine ⟨fun b hb => ?_, fun x hx => ?_, fun pre t' text' name' post x hsplit hx hpost => ?_⟩
  · rcases List.mem_append.1 hb with hb | hb
    · exact h.named b hb
    · cases List.mem_singleton.1 hb
      exact ⟨span, hspan, hall⟩
  · rw [hbinds.binding, if_neg fun hp => hx (t, text, name) (by simp) ((hcovers x).2 hp)]
    exact h.kept x fun b hb => hx b (List.mem_append_left _ hb)
  · rcases List.eq_nil_or_concat post with rfl | ⟨post, b, rfl⟩
    · -- the last that covers it is the one that is made now
      obtain ⟨-, hb⟩ := List.append_inj' hsplit rfl
      cases hb
      exact ⟨profile, hname, by rw [hbinds.binding, if_pos ((hcovers x).1 hx)]⟩
    · rw [List.concat_eq_append, ← List.cons_append, ← List.append_assoc] at hsplit
      obtain ⟨hdone, hb⟩ := List.append_inj' hsplit rfl
      cases hb
      obtain ⟨profile', hprofile, hbound⟩ := h.last pre t' text' name' post x hdone hx fun b hb =>
        hpost b (by simp [hb])
      refine ⟨profile', hprofile, ?_⟩
      rw [hbinds.binding, if_neg fun hp => hpost (t, text, name) (by simp) ((hcovers x).2 hp)]
      exact hbound

end Rebound

/-! ## Entries that are done -/

/-- what the entries that are done have come to -/
structure Progress (m : Manager) (done : List PlanEntry) (p : PlanState) : Prop where
  steps : p.applied.steps = done.length
  continues : m.store.Continues p.manager.store
  pools : Made (PoolPlan.IsMade p.manager.store) (done.filterMap PlanEntry.pool?) p.applied.pools
  profiles : Made (ProfilePlan.IsMade p.manager.store p.applied.pools) (done.filterMap PlanEntry.profile?)
    p.applied.profiles
  new : New m p.manager p.applied.keys
  rebound : Rebound m p.manager p.applied.profiles (done.filterMap PlanEntry.binding?)

namespace Progress

variable {hw : Hardware} {m : Manager} {done : List PlanEntry} {p p' : PlanState}

theorem start (m : Manager) : Progress m [] { manager := m } where
  steps := rfl
  continues := .refl _
  pools := ⟨rfl, fun _ _ h => nomatch h⟩
  profiles := ⟨rfl, fun _ _ h => nomatch h⟩
  new := { nodup := List.nodup_nil, decoded := nofun, fresh := nofun, live := nofun }
  rebound := ⟨nofun, fun _ _ => rfl, fun pre _ _ _ _ _ h => absurd h (by simp)⟩

theorem pool {name : String} {plan : PoolPlan} (h : Progress m done p) (hp : p.Proper hw)
    (hbehind : ∀ e ∈ done.filterMap PlanEntry.pool?, e.1 < name)
    (hrun : (PlanEntry.pool name plan).apply.run p = (.ok (), p')) : Progress m (done ++ [.pool name plan]) p' := by
  obtain ⟨id, happlied, hadds, q, hq, hdescribes⟩ := PlanM.applyPool_ok hp.counts hrun
  have hput := h.pools.putByName_eq hbehind id
  constructor
  case steps => simp [happlied, h.steps]
  case continues => exact h.continues.trans hadds.continues
  case pools =>
    rw [happlied, List.filterMap_append]
    exact (h.pools.imp fun _ _ hmade => hmade.continues hadds.continues).put hbehind ⟨q, hq, hdescribes⟩
  case profiles =>
    simp only [happlied, List.filterMap_append, PlanEntry.profile?, List.filterMap_cons, List.filterMap_nil,
      List.append_nil, hput]
    exact h.profiles.imp fun _ _ hmade => hmade.continues hadds.continues (List.subset_append_left _ [(name, id)])
  case new =>
    refine h.new.add h.continues hadds ?_
    simp only [AppliedPlan.keys, happlied, hput, List.map_append, List.map_cons, List.map_nil, List.append_assoc,
      List.singleton_append]
    exact List.perm_middle
  case rebound =>
    simp only [happlied, List.filterMap_append, PlanEntry.binding?, List.filterMap_cons, List.filterMap_nil,
      List.append_nil]
    exact h.rebound.same hadds.binding (List.Subset.refl _)

theorem profile {name : String} {plan : ProfilePlan} (h : Progress m done p) (hp : p.Proper hw)
    (hbehind : ∀ e ∈ done.filterMap PlanEntry.profile?, e.1 < name)
    (hrun : (PlanEntry.profile name plan).apply.run p = (.ok (), p')) :
    Progress m (done ++ [.profile name plan]) p' := by
  obtain ⟨pool, id, hpool, happlied, hadds, q, hq, hin, hdescribes⟩ := PlanM.applyProfile_ok hp.counts hrun
  have hput := h.profiles.putByName_eq hbehind id
  constructor
  case steps => simp [happlied, h.steps]
  case continues => exact h.continues.trans hadds.continues
  case pools =>
    simp only [happlied, List.filterMap_append, PlanEntry.pool?, List.filterMap_cons, List.filterMap_nil,
      List.append_nil]
    exact h.pools.imp fun _ _ hmade => hmade.continues hadds.continues
  case profiles =>
    rw [happlied, List.filterMap_append]
    refine (h.profiles.imp fun _ _ hmade => hmade.continues hadds.continues (List.Subset.refl _)).put hbehind ?_
    exact ⟨pool, q, mem_of_lookup hpool, hq, (Store.ownerOf?_of_profile? hq).trans hin, hdescribes⟩
  case new =>
    refine h.new.add h.continues hadds ?_
    simp only [AppliedPlan.keys, happlied, hput, List.map_append, List.map_cons, List.map_nil, ← List.append_assoc]
    exact List.perm_append_singleton _ _
  case rebound =>
    simp only [happlied, List.filterMap_append, PlanEntry.binding?, List.filterMap_cons, List.filterMap_nil,
      List.append_nil, hput]
    exact h.rebound.same hadds.binding (List.subset_append_left _ _)

theorem binding {t : BindingTable} {text name : String} (h : Progress m done p) (hp : p.Proper hw)
    (hrun : (PlanEntry.binding t text name).apply.run p = (.ok (), p')) :
    Progress m (done ++ [.binding t text name]) p' := by
  obtain ⟨profile, span, hresolves, hall, happlied, hbinds⟩ := PlanEntry.binding_ok hp hrun
  have hspan : t.span? m text = some span := (h.continues.span?_eq t text).symm.trans hresolves.span
  constructor
  case steps => simp [happlied, h.steps]
  case continues => exact h.continues.trans hbinds.continues
  case pools =>
    simp only [happlied, List.filterMap_append, PlanEntry.pool?, List.filterMap_cons, List.filterMap_nil,
      List.append_nil]
    exact h.pools.imp fun _ _ hmade => hmade.continues hbinds.continues
  case profiles =>
    simp only [happlied, List.filterMap_append, PlanEntry.profile?, List.filterMap_cons, List.filterMap_nil,
      List.append_nil]
    exact h.profiles.imp fun _ _ hmade => hmade.continues hbinds.continues (List.Subset.refl _)
  case new =>
    rw [happlied]
    exact h.new.continues hbinds.continues
  case rebound =>
    rw [happlied, List.filterMap_append]
    exact h.rebound.bind hspan hall (mem_of_lookup hresolves.profile) hbinds

/-- **Entries in order that have gone through have come to what they say.** -/
theorem of_entries {plan : Plan} (hm : m.Counts hw) (hplan : plan.InOrder)
    (h : (PlanM.forEntries PlanEntry.apply plan.entries).run { manager := m } = (.ok (), p')) :
    p'.Proper hw ∧ Progress m plan.entries p' := by
  refine PlanM.forEntries_ok (I := fun done q => q.Proper hw ∧ Progress m done q)
    ⟨.start hm, start m⟩ (fun pre entry post q q' hsplit hq hrun => ?_) h
  obtain ⟨hproper, hprogress⟩ := hq
  refine ⟨PlanEntry.proper hproper hrun, ?_⟩
  cases entry with
  | pool name pool =>
    have horder : InNameOrder (pre.filterMap PlanEntry.pool? ++ (name, pool) :: post.filterMap PlanEntry.pool?) := by
      have hpools := plan.pools_entries ▸ hplan.pools
      rwa [hsplit, List.filterMap_append] at hpools
    exact hprogress.pool hproper horder.behind hrun
  | profile name profile =>
    have horder : InNameOrder
        (pre.filterMap PlanEntry.profile? ++ (name, profile) :: post.filterMap PlanEntry.profile?) := by
      have hprofiles := plan.profiles_entries ▸ hplan.profiles
      rwa [hsplit, List.filterMap_append] at hprofiles
    exact hprogress.profile hproper horder.behind hrun
  | binding t text name => exact hprogress.binding hproper hrun

end Progress

end SharedBuffer
