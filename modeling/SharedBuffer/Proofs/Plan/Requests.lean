/-
What the pools and profiles of a plan ask for.

An entry of a plan becomes the attributes of a create request, and is read back from them as it was written: the pool or
profile that is made has the values of its entry, and the defaults where the entry says nothing.

Results: `PoolPlan.read` and `ProfilePlan.read`.
-/
import SharedBuffer.Plan.Apply
import SharedBuffer.Proofs.Manager.Lifecycle
import SharedBuffer.Proofs.Manager.Terms

namespace SharedBuffer

/-- a pool is as an entry describes it -/
structure PoolPlan.Describes (plan : PoolPlan) (p : Pool) : Prop where
  direction : p.direction = plan.direction
  size : p.size = plan.size
  mode : p.mode = plan.mode.getD .dynamic

/-- the threshold that an entry gives, if it gives just one -/
def ProfilePlan.threshold? (plan : ProfilePlan) : Option Threshold :=
  match plan.dynamicThreshold, plan.staticThreshold with
  | some alpha, none => some (.dynamic alpha)
  | none, some limit => some (.static limit)
  | _, _ => none

/-- a profile is as an entry describes it, but for the pool -/
structure ProfilePlan.Describes (plan : ProfilePlan) (p : Profile) : Prop where
  size : p.size = plan.size
  mode : p.mode = plan.mode.getD .inherited
  threshold : plan.threshold? = some p.threshold
  xoff : p.xoff = plan.xoff.getD 0
  xon : p.xon = plan.xon.getD 0

theorem PoolPlan.Describes.congr {plan : PoolPlan} {p q : Pool} (h : plan.Describes p) (hsize : q.size = p.size)
    (hregime : q.regime = p.regime) : plan.Describes q :=
  ⟨(congrArg Prod.fst hregime).trans h.direction, hsize.trans h.size, (congrArg Prod.snd hregime).trans h.mode⟩

theorem ProfilePlan.Describes.congr {plan : ProfilePlan} {p q : Profile} (h : plan.Describes p)
    (hsize : q.size = p.size) (hterms : q.terms = p.terms) : plan.Describes q := by
  obtain ⟨hmode, hthreshold, hxoff, hxon⟩ := Terms.mk.inj hterms
  exact ⟨hsize.trans h.size, hmode.trans h.mode, hthreshold ▸ h.threshold, hxoff.trans h.xoff, hxon.trans h.xon⟩

/-- the request of a pool's entry is read back -/
theorem PoolPlan.read (plan : PoolPlan) :
    PoolRequest.ofAttributes (ManagerM.poolAttributes plan.direction plan.size plan.mode) =
      .ok ⟨plan.direction, plan.size, plan.mode.getD .dynamic⟩ := by
  obtain ⟨direction, mode, size⟩ := plan
  cases direction <;> rcases mode with - | - | - <;> rfl

/-- the attribute with an id, wherever it stands -/
theorem findAttribute?_snd (attrs : List Attribute) (id : UInt32) :
    (findAttribute? attrs id).map Prod.snd = attrs.find? fun b => b.id == id := by
  have hfst : attrs = attrs.zipIdx.map Prod.fst := (List.zipIdx_map_fst 0 attrs).symm
  conv => rhs; rw [hfst, List.find?_map]
  rw [findAttribute?, Option.map_map]
  rfl

/-- what may be given under an id is found under that id, and under no other -/
theorem find?_given {α : Type} (i j : UInt32) (encode : α → AttributeValue) (v : Option α) :
    (v.map fun x => (⟨i, encode x⟩ : Attribute)).toList.find? (fun b => b.id == j) =
      if i = j then v.map fun x => ⟨i, encode x⟩ else none := by
  cases v with
  | none => simp
  | some x => by_cases h : i = j <;> simp [h]

namespace ProfilePlan

variable {plan : ProfilePlan} {pool : PoolId}

/-- an attribute that may be given is read as some value, or not at all -/
def Reads {α : Type} (attrs : List Attribute) (a : ProfileAttribute) (decode : AttributeValue → Option α)
    (v : Option α) : Prop :=
  ∃ found, optionalAttribute attrs a.id a.name decode = .ok found ∧ found.map Prod.snd = v

/-- an attribute that can be decoded is read where it is found -/
theorem Reads.of_find {α : Type} {attrs : List Attribute} {a : ProfileAttribute} {decode : AttributeValue → Option α}
    {v : Option α} (encode : α → AttributeValue) (hdecode : ∀ x, decode (encode x) = some x)
    (hfind : (attrs.find? fun b => b.id == a.id) = v.map fun x => ⟨a.id, encode x⟩) : Reads attrs a decode v := by
  rw [← findAttribute?_snd] at hfind
  unfold Reads optionalAttribute
  cases v with
  | none =>
    rw [Option.map_none, Option.map_eq_none_iff] at hfind
    rw [hfind]
    exact ⟨none, rfl, rfl⟩
  | some x =>
    rw [Option.map_some, Option.map_eq_some_iff] at hfind
    obtain ⟨⟨index, b⟩, hat, rfl⟩ := hfind
    simp only [hat, hdecode]
    exact ⟨_, rfl, rfl⟩

/-- what an entry may leave out is read back -/
theorem reads (plan : ProfilePlan) (pool : PoolId) :
    Reads (plan.toAttributes pool) .thresholdMode AttributeValue.asS32? (plan.mode.map ProfileMode.code) ∧
      Reads (plan.toAttributes pool) .dynamicThreshold AttributeValue.asI8? plan.dynamicThreshold ∧
      Reads (plan.toAttributes pool) .staticThreshold AttributeValue.asU64? plan.staticThreshold ∧
      Reads (plan.toAttributes pool) .xoffThreshold AttributeValue.asU64? plan.xoff ∧
      Reads (plan.toAttributes pool) .xonThreshold AttributeValue.asU64? plan.xon := by
  refine ⟨.of_find .s32 (fun _ => rfl) ?_, .of_find .i8 (fun _ => rfl) ?_, .of_find .u64 (fun _ => rfl) ?_,
    .of_find .u64 (fun _ => rfl) ?_, .of_find .u64 (fun _ => rfl) ?_⟩
  all_goals
    simp [toAttributes, List.find?_append, find?_given, ProfileAttribute.id, Function.comp_def]

theorem threshold?_of_resolveThreshold {mode : ThresholdMode} {dynamic : Option (Nat × Int8)}
    {fixed : Option (Nat × UInt64)} {threshold : Threshold} (hd : dynamic.map Prod.snd = plan.dynamicThreshold)
    (hs : fixed.map Prod.snd = plan.staticThreshold) (h : resolveThreshold mode dynamic fixed = .ok threshold) :
    plan.threshold? = some threshold := by
  unfold threshold?
  rw [← hd, ← hs]
  unfold resolveThreshold at h
  split at h <;> cases h <;> rfl

theorem elim_eq {α : Type} {found : Option (Nat × α)} {v : Option α} {a : α} (h : found.map Prod.snd = v) :
    found.elim a Prod.snd = v.getD a := by
  subst h
  cases found <;> rfl

/-- **The request of a profile's entry is read back.** -/
theorem read {m : Manager} {k : Key} {p : Profile} (h : m.profileOfAttributes (plan.toAttributes pool) = .ok (k, p)) :
    m.resolve? .pool pool.raw = some k ∧ plan.Describes p := by
  obtain ⟨⟨given, hgiven, hmode⟩, ⟨dynamic, hdynamic, hd⟩, ⟨fixed, hfixed, hs⟩, ⟨xoff, hxoff, hoff⟩, ⟨xon, hxon, hon⟩⟩ :=
    reads plan pool
  cases Manager.describes_of_ok h with
  | intro poolId reservedSize resolved live thresholdMode decoded dynamicThreshold staticThreshold one xoffThreshold
    xonThreshold headroom =>
    cases poolId
    cases reservedSize
    obtain rfl := Except.ok.inj (hgiven.symm.trans thresholdMode)
    obtain rfl := Except.ok.inj (hdynamic.symm.trans dynamicThreshold)
    obtain rfl := Except.ok.inj (hfixed.symm.trans staticThreshold)
    obtain rfl := Except.ok.inj (hxoff.symm.trans xoffThreshold)
    obtain rfl := Except.ok.inj (hxon.symm.trans xonThreshold)
    refine ⟨resolved, rfl, ?_, threshold?_of_resolveThreshold hd hs one, elim_eq hoff, elim_eq hon⟩
    -- a mode that is given is decoded to itself
    cases hm : plan.mode with
    | none =>
      obtain rfl : given = none := by rwa [hm, Option.map_none, Option.map_eq_none_iff] at hmode
      exact (Except.ok.inj decoded).symm
    | some mode' =>
      rw [hm, Option.map_some] at hmode
      obtain ⟨⟨index, code⟩, rfl, rfl⟩ := Option.map_eq_some_iff.1 hmode
      cases mode' <;> cases decoded <;> rfl

end ProfilePlan

end SharedBuffer
