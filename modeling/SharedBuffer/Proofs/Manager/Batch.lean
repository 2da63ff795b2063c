/-
Binding a batch of consumers, in any order.

Each request names its consumer and a profile, and what it names does not depend on the other requests; nor does the
direction of the profile's pool. What does depend on them is whether there is room, and there is at every step if there
is at the end. So if a batch of free consumers is bound in one order, it is bound in every order, and the managers that
this ends with tell the order by nothing but the order in which profiles list their consumers.

Results: `BindRequest.admitted`, one request, `Manager.Completes.admitted`, a row of them, and `reached_any_order`.
-/
import SharedBuffer.Proofs.Accounting.Batch
import SharedBuffer.Proofs.Manager.Rebinding
import SharedBuffer.Proofs.Manager.Settings

namespace SharedBuffer

open Accounting Manager

/-- a call that binds a consumer to the profile that an id names -/
structure BindRequest where
  call : Call
  consumer : Key
  profile : ObjectId
  binds : call.Binds consumer profile

/-- what a request binds: its consumer, and the live profile that it names, if it names one -/
def BindRequest.binding (m : Manager) (r : BindRequest) : Key × Option Key :=
  (r.consumer, m.resolve? .profile r.profile)

/-- nothing but memory stands against a request: its consumer is there, and the pool of its profile serves it -/
structure BindRequest.Suits (r : BindRequest) (m : Manager) : Prop where
  live : r.consumer ∈ m.store.consumers
  serves : m.BindsTo r.consumer.kind r.profile (m.resolve? .profile r.profile)

/-- the consumers of some requests are different ones, and free -/
structure Manager.Awaits (m : Manager) (rs : List BindRequest) : Prop where
  distinct : (rs.map (·.consumer)).Nodup
  free : ∀ r ∈ rs, m.store.ownerOf? .profileConsumers r.consumer = none

section

variable {hw : Hardware} {s t : Store Record} {L : Layout} {bs bs' : List (Key × Option Key)} {m m' m₁ : Manager}
  {r : BindRequest} {rs : List BindRequest} {a : ObjectId}

/-! ## What a request names -/

theorem Manager.BindsTo.resolve?_eq {kind : ObjectKind} {id : ObjectId} {target : Option Key}
    (h : m.BindsTo kind id target) : m.resolve? .profile id = target := by
  cases target with
  | some q => exact h.2.1
  | none =>
    obtain rfl : id = nullId := h
    cases hres : m.resolve? .profile nullId with
    | none => rfl
    | some q => exact absurd rfl (Key.ne_nullId_of_ofId? (ManagerM.resolve?_eq_some hres).1)

theorem Store.Rebound.resolve?_eq (h : m.store.Rebound m'.store) (kind : ObjectKind) (id : ObjectId) :
    m'.resolve? kind id = m.resolve? kind id := by
  unfold Manager.resolve?
  simp only [h.contains]

/-- a profile serves whom it served, whoever is bound to it -/
theorem Store.Rebound.bindsTo (h : m.store.Rebound m'.store) {kind : ObjectKind} {id : ObjectId} {target : Option Key}
    (hto : m.BindsTo kind id target) : m'.BindsTo kind id target := by
  refine hto.of_kept (fun _ hc => h.contains.trans hc) (fun k p hp => ?_) fun k q hq => ?_
  · obtain ⟨p', hp', -, -⟩ := h.profile? hp
    refine ⟨p', hp', ?_⟩
    rw [← Store.ownerOf?_of_profile? hp', h.owners _ _ (by decide), Store.ownerOf?_of_profile? hp]
  · obtain ⟨q', hq', -, hdir⟩ := h.pool? hq
    exact ⟨q', hq', hdir⟩

theorem BindRequest.binding_of_rebound (h : m.store.Rebound m'.store) (r : BindRequest) : r.binding m' = r.binding m :=
  congrArg (Prod.mk r.consumer) (h.resolve?_eq .profile r.profile)

theorem BindRequest.Suits.of_rebound (hr : r.Suits m) (h : m.store.Rebound m'.store) : r.Suits m' := by
  obtain ⟨hc, hk⟩ := Store.mem_consumers.1 hr.live
  refine ⟨Store.mem_consumers.2 ⟨h.contains.trans hc, hk⟩, ?_⟩
  rw [h.resolve?_eq]
  exact h.bindsTo hr.serves

theorem BindRequest.Suits.buildable (hr : r.Suits m) :
    (Change.bind r.consumer (m.resolve? .profile r.profile)).Buildable m.store := m.buildable_bind hr.live r.profile

/-! ## One request -/

/-- an accepted request has found its consumer and its profile, and come to its binding -/
theorem BindRequest.obtains (h : Sound m.hardware m.store L) (hrun : r.call.perform.run m = (.ok a, m')) :
    m'.hardware = m.hardware ∧ r.Suits m ∧ m.Obtains (.bind r.consumer (m.resolve? .profile r.profile)) m' := by
  obtain ⟨object, given, spec, hset, hid, -, htakes, hvalue⟩ := r.binds
  obtain ⟨k, -, hid', -, hc, hf, hsets⟩ := Call.sets h hset hrun
  obtain rfl := Option.some.inj (hid.symm.trans hid')
  refine ⟨hf.hardware, ?_⟩
  -- only a binding is asked of a consumer
  have hkind : r.consumer.kind ≠ .profile ∧ r.consumer.kind ≠ .pool := by
    constructor <;> intro hk <;> rw [hk] at htakes <;> cases htakes
  cases hsets with
  | threshold hk => exact absurd hk hkind.1
  | change asked obtained =>
    cases asked with
    | profileSize hk | xoff hk | xon hk | profilePool hk => exact absurd hk hkind.1
    | poolSize hk => exact absurd hk hkind.2
    | @binding id target hk hv hto =>
      obtain rfl : r.profile = id := by
        rw [hvalue] at hv
        exact Option.some.inj hv
      obtain rfl := hto.resolve?_eq
      exact ⟨⟨Store.mem_consumers.2 ⟨hc, hk⟩, hto⟩, obtained⟩

/-- **A request that is accepted adds to the batch.** -/
theorem BindRequest.admitted (h : s.Admitted hw L bs m.store) (hhw : m.hardware = hw)
    (hfree : m.store.ownerOf? .profileConsumers r.consumer = none) (hrun : r.call.perform.run m = (.ok a, m')) :
    m'.hardware = hw ∧ r.Suits m ∧ s.Admitted hw L (bs ++ [r.binding m]) m'.store ∧
      ∀ y, y ≠ r.consumer → m'.store.ownerOf? .profileConsumers y = m.store.ownerOf? .profileConsumers y := by
  subst hhw
  obtain ⟨hhw, hsuits, hobtained⟩ := BindRequest.obtains h.sound hrun
  refine ⟨hhw, hsuits, ?batch, ?others⟩
  case batch =>
    rcases hobtained with hout | ⟨hidle, hstore⟩
    · exact h.step hsuits.buildable hfree hout
    · -- it was to stay free
      have hnone : m.resolve? .profile r.profile = none := Eq.trans (Eq.symm hidle) hfree
      rw [hstore, BindRequest.binding, hnone]
      exact h.idle r.consumer
  case others =>
    intro y hy
    rw [hobtained.binding h.sound hsuits.buildable, if_neg hy]

/-- **A request is accepted where its plan is.** -/
theorem BindRequest.accepted (h : Sound m.hardware m.store L) (hr : r.Suits m)
    (hfree : m.store.ownerOf? .profileConsumers r.consumer = none)
    (hplan : ∃ figures, plan m.hardware m.store (.bind r.consumer (m.resolve? .profile r.profile)) = .ok figures) :
    ∃ a m', r.call.perform.run m = (.ok a, m') := by
  obtain ⟨object, given, spec, hset, hid, hcheck, htakes, hvalue⟩ := r.binds
  have hreq : m.Requests object given (.bind r.consumer (m.resolve? .profile r.profile)) :=
    ⟨r.consumer, spec, hid, hcheck, (Store.mem_consumers.1 hr.live).1,
      .binding htakes (by rw [hvalue]; rfl) hr.serves⟩
  rcases hrun : r.call.perform.run m with ⟨e | a, m'⟩
  · obtain ⟨-, -, hrefused | hcount | ⟨pool, size, hsize, -⟩⟩ := (Call.achieves h hset hreq).error hrun
    · obtain ⟨figures, hok⟩ := hplan
      cases hok.symm.trans hrefused
    · exact absurd (Store.not_uncounted_of_free hfree) hcount
    · cases hsize
  · exact ⟨a, m', rfl⟩

/-! ## A row of requests -/

theorem Manager.Awaits.next (h : m.Awaits (r :: rs))
    (hkeep : ∀ y, y ≠ r.consumer → m'.store.ownerOf? .profileConsumers y = m.store.ownerOf? .profileConsumers y) :
    m'.Awaits rs := by
  obtain ⟨hout, hdistinct⟩ := List.nodup_cons.1 h.distinct
  refine ⟨hdistinct, fun r' hr' => ?_⟩
  have hne : r'.consumer ≠ r.consumer := fun e => hout (List.mem_map.2 ⟨r', hr', e⟩)
  rw [hkeep _ hne]
  exact h.free r' (List.mem_cons_of_mem _ hr')

/-- **Requests that are all accepted are a batch.** -/
theorem Manager.Completes.admitted (h : s.Admitted hw L bs m.store) (hhw : m.hardware = hw) (hawaits : m.Awaits rs)
    (hrun : m.Completes (rs.map (·.call)) m') :
    s.Admitted hw L (bs ++ rs.map (·.binding m)) m'.store ∧ ∀ r ∈ rs, r.Suits m := by
  induction rs generalizing m bs with
  | nil =>
    obtain rfl : m' = m := hrun
    refine ⟨?_, fun _ hr => nomatch hr⟩
    simpa using h
  | cons r rs ih =>
    obtain ⟨a, m₁, hstep, hrest⟩ := hrun
    obtain ⟨hhw, hsuits, hadm, hkeep⟩ := BindRequest.admitted h hhw (hawaits.free r List.mem_cons_self) hstep
    have hrebound : m.store.Rebound m₁.store := h.rebound.symm.trans hadm.rebound
    obtain ⟨hall, hothers⟩ := ih hadm hhw (hawaits.next hkeep) hrest
    constructor
    · rw [funext (BindRequest.binding_of_rebound hrebound), List.append_assoc] at hall
      exact hall
    · intro r' hr'
      rcases List.mem_cons.1 hr' with rfl | hr'
      · exact hsuits
      · exact (hothers r' hr').of_rebound hrebound.symm

/-- **Requests of a batch that has been bound are accepted**, in the order in which they come. -/
theorem Manager.exists_completes (h : s.Admitted hw L bs m.store) (hhw : m.hardware = hw)
    (hall : s.Admitted hw L bs' t) (hsub : bs ++ rs.map (·.binding m) ⊆ bs') (hawaits : m.Awaits rs)
    (hsuits : ∀ r ∈ rs, r.Suits m) : ∃ m', m.Completes (rs.map (·.call)) m' := by
  induction rs generalizing m bs with
  | nil => exact ⟨m, rfl⟩
  | cons r rs ih =>
    have hr := hsuits r List.mem_cons_self
    have hfree := hawaits.free r List.mem_cons_self
    have hfirst : bs ++ [r.binding m] ⊆ bs' := by
      refine List.Subset.trans (List.append_subset.2 ⟨List.subset_append_left _ _, ?_⟩) hsub
      exact List.subset_append_of_subset_right _ (by simp)
    obtain ⟨a, m₁, hstep⟩ := BindRequest.accepted (hhw ▸ h.sound) hr hfree
      (hhw ▸ h.exists_plan hall hr.buildable hfree hfirst)
    obtain ⟨hhw, -, hadm, hkeep⟩ := BindRequest.admitted h hhw hfree hstep
    have hrebound : m.store.Rebound m₁.store := h.rebound.symm.trans hadm.rebound
    have hrest : bs ++ [r.binding m] ++ rs.map (·.binding m₁) ⊆ bs' := by
      rw [funext (BindRequest.binding_of_rebound hrebound), List.append_assoc]
      exact hsub
    obtain ⟨m', hrun⟩ := ih hadm hhw hrest (hawaits.next hkeep) fun r' hr' =>
      (hsuits r' (List.mem_cons_of_mem _ hr')).of_rebound hrebound
    exact ⟨m', a, m₁, hstep, hrun⟩

end

/-! ## Any order -/

/-- **The order of a batch does not matter.** Whatever is reached, if requests that bind different free consumers are
all accepted in one order, they are in every order, and both ways end with the same figures of every pool, the same
binding of every consumer, and the same count and the same consumers of every profile. -/
theorem reached_any_order {hw : Hardware} {m m₁ : Manager} (hm : m.Reached hw) {requests requests' : List BindRequest}
    (hdistinct : (requests.map (·.consumer)).Nodup)
    (hfree : ∀ r ∈ requests, m.store.ownerOf? .profileConsumers r.consumer = none)
    (hrun : m.Completes (requests.map (·.call)) m₁) (horder : requests'.Perm requests) :
    ∃ m₂, m.Completes (requests'.map (·.call)) m₂ ∧ m₁.store.Agrees m₂.store := by
  obtain ⟨rfl, L, hs⟩ := hm.sound
  have hstart : m.store.Admitted m.hardware L [] m.store := .nil hs
  have hawaits : m.Awaits requests := ⟨hdistinct, hfree⟩
  have hawaits' : m.Awaits requests' :=
    ⟨(horder.map _).nodup_iff.2 hdistinct, fun r hr => hfree r (horder.mem_iff.1 hr)⟩
  obtain ⟨hbatch, hsuits⟩ := Manager.Completes.admitted hstart rfl hawaits hrun
  have hbindings : (requests'.map (·.binding m)).Perm (requests.map (·.binding m)) := horder.map _
  obtain ⟨m₂, hrun'⟩ := Manager.exists_completes hstart rfl hbatch hbindings.subset hawaits' fun r hr =>
    hsuits r (horder.mem_iff.1 hr)
  obtain ⟨hbatch', -⟩ := Manager.Completes.admitted hstart rfl hawaits' hrun'
  exact ⟨m₂, hrun', hbatch.agrees hbatch' hbindings⟩

/-- the small switch with a third profile, and nothing bound yet -/
def vacant : Manager :=
  (start twoTiles true).live (crowding.dropLast ++
    [.call (.createProfile { pool := firstPool, size := 500, threshold := .dynamic 1 })])

/-- the second priority group of a manager -/
def secondGroup : PriorityGroupId := ⟨(Key.make .priorityGroup 0 1).id⟩

/-- the second port of a manager -/
def secondPort : PortId := ⟨(Key.make .port 0 1).id⟩

/-- both groups to the smaller profile, and the second port to the smallest -/
def fillings : List BindRequest :=
  [⟨.bindGroup firstGroup (some (profileAfter 0)), firstGroup.key, (profileAfter 0).raw,
      firstGroup.raw, _, PriorityGroupAttribute.profile.spec, rfl, by decide +kernel, rfl, rfl, rfl⟩,
    ⟨.bindGroup secondGroup (some (profileAfter 0)), secondGroup.key, (profileAfter 0).raw,
      secondGroup.raw, _, PriorityGroupAttribute.profile.spec, rfl, by decide +kernel, rfl, rfl, rfl⟩,
    ⟨.bindPort secondPort (some (profileAfter 2)), secondPort.key, (profileAfter 2).raw,
      secondPort.raw, _, PortAttribute.ingressProfile.spec, rfl, by decide +kernel, rfl, rfl, rfl⟩]

/-- on the small switch, the three can be bound backwards, too -/
theorem vacant_any_order : ∃ m₁ m₂, vacant.Completes (fillings.map (·.call)) m₁ ∧
    vacant.Completes (fillings.reverse.map (·.call)) m₂ ∧ m₁.store.Agrees m₂.store := by
  obtain ⟨m₁, hrun⟩ : ∃ m₁, vacant.Completes (fillings.map (·.call)) m₁ := by
    refine ⟨_, .cons_of_isOk ?_ (.cons_of_isOk ?_ (.cons_of_isOk ?_ rfl))⟩ <;> decide +kernel
  obtain ⟨m₂, hrun', hagrees⟩ := reached_any_order (m := vacant) ⟨true, _, rfl⟩ (by decide +kernel) (by decide +kernel)
    hrun fillings.reverse_perm
  exact ⟨m₁, m₂, hrun, hrun', hagrees⟩

end SharedBuffer
