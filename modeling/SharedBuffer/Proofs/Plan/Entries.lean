/-
A plan as one list of entries, in the order in which they are made.

An entry of the first two tables is one request. An entry of the others names consumers of one port in a row (`Span`)
and is a request for each of those that the port has; that the port has fewer is found out only after these.

Results: `PlanM.applySteps_eq`, `PlanM.forEntries_error`, where a plan that fails stopped, `PlanM.forEntries_ok`, what a
plan that goes through has done, and `PlanEntry.bindsSpan`.
-/
import SharedBuffer.Proofs.Manager.Runs

namespace SharedBuffer

/-! ## Tables of bindings -/

/-- the tables of bindings -/
inductive BindingTable where
  | groups
  | queues
  | ports
deriving DecidableEq

namespace BindingTable

/-- the name of a table -/
def name : BindingTable → String
  | groups => "BUFFER_PG"
  | queues => "BUFFER_QUEUE"
  | ports => "BUFFER_PORT_INGRESS_PROFILE"

/-- the kind of the consumers of a table -/
def kind : BindingTable → ObjectKind
  | groups => .priorityGroup
  | queues => .queue
  | ports => .port

/-- what the consumers of a table are called in a refusal -/
def plural : BindingTable → String
  | groups => "priority groups"
  | queues => "queues"
  | ports => "ports"

/-- the attribute that says what a consumer of a table is bound to -/
def profileAttribute : BindingTable → UInt32
  | groups => PriorityGroupAttribute.profile.id
  | queues => QueueAttribute.profile.id
  | ports => PortAttribute.ingressProfile.id

/-- the entries of a table: the key of some consumers, and the name of a profile -/
def entries (plan : Plan) : BindingTable → List (String × String)
  | groups => plan.priorityGroups
  | queues => plan.queues
  | ports => plan.ports

/-- the step that an entry is -/
def step (t : BindingTable) (text : String) : String := t.name ++ "|" ++ text

end BindingTable

/-- consumers of one port in a row: of its members those from an index on, so many of them -/
structure Span where
  members : List Key
  first : Nat
  count : Nat

namespace Span

/-- the consumers that are there -/
def present (s : Span) : List Key := (s.members.drop s.first).take s.count

/-- whether some of the consumers are not there -/
def Overruns (s : Span) : Prop := s.present.length < s.count

end Span

/-- the consumers that a key with indexes names -/
def Manager.spanOf? {kind : ObjectKind} (m : Manager)
    (membersOf : Manager → PortId → Except Fault (List (Handle kind))) (text : String) : Option Span := do
  let key ← ConsumerKey.ofText? text
  let port ← m.findPort? key.port
  let members ← (membersOf m port).toOption
  return ⟨members.map Handle.key, key.first.toNat, key.last.toNat + 1 - key.first.toNat⟩

namespace BindingTable

/-- the consumers that a key of a table names -/
def span? (t : BindingTable) (m : Manager) (text : String) : Option Span :=
  match t with
  | groups => m.spanOf? Manager.priorityGroupsOf text
  | queues => m.spanOf? Manager.queuesOf text
  | ports => do
    let number ← portNumber? text.toList
    let port ← m.findPort? number
    return ⟨[port.key], 0, 1⟩

/-- a key of a table covers a consumer -/
def Covers (t : BindingTable) (m : Manager) (text : String) (x : Key) : Prop :=
  ∃ span, t.span? m text = some span ∧ x ∈ span.present

end BindingTable

/-! ## Entries -/

/-- the step that failed -/
def PlanError.step? : PlanError → Option String
  | reference step _ | rejected step _ => some step
  | unreadable _ | malformed _ => none

/-- an entry of a plan -/
inductive PlanEntry where
  | pool (name : String) (pool : PoolPlan)
  | profile (name : String) (profile : ProfilePlan)
  | binding (t : BindingTable) (text profile : String)

namespace PlanEntry

/-- the step that an entry is -/
def step : PlanEntry → String
  | pool name _ => "BUFFER_POOL|" ++ name
  | profile name _ => "BUFFER_PROFILE|" ++ name
  | binding t text _ => t.step text

/-- makes an entry -/
def apply : PlanEntry → PlanM Unit
  | pool name p => PlanM.applyPool (name, p)
  | profile name p => PlanM.applyProfile (name, p)
  | binding .groups text name => PlanM.applyGroups (text, name)
  | binding .queues text name => PlanM.applyQueues (text, name)
  | binding .ports text name => PlanM.applyPort (text, name)

end PlanEntry

namespace Plan

/-- the bindings of a plan, in the order in which they are made -/
def bindings (plan : Plan) : List (BindingTable × String × String) :=
  [BindingTable.groups, .queues, .ports].flatMap fun t => (t.entries plan).map (t, ·)

/-- the entries of a plan, in the order in which they are made -/
def entries (plan : Plan) : List PlanEntry :=
  plan.pools.map (fun e => .pool e.1 e.2) ++ (plan.profiles.map (fun e => .profile e.1 e.2) ++
    plan.bindings.map fun e => .binding e.1 e.2.1 e.2.2)

end Plan

namespace PlanM

variable {α β : Type} {p : PlanState}

theorem run_reading_bind (f : Manager → Except PlanError α) (g : α → PlanM β) :
    (reading f >>= g).run p = match f p.manager with
      | .ok a => (g a).run p
      | .error e => (.error e, p) := by
  rw [run_bind, reading, ExceptT.run_mk]
  cases f p.manager <;> rfl

theorem run_readingApplied_bind (f : AppliedPlan → Except PlanError α) (g : α → PlanM β) :
    (readingApplied f >>= g).run p = match f p.applied with
      | .ok a => (g a).run p
      | .error e => (.error e, p) := by
  rw [run_bind, readingApplied, ExceptT.run_mk]
  cases f p.applied <;> rfl

/-! ## Entries in a row -/

theorem forEntries_append (apply : α → PlanM Unit) (l l' : List α) :
    forEntries apply (l ++ l') = forEntries apply l >>= fun _ => forEntries apply l' := by
  induction l with
  | nil => simp [forEntries]
  | cons entry rest ih => simp [forEntries, ih]

theorem forEntries_map (apply : β → PlanM Unit) (f : α → β) (l : List α) :
    forEntries apply (l.map f) = forEntries (fun e => apply (f e)) l := by
  induction l with
  | nil => rfl
  | cons entry rest ih => simp [forEntries, ih]

/-- **A plan is its entries in a row.** -/
theorem applySteps_eq (plan : Plan) : applySteps plan = forEntries PlanEntry.apply plan.entries := by
  simp only [applySteps, Plan.entries, Plan.bindings, List.flatMap_cons, List.flatMap_nil, List.append_nil,
    List.map_append, List.map_map, forEntries_append, forEntries_map]
  rfl

theorem run_of_apply_ok {plan : Plan} {m m' : Manager} {applied : AppliedPlan}
    (h : plan.apply m = (.ok applied, m')) : ∃ p, (forEntries PlanEntry.apply plan.entries).run { manager := m } =
      (.ok (), p) ∧ p.applied = applied ∧ m'.store = p.manager.store := by
  rw [← applySteps_eq]
  rcases hr : (applySteps plan).run { manager := m } with ⟨e | ⟨⟩, p⟩ <;> rw [Plan.apply, hr] at h <;> cases h
  exact ⟨p, rfl, rfl, rfl⟩

theorem run_of_apply_error {plan : Plan} {m m' : Manager} {e : PlanError} (h : plan.apply m = (.error e, m')) :
    ∃ p, (forEntries PlanEntry.apply plan.entries).run { manager := m } = (.error e, p) ∧
      m'.store = p.manager.store := by
  rw [← applySteps_eq]
  rcases hr : (applySteps plan).run { manager := m } with ⟨e' | ⟨⟩, p⟩ <;> rw [Plan.apply, hr] at h <;> cases h
  exact ⟨p, rfl, rfl⟩

/-- **Entries that fail have stopped at one of them**, with all before it made. -/
theorem forEntries_error {apply : α → PlanM Unit} {l : List α} {p p' : PlanState} {e : PlanError}
    (h : (forEntries apply l).run p = (.error e, p')) :
    ∃ pre entry post q, l = pre ++ entry :: post ∧ (forEntries apply pre).run p = (.ok (), q) ∧
      (apply entry).run q = (.error e, p') := by
  induction l generalizing p with
  | nil => cases h
  | cons entry rest ih =>
    rcases hr : (apply entry).run p with ⟨e' | ⟨⟩, q⟩
    · obtain ⟨he, rfl⟩ := Prod.mk.inj ((run_bind_error hr).symm.trans h)
      cases he
      exact ⟨[], entry, rest, p, rfl, rfl, by simpa using hr⟩
    · obtain ⟨pre, entry', post, q', rfl, hpre, hentry⟩ := ih ((run_bind_ok hr).symm.trans h)
      exact ⟨entry :: pre, entry', post, q', rfl, (run_bind_ok hr).trans hpre, hentry⟩

/-- **What each entry that goes through carries on holds of all of them**, when they have. -/
theorem forEntries_ok {apply : α → PlanM Unit} {l : List α} {I : List α → PlanState → Prop} {p' : PlanState}
    (hstart : I [] p)
    (hstep : ∀ pre entry post {q q'}, l = pre ++ entry :: post → I pre q → (apply entry).run q = (.ok (), q') →
      I (pre ++ [entry]) q')
    (h : (forEntries apply l).run p = (.ok (), p')) : I l p' := by
  induction l generalizing p I with
  | nil =>
    cases h
    exact hstart
  | cons entry rest ih =>
    rcases hr : (apply entry).run p with ⟨e | ⟨⟩, q⟩
    · cases (run_bind_error hr).symm.trans h
    · exact ih (I := fun pre => I (entry :: pre)) (hstep [] entry rest rfl hstart hr)
        (fun pre entry' post _ _ hrest => hstep (entry :: pre) entry' post (congrArg (entry :: ·) hrest))
        ((run_bind_ok hr).symm.trans h)

/-! ## Bindings -/

/-- binds consumers of a table one after the other -/
def bindEach (t : BindingTable) (step : String) (profile : ProfileId) (xs : List Key) : PlanM Unit :=
  forEntries (fun x => request step (ManagerM.setAttribute x.id ⟨t.profileAttribute, .oid profile.raw⟩)) xs

/-- binds the consumers that are there, then fails if some are not -/
def bindSpan (t : BindingTable) (step : String) (profile : ProfileId) (span : Span) : PlanM Unit := do
  bindEach t step profile span.present
  if span.present.length < span.count then
    throw (.reference step ("port has " ++ toString span.members.length ++ " " ++ t.plural))

/-- consumers are bound up to the first that is not there -/
theorem bindRange_eq {kind : ObjectKind} {t : BindingTable} {step : String}
    {bind : Handle kind → Option ProfileId → ManagerM Unit} {profile : ProfileId}
    (hbind : ∀ h : Handle kind, bind h (some profile) =
      ManagerM.setAttribute h.key.id ⟨t.profileAttribute, .oid profile.raw⟩)
    (members : List (Handle kind)) (n index : Nat) :
    bindRange step t.plural bind members profile n index =
      bindSpan t step profile ⟨members.map Handle.key, index, n⟩ := by
  induction n generalizing index with
  | zero => simp [bindRange, bindSpan, bindEach, Span.present, forEntries]
  | succ n ih =>
    unfold bindRange
    cases hget : members[index]? with
    | none =>
      have hdrop : members.drop index = [] := List.drop_eq_nil_of_le (List.getElem?_eq_none_iff.1 hget)
      simp [bindSpan, bindEach, Span.present, forEntries, ← List.map_drop, hdrop]
    | some member =>
      have hdrop : members.drop index = member :: members.drop (index + 1) := by
        obtain ⟨hlt, rfl⟩ := List.getElem?_eq_some_iff.1 hget
        exact List.drop_eq_getElem_cons hlt
      simp only [ih, bindSpan, bindEach, Span.present, ← List.map_drop, hdrop, List.map_cons, List.take_succ_cons,
        forEntries, hbind, bind_assoc, List.length_cons, Nat.add_lt_add_iff_right, List.length_map]

/-- the entry of a table with a profile that was made, and a key that names consumers of a port -/
structure Resolves (p : PlanState) (t : BindingTable) (text name : String) (profile : ProfileId) (span : Span) :
    Prop where
  profile : p.applied.profiles.lookup name = some profile
  span : t.span? p.manager text = some span

/-- an entry of a table that is what its consumers are bound by, or fails before it binds any -/
def BindsSpan (t : BindingTable) (text name : String) (x : PlanM Unit) (p : PlanState) : Prop :=
  (∃ e, x.run p = (.error e, p) ∧ e.step? = some (t.step text)) ∨
    ∃ profile span, Resolves p t text name profile span ∧
      x.run p = (bindSpan t (t.step text) profile span >>= fun _ => stepDone).run p

theorem bindsSpan_created {t : BindingTable} {text name : String} {f : ProfileId → PlanM Unit}
    (h : ∀ profile, p.applied.profiles.lookup name = some profile → BindsSpan t text name (f profile) p) :
    BindsSpan t text name (readingApplied (fun a => created (t.step text) "profile" name a.profiles) >>= f) p := by
  unfold BindsSpan
  rw [run_readingApplied_bind, created]
  cases hl : p.applied.profiles.lookup name with
  | none => exact .inl ⟨_, rfl, rfl⟩
  | some profile => exact h profile hl

theorem bindsSpan_applyConsumers {kind : ObjectKind} {t : BindingTable}
    {membersOf : Manager → PortId → Except Fault (List (Handle kind))}
    {bind : Handle kind → Option ProfileId → ManagerM Unit} (hspan : ∀ m text, t.span? m text = m.spanOf? membersOf text)
    (hbind : ∀ (h : Handle kind) (profile : ProfileId), bind h (some profile) =
      ManagerM.setAttribute h.key.id ⟨t.profileAttribute, .oid profile.raw⟩) (text name : String) :
    BindsSpan t text name (applyConsumers t.name t.plural membersOf bind (text, name)) p := by
  refine bindsSpan_created fun profile hprofile => ?_
  unfold BindsSpan consumersOf
  cases hkey : ConsumerKey.ofText? text with
  | none => exact .inl ⟨_, rfl, rfl⟩
  | some key =>
    simp only [bind_assoc, run_reading_bind]
    cases hport : p.manager.findPort? key.port with
    | none => exact .inl ⟨_, rfl, rfl⟩
    | some port =>
      simp only [pure_bind, run_reading_bind]
      cases hmembers : membersOf p.manager port with
      | error e => exact .inl ⟨_, rfl, rfl⟩
      | ok members =>
        refine .inr ⟨profile, ⟨members.map Handle.key, key.first.toNat, key.last.toNat + 1 - key.first.toNat⟩,
          ⟨hprofile, ?_⟩, ?_⟩
        · rw [hspan, Manager.spanOf?, hkey]
          simp only [Option.bind_eq_bind, Option.bind_some, hport, hmembers, Except.toOption]
          rfl
        · simp only [Except.mapError, bindRange_eq (hbind · profile)]
          rfl

theorem bindsSpan_applyPort (text name : String) : BindsSpan .ports text name (applyPort (text, name)) p := by
  refine bindsSpan_created fun profile hprofile => ?_
  unfold BindsSpan
  cases hnumber : portNumber? text.toList with
  | none => exact .inl ⟨_, rfl, rfl⟩
  | some number =>
    simp only [run_reading_bind]
    cases hport : p.manager.findPort? number with
    | none => exact .inl ⟨_, rfl, rfl⟩
    | some port =>
      refine .inr ⟨profile, ⟨[port.key], 0, 1⟩, ⟨hprofile, ?_⟩, ?_⟩
      · rw [BindingTable.span?, hnumber]
        simp only [Option.bind_eq_bind, Option.bind_some, hport]
        rfl
      · simp [bindSpan, bindEach, Span.present, forEntries]
        rfl

end PlanM

open PlanM in
/-- **An entry of bindings binds what its key covers**, or fails before it binds anything. -/
theorem PlanEntry.bindsSpan (t : BindingTable) (text name : String) (p : PlanState) :
    BindsSpan t text name (binding t text name).apply p := by
  cases t with
  | groups => exact bindsSpan_applyConsumers (fun _ _ => rfl) (fun _ _ => rfl) text name
  | queues => exact bindsSpan_applyConsumers (fun _ _ => rfl) (fun _ _ => rfl) text name
  | ports => exact bindsSpan_applyPort text name

end SharedBuffer
