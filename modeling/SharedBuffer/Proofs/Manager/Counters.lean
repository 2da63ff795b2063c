/-
The counters over a run.

A run is told by its calls, each with the manager it was made of (`Traced`); calls that a plan makes are among them, and
what happens to the outbox in between is left out. What each counter shows is the number of calls with the upshots that
it counts, as long as it can count that far (`Traced.shown`), and the numbers of pools, profiles and bound consumers are
what those calls leave. Refused requests are counted wherever they come in, except where a port is brought up.

Results: `errors_counted` and `reached_counters_balance`.
-/
import SharedBuffer.Proofs.Manager.Census
import SharedBuffer.Proofs.Manager.Mirror

namespace SharedBuffer

open Manager

/-! ## Runs by their calls -/

/-- the calls that lead to a manager, the latest first -/
inductive Traced (hw : Hardware) : List Turn → Manager → Prop where
  | start (watched : Bool) : Traced hw [] (start hw watched)
  | call {log : List Turn} {m : Manager} (h : Traced hw log m) (c : Call) :
    Traced hw (⟨m, c⟩ :: log) (c.perform.run m).2
  | outbox {log : List Turn} {m : Manager} (h : Traced hw log m) (watched : Bool) (events : List Event)
    (audit : List AuditRecord) : Traced hw log { m with watched, events, audit }

/-- the calls of a list, made one after the other, the latest first -/
def Manager.turns (m : Manager) : List Call → List Turn
  | [] => []
  | c :: cs => (c.perform.run m).2.turns cs ++ [⟨m, c⟩]

namespace Traced

variable {hw : Hardware} {log : List Turn} {m : Manager}

theorem calls (h : Traced hw log m) (cs : List Call) : Traced hw (m.turns cs ++ log) (m.live (cs.map .call)) := by
  induction cs generalizing m log with
  | nil => exact h
  | cons c cs ih =>
    rw [turns, List.append_assoc]
    exact ih (h.call c)

/-- the calls of a list, made from the start -/
theorem started (hw : Hardware) (watched : Bool) (cs : List Call) :
    Traced hw ((Manager.start hw watched).turns cs) ((Manager.start hw watched).live (cs.map .call)) := by
  have hcalls : Traced hw ((Manager.start hw watched).turns cs ++ []) _ := (Traced.start watched).calls cs
  rwa [List.append_nil] at hcalls

theorem sound (h : Traced hw log m) : m.IsSound hw := by
  induction h with
  | start watched => exact isSound_start hw watched
  | call h c ih => exact ih.call c
  | outbox h watched events audit ih => exact ih

end Traced

/-- **Whatever is reached is told by calls.** -/
theorem Manager.Reached.exists_traced {hw : Hardware} {m : Manager} (hm : m.Reached hw) : ∃ log, Traced hw log m := by
  obtain ⟨watched, acts, rfl⟩ := hm
  have hact : ∀ m a, (∃ log, Traced hw log m) → ∃ log, Traced hw log (m.act a) := by
    rintro m a ⟨log, h⟩
    cases a with
    | call c => exact ⟨_, h.call c⟩
    | plan p =>
      obtain ⟨log', h'⟩ := PlanM.keeps_applySteps (I := fun m => ∃ log, Traced hw log m)
        (fun m c hm => hm.elim fun log h => ⟨_, h.call c⟩) p { manager := m } ⟨log, h⟩
      exact ⟨log', h'.outbox _ _ _⟩
    | watch watched => exact ⟨log, h.outbox _ _ _⟩
    | drain => exact ⟨log, h.outbox _ _ _⟩
  have hlive : ∀ m, (∃ log, Traced hw log m) → ∃ log, Traced hw log (m.live acts) := by
    induction acts with
    | nil => exact fun m h => h
    | cons a acts ih => exact fun m h => ih _ (hact m a h)
  exact hlive _ ⟨[], .start watched⟩

/-! ## What the counters show -/

namespace Turn

variable {hw : Hardware} {e : Turn}

/-- what holds of both endings of a call, each with what it comes to, holds of what the call has come to -/
theorem of_ends {P : Upshot → Manager → Prop} (h : Ends e.call.perform e.before
    (fun _ m' => P (e.call.upshot e.before m') m') fun _ m' => P (if e.call.registers then .nothing else .refused) m') :
    P e.upshot e.after := by
  rcases hr : e.call.perform.run e.before with ⟨f | id, m'⟩
  · simpa [after, upshot, isRefused, answer, hr, Except.isOk, Except.toBool] using h.error hr
  · simpa [after, upshot, isRefused, answer, hr, Except.isOk, Except.toBool] using h.ok hr

theorem counters_after (h : e.before.IsSound hw) : e.after.counters = e.before.counters.enter e.upshot := by
  obtain ⟨rfl, L, hs⟩ := h
  exact of_ends (P := fun u m' => m'.counters = e.before.counters.enter u) (e.call.counts hs)

theorem altered (h : e.before.IsSound hw) : e.before.store.Altered e.upshot e.after.store := by
  obtain ⟨rfl, L, hs⟩ := h
  refine of_ends (P := fun u m' => e.before.store.Altered u m'.store) ((e.call.alters hs).mono (fun _ _ hp => hp) ?_)
  intro _ m' hq
  cases e.call.registers
  · exact ⟨hq.objects, hq.bound⟩
  · exact hq

end Turn

/-- one of the counters, with the upshots that it counts -/
structure Counter where
  shown : Counters → UInt64
  counts : Upshot → Bool
  start : shown {} = 0
  step : ∀ c u, shown (c.enter u) = if counts u then bump (shown c) else shown c

namespace Counter

def poolsCreated : Counter where
  shown := Counters.poolsCreated
  counts u := u = .created .pool
  start := rfl
  step c u := by fun_cases Counters.enter c u <;> simp_all

def poolsRemoved : Counter where
  shown := Counters.poolsRemoved
  counts u := u = .removed .pool
  start := rfl
  step c u := by fun_cases Counters.enter c u <;> simp_all

def profilesCreated : Counter where
  shown := Counters.profilesCreated
  counts u := u = .created .profile
  start := rfl
  step c u := by fun_cases Counters.enter c u <;> simp_all

def profilesRemoved : Counter where
  shown := Counters.profilesRemoved
  counts u := u = .removed .profile
  start := rfl
  step c u := by fun_cases Counters.enter c u <;> simp_all

def groupBindings : Counter where
  shown := Counters.groupBindings
  counts u := u = .bound .priorityGroup || u = .rebound .priorityGroup
  start := rfl
  step c u := by fun_cases Counters.enter c u <;> simp_all

def queueBindings : Counter where
  shown := Counters.queueBindings
  counts u := u = .bound .queue || u = .rebound .queue
  start := rfl
  step c u := by fun_cases Counters.enter c u <;> simp_all

/-- whatever is bound and is neither a priority group nor a queue -/
def portBindings : Counter where
  shown := Counters.portBindings
  counts
    | .bound kind | .rebound kind => kind ≠ .priorityGroup && kind ≠ .queue
    | _ => false
  start := rfl
  step c u := by fun_cases Counters.enter c u <;> simp_all

def unbindings : Counter where
  shown := Counters.unbindings
  counts u := u = .unbound
  start := rfl
  step c u := by fun_cases Counters.enter c u <;> simp_all

def errors : Counter where
  shown := Counters.errors
  counts u := u = .refused
  start := rfl
  step c u := by fun_cases Counters.enter c u <;> simp_all

end Counter

namespace Traced

variable {hw : Hardware} {log : List Turn} {m : Manager}

/-- **A counter shows how many calls had the upshots that it counts**, up to the largest number it can show. -/
theorem shown (h : Traced hw log m) (counter : Counter) :
    (counter.shown m.counters).toNat = min (log.countP fun e => counter.counts e.upshot) (UInt64.size - 1) := by
  induction h with
  | start watched => exact congrArg UInt64.toNat counter.start
  | @call log m h c ih =>
    have hafter : (c.perform.run m).2.counters = m.counters.enter (Turn.upshot ⟨m, c⟩) :=
      Turn.counters_after (e := ⟨m, c⟩) h.sound
    rw [hafter, counter.step, List.countP_cons]
    split
    · rw [toNat_bump, ih]
      omega
    · rw [ih, Nat.add_zero]
  | outbox h watched events audit ih => exact ih

/-- a counter that has not come to its end -/
theorem shown_exactly (h : Traced hw log m) (hfew : log.length < 2 ^ 64) (counter : Counter) :
    (counter.shown m.counters).toNat = log.countP fun e => counter.counts e.upshot := by
  have hle := List.countP_le_length (p := fun e : Turn => counter.counts e.upshot) (l := log)
  rw [h.shown counter]
  simp only [UInt64.size]
  omega

/-! ## What the calls leave -/

/-- the pools and profiles that are there are those that were created and not removed -/
theorem created_eq (h : Traced hw log m) {kind : ObjectKind} (hkind : kind = .pool ∨ kind = .profile) :
    log.countP (fun e => e.upshot = .created kind) =
      log.countP (fun e => e.upshot = .removed kind) + m.store.countKind kind := by
  induction h with
  | start watched => rfl
  | @call log m h c ih =>
    have hstep : (c.perform.run m).2.store.countKind kind + _ = m.store.countKind kind + _ :=
      (Turn.altered (e := ⟨m, c⟩) h.sound).objects kind hkind
    simp only [List.countP_cons, decide_eq_true_eq]
    omega
  | outbox h watched events audit ih => exact ih

/-- every binding that was counted is of a consumer that is bound still, was unbound again, or was bound anew -/
theorem bindings_eq (h : Traced hw log m) :
    log.countP (fun e => Counter.groupBindings.counts e.upshot) +
        log.countP (fun e => Counter.queueBindings.counts e.upshot) +
        log.countP (fun e => Counter.portBindings.counts e.upshot) =
      log.countP (fun e => e.upshot = .unbound) + m.store.bound.length + log.countP fun e => e.upshot.isRebound := by
  induction h with
  | start watched => rfl
  | @call log m h c ih =>
    have hstep : (c.perform.run m).2.store.bound.length + _ = m.store.bound.length + _ :=
      (Turn.altered (e := ⟨m, c⟩) h.sound).bound
    -- one of the three counters counts a binding, whatever is bound
    have hone : ∀ u : Upshot, (if Counter.groupBindings.counts u then 1 else 0) +
        (if Counter.queueBindings.counts u then 1 else 0) + (if Counter.portBindings.counts u then 1 else 0) =
          (if u.isBound then 1 else 0) + if u.isRebound then 1 else 0 := by
      rintro (_ | _ | kind | kind | kind | kind | _) <;> try cases kind
      all_goals rfl
    have hcall := hone (Turn.upshot ⟨m, c⟩)
    simp only [List.countP_cons, decide_eq_true_eq]
    omega
  | outbox h watched events audit ih => exact ih

end Traced

/-! ## Refusals -/

theorem Upshot.ofBinding_ne_refused (consumer : ObjectKind) (o o' : Option Key) : ofBinding consumer o o' ≠ refused := by
  fun_cases ofBinding consumer o o' <;> simp

theorem Call.upshot_ne_refused (c : Call) (m m' : Manager) : c.upshot m m' ≠ .refused := by
  unfold upshot
  split
  case h_3 => exact Upshot.ofBinding_ne_refused _ _ _
  all_goals nofun

/-- a refusal comes of a request that is refused, but of no port -/
theorem Turn.upshot_eq_refused {e : Turn} : e.upshot = .refused ↔ e.isRefused = true ∧ e.call.registers = false := by
  unfold upshot
  cases e.isRefused
  · simpa using e.call.upshot_ne_refused e.before e.after
  · cases e.call.registers <;> simp

/-- **Every refused request is counted, once**, but for ports that are not brought up. A refused port leaves the count of
errors as it is. -/
theorem errors_counted {hw : Hardware} {log : List Turn} {m : Manager} (h : Traced hw log m)
    (hfew : log.length < 2 ^ 64) :
    m.counters.errors.toNat = log.countP fun e => e.isRefused && !e.call.registers := by
  refine (h.shown_exactly hfew .errors).trans (List.countP_congr fun e _ => ?_)
  simp [Counter.errors, Turn.upshot_eq_refused]

/-- a port that is brought up twice -/
def portTwice : List Call := [.request (.registerPort 0 0 0), .request (.registerPort 0 0 0)]

/-- the port cannot be removed either, and that is counted -/
theorem portTwice_errors_counted :
    let cs := portTwice ++ [.request (.remove (Key.make .port 0 0).id)]
    ((start twoTiles true).live (cs.map .call)).counters.errors = 1 ∧
      ((start twoTiles true).turns cs).countP (fun e => e.isRefused && !e.call.registers) = 1 := by
  intro cs
  have hcount := errors_counted (Traced.started twoTiles true cs) (by decide)
  have hone : ((start twoTiles true).live (cs.map .call)).counters.errors = 1 := by decide +kernel
  rw [hone] at hcount
  exact ⟨hone, hcount.symm⟩

/-- the second time it is refused, and nothing counts that -/
theorem portTwice_uncounted :
    Traced twoTiles ((start twoTiles true).turns portTwice) ((start twoTiles true).live (portTwice.map .call)) ∧
      ((start twoTiles true).turns portTwice).length < 2 ^ 64 ∧
      ((start twoTiles true).turns portTwice).countP Turn.isRefused = 1 ∧
      ((start twoTiles true).live (portTwice.map .call)).counters.errors = 0 :=
  ⟨.started twoTiles true portTwice, by decide, by decide +kernel, by decide +kernel⟩

/-! ## The balance -/

/-- a call that asks for nothing new comes to nothing -/
theorem Call.upshot_of_repeats {m m' : Manager} {L : Layout} {c : Call} {id : ObjectId}
    (h : Sound m.hardware m.store L) (hc : m.Repeats c) (hr : c.perform.run m = (.ok id, m')) :
    c.upshot m m' = .nothing := by
  obtain ⟨object, a, k, target, hset, hkey, hvalue, hsame⟩ := hc
  obtain ⟨k', -, hkey', -, hlive, hf, hsets⟩ := Call.sets h hset hr
  obtain rfl : k' = k := Option.some.inj (hkey'.symm.trans hkey)
  rw [upshot_of_setting hset hkey]
  rcases hsame with ⟨htakes, rfl⟩ | ⟨hprofile, -⟩
  · cases hsets with
    | change asked obtained =>
      have hb := asked.buildable h.wired hlive
      cases asked with
      | binding hk hid hto =>
        obtain rfl := Option.some.inj (hid.symm.trans hvalue)
        rw [Manager.rebound, obtained.binding h hb, if_pos rfl, ManagerM.owner_eq_of_bindsTo h hto,
          Upshot.ofBinding_self]
      | _ hk => simp [hk, Roster.takes] at htakes
    | threshold hk => simp [hk, Roster.takes] at htakes
  · exact ManagerM.rebound_of_kind h hf (by rw [hprofile]; rfl)

/-- what is refused, or is so already, is counted among the errors at most -/
theorem Manager.IsSound.changes_kept {hw : Hardware} {m : Manager} (h : m.IsSound hw) {c : Call}
    (hc : (∃ fault, (c.perform.run m).1 = .error fault) ∨ m.Repeats c) :
    (c.perform.run m).2.counters.changes = m.counters.changes := by
  obtain ⟨rfl, L, hs⟩ := h
  rcases hr : c.perform.run m with ⟨e | id, m'⟩
  · have hcounters := (c.counts hs).error hr
    dsimp only at hcounters ⊢
    rw [hcounters]
    split <;> rfl
  · have hrepeats : m.Repeats c := hc.resolve_left fun ⟨fault, hfault⟩ => by
      rw [hr] at hfault
      cases hfault
    have hcounters := (c.counts hs).ok hr
    rw [Call.upshot_of_repeats hs hrepeats hr] at hcounters
    exact congrArg Counters.changes hcounters

/-- **The counters balance.** However the calls are told that led to what is reached: of the pools and profiles that
were created, those that were not removed are there; of the bindings that were made, one is left for every consumer that
is bound, one was undone for every unbinding, and one was replaced each time that a consumer went from one profile to
another. A call that is refused, or that asks for what is so already, leaves all these counters as they are. -/
theorem reached_counters_balance {hw : Hardware} {m : Manager} (hm : Reached hw m) :
    (∃ log, Traced hw log m) ∧
      (∀ log, Traced hw log m → log.length < 2 ^ 64 →
        m.counters.poolsCreated.toNat = m.counters.poolsRemoved.toNat + m.poolCount ∧
          m.counters.profilesCreated.toNat = m.counters.profilesRemoved.toNat + m.profileCount ∧
          m.counters.groupBindings.toNat + m.counters.queueBindings.toNat + m.counters.portBindings.toNat =
            m.counters.unbindings.toNat + m.store.bound.length + log.countP fun e => e.upshot.isRebound) ∧
      ∀ c : Call, (∃ fault, (c.perform.run m).1 = .error fault) ∨ m.Repeats c →
        (c.perform.run m).2.counters.changes = m.counters.changes := by
  refine ⟨hm.exists_traced, fun log hlog hfew => ?_, fun c hc => hm.sound.changes_kept hc⟩
  have hshown := hlog.shown_exactly hfew
  refine ⟨?_, ?_, ?_⟩
  · calc m.counters.poolsCreated.toNat
        = log.countP fun e => e.upshot = .created .pool := hshown .poolsCreated
      _ = log.countP (fun e => e.upshot = .removed .pool) + m.poolCount := hlog.created_eq (.inl rfl)
      _ = m.counters.poolsRemoved.toNat + m.poolCount := congrArg (· + m.poolCount) (hshown .poolsRemoved).symm
  · calc m.counters.profilesCreated.toNat
        = log.countP fun e => e.upshot = .created .profile := hshown .profilesCreated
      _ = log.countP (fun e => e.upshot = .removed .profile) + m.profileCount := hlog.created_eq (.inr rfl)
      _ = m.counters.profilesRemoved.toNat + m.profileCount :=
        congrArg (· + m.profileCount) (hshown .profilesRemoved).symm
  · have hbound : m.counters.unbindings.toNat = log.countP fun e => e.upshot = .unbound := hshown .unbindings
    rw [hbound, ← hlog.bindings_eq, ← hshown .groupBindings, ← hshown .queueBindings, ← hshown .portBindings]
    rfl

/-- two profiles, of which the one that the group goes to from the other is left -/
def trading : List Call :=
  [.request (.registerPort 0 1 1), .createPool .ingress 10000 none,
    .createProfile { pool := firstPool, size := 1000, threshold := .dynamic 1 },
    .createProfile { pool := firstPool, size := 500, threshold := .dynamic 1 },
    .bindGroup firstGroup (some (profileAfter 0)), .bindGroup firstGroup (some (profileAfter 1)),
    .removeProfile (profileAfter 0), .bindGroup firstGroup none, .bindGroup firstGroup (some (profileAfter 1))]

theorem trading_counters_balance :
    let m := (start twoTiles true).live (trading.map .call)
    (m.counters.profilesCreated = 2 ∧ m.counters.profilesRemoved = 1 ∧ m.profileCount = 1) ∧
      (m.counters.groupBindings = 3 ∧ m.counters.unbindings = 1 ∧ m.store.bound = [firstGroup.key] ∧
        ((start twoTiles true).turns trading).countP (fun e => e.upshot.isRebound) = 1) ∧
      ((Call.bindGroup firstGroup (some (profileAfter 1))).perform.run m).2.counters.changes = m.counters.changes := by
  intro m
  have hreached : Reached twoTiles m := ⟨true, trading.map .call, rfl⟩
  obtain ⟨-, hbalance, hkept⟩ := reached_counters_balance hreached
  obtain ⟨-, hprofiles, hbindings⟩ := hbalance _ (Traced.started twoTiles true trading) (by decide)
  have hcreated : m.counters.profilesCreated = 2 ∧ m.counters.profilesRemoved = 1 := by decide +kernel
  have hbound : m.counters.groupBindings = 3 ∧ m.counters.unbindings = 1 ∧ m.store.bound = [firstGroup.key] := by
    decide +kernel
  have hothers : m.counters.queueBindings = 0 ∧ m.counters.portBindings = 0 := by decide +kernel
  rw [hcreated.1, hcreated.2] at hprofiles
  rw [hbound.1, hbound.2.1, hbound.2.2, hothers.1, hothers.2] at hbindings
  rw [List.length_singleton] at hbindings
  generalize ((start twoTiles true).turns trading).countP (fun e => e.upshot.isRebound) = rebound at hbindings ⊢
  generalize m.profileCount = profiles at hprofiles ⊢
  refine ⟨⟨hcreated.1, hcreated.2, ?_⟩, ⟨hbound.1, hbound.2.1, hbound.2.2, ?_⟩, hkept _ (.inr ?_)⟩
  · change 2 = 1 + profiles at hprofiles
    omega
  · change 3 + 0 + 0 = 1 + 1 + rebound at hbindings
    omega
  · exact ⟨_, _, firstGroup.key, (profileAfter 1).raw, rfl, by decide +kernel, by decide +kernel,
      .inl ⟨rfl, by decide +kernel⟩⟩

end SharedBuffer
