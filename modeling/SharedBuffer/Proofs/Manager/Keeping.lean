/-
What stays as it is while a request does its work.

What a request is made of changes records and announces them. It counts nothing and puts nothing on record, which is
done around it, and by whether it went through: a view of the manager that depends on neither the records nor the
announcements (`Aside`) is kept by all of it (`Keeps`), however it ends.
-/
import SharedBuffer.Proofs.Manager.Dispatch

namespace SharedBuffer

/-- a view of a manager that has nothing to do with its records and announcements -/
structure Manager.Aside {V : Type} (view : Manager → V) : Prop where
  store : ∀ (m : Manager) store, view { m with store } = view m
  events : ∀ (m : Manager) events, view { m with events } = view m

theorem Manager.Aside.counters : Aside Manager.counters := ⟨fun _ _ => rfl, fun _ _ => rfl⟩

theorem Manager.Aside.audit : Aside Manager.audit := ⟨fun _ _ => rfl, fun _ _ => rfl⟩

namespace ManagerM

variable {α β V : Type} {view : Manager → V} {x : ManagerM α} {m : Manager}

/-- an action that leaves a view of the manager as it is, whether it is refused or not -/
def Keeps (view : Manager → V) (x : ManagerM α) : Prop := ∀ m, view (x.run m).2 = view m

namespace Keeps

theorem pure (a : α) : Keeps view (Pure.pure a : ManagerM α) := fun _ => rfl

theorem throw (e : Fault) : Keeps view (MonadExcept.throw e : ManagerM α) := fun _ => rfl

theorem reading (f : Manager → Except Fault α) : Keeps view (ManagerM.reading f) := fun _ => rfl

theorem readingStore (f : Store Record → Except Fault α) : Keeps view (ManagerM.readingStore f) := fun _ => rfl

theorem bind {f : α → ManagerM β} (hx : Keeps view x) (hf : ∀ a, Keeps view (f a)) : Keeps view (x >>= f) := by
  intro m
  have hm := hx m
  rw [run_bind]
  rcases hr : x.run m with ⟨e | a, m'⟩ <;> rw [hr] at hm
  · exact hm
  · exact (hf a m').trans hm

theorem attempt (hx : Keeps view x) : Keeps view (ManagerM.attempt x) := hx

theorem onStore (hv : Manager.Aside view) (op : StoreM Record α) : Keeps view (ManagerM.onStore op) := fun m =>
  hv.store m _

theorem onLists (hv : Manager.Aside view) (op : LinkM α) : Keeps view (ManagerM.onLists op) := fun m => hv.store m _

theorem announce (hv : Manager.Aside view) (e : Event) : Keeps view (ManagerM.announce e) := fun m => by
  cases hw : m.watched
  · simp [ManagerM.announce, update, hw]
  · simpa [ManagerM.announce, update, hw] using hv.events m _

theorem announceOf (hv : Manager.Aside view) (kind : ObjectKind) (k : Key) (event : Handle kind → Event) :
    Keeps view (ManagerM.announceOf kind k event) := by
  unfold ManagerM.announceOf
  split
  · exact .announce hv _
  · exact .pure ()

/-- how an action ends, with a view as it was -/
theorem ends (h : Keeps view x) (m : Manager) :
    Ends x m (fun _ m' => view m' = view m) fun _ m' => view m' = view m := by
  have hm := h m
  unfold Ends
  split <;> rename_i hr <;> rw [hr] at hm <;> exact hm

/-- an action that keeps a view until it knows how another ended, and then cannot end otherwise -/
theorem ends_attempt (hx : Keeps view x) {g : Except Fault α → ManagerM β} {P : β → Manager → Prop}
    {Q : Fault → Manager → Prop} (m : Manager)
    (hok : ∀ a m₁, view m₁ = view m → ∃ b m', (g (.ok a)).run m₁ = (.ok b, m') ∧ P b m')
    (herr : ∀ e m₁, view m₁ = view m → ∃ e' m', (g (.error e)).run m₁ = (.error e', m') ∧ Q e' m') :
    Ends (ManagerM.attempt x >>= g) m P Q := by
  have hm := hx m
  rcases hr : x.run m with ⟨e | a, m₁⟩ <;> rw [hr] at hm
  · obtain ⟨e', m', hg, hq⟩ := herr e m₁ hm
    exact Ends.of_run_error ((run_attempt_bind hr).trans hg) hq
  · obtain ⟨b, m', hg, hp⟩ := hok a m₁ hm
    exact Ends.of_run_ok ((run_attempt_bind hr).trans hg) hp

end Keeps

/-! ### Looks -/

theorem keeps_poolOf (k : Key) : Keeps view (poolOf k) := .readingStore _

theorem keeps_bindingTarget (kind : ObjectKind) (id : ObjectId) : Keeps view (bindingTarget kind id) := by
  unfold bindingTarget
  split
  · exact .pure none
  refine .bind (.reading _) fun profile => .bind (keeps_poolOf profile) fun pool => .bind (.readingStore _) fun q => ?_
  dsimp only
  split
  · exact .throw _
  · exact .pure _

section

variable (hv : Manager.Aside view)

include hv

/-! ### Records, figures and announcements -/

theorem keeps_announcePool (k : Key) : Keeps view (announcePool k) := by
  refine .bind (.attempt (.readingStore _)) fun taken => ?_
  cases taken with
  | ok snapshot => exact .announceOf hv _ _ _
  | error e => exact .pure ()

theorem keeps_announceProfile (k : Key) : Keeps view (announceProfile k) := by
  refine .bind (.attempt (.readingStore _)) fun taken => ?_
  cases taken with
  | ok snapshot => exact .announceOf hv _ _ _
  | error e => exact .pure ()

theorem keeps_modifyPool (k : Key) (f : Pool → Pool) : Keeps view (modifyPool k f) :=
  .bind (.readingStore _) fun _ => .onStore hv _

theorem keeps_modifyProfile (k : Key) (f : Profile → Profile) : Keeps view (modifyProfile k f) :=
  .bind (.readingStore _) fun _ => .onStore hv _

theorem keeps_writeTotals (figures : List (Key × Totals)) : Keeps view (writeTotals figures) := by
  induction figures with
  | nil => exact .pure ()
  | cons f figures ih => exact .bind (keeps_modifyPool hv _ _) fun _ => ih

theorem keeps_announcePools (ks : List Key) : Keeps view (announcePools ks) := by
  induction ks with
  | nil => exact .pure ()
  | cons k ks ih => exact .bind (keeps_announcePool hv k) fun _ => ih

theorem keeps_commit (figures : List (Key × Totals)) : Keeps view (commit figures) :=
  .bind (keeps_writeTotals hv figures) fun _ => keeps_announcePools hv _

/-! ### Pools -/

theorem keeps_tryCreatePool (attrs : List Attribute) : Keeps view (tryCreatePool attrs) :=
  .bind (.reading _) fun _ => .bind (.reading _) fun _ => .bind (.reading _) fun _ => .bind (.onStore hv _) fun k =>
    .bind (keeps_announcePool hv k) fun _ => .pure k

theorem keeps_resizePool (k : Key) (size : UInt64) : Keeps view (resizePool k size) :=
  .bind (.readingStore _) fun _ => .bind (.reading _) fun _ => .bind (.reading _) fun figures =>
    .bind (keeps_modifyPool hv _ _) fun _ => keeps_commit hv figures

theorem keeps_trySetPool (k : Key) (a : Attribute) : Keeps view (trySetPool k a) := by
  unfold trySetPool
  split
  · exact .bind (.reading _) fun size => keeps_resizePool hv k size
  · exact .throw _
  · exact .throw _

/-! ### Profiles -/

theorem keeps_tryCreateProfile (attrs : List Attribute) : Keeps view (tryCreateProfile attrs) := by
  refine .bind (.reading _) fun asked => .bind (.onStore hv _) fun k =>
    .bind (.attempt (.onLists hv _)) fun attached => ?_
  cases attached with
  | ok _ => exact .bind (keeps_announcePool hv _) fun _ => .bind (keeps_announceProfile hv k) fun _ => .pure k
  | error e => exact .bind (fun _ => hv.store _ _) fun _ => .throw e

theorem keeps_moveProfile (k : Key) (poolId : ObjectId) : Keeps view (moveProfile k poolId) := by
  refine .bind (.reading _) fun target => .bind (.readingStore _) fun mode => .bind (keeps_poolOf k) fun current => ?_
  split
  · exact .pure ()
  refine .bind (.readingStore _) fun source => .bind (.readingStore _) fun destination => ?_
  split
  · exact .throw _
  dsimp only
  split
  · exact .throw _
  exact .bind (.reading _) fun figures => .bind (.onLists hv _) fun _ => .bind (.onLists hv _) fun _ =>
    .bind (keeps_commit hv figures) fun _ => keeps_announceProfile hv k

theorem keeps_resizeProfile (k : Key) (size : UInt64) : Keeps view (resizeProfile k size) :=
  .bind (.reading _) fun figures => .bind (keeps_modifyProfile hv _ _) fun _ => .bind (keeps_commit hv figures) fun _ =>
    keeps_announceProfile hv k

theorem keeps_setThreshold (k : Key) (threshold : Threshold) : Keeps view (setThreshold k threshold) := by
  refine .bind (.readingStore _) fun p => .bind (keeps_poolOf k) fun pool => .bind (.readingStore _) fun mode => ?_
  split
  · exact .throw _
  exact .bind (keeps_modifyProfile hv _ _) fun _ => .bind (keeps_announcePool hv pool) fun _ =>
    keeps_announceProfile hv k

theorem keeps_setHeadroom (k : Key) (newXoff newXon : Option UInt64) :
    Keeps view (setHeadroom k newXoff newXon) := by
  refine .bind (.readingStore _) fun p => .bind (keeps_poolOf k) fun pool => .bind (.readingStore _) fun q => ?_
  split
  · exact .throw _
  exact .bind (.reading _) fun figures => .bind (keeps_modifyProfile hv _ _) fun _ =>
    .bind (keeps_commit hv figures) fun _ => keeps_announceProfile hv k

theorem keeps_trySetProfile (k : Key) (a : Attribute) : Keeps view (trySetProfile k a) := by
  unfold trySetProfile
  split
  · exact .bind (.reading _) fun id => keeps_moveProfile hv k id
  · exact .bind (.reading _) fun size => keeps_resizeProfile hv k size
  · exact .bind (.reading _) fun alpha => keeps_setThreshold hv k _
  · exact .bind (.reading _) fun limit => keeps_setThreshold hv k _
  · exact .bind (.reading _) fun xoff => keeps_setHeadroom hv k _ _
  · exact .bind (.reading _) fun xon => keeps_setHeadroom hv k _ _
  · exact .throw _
  · exact .throw _

theorem keeps_tryRemoveProfile (k : Key) : Keeps view (tryRemoveProfile k) :=
  .bind (keeps_poolOf k) fun _ => .bind (.onLists hv _) fun _ => .bind (.reading _) fun figures =>
    keeps_commit hv figures

/-! ### Bindings -/

theorem keeps_tryBind (k : Key) (id : ObjectId) : Keeps view (tryBind k id) := by
  have hoptional : ∀ o, Keeps view (announceOptional o) := fun o => by
    cases o with
    | none => exact .pure ()
    | some o => exact keeps_announceProfile hv o
  refine .bind (keeps_bindingTarget _ _) fun target => .bind (.readingStore _) fun current => ?_
  split
  · exact .pure _
  refine .bind (.reading _) fun figures => .bind ?_ fun _ => .bind ?_ fun _ => .bind (keeps_commit hv figures) fun _ =>
    .bind (hoptional current) fun _ => .bind (hoptional target) fun _ => .pure _
  · cases current with
    | none => exact .pure ()
    | some o => exact .onLists hv _
  · cases target with
    | none => exact .pure ()
    | some o => exact .onLists hv _

/-! ### Ports -/

theorem keeps_addSubqueues (kind : ObjectKind) (R : Roster) (toRecord : Subqueue → Record) (port : Key) (n : Nat)
    (i : UInt32) : Keeps view (addSubqueues kind R toRecord port n i) := by
  induction n generalizing i with
  | zero => exact .pure ()
  | succ n ih => exact .bind (.onStore hv _) fun _ => .bind (.onLists hv _) fun _ => ih (i + 1)

theorem keeps_registerPort (hlog : ∀ r, Keeps view (log r)) (number groups queues : UInt32) :
    Keeps view (registerPort number groups queues) := by
  refine .bind (.reading _) fun port => ?_
  split
  · exact .throw _
  exact .bind (.reading _) fun tile => .bind (.onStore hv _) fun port =>
    .bind (keeps_addSubqueues hv _ _ _ _ _ _) fun _ => .bind (keeps_addSubqueues hv _ _ _ _ _ _) fun _ =>
    .bind (hlog _) fun _ => .reading _

end

end ManagerM

end SharedBuffer
