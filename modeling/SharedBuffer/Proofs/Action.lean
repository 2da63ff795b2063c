/-
How an action ends: with an answer for which one condition holds, or refused under another.

Every action of the store, of its lists and of the manager is a run of the same shape, `ExceptT ε (StateM σ)`: it
answers or refuses, and either way leaves a state. `Ends x s P Q` says of a run from `s` that an answer satisfies `P`
and a refusal satisfies `Q`, each together with the state left behind. A sequence is taken apart by `Ends.bind`; a
part that cannot be refused is one whose refusals satisfy nothing.
-/
import Mathlib.Tactic
import SharedBuffer.Manager.Basic

namespace SharedBuffer

section

variable {ε σ α β : Type}

/-- a run from a state ends with an answer as `P` says, or is refused as `Q` says -/
def Ends (x : ExceptT ε (StateM σ) α) (s : σ) (P : α → σ → Prop) (Q : ε → σ → Prop) : Prop :=
  match x.run s with
  | (.ok a, t) => P a t
  | (.error e, t) => Q e t

theorem run_bind (x : ExceptT ε (StateM σ) α) (f : α → ExceptT ε (StateM σ) β) (s : σ) :
    (x >>= f).run s = match x.run s with
      | (.ok a, t) => (f a).run t
      | (.error e, t) => (.error e, t) := by
  rw [ExceptT.run_bind]
  change (match x.run s with
    | (r, t) => (match r with
      | .ok a => (f a).run
      | .error e => pure (.error e)) t) = _
  rcases x.run s with ⟨r | r, t⟩ <;> rfl

/-- a part that answers hands its answer and its state to what follows -/
theorem run_bind_ok {x : ExceptT ε (StateM σ) α} {f : α → ExceptT ε (StateM σ) β} {s t : σ} {a : α}
    (h : x.run s = (.ok a, t)) : (x >>= f).run s = (f a).run t := by
  rw [run_bind, h]

/-- a part that is refused ends the sequence -/
theorem run_bind_error {x : ExceptT ε (StateM σ) α} {f : α → ExceptT ε (StateM σ) β} {s t : σ} {e : ε}
    (h : x.run s = (.error e, t)) : (x >>= f).run s = (.error e, t) := by
  rw [run_bind, h]

namespace Ends

variable {s : σ} {x : ExceptT ε (StateM σ) α} {f : α → ExceptT ε (StateM σ) β} {P P' : α → σ → Prop}
  {Q Q' : ε → σ → Prop} {R : β → σ → Prop}

theorem of_run_ok {a : α} {t : σ} (h : x.run s = (.ok a, t)) (hp : P a t) : Ends x s P Q := by
  unfold Ends; rw [h]; exact hp

theorem of_run_error {e : ε} {t : σ} (h : x.run s = (.error e, t)) (hq : Q e t) : Ends x s P Q := by
  unfold Ends; rw [h]; exact hq

theorem ok {a : α} {t : σ} (h : Ends x s P Q) (hr : x.run s = (.ok a, t)) : P a t := by
  unfold Ends at h; rw [hr] at h; exact h

theorem error {e : ε} {t : σ} (h : Ends x s P Q) (hr : x.run s = (.error e, t)) : Q e t := by
  unfold Ends at h; rw [hr] at h; exact h

theorem of_fst_ok {a : α} (h : Ends x s P Q) (hr : (x.run s).1 = .ok a) : P a (x.run s).2 :=
  h.ok (Prod.ext_iff.2 ⟨hr, rfl⟩)

theorem of_fst_error {e : ε} (h : Ends x s P Q) (hr : (x.run s).1 = .error e) : Q e (x.run s).2 :=
  h.error (Prod.ext_iff.2 ⟨hr, rfl⟩)

/-- what every ending leaves -/
theorem leaves {T : σ → Prop} (h : Ends x s (fun _ t => T t) fun _ t => T t) : T (x.run s).2 := by
  unfold Ends at h
  rcases hr : x.run s with ⟨e | a, t⟩ <;> rw [hr] at h <;> exact h

/-- a run that cannot be refused has an answer -/
theorem exists_ok (h : Ends x s P fun _ _ => False) : ∃ a t, x.run s = (.ok a, t) ∧ P a t := by
  rcases hr : x.run s with ⟨e | a, t⟩
  · exact (h.error hr).elim
  · exact ⟨a, t, rfl, h.ok hr⟩

theorem mono (h : Ends x s P Q) (hp : ∀ a t, P a t → P' a t) (hq : ∀ e t, Q e t → Q' e t) : Ends x s P' Q' := by
  rcases hr : x.run s with ⟨e | a, t⟩
  · exact of_run_error hr (hq e t (h.error hr))
  · exact of_run_ok hr (hp a t (h.ok hr))

/-- a run that cannot be refused, where some refusals are allowed -/
theorem sure (h : Ends x s P fun _ _ => False) : Ends x s P Q := h.mono (fun _ _ hp => hp) fun _ _ hf => hf.elim

theorem trivial : Ends x s (fun _ _ => True) fun _ _ => True := by
  unfold Ends
  split <;> exact True.intro

/-- what two views of a run say of its ending -/
theorem and (h : Ends x s P Q) (h' : Ends x s P' Q') :
    Ends x s (fun a t => P a t ∧ P' a t) fun e t => Q e t ∧ Q' e t := by
  rcases hr : x.run s with ⟨e | a, t⟩
  · exact of_run_error hr ⟨h.error hr, h'.error hr⟩
  · exact of_run_ok hr ⟨h.ok hr, h'.ok hr⟩

theorem bind (h : Ends x s P Q) (hf : ∀ a t, P a t → Ends (f a) t R Q) : Ends (x >>= f) s R Q := by
  rcases hr : x.run s with ⟨e | a, t⟩
  · exact of_run_error (by rw [run_bind, hr]) (h.error hr)
  · have hq := hf a t (h.ok hr)
    unfold Ends at hq ⊢
    rw [run_bind, hr]
    exact hq

/-- a sequence whose first part answers as it does -/
theorem bind_ok {a : α} {t : σ} {Q : ε → σ → Prop} (h : x.run s = (.ok a, t)) (hf : Ends (f a) t R Q) :
    Ends (x >>= f) s R Q :=
  bind (P := fun b u => b = a ∧ u = t) (of_run_ok h ⟨rfl, rfl⟩) fun _ _ hb => hb.1 ▸ hb.2 ▸ hf

theorem pure {a : α} (h : P a s) : Ends (Pure.pure a) s P Q := of_run_ok rfl h

theorem throw {e : ε} (h : Q e s) : Ends (MonadExcept.throw e : ExceptT ε (StateM σ) α) s P Q := of_run_error rfl h

end Ends

end

/-! ## The manager's actions -/

namespace ManagerM

variable {α β : Type} {m : Manager} {P : α → Manager → Prop} {Q : Fault → Manager → Prop}
  {R : β → Manager → Prop}

/-- a look at the manager changes nothing; what follows may take its answer for granted -/
theorem ends_reading {f : Manager → Except Fault α} {g : α → ManagerM β}
    (hok : ∀ a, f m = .ok a → Ends (g a) m R Q) (herr : ∀ e, f m = .error e → Q e m) :
    Ends (reading f >>= g) m R Q := by
  cases h : f m with
  | ok a => exact Ends.bind_ok (show (reading f).run m = (.ok a, m) by rw [← h]; rfl) (hok a h)
  | error e =>
    refine Ends.of_run_error (e := e) (t := m) ?_ (herr e h)
    rw [run_bind, show (reading f).run m = (.error e, m) by rw [← h]; rfl]

theorem attempt_run (x : ManagerM α) (m : Manager) : (attempt x).run m = (.ok (x.run m).1, (x.run m).2) := rfl

theorem run_attempt_bind {x : ManagerM α} {g : Except Fault α → ManagerM β} {m m' : Manager} {r : Except Fault α}
    (h : x.run m = (r, m')) : (attempt x >>= g).run m = (g r).run m' := by
  refine run_bind_ok (a := r) (t := m') ?_
  rw [attempt_run, h]

end ManagerM

end SharedBuffer
