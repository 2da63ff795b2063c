/-
What operations on lists leave alone, however they end.

Attaching a member to an owner, or detaching it, writes the owner's head and count, the member's place, and what the
members next to it know of their neighbours. A view of a store that sees none of these is the same afterwards (`Apart`);
this needs no invariant, and holds of a run that is refused halfway too. Views of that kind are the other heads, the
other counts and the owners of other members, and, for every owner and member, the allocators and what the records hold
besides (`Steady`).
-/
import SharedBuffer.Proofs.Lists.Relink

namespace SharedBuffer

variable {α β γ : Type} {V : Store Record → γ} {s t : Store Record} {R R' : Roster} {k o m : Key}

/-- whether a view of the store is the same after an operation, however it ends -/
def LinkM.Keeps (V : Store Record → γ) (x : LinkM α) : Prop := ∀ s, V (x.run s).2 = V s

namespace LinkM.Keeps

/-- what a run leaves of a view -/
theorem of_run {x : LinkM α} (h : Keeps V x) {a : Except LinkError α} (hr : x.run s = (a, t)) : V t = V s := by
  have hs := h s
  rwa [hr] at hs

theorem pure (a : α) : Keeps V (Pure.pure a : LinkM α) := fun _ => rfl

theorem throw (e : LinkError) : Keeps V (MonadExcept.throw e : LinkM α) := fun _ => rfl

theorem reading (f : Store Record → Except LinkError α) : Keeps V (LinkM.reading f) := fun _ => rfl

theorem bind {x : LinkM α} {f : α → LinkM β} (hx : Keeps V x) (hf : ∀ a, Keeps V (f a)) : Keeps V (x >>= f) := by
  intro s
  have hs := hx s
  rw [run_bind]
  rcases hr : x.run s with ⟨e | a, u⟩
  · rw [hr] at hs
    exact hs
  · rw [hr] at hs
    exact (hf a u).trans hs

theorem modify {f : Record → Record} (h : ∀ s : Store Record, V (s.edit k f) = V s) :
    Keeps V (ofStore (Store.modify k f)) := by
  intro s
  by_cases hk : s.contains k = true
  · rw [Store.ofStore_modify_run hk]
    exact h s
  · rw [Store.ofStore_modify_absent (Bool.eq_false_iff.2 hk)]

theorem incrementRef (h : ∀ s : Store Record, V (s.edit k Record.retain) = V s) :
    Keeps V (ofStore (Store.incrementRef k)) := by
  intro s
  by_cases hk : s.contains k = true
  · obtain ⟨n, hn⟩ := Store.incrementRef_run hk
    rw [hn]
    exact h s
  · have hrun : (ofStore (Store.incrementRef k)).run s = (.error (.store (.notFound k)), s) := by
      simp [ofStore, Store.incrementRef, Store.modify, run_bind, hk]
    rw [hrun]

theorem decrementRef (h : ∀ s : Store Record, V (s.edit k Record.lowered) = V s) :
    Keeps V (ofStore (Store.decrementRef k)) := by
  intro s
  cases hg : s.get? k with
  | none =>
    have hrun : (ofStore (Store.decrementRef k)).run s = (.error (.store (.notFound k)), s) := by
      simp [ofStore, Store.decrementRef, hg]
    rw [hrun]
  | some r =>
    by_cases hgive : r.countsRefs = true ∧ 0 < r.refCount
    · obtain ⟨n, hn⟩ := Store.decrementRef_run hg hgive.1 (UInt32.pos_iff_ne_zero.1 hgive.2)
      rw [hn]
      exact h s
    · have hrun : (ofStore (Store.decrementRef k)).run s = (.error (.store (.refCountUnderflow k)), s) := by
        simp [ofStore, Store.decrementRef, hg, Record.giveBack?, hgive]
      rw [hrun]

end LinkM.Keeps

namespace Store

open LinkM

/-- a view that sees nothing of an owner's head and count, of a member's place, and of who is next to whom -/
structure Apart (V : Store Record → γ) (R : Roster) (o m : Key) : Prop where
  place : ∀ s f, V (s.edit m (Record.mapLink R f)) = V s
  neighbour : ∀ s k f, (∀ l : Link, (f l).owner = l.owner) → V (s.edit k (Record.mapLink R (Option.map f))) = V s
  head : ∀ s f, V (s.edit o (Record.mapHead R f)) = V s
  count : ∀ s f, (∀ r, (f r).bare = r.bare) → (∀ r R, (f r).head? R = r.head? R) →
    (∀ r R, (f r).link? R = r.link? R) → V (s.edit o f) = V s

section

variable (h : Apart V R o m)

include h

/-- after the member has its place, attaching goes on with the last member, the head and the count -/
theorem Apart.keeps_extend (last : Option Key) : Keeps V (do
    match last with
    | some last => editLink R last (Option.map fun l => { l with next := some m })
    | none => pure ()
    editHead R o fun h => ⟨h.first.or (some m), some m, h.length + 1⟩
    let _ ← LinkM.ofStore (incrementRef o) : LinkM Unit) := by
  have htail : Keeps V (do
      editHead R o fun h => ⟨h.first.or (some m), some m, h.length + 1⟩
      let _ ← LinkM.ofStore (incrementRef o) : LinkM Unit) :=
    Keeps.bind (Keeps.modify fun s => h.head s _) fun _ => Keeps.bind (Keeps.incrementRef fun s =>
      h.count s _ (fun r => by simp) (fun r R => by simp) fun r R => by simp) fun _ => Keeps.pure _
  cases last with
  | none => exact htail
  | some last => exact Keeps.bind (Keeps.modify fun s => h.neighbour s last _ fun _ => rfl) fun _ => htail

/-- **Attaching leaves alone whatever is apart from it.** -/
theorem Apart.attach : Keeps V (attach R o m) := by
  refine Keeps.bind (Keeps.reading _) fun head => Keeps.bind (Keeps.reading _) fun place => ?_
  cases place with
  | some l => exact Keeps.throw _
  | none => exact Keeps.bind (Keeps.modify fun s => h.place s _) fun _ => h.keeps_extend head.last

/-- **Detaching leaves alone whatever is apart from it.** -/
theorem Apart.detach : Keeps V (detach R o m) := by
  refine Keeps.bind (Keeps.reading _) fun l => Keeps.bind (Keeps.reading _) fun count => ?_
  have htail : Keeps V (do
      editHead R o fun h => { h with length := h.length - (if h.length = 0 then 0 else 1) }
      editLink R m fun _ => none
      let _ ← LinkM.ofStore (decrementRef o) : LinkM Unit) :=
    Keeps.bind (Keeps.modify fun s => h.head s _) fun _ => Keeps.bind (Keeps.modify fun s => h.place s _) fun _ =>
      Keeps.bind (Keeps.decrementRef fun s => h.count s _ (fun r => by simp [Record.lowered])
        (fun r R => by simp [Record.lowered]) fun r R => by simp [Record.lowered]) fun _ => Keeps.pure _
  have hhead : ∀ f, Keeps V (editHead R o f) := fun f => Keeps.modify fun s => h.head s _
  have hlink : ∀ k {f : Link → Link}, (∀ l, (f l).owner = l.owner) → Keeps V (editLink R k (Option.map f)) :=
    fun k f hf => Keeps.modify fun s => h.neighbour s k f hf
  dsimp only
  by_cases hzero : count = 0
  · rw [if_pos hzero]
    exact Keeps.throw _
  · rw [if_neg hzero]
    cases l.previous <;> cases l.next
    · exact Keeps.bind (hhead _) fun _ => Keeps.bind (hhead _) fun _ => htail
    · exact Keeps.bind (hhead _) fun _ => Keeps.bind (hlink _ fun _ => rfl) fun _ => htail
    · exact Keeps.bind (hlink _ fun _ => rfl) fun _ => Keeps.bind (hhead _) fun _ => htail
    · exact Keeps.bind (hlink _ fun _ => rfl) fun _ => Keeps.bind (hlink _ fun _ => rfl) fun _ => htail

end

/-! ## Views that are apart -/

theorem apart_headAt (h : ¬ (R' = R ∧ k = o)) : Apart (fun s : Store Record => s.headAt R' k) R o m :=
  ⟨fun s f => headAt_edit fun r => by simp [Record.head?_mapLink],
    fun s j f _ => headAt_edit fun r => by simp [Record.head?_mapLink],
    fun s f => by rw [headAt_edit_mapHead, if_neg fun e => h ⟨e.2, e.1⟩],
    fun s f _ hf _ => headAt_edit fun r => hf r R'⟩

theorem apart_ownerOf? (h : ¬ (R' = R ∧ k = m)) : Apart (fun s : Store Record => s.ownerOf? R' k) R o m := by
  refine ⟨fun s f => ?_, fun s j f hf => ?_, fun s f => ?_, fun s f _ _ hf => ?_⟩
  · rw [ownerOf?_eq, ownerOf?_eq, linkAt_edit_mapLink, if_neg fun e => h ⟨e.2, e.1⟩]
  · rw [ownerOf?_eq, ownerOf?_eq, linkAt_edit_mapLink]
    split
    · rcases s.linkAt R' k with - | (- | l) <;> simp [hf]
    · rfl
  · rw [ownerOf?_eq, ownerOf?_eq, linkAt_edit fun r => by simp [Record.link?_mapHead]]
  · rw [ownerOf?_eq, ownerOf?_eq, linkAt_edit fun r => hf r R']

theorem apart_linkAt (h : R' ≠ R) : Apart (fun s : Store Record => s.linkAt R' k) R o m :=
  ⟨fun s f => by rw [linkAt_edit_mapLink, if_neg fun e => h e.2],
    fun s j f _ => by rw [linkAt_edit_mapLink, if_neg fun e => h e.2],
    fun s f => linkAt_edit fun r => by simp [Record.link?_mapHead], fun s f _ _ hf => linkAt_edit fun r => hf r R'⟩

theorem apart_refsAt (h : k ≠ o) : Apart (fun s : Store Record => s.refsAt k) R o m := by
  have hother : ∀ (s : Store Record) f, (s.edit o f).refsAt k = s.refsAt k := fun s f => by
    rw [refsAt, get?_edit, if_neg h]
    rfl
  exact ⟨fun s f => refsAt_edit fun r => by simp, fun s j f _ => refsAt_edit fun r => by simp, fun s f => hother s _,
    fun s f _ _ _ => hother s f⟩

theorem apart_allocators : Apart (fun s : Store Record => s.allocators) R o m :=
  ⟨fun _ _ => rfl, fun _ _ _ _ => rfl, fun _ _ => rfl, fun _ _ _ _ _ => rfl⟩

theorem apart_bareAt : Apart (fun s : Store Record => s.bareAt k) R o m :=
  ⟨fun _ _ => bareAt_edit fun r => by simp, fun _ _ _ _ => bareAt_edit fun r => by simp,
    fun _ _ => bareAt_edit fun r => by simp, fun _ _ hf _ _ => bareAt_edit hf⟩

end Store

/-! ## Everything but lists -/

namespace LinkM

variable {x : LinkM α} {f : α → LinkM β}

/-- whether an operation leaves everything but heads, links and counts as it is -/
def Steady (x : LinkM α) : Prop :=
  ∀ s, (x.run s).2.allocators = s.allocators ∧ ∀ k, (x.run s).2.bareAt k = s.bareAt k

namespace Steady

theorem pure (a : α) : Steady (Pure.pure a) := fun _ => ⟨rfl, fun _ => rfl⟩

theorem of_keeps (hallocators : Keeps (fun s => s.allocators) x) (hbare : ∀ k, Keeps (fun s => s.bareAt k) x) :
    Steady x := fun s => ⟨hallocators s, fun k => hbare k s⟩

theorem bind (hx : Steady x) (hf : ∀ a, Steady (f a)) : Steady (x >>= f) :=
  of_keeps (Keeps.bind (fun s => (hx s).1) fun a s => (hf a s).1) fun k =>
    Keeps.bind (fun s => (hx s).2 k) fun a s => (hf a s).2 k

/-- a steady operation keeps every record in place -/
theorem contains (h : Steady x) (s : Store Record) (k : Key) : (x.run s).2.contains k = s.contains k := by
  rw [Store.contains_eq_bareAt, Store.contains_eq_bareAt, (h s).2]

end Steady

end LinkM

namespace Store

open LinkM

theorem steady_attach (R : Roster) (owner member : Key) : Steady (attach R owner member) :=
  .of_keeps apart_allocators.attach fun _ => apart_bareAt.attach

theorem steady_detach (R : Roster) (owner member : Key) : Steady (detach R owner member) :=
  .of_keeps apart_allocators.detach fun _ => apart_bareAt.detach

theorem steady_detachAll (member : Key) (lists : List (Roster × Key)) : Steady (detachAll member lists) := by
  induction lists with
  | nil => exact Steady.pure _
  | cons list rest ih => exact Steady.bind (steady_detach list.1 list.2 member) fun _ => ih

/-- when a member goes from one list to another, only their owners matter -/
theorem Apart.of_relink {target : Option Key} (hrun : (relink R m target).run s = (.ok (), t))
    (hold : ∀ o, s.ownerOf? R m = some o → Apart V R o m) (hnew : ∀ o, target = some o → Apart V R o m) :
    V t = V s := by
  obtain ⟨u, hleave, hjoin⟩ := relink_halves hrun
  have hleft : V u = V s := by
    cases ho : s.ownerOf? R m with
    | none =>
      rw [ho] at hleave
      cases hleave
      rfl
    | some o =>
      rw [ho] at hleave
      exact (hold o ho).detach.of_run hleave
  cases target with
  | none =>
    cases hjoin
    exact hleft
  | some o => exact ((hnew o rfl).attach.of_run hjoin).trans hleft

/-- changing lists leaves alone whatever is apart from it, whichever lists they are -/
theorem Apart.relink {V : Store Record → γ} (h : ∀ o, Apart V R o m) (target : Option Key) :
    Keeps V (relink R m target) := by
  refine Keeps.bind (Keeps.reading _) fun o => Keeps.bind ?_ fun _ => ?_
  · cases o with
    | none => exact Keeps.pure _
    | some o => exact (h o).detach
  · cases target with
    | none => exact Keeps.pure _
    | some o => exact (h o).attach

theorem steady_relink (R : Roster) (member : Key) (target : Option Key) : Steady (relink R member target) :=
  .of_keeps (Apart.relink (fun _ => apart_allocators) target) fun _ => Apart.relink (fun _ => apart_bareAt) target

end Store

end SharedBuffer
