/-
Moving a profile to another pool.

What decides is the pool that is joined: whether there is one, whether it suits the profile, and whether it has room
for what the consumers of the profile take. The first of these that fails refuses the move. The pool that is left has no
say.

Results: `Call.Moves.decides`, what decides a move and what it comes to, and `reached_moves`.
-/
import SharedBuffer.Proofs.Accounting.Moving
import SharedBuffer.Proofs.Manager.Tables

namespace SharedBuffer

open Accounting Manager

/-- a call that puts a profile into the pool that an id names -/
def Call.Moves (c : Call) (k : Key) (id : ObjectId) : Prop :=
  ∃ object, c.setting? = some (object, ⟨ProfileAttribute.poolId.id, .oid id⟩) ∧ Key.ofId? object = some k

namespace Manager

/-- a pool admits a profile of another pool: it suits the profile, and what its profiles and this one take together is
no more than its size -/
structure AdmitsMove (m : Manager) (k : Key) (p : Profile) (q : Pool) (b : Key) (r : Pool) : Prop where
  direction : q.direction = r.direction
  mode : r.mode = p.mode.effective q.mode
  room : m.store.taken m.hardware r.direction (m.store.listOf .poolProfiles b ++ [k]) ≤ r.size.toNat

/-- why a profile is not admitted to the pool that has an id -/
inductive DeniesMove (m : Manager) (k : Key) (p : Profile) (a : Key) (q : Pool) (id : ObjectId) : Fault → Prop where
  | refused {e : Fault} (hrefuses : m.RefusesMove p a q id e) : m.DeniesMove k p a q id e
  | full {b : Key} {r : Pool} {reason : String} (hr : m.store.pool? b = some r) (hid : b.id = id) (hother : a ≠ b)
    (hdirection : q.direction = r.direction) (hmode : r.mode = p.mode.effective q.mode)
    (hfull : r.size.toNat < m.store.taken m.hardware r.direction (m.store.listOf .poolProfiles b ++ [k])) :
    m.DeniesMove k p a q id (.insufficientResources reason)

end Manager

/-- a profile is shown as before but in another pool, is taken from one list and put at the end of the other, and gives
back what its consumers took -/
structure Store.Relocates (hw : Hardware) (s t : Store Record) (k a b : Key) (q : Pool) : Prop where
  shown : ∃ seen, s.snapshot k = .ok (.profile seen) ∧ t.snapshot k = .ok (.profile { seen with pool := b.id })
  left : ∃ before, s.members .poolProfiles a = .ok before ∧
    t.members .poolProfiles a = .ok (before.filter fun x => x ≠ k)
  joined : ∃ before, s.members .poolProfiles b = .ok before ∧ t.members .poolProfiles b = .ok (before ++ [k])
  figures : ∃ q', t.pool? a = some q' ∧ q'.size = q.size ∧ q'.direction = q.direction ∧
    Balanced hw (s.withoutConsumers k) a q'

section

variable {m m' : Manager} {L : Layout} {k a b : Key} {p : Profile} {q r : Pool} {id : ObjectId} {c : Call}

/-- a profile that has moved is the same but for its pool -/
theorem Change.Outcome.exists_moved (hout : (Change.profilePool k b).Outcome m.hardware m.store m'.store)
    (h : Sound m.hardware m.store L) (hb : (Change.profilePool k b).Buildable m.store)
    (hp : m.store.profile? k = some p) : ∃ p', m'.store.profile? k = some p' ∧ p'.pool? = some b ∧
      p'.size = p.size ∧ p'.terms = p.terms ∧ p'.refCount = p.refCount := by
  obtain ⟨p', hp', hsize, hterms⟩ := hout.exists_profile h hb hp
  refine ⟨p', hp', ?_, hsize, hterms, ?_⟩
  · rw [← Store.ownerOf?_of_profile? hp', hout.housing h hb, if_pos rfl]
  · have hsame := hout.refsAt_profilePool h hb
    rw [Store.refsAt, Store.refsAt, Store.profile?_eq_some.1 hp', Store.profile?_eq_some.1 hp] at hsame
    exact UInt32.toNat_inj.1 hsame

/-- a profile that has moved to a pool of the mode that counts for it is shown as before, but in that pool -/
theorem Follows.shown_moved (hf : Follows m L m') (h : Sound m.hardware m.store L)
    (hp : m.store.profile? k = some p) (ha : p.pool? = some a) (hq : m.store.pool? a = some q)
    (hr : m.store.pool? b = some r) (hmode : r.mode = p.mode.effective q.mode)
    (hb : (Change.profilePool k b).Buildable m.store)
    (hout : (Change.profilePool k b).Outcome m.hardware m.store m'.store) :
    ∃ seen, m.store.snapshot k = .ok (.profile seen) ∧
      m'.store.snapshot k = .ok (.profile { seen with pool := b.id }) := by
  obtain ⟨p', hp', ha', hsize, hterms, hrefs⟩ := hout.exists_moved h hb hp
  obtain ⟨hmode', hthreshold, hxoff, hxon⟩ := Terms.mk.inj hterms
  obtain ⟨r', hr', -⟩ := hout.exists_pool h hb hr
  have hlasts : r'.mode = r.mode := congrArg Prod.snd ((hf.moves.lasting h).pools b r r' hr hr')
  have heffective : p'.mode.effective r'.mode = p.mode.effective q.mode := by
    rw [hmode', hlasts, hmode, ProfileMode.effective_effective]
  refine ⟨_, h.wired.snapshot_profile hp ha hq, ?_⟩
  rw [(hout.sound h hb).wired.snapshot_profile hp' ha' hr', heffective, hsize, hmode', hthreshold, hxoff, hxon, hrefs]
  rfl

/-- **What a move comes to.** -/
theorem Follows.relocates (hf : Follows m L m') (h : Sound m.hardware m.store L)
    (hp : m.store.profile? k = some p) (ha : p.pool? = some a) (hq : m.store.pool? a = some q)
    (hr : m.store.pool? b = some r) (hother : a ≠ b) (hmode : r.mode = p.mode.effective q.mode)
    (hb : (Change.profilePool k b).Buildable m.store)
    (hout : (Change.profilePool k b).Outcome m.hardware m.store m'.store) :
    m.store.Relocates m.hardware m'.store k a b q := by
  have hs' : Sound m.hardware m'.store (L.relink .poolProfiles k (some b)) := by
    rw [← Change.relayout_profilePool]
    exact hout.sound h hb
  have hin := (h.wired.mem_poolProfiles_iff hp).2 ha
  have hnew : k ∉ L .poolProfiles b := fun hin' => hother (h.wired.linked.owner_unique hin hin')
  have hlist : ∀ {o q}, m.store.pool? o = some q → m.store.members .poolProfiles o = .ok (L .poolProfiles o) ∧
      m'.store.members .poolProfiles o = .ok (L.relink .poolProfiles k (some b) .poolProfiles o) := fun {o q} ho => by
    have hc := Store.contains_of_pool? ho
    have hk := h.wired.kind_of_pool? ho
    exact ⟨h.wired.members_eq hc hk, hs'.wired.members_eq (R := .poolProfiles) (hout.contains.trans hc) hk⟩
  refine ⟨hf.shown_moved h hp ha hq hr hmode hb hout, ⟨_, (hlist hq).1, ?_⟩, ⟨_, (hlist hr).1, ?_⟩,
    hout.balanced_left h hb hother.symm hq⟩
  · rw [(hlist hq).2]
    simp [Layout.relink, hother.symm]
  · rw [(hlist hr).2]
    simp only [Layout.relink, if_true, Layout.filter_ne_of_not_mem hnew]

/-- **What decides a move**, and what it comes to. -/
theorem ManagerM.moveProfile_decides (h : Sound m.hardware m.store L) (hrep : 1 ≤ m.hardware.replication)
    (hp : m.store.profile? k = some p) (ha : p.pool? = some a) (hq : m.store.pool? a = some q) (id : ObjectId) :
    Ends (moveProfile k id) m
      (fun _ m' => ∃ b r, m.store.pool? b = some r ∧ b.id = id ∧ (a = b ∧ m'.store = m.store ∨
        a ≠ b ∧ m.AdmitsMove k p q b r ∧ m.store.Relocates m.hardware m'.store k a b q))
      (fun e _ => m.DeniesMove k p a q id e) := by
  have hin := (h.wired.mem_poolProfiles_iff hp).2 ha
  have hbuild : ∀ {b r}, m.store.pool? b = some r → (Change.profilePool k b).Buildable m.store := fun hr =>
    ⟨⟨Store.contains_of_profile? hp, h.wired.kind_of_profile? hp⟩, Store.contains_of_pool? hr, h.wired.kind_of_pool? hr⟩
  have hroom : ∀ {b r}, a ≠ b → m.store.pool? b = some r →
      ((∃ figures, Accounting.plan m.hardware m.store (.profilePool k b) = .ok figures) ↔
        m.store.taken m.hardware r.direction (m.store.listOf .poolProfiles b ++ [k]) ≤ r.size.toNat) :=
    fun hother hr => h.plan_profilePool_iff (hbuild hr) hrep
      (fun hin' => hother (h.wired.linked.owner_unique hin hin')) hr
  refine (moveProfile_ends h hp hin hq id).mono (fun _ m' hdone => ?_) fun e m' hfail => ?_
  · obtain ⟨hf, b, hres, hdone⟩ := hdone
    obtain ⟨hid, -⟩ := (resolve?_pool_eq_some h).1 hres
    rcases hdone with ⟨rfl, rfl⟩ | ⟨hother, hpermit, hout⟩
    · exact ⟨a, q, hq, hid, .inl ⟨rfl, rfl⟩⟩
    · obtain ⟨r, hr, hdir, hmode⟩ := Change.exists_pool_of_permitted hp ha hq hpermit
      exact ⟨b, r, hr, hid, .inr ⟨hother, ⟨hdir, hmode, (hroom hother hr).1 hout.planned⟩,
        hf.relocates h hp ha hq hr hother hmode (hbuild hr) hout⟩⟩
  · rcases hfail.2 with hrefuses | ⟨b, hres, hother, hpermit, hplan⟩
    · exact .refused hrefuses
    · obtain ⟨hid, -⟩ := (resolve?_pool_eq_some h).1 hres
      obtain ⟨r, hr, hdir, hmode⟩ := Change.exists_pool_of_permitted hp ha hq hpermit
      obtain ⟨reason, rfl⟩ := h.insufficient_of_plan (hbuild hr) trivial hplan
      refine .full hr hid hother hdir hmode (Nat.lt_of_not_le fun hfits => ?_)
      obtain ⟨figures, hok⟩ := (hroom hother hr).2 hfits
      cases hplan.symm.trans hok

/-- a denied move is to no pool that would do: neither the profile's own nor one that admits it -/
theorem Manager.DeniesMove.not_admits {e : Fault} (hd : m.DeniesMove k p a q id e) (h : Sound m.hardware m.store L)
    (hr : m.store.pool? b = some r) (hid : b.id = id) : ¬ (a = b ∨ m.AdmitsMove k p q b r) := by
  cases hd with
  | refused hrefuses =>
    exact fun hadmits => hrefuses.unsuited h hr hid (hadmits.imp_right fun h => ⟨h.direction, h.mode⟩)
  | full hr' hid' hother _ _ hfull =>
    obtain ⟨rfl, rfl⟩ := h.wired.pool_unique hr' hr (hid'.trans hid.symm)
    exact fun hadmits => hadmits.elim hother fun h => Nat.not_le_of_lt hfull h.room

/-- a call that moves goes on to the move of its profile -/
theorem Call.Moves.decides (hc : c.Moves k id) (h : Sound m.hardware m.store L) (hrep : 1 ≤ m.hardware.replication)
    (hp : m.store.profile? k = some p) (ha : p.pool? = some a) (hq : m.store.pool? a = some q) :
    Ends c.perform m
      (fun _ m' => ∃ b r, m.store.pool? b = some r ∧ b.id = id ∧ (a = b ∧ m'.store = m.store ∨
        a ≠ b ∧ m.AdmitsMove k p q b r ∧ m.store.Relocates m.hardware m'.store k a b q))
      (fun e _ => m.DeniesMove k p a q id e) := by
  obtain ⟨object, hset, hobject⟩ := hc
  have hk := h.wired.kind_of_profile? hp
  have hcheck : checkSet k.kind ⟨ProfileAttribute.poolId.id, .oid id⟩ = .ok ProfileAttribute.poolId.spec := by
    rw [hk]
    rfl
  refine ((ManagerM.Handles.pool hk id).wraps_call hset hobject (Store.contains_of_profile? hp) hcheck).ends
    (ManagerM.moveProfile_decides h hrep hp ha hq id) (fun _ _ _ _ hdone => hdone) fun _ _ _ _ hdenies => hdenies

end

/-- **Moving a profile between pools.** Whatever is reached on hardware that replicates at least once, a live profile is
moved to the pool that an id names exactly if that is a live pool, and is its own pool or admits it. What refuses a move
is, in this order: an id of no live pool, with its value to blame; the direction or the mode of the pool, with the
attribute to blame; its room. A move to another pool keeps all that is shown of the profile but its pool, takes it from
one list and puts it at the end of the other, and leaves the one pool with the figures that it would have if the profile
had no consumers. A move to its own pool changes nothing in the store. -/
theorem reached_moves {hw : Hardware} {m : Manager} (hm : m.Reached hw) (hrep : 1 ≤ hw.replication) {k a : Key}
    {p : Profile} {q : Pool} (hp : m.store.profile? k = some p) (ha : p.pool? = some a) (hq : m.store.pool? a = some q)
    {c : Call} {id : ObjectId} (hc : c.Moves k id) :
    ((∃ x m', c.perform.run m = (.ok x, m')) ↔
      ∃ b r, m.store.pool? b = some r ∧ b.id = id ∧ (a = b ∨ m.AdmitsMove k p q b r)) ∧
    (∀ e m', c.perform.run m = (.error e, m') → m.DeniesMove k p a q id e) ∧
    ∀ x m' b r, c.perform.run m = (.ok x, m') → m.store.pool? b = some r → b.id = id →
      (a = b → m'.store = m.store) ∧ (a ≠ b → m.store.Relocates hw m'.store k a b q) := by
  obtain ⟨rfl, L, hs⟩ := hm.sound
  have hdecides := hc.decides hs hrep hp ha hq
  refine ⟨⟨?_, ?_⟩, fun e m' hr => hdecides.error hr, ?_⟩
  · rintro ⟨x, m', hr⟩
    obtain ⟨b, r, hb, hid, hdone⟩ := hdecides.ok hr
    exact ⟨b, r, hb, hid, hdone.imp And.left fun h => h.2.1⟩
  · rintro ⟨b, r, hb, hid, hadmits⟩
    rcases hr : c.perform.run m with ⟨e | x, m'⟩
    · exact absurd hadmits ((hdecides.error hr).not_admits hs hb hid)
    · exact ⟨x, m', rfl⟩
  · intro x m' b r hr hb hid
    obtain ⟨b', r', hb', hid', hdone⟩ := hdecides.ok hr
    obtain ⟨rfl, rfl⟩ := hs.wired.pool_unique hb' hb (hid'.trans hid.symm)
    rcases hdone with ⟨rfl, hsame⟩ | ⟨hother, -, hmoved⟩
    · exact ⟨fun _ => hsame, fun hne => absurd rfl hne⟩
    · exact ⟨fun heq => absurd heq hother, fun _ => hmoved⟩

/-- the pool that was created after so many others -/
def poolAfter (n : UInt32) : PoolId := ⟨(Key.make .pool 0 n).id⟩

/-- the small switch with two more pools: one has just the room for the profile in use, the other a byte less -/
def twin : Manager :=
  (start twoTiles true).live (crowding ++
    [.call (.createPool .ingress 2600 none), .call (.createPool .ingress 2599 none)])

/-- on the small switch the profile in use goes to the pool that just has room, and not to the one with a byte less -/
theorem twin_moves :
    let move (n : UInt32) := Call.setProfileAttribute (profileAfter 0) .poolId (.oid (poolAfter n).raw)
    ∃ p q, (∃ x m', (move 1).perform.run twin = (.ok x, m') ∧
      twin.store.Relocates twoTiles m'.store (profileAfter 0).key firstPool.key (poolAfter 1).key q) ∧
      ∃ e m', (move 2).perform.run twin = (.error e, m') ∧ e.label = "InsufficientResources" ∧
        twin.DeniesMove (profileAfter 0).key p firstPool.key q (poolAfter 2).raw e := by
  intro move
  have hmoves : ∀ n, (move n).Moves (profileAfter 0).key (poolAfter n).raw := fun n =>
    ⟨(profileAfter 0).raw, rfl, by decide +kernel⟩
  obtain ⟨p, hp, ha⟩ := Option.bind_eq_some_iff.1
    (show (twin.store.profile? (profileAfter 0).key).bind Profile.pool? = some firstPool.key by decide +kernel)
  obtain ⟨q, hq⟩ := Option.isSome_iff_exists.1
    (show (twin.store.pool? firstPool.key).isSome = true by decide +kernel)
  obtain ⟨r, hr⟩ := Option.isSome_iff_exists.1
    (show (twin.store.pool? (poolAfter 1).key).isSome = true by decide +kernel)
  refine ⟨p, q, ?_, ?_⟩
  · obtain ⟨-, -, hmoved⟩ := reached_moves (m := twin) ⟨true, _, rfl⟩ (by decide) hp ha hq (hmoves 1)
    have hok : ((move 1).perform.run twin).1.isOk = true := by decide +kernel
    rcases hrun : (move 1).perform.run twin with ⟨e | x, m'⟩
    · rw [hrun] at hok
      cases hok
    · exact ⟨x, m', rfl, (hmoved x m' _ r hrun hr rfl).2 (by decide)⟩
  · obtain ⟨-, hdenied, -⟩ := reached_moves (m := twin) ⟨true, _, rfl⟩ (by decide) hp ha hq (hmoves 2)
    have hfull : ((move 2).perform.run twin).1.mapError Fault.label = .error "InsufficientResources" := by
      decide +kernel
    rcases hrun : (move 2).perform.run twin with ⟨e | x, m'⟩
    · rw [hrun] at hfull
      exact ⟨e, m', rfl, Except.error.inj hfull, hdenied e m' hrun⟩
    · rw [hrun] at hfull
      cases hfull

end SharedBuffer
