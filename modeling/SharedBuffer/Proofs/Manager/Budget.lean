/-
Pools never take more than the switch has.

Every direction has a number of pools that it may have, and an amount of memory for all of them together. Only a new
pool and another size of a pool are checked against them; `Move.within` says that no other move makes the pools of a
direction more or larger, so that these two checks are enough for every run.

The sum of a check stops at the largest amount. Where the switch has less memory than that, this is no matter; where it
has exactly that much, nothing is ever refused, and the sizes need not fit (`crossing_exceeds`).

Result: `reached_within`, of the number of pools of every switch, and of the memory of every switch but the largest.
-/
import SharedBuffer.Proofs.Manager.Capacity
import SharedBuffer.Proofs.Manager.Runs

namespace SharedBuffer

open Accounting Manager

/-! ## Sizes by key -/

namespace Store

/-- the direction and the size of the pool under a key -/
def sizeAt (s : Store Record) (k : Key) : Option (Direction × UInt64) :=
  (s.pool? k).map fun p => (p.direction, p.size)

/-- the keys and sizes of the live pools of a direction -/
def sizesIn (s : Store Record) (direction : Direction) : List (Key × UInt64) :=
  s.entries.filterMap fun e => (e.2.asPool?.filter fun p => p.direction = direction).map fun p => (e.1, p.size)

variable {s t : Store Record} {direction : Direction} {k : Key} {kind : ObjectKind} {n : UInt64}

/-- the sizes alone are those of the pools -/
theorem map_snd_sizesIn (s : Store Record) (direction : Direction) :
    (s.sizesIn direction).map Prod.snd = (s.poolsIn direction).map Pool.size := by
  rw [sizesIn, poolsIn, poolsAmong, List.map_filterMap, List.map_filterMap]
  refine List.filterMap_congr fun e _ => ?_
  rw [Option.map_map]
  rfl

theorem length_sizesIn (s : Store Record) (direction : Direction) :
    (s.sizesIn direction).length = (s.poolsIn direction).length := by
  simpa using congrArg List.length (map_snd_sizesIn s direction)

theorem sum_sizesIn (s : Store Record) (direction : Direction) :
    ((s.sizesIn direction).map fun e => e.2.toNat).sum = s.bytesIn direction := by
  have hsum := congrArg (fun sizes => (sizes.map UInt64.toNat).sum) (map_snd_sizesIn s direction)
  rwa [List.map_map, List.map_map] at hsum

theorem mem_sizesIn : (k, n) ∈ s.sizesIn direction ↔ s.sizeAt k = some (direction, n) := by
  have hget : ∀ p, (k, Record.pool p) ∈ s.entries ↔ s.pool? k = some p := fun p =>
    KeyMap.get?_eq_some.symm.trans pool?_eq_some.symm
  simp only [sizesIn, sizeAt, List.mem_filterMap, Option.map_eq_some_iff, Option.filter_eq_some_iff, Prod.mk.injEq]
  constructor
  · rintro ⟨⟨k', r⟩, he, p, ⟨hp, hdir⟩, rfl, rfl⟩
    cases r
    case pool q =>
      obtain rfl : q = p := Option.some.inj hp
      exact ⟨q, (hget q).1 he, by simpa using hdir, rfl⟩
    all_goals cases hp
  · rintro ⟨p, hp, rfl, rfl⟩
    exact ⟨(k, .pool p), (hget p).2 hp, p, ⟨rfl, by simp⟩, rfl, rfl⟩

/-- no key comes twice -/
theorem nodup_sizesIn (s : Store Record) (direction : Direction) : ((s.sizesIn direction).map Prod.fst).Nodup := by
  have hkey : ∀ {e : Key × Record} {b}, ((e.2.asPool?.filter fun p => p.direction = direction).map
      fun p => (e.1, p.size)) = some b → b.1 = e.1 := by
    intro e b hb
    obtain ⟨p, -, rfl⟩ := Option.map_eq_some_iff.1 hb
    rfl
  rw [List.Nodup, List.pairwise_map, sizesIn, List.pairwise_filterMap]
  refine s.records.ascending.imp fun hlt b hb b' hb' => ?_
  rw [hkey hb, hkey hb']
  exact Key.ne_of_lt hlt

/-- a direction with no pools but some others is no larger than these -/
theorem sizesIn_le {l : List (Key × UInt64)} (h : ∀ k n, t.sizeAt k = some (direction, n) → (k, n) ∈ l) :
    (t.poolsIn direction).length ≤ l.length ∧ t.bytesIn direction ≤ (l.map fun e => e.2.toNat).sum := by
  have hsub : (t.sizesIn direction).Subperm l :=
    ((nodup_sizesIn t direction).of_map Prod.fst).subperm fun e he => h e.1 e.2 (mem_sizesIn.1 he)
  obtain ⟨l', hperm, hsublist⟩ := hsub
  rw [← length_sizesIn, ← sum_sizesIn, ← hperm.length_eq, ← (hperm.map _).sum_eq]
  exact ⟨hsublist.length_le, (hsublist.map _).sum_le_sum fun _ _ => Nat.zero_le _⟩

/-- a direction whose pools were there before has no more of them -/
theorem poolsIn_le (h : ∀ k n, t.sizeAt k = some (direction, n) → ∃ n', s.sizeAt k = some (direction, n')) :
    (t.poolsIn direction).length ≤ (s.poolsIn direction).length := by
  have hsub : ((t.sizesIn direction).map Prod.fst).Subperm ((s.sizesIn direction).map Prod.fst) := by
    refine (nodup_sizesIn t direction).subperm fun k hk => ?_
    obtain ⟨⟨k, n⟩, he, rfl⟩ := List.mem_map.1 hk
    obtain ⟨n', hn'⟩ := h k n (mem_sizesIn.1 he)
    exact List.mem_map.2 ⟨(k, n'), mem_sizesIn.2 hn', rfl⟩
  rw [← length_sizesIn, ← length_sizesIn]
  simpa using hsub.length_le

/-! ## What changes a size -/

theorem sizeAt_eq (s : Store Record) (k : Key) :
    s.sizeAt k = ((s.coreAt k).bind Record.asPool?).map fun p => (p.direction, p.size) := by
  unfold sizeAt pool? coreAt
  cases s.get? k with
  | none => rfl
  | some r => cases r <;> rfl

theorem Inserted.sizeAt {r : Record} (h : Inserted s t kind k r) (j : Key) : t.sizeAt j =
    if j = k then r.asPool?.map fun p => (p.direction, p.size) else s.sizeAt j := by
  unfold Store.sizeAt pool?
  rw [h.get]
  split <;> rfl

theorem Retired.sizeAt (h : Retired s t k) (j : Key) : t.sizeAt j = if j = k then none else s.sizeAt j := by
  unfold Store.sizeAt Store.pool?
  rw [h.get]
  split <;> rfl

end Store

namespace Change

variable {c : Change} {s t : Store Record} {k : Key}

/-- a change gives a pool another size, or none -/
theorem Applied.sizeAt (h : c.Applied s t) (k : Key) :
    t.sizeAt k = (s.pool? k).map fun p => (p.direction, (c.resize k p).size) := by
  rw [Store.sizeAt_eq, h.core]
  unfold Store.coreAt Store.pool?
  cases s.get? k with
  | none => rfl
  | some r =>
    cases r
    case pool p =>
      cases c
      case poolSize changed size =>
        by_cases hk : changed = k <;>
          simp [hk, rewrite, resize, Record.core, Record.mapPool, Record.mapProfile, Record.asPool?]
      all_goals rfl
    all_goals rfl

/-- a change that is not of a pool's size leaves all sizes as they are -/
theorem Applied.sizeAt_eq_self (h : c.Applied s t) (hs : ∀ k p, c.resize k p = p) (k : Key) :
    t.sizeAt k = s.sizeAt k := by
  rw [h.sizeAt, Store.sizeAt]
  simp only [hs]

end Change

theorem Store.sizeAt_written (s : Store Record) (figures : List (Key × Totals)) (k : Key) :
    (s.written figures).sizeAt k = s.sizeAt k :=
  (Change.applied_written k s figures).sizeAt_eq_self (fun _ _ => rfl) k

/-- an operation on lists leaves all sizes as they are -/
theorem LinkM.Steady.sizeAt {α : Type} {x : LinkM α} (hx : x.Steady) {s t : Store Record} {a : Except LinkError α}
    (h : x.run s = (a, t)) (k : Key) : t.sizeAt k = s.sizeAt k := by
  have hbare := (hx s).2 k
  rw [h] at hbare
  rw [Store.sizeAt_eq, Store.sizeAt_eq, Store.coreAt_eq, Store.coreAt_eq, hbare]

/-! ## The budget of a direction -/

/-- the pools of a direction are few enough; and small enough, unless the switch has the largest amount of memory -/
structure Store.Within (hw : Hardware) (s : Store Record) (direction : Direction) : Prop where
  pools : (s.poolsIn direction).length ≤ hw.maxPoolsPerDirection.toNat
  bytes : hw.totalBytes ≠ maxAmount → s.bytesIn direction ≤ hw.totalBytes.toNat

section

variable {hw : Hardware} {s t : Store Record} {L : Layout} {direction : Direction} {c : Change}

theorem Store.Within.of_sizes (h : s.Within hw direction)
    (hsizes : ∀ k n, t.sizeAt k = some (direction, n) → s.sizeAt k = some (direction, n)) : t.Within hw direction := by
  obtain ⟨hlen, hsum⟩ := Store.sizesIn_le fun k n hk => Store.mem_sizesIn.2 (hsizes k n hk)
  rw [Store.length_sizesIn] at hlen
  rw [Store.sum_sizesIn] at hsum
  exact ⟨hlen.trans h.pools, fun htotal => hsum.trans (h.bytes htotal)⟩

theorem Store.Within.inserted (h : s.Within hw direction) {k : Key} {kind : ObjectKind} {r : Record}
    (hnew : Store.Inserted s t kind k r) (hr : r.asPool? = none) : t.Within hw direction := by
  refine h.of_sizes fun j n hj => ?_
  rw [hnew.sizeAt, hr] at hj
  split at hj
  · cases hj
  · exact hj

theorem Store.Within.retired (h : s.Within hw direction) {k : Key} (hgone : Store.Retired s t k) :
    t.Within hw direction := by
  refine h.of_sizes fun j n hj => ?_
  rw [hgone.sizeAt] at hj
  split at hj
  · cases hj
  · exact hj

theorem Store.Within.steady (h : s.Within hw direction) {α : Type} {x : LinkM α} {a : Except LinkError α}
    (hrun : x.run s = (a, t)) (hx : x.Steady) : t.Within hw direction :=
  h.of_sizes fun j _ hj => (hx.sizeAt hrun j).symm.trans hj

theorem Store.Within.written (h : s.Within hw direction) (figures : List (Key × Totals)) :
    (s.written figures).Within hw direction :=
  h.of_sizes fun j _ hj => (Store.sizeAt_written s figures j).symm.trans hj

/-- all but the largest amount of memory is less than a sum stops at -/
theorem Hardware.totalBytes_lt (h : hw.totalBytes ≠ maxAmount) : hw.totalBytes.toNat < UInt64.size - 1 := by
  have hlt := hw.totalBytes.toNat_lt
  have hne : hw.totalBytes.toNat ≠ UInt64.size - 1 := fun he => h (UInt64.toNat_inj.1 he)
  simp only [UInt64.size] at hne ⊢
  omega

/-- a new pool that was checked keeps to the budget -/
theorem Store.Within.newPool (h : s.Within hw direction) (w : Wired hw s L none) {k : Key} {r : PoolRequest}
    (hroom : (Manager.over hw s).checkDirection r.direction none r.size = .ok ())
    (hnew : Store.Inserted s t .pool k (.pool (Pool.fresh r.direction r.size r.mode hw.tileSlots))) :
    t.Within hw direction := by
  have hsize : ∀ j n, t.sizeAt j = some (direction, n) →
      (j, n) = (k, r.size) ∧ r.direction = direction ∨ s.sizeAt j = some (direction, n) := by
    intro j n hj
    rw [hnew.sizeAt] at hj
    split at hj
    · rename_i hjk
      obtain ⟨hd, hn⟩ := Prod.mk.inj (Option.some.inj hj)
      exact .inl ⟨Prod.ext hjk hn.symm, hd⟩
    · exact .inr hj
  by_cases hd : r.direction = direction
  · subst hd
    obtain ⟨hlen, hsum⟩ := Store.sizesIn_le (l := (k, r.size) :: s.sizesIn r.direction) fun j n hj =>
      (hsize j n hj).elim (fun hk => List.mem_cons.2 (.inl hk.1)) fun hs => List.mem_cons_of_mem _ (mem_sizesIn.2 hs)
    rw [List.length_cons, Store.length_sizesIn] at hlen
    rw [List.map_cons, List.sum_cons, Store.sum_sizesIn] at hsum
    have hlimit := Manager.lt_limit_of_checkDirection (m := Manager.over hw s) w hroom
    refine ⟨hlen.trans hlimit, fun htotal => hsum.trans ?_⟩
    rw [Nat.add_comm]
    exact ((Manager.checkDirection_new_iff (m := Manager.over hw s) w (Hardware.totalBytes_lt htotal)).1 hroom).2
  · exact h.of_sizes fun j n hj => (hsize j n hj).resolve_left fun hk => hd hk.2

/-- another size of a pool that was checked keeps to the budget -/
theorem Store.Within.resized (h : s.Within hw direction) (w : Wired hw s L none) {k : Key} {p : Pool} {size : UInt64}
    (hp : s.pool? k = some p) (hroom : (Manager.over hw s).checkDirection p.direction (some k) size = .ok ())
    (ht : (Change.poolSize k size).apply.run s = (.ok (), t)) (happ : (Change.poolSize k size).Applied s t) :
    t.Within hw direction := by
  have hkeys : ∀ j n, t.sizeAt j = some (direction, n) → ∃ n', s.sizeAt j = some (direction, n') := by
    intro j n hj
    rw [happ.sizeAt] at hj
    obtain ⟨q, hq, he⟩ := Option.map_eq_some_iff.1 hj
    obtain rfl := (Prod.mk.inj he).1
    exact ⟨q.size, congrArg (Option.map _) hq⟩
  refine ⟨(Store.poolsIn_le hkeys).trans h.pools, fun htotal => ?_⟩
  by_cases hd : p.direction = direction
  · subst hd
    exact (Manager.checkDirection_resized_iff (m := Manager.over hw s) w (Hardware.totalBytes_lt htotal) hp ht).1 hroom
  · -- the pool is of the other direction, so the sizes of this one are what they were
    refine (h.of_sizes fun j n hj => ?_).bytes htotal
    rw [happ.sizeAt] at hj
    obtain ⟨q, hq, he⟩ := Option.map_eq_some_iff.1 hj
    obtain ⟨hqd, hn⟩ := Prod.mk.inj he
    have hjk : k ≠ j := by
      rintro rfl
      rw [hp] at hq
      obtain rfl := Option.some.inj hq
      exact hd hqd
    rw [Store.sizeAt, hq, ← hqd, ← hn, Change.resize, if_neg hjk]
    rfl

/-- **Every move keeps to the budget** of every direction. -/
theorem Move.within (hs : Sound hw s L) (hm : Move hw s t) (h : s.Within hw direction) : t.Within hw direction := by
  cases hm with
  | newPool room new => exact h.newPool hs.wired room new
  | newPort free new => exact h.inserted new rfl
  | @newMember kind R k o r t u home owner unlinked rkind asked new joined =>
    have hpool : r.asPool? = none := by
      cases r
      case pool p =>
        rw [← rkind] at home
        cases home
      all_goals rfl
    exact (h.inserted new hpool).steady joined (Store.steady_attach _ _ _)
  | @change c figures t buildable countable permitted planned made =>
    obtain ⟨t', hrun, -, happ, -⟩ := c.apply_run hs.wired buildable countable
    rw [made, Prod.mk.injEq] at hrun
    obtain rfl := hrun.2
    refine Store.Within.written ?_ figures
    cases c with
    | poolSize k size =>
      obtain ⟨p, hp, hroom⟩ := permitted
      exact h.resized hs.wired hp hroom made happ
    | _ => exact h.of_sizes fun j n hj => (happ.sizeAt_eq_self (fun _ _ => rfl) j).symm.trans hj
  | @threshold k o p q threshold profile pool owner mode =>
    refine h.of_sizes fun j n hj => ?_
    have hsame : (s.edit k (Record.mapProfile fun p => { p with threshold })).sizeAt j = s.sizeAt j := by
      unfold Store.sizeAt Store.pool?
      rw [Store.get?_edit]
      split
      · rcases s.get? j with - | (_ | _ | _ | _ | _) <;> rfl
      · rfl
    exact hsame.symm.trans hj
  | poolGone live kind unused gone => exact h.retired gone
  | profileGone live kind unused left gone planned =>
    exact ((h.steady left (Store.steady_detach _ _ _)).retired gone).written _

end

/-- **Whatever is reached is within the budget** of every direction: there are no more pools than it may have, and their
sizes add up to no more than the switch has, unless it has the largest amount. -/
theorem reached_within {hw : Hardware} {m : Manager} (hm : m.Reached hw) (direction : Direction) :
    (m.store.poolsIn direction).length ≤ hw.maxPoolsPerDirection.toNat ∧
      (hw.totalBytes ≠ maxAmount → m.store.bytesIn direction ≤ hw.totalBytes.toNat) := by
  obtain ⟨watched, acts, rfl⟩ := hm
  have hstart : (Manager.start hw watched).store.Within hw direction := ⟨Nat.zero_le _, fun _ => Nat.zero_le _⟩
  have hmoves := ((isSound_start hw watched).moves_live acts).2
  have hwithin := hmoves.keeps (I := fun s => s.Within hw direction) (fun _ _ _ hs hm h => hm.within hs h) hstart
  exact ⟨hwithin.pools, hwithin.bytes⟩

/-- of five pools that are asked for, one is too large beside the first, one is too many, and one is of the other
direction -/
theorem filled_within :
    let hw : Hardware := { totalBytes := 100, maxPoolsPerDirection := 2 }
    let m := (start hw false).live ([(.ingress, 60), (.ingress, 50), (.ingress, 40), (.ingress, 0), (.egress, 100)].map
      fun (direction, size) => .call (.createPool direction size none))
    m.Reached hw ∧ m.store.bytesIn .ingress = 100 ∧ (m.store.poolsIn .ingress).length ≤ 2 ∧
      m.store.bytesIn .ingress ≤ 100 := by
  intro hw m
  have hm : m.Reached hw := ⟨false, _, rfl⟩
  obtain ⟨hpools, hbytes⟩ := reached_within hm .ingress
  exact ⟨hm, by decide +kernel, hpools, hbytes (by decide)⟩

/-- **At the very largest amount of memory nothing is refused**: two pools of half of what 64 bits can count to are
created, though together they need one byte more than there is -/
theorem crossing_exceeds :
    let hw : Hardware := { totalBytes := maxAmount }
    let m := (start hw false).live (List.replicate 2 (.call (.createPool .ingress 0x8000000000000000 none)))
    m.Reached hw ∧ m.store.bytesIn .ingress = hw.totalBytes.toNat + 1 := by
  intro hw m
  exact ⟨⟨false, _, rfl⟩, by decide +kernel⟩

end SharedBuffer
