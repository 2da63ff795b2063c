/-
Where ports are.

A port is placed when it is brought up: on the tile that the hardware has for its number, which is never beyond the
last. No move touches the place of a port again, so ports are where they were placed, whatever was asked of a manager
since. Evaluations find the tile of a consumer by way of its port, and cut it to the tiles that there are; as no port is
beyond them, the cut changes nothing.

Results:
- `Move.placeAt`: a move leaves ports where they are, or brings up a new one on its tile;
- `Moves.placeAt_stays`, `Moves.placed`: so do moves one after another;
- `reserveTiled_eq_reservePlaced`: charges go to the tiles of the consumers, and these are never beyond the last;
- `Config.tileOf_listed`: a checked configuration places a port that it lists where it says;
- `reached_placed`: all of this, of every manager that is reached.
-/
import SharedBuffer.Config
import SharedBuffer.Proofs.Manager.Batch
import SharedBuffer.Proofs.Manager.Ports

namespace SharedBuffer

open Accounting Manager

/-! ## The tiles of the hardware -/

theorem Hardware.tileOf_lt (hw : Hardware) (n : UInt32) : (hw.tileOf n).toNat < max 1 hw.tileCount.toNat := by
  have hle := UInt32.le_iff_toNat_le.1 (hw.tileOf_le n)
  rw [toNat_lastTile] at hle
  omega

namespace Config

variable {hw : Hardware} {n tile : UInt32}

theorem hardwareFault?_of_validate {config : Config} (h : config.validate = .ok ()) :
    hardwareFault? config.hardware = none := by
  unfold validate at h
  split at h
  · cases h
  · assumption

/-- hardware that nothing is wrong with lists only tiles that there are -/
theorem listed_lt (h : hardwareFault? hw = none) (htile : tile ∈ hw.portTiles) : tile < hw.tileCount := by
  unfold hardwareFault? at h
  repeat' split at h
  case h_2.isFalse hnone _ => simpa using List.find?_eq_none.1 hnone tile htile
  all_goals cases h

/-- **A port that is listed is placed where the list says**, where nothing is wrong with the hardware. -/
theorem tileOf_listed (h : hardwareFault? hw = none) (hlisted : hw.portTiles[n.toNat]? = some tile) :
    hw.tileOf n = tile := by
  have hlt := UInt32.lt_iff_toNat_lt.1 (listed_lt h (List.mem_of_getElem? hlisted))
  have hle : tile ≤ hw.lastTile := by
    rw [UInt32.le_iff_toNat_le, toNat_lastTile]
    exact Nat.le_pred_of_lt hlt
  rw [Hardware.tileOf, hlisted]
  exact if_pos hle

end Config

/-! ## Places -/

/-- the number and the tile of a port -/
def Record.place? : Record → Option (UInt32 × UInt32)
  | port p => some (p.hardwareNumber, p.tile)
  | _ => none

namespace Store

variable {s t : Store Record} {j k : Key} {kind : ObjectKind} {r : Record} {p : Port} {n tile : UInt32}

/-- the number and the tile of the port under a key -/
def placeAt (s : Store Record) (k : Key) : Option (UInt32 × UInt32) := (s.get? k).bind Record.place?

theorem placeAt_eq_some :
    s.placeAt k = some (n, tile) ↔ ∃ p, s.port? k = some p ∧ p.hardwareNumber = n ∧ p.tile = tile := by
  unfold placeAt port?
  rcases s.get? k with - | (_ | _ | _ | _ | _) <;> simp [Record.place?, Record.asPort?]

theorem exists_port?_of_portOf? (h : s.portOf? k = some p) : ∃ o, s.port? o = some p := by
  obtain ⟨r, hr, h⟩ := Option.bind_eq_some_iff.1 h
  cases r
  case port q =>
    obtain rfl := Option.some.inj h
    exact ⟨k, port?_eq_some.2 hr⟩
  all_goals
    obtain ⟨o, -, ho⟩ := Option.bind_eq_some_iff.1 h
    exact ⟨o, ho⟩

theorem placeAt_of_port? (h : s.port? k = some p) : s.placeAt k = some (p.hardwareNumber, p.tile) :=
  placeAt_eq_some.2 ⟨p, h, rfl, rfl⟩

theorem placeAt_of_absent (h : s.contains k = false) : s.placeAt k = none := by
  rw [placeAt, get?_eq_none h]
  rfl

theorem placeAt_eq (s : Store Record) (k : Key) : s.placeAt k = (s.settingsAt k).bind Record.place? := by
  unfold placeAt settingsAt
  rcases s.get? k with - | (_ | _ | _ | _ | _) <;> rfl

/-- a place is a setting -/
theorem placeAt_of_settingsAt (h : t.settingsAt k = s.settingsAt k) : t.placeAt k = s.placeAt k := by
  rw [placeAt_eq, placeAt_eq, h]

theorem Inserted.placeAt (h : Inserted s t kind j r) (k : Key) :
    t.placeAt k = if k = j then r.place? else s.placeAt k := by
  rw [Store.placeAt, h.get]
  split <;> rfl

/-- what is new had no place -/
theorem Inserted.placeAt_before (h : Inserted s t kind j r) (hs : s.Handed) : s.placeAt j = none :=
  placeAt_of_absent (Bool.eq_false_iff.2 fun hc => h.new (hs.issued hc))

/-- what is new and no port leaves ports where they are -/
theorem Inserted.placeAt_eq (h : Inserted s t kind j r) (hs : s.Handed) (hr : r.place? = none) (k : Key) :
    t.placeAt k = s.placeAt k := by
  rw [h.placeAt]
  split
  case isTrue hk => rw [hk, hr, h.placeAt_before hs]
  case isFalse => rfl

/-- so does what goes and is no port -/
theorem Retired.placeAt_eq (h : Retired s t j) (hj : s.placeAt j = none) (k : Key) : t.placeAt k = s.placeAt k := by
  rw [Store.placeAt, h.get]
  split
  case isTrue hk => rw [hk, hj]; rfl
  case isFalse => rfl

/-- every port is where the hardware has a tile for its number -/
def Placed (hw : Hardware) (s : Store Record) : Prop :=
  ∀ k n tile, s.placeAt k = some (n, tile) → tile = hw.tileOf n

end Store

theorem Wired.placeAt_eq_none {hw : Hardware} {s : Store Record} {L : Layout} {out : Option Key} {k : Key}
    (w : Wired hw s L out) (hk : k.kind ≠ .port) : s.placeAt k = none := by
  rw [Store.placeAt]
  cases hr : s.get? k with
  | none => rfl
  | some r =>
    rw [← w.kind_eq hr] at hk
    cases r
    case port => exact absurd rfl hk
    all_goals rfl

/-- a planned change is about no port -/
theorem Change.placeAt_apply {c : Change} {s t : Store Record} (hrun : c.apply.run s = (.ok (), t)) (k : Key) :
    t.placeAt k = s.placeAt k := by
  rw [Store.placeAt_eq, Store.placeAt_eq, Store.settingsAt_eq, Store.settingsAt_eq, bareAt_apply hrun]
  rcases s.bareAt k with - | (_ | _ | _ | _ | _) <;> rfl

/-! ## What moves do to places -/

section

variable {hw : Hardware} {s t : Store Record} {L : Layout} {k : Key} {place : UInt32 × UInt32}

/-- **A move leaves ports where they are**, or brings up a new one where the hardware has a tile for it. -/
theorem Move.placeAt (hs : Sound hw s L) (hm : Move hw s t) (k : Key) :
    t.placeAt k = s.placeAt k ∨ s.placeAt k = none ∧ ∃ n, t.placeAt k = some (n, hw.tileOf n) := by
  have hwritten : ∀ (u : Store Record) (figures : List (Key × Totals)), (u.written figures).placeAt k = u.placeAt k :=
    fun u figures => Store.placeAt_of_settingsAt (Store.settingsAt_written u figures k)
  cases hm with
  | newPool room new => exact .inl (new.placeAt_eq hs.wired.handed rfl k)
  | @newPort j n t free new =>
    by_cases hk : k = j
    · exact .inr ⟨hk ▸ new.placeAt_before hs.wired.handed, n, (new.placeAt k).trans (if_pos hk)⟩
    · exact .inl ((new.placeAt k).trans (if_neg hk))
  | @newMember kind R j o r u t home owner unlinked rkind asked new joined =>
    -- ports are in no home list
    have hr : r.place? = none := by
      subst rkind
      cases r
      case port => cases home
      all_goals rfl
    exact .inl ((Store.placeAt_of_settingsAt (Store.settingsAt_of_steady (Store.steady_attach R o j) joined k)).trans
      (new.placeAt_eq hs.wired.handed hr k))
  | change buildable countable permitted planned made =>
    exact .inl ((hwritten _ _).trans (Change.placeAt_apply made k))
  | @threshold j o p q threshold profile pool owner mode =>
    left
    rw [Store.placeAt, Store.placeAt, Store.get?_edit]
    split
    · rcases s.get? k with - | (_ | _ | _ | _ | _) <;> rfl
    · rfl
  | poolGone live kind unused gone =>
    exact .inl (gone.placeAt_eq (hs.wired.placeAt_eq_none (by rw [kind]; decide)) k)
  | @profileGone j o u t figures live kind unused left gone planned =>
    have hleft := fun x =>
      Store.placeAt_of_settingsAt (Store.settingsAt_of_steady (Store.steady_detach .poolProfiles o j) left x)
    have hj : u.placeAt j = none := (hleft j).trans (hs.wired.placeAt_eq_none (by rw [kind]; decide))
    exact .inl ((hwritten _ _).trans ((gone.placeAt_eq hj k).trans (hleft k)))

/-- **A port stays where it is**, with the number that it has. -/
theorem Moves.placeAt_stays (h : Moves hw s t) (hk : s.placeAt k = some place) : t.placeAt k = some place := by
  refine h.keeps (I := fun t => t.placeAt k = some place) (fun u v L hu hm hplace => ?_) hk
  rcases hm.placeAt hu k with hsame | ⟨hnone, -⟩
  · exact hsame.trans hplace
  · cases hnone.symm.trans hplace

/-- **Every port is where the hardware has a tile for it.** -/
theorem Moves.placed (h : Moves hw s t) (hs : s.Placed hw) : t.Placed hw := by
  refine h.keeps (I := Store.Placed hw) (fun u v L hu hm hplaced k n tile hk => ?_) hs
  rcases hm.placeAt hu k with hsame | ⟨-, n', hnew⟩
  · exact hplaced k n tile (hsame ▸ hk)
  · obtain ⟨rfl, rfl⟩ := Prod.mk.inj (Option.some.inj (hnew.symm.trans hk))
    rfl

end

theorem Manager.placed_start (hw : Hardware) (watched : Bool) : (start hw watched).store.Placed hw := by
  intro k n tile hk
  cases hk

theorem Manager.Reached.placed {hw : Hardware} {m : Manager} (h : Reached hw m) : m.store.Placed hw := by
  obtain ⟨watched, acts, rfl⟩ := h
  exact ((isSound_start hw watched).moves_live acts).2.placed (placed_start hw watched)

/-! ## Charges -/

section

variable {ε α β : Type} {x : Except ε α} {f g : α → Except ε β}

theorem exists_of_bind_ok {b : β} (h : x >>= f = .ok b) : ∃ a, x = .ok a ∧ f a = .ok b := by
  cases x with
  | error e => cases h
  | ok a => exact ⟨a, rfl, h⟩

theorem bind_congr_ok (h : ∀ a, x = .ok a → f a = g a) : x >>= f = x >>= g := by
  cases x with
  | error e => rfl
  | ok a => exact h a rfl

theorem exists_of_mapM_ok {l : List α} {v : List β} {b : β} (h : l.mapM f = .ok v) (hb : b ∈ v) :
    ∃ a ∈ l, f a = .ok b := by
  induction l generalizing v with
  | nil =>
    cases h
    cases hb
  | cons a l ih =>
    rw [List.mapM_cons] at h
    obtain ⟨b', hb', h⟩ := exists_of_bind_ok h
    obtain ⟨v', hv', h⟩ := exists_of_bind_ok h
    cases h
    rcases List.mem_cons.1 hb with rfl | hb
    · exact ⟨a, List.mem_cons_self, hb'⟩
    · obtain ⟨c, hc, hcb⟩ := ih hv' hb
      exact ⟨c, List.mem_cons_of_mem a hc, hcb⟩

end

namespace Accounting

variable {hw : Hardware} {s : Store Record}

/-- what some profiles reserve on each tile, where a charge goes to the tiles of the consumers as they are -/
def reservePlaced (s : Store Record) (c : Change) (pool : Key) (direction : Direction) (tileReserved : List UInt64) :
    List Key → Except Fault (List UInt64)
  | [] => .ok tileReserved
  | profile :: rest => do
    let consumers ← consumersOf s c profile
    if consumers.isEmpty then reservePlaced s c pool direction tileReserved rest
    else
      let (size, headroom) ← chargeOf s c profile
      let charge ← orOverflow pool (tileCharge direction size headroom)
      let tiles ← consumers.mapM (tileOfConsumer s)
      reservePlaced s c pool direction (← orOverflow pool (chargeTiles charge (tiles.map UInt32.toNat) tileReserved))
        rest

/-- the tile of a consumer is that of the port it draws through -/
theorem exists_portOf?_of_tileOfConsumer {consumer : Key} {tile : UInt32} (h : tileOfConsumer s consumer = .ok tile) :
    ∃ p, s.portOf? consumer = some p ∧ p.tile = tile := by
  obtain ⟨r, hr, h⟩ := exists_of_bind_ok h
  rw [Store.portOf?, Store.get?_of_require hr, Option.bind_some]
  cases r
  case port p => exact ⟨p, rfl, Except.ok.inj h⟩
  all_goals
    simp only at h
    split at h
    · cases h
    rename_i port hport
    obtain ⟨owner, howner, h⟩ := exists_of_bind_ok h
    cases hp : owner.asPort? with
    | none => rw [hp] at h; cases h
    | some p =>
      rw [hp] at h
      have hfound : s.port? port = some p := by rw [Store.port?, Store.get?_of_require howner]; exact hp
      exact ⟨p, Option.bind_eq_some_iff.2 ⟨port, hport, hfound⟩, Except.ok.inj h⟩

/-- no consumer is on a tile beyond the last, where no port is -/
theorem tileOfConsumer_lt (ht : hw.isTiled = true) (hports : ∀ k p, s.port? k = some p → p.tile ≤ hw.lastTile)
    {consumer : Key} {tile : UInt32} (h : tileOfConsumer s consumer = .ok tile) : tile.toNat < hw.tileSlots := by
  obtain ⟨p, hp, rfl⟩ := exists_portOf?_of_tileOfConsumer h
  obtain ⟨k, hk⟩ := Store.exists_port?_of_portOf? hp
  exact tile_lt_tileSlots ht (hports k p hk)

theorem length_of_chargeTiles {pool : Key} {charge : UInt64} {hit : List Nat} {r v : List UInt64}
    (h : orOverflow pool (chargeTiles charge hit r) = .ok v) : v.length = r.length := by
  cases hv : chargeTiles charge hit r with
  | none => rw [hv] at h; cases h
  | some v' =>
    rw [hv] at h
    obtain rfl := Except.ok.inj h
    exact (chargeTiles_eq_some hv).length_eq

/-- **Charges go to the tiles of the consumers**: to cut these to the tiles that there are changes nothing. -/
theorem reserveTiled_eq_reservePlaced (ht : hw.isTiled = true)
    (hports : ∀ k p, s.port? k = some p → p.tile ≤ hw.lastTile) (c : Change) (pool : Key) (direction : Direction)
    (profiles : List Key) {tileReserved : List UInt64} (hl : tileReserved.length = hw.tileSlots) :
    reserveTiled s c pool direction tileReserved profiles = reservePlaced s c pool direction tileReserved profiles := by
  induction profiles generalizing tileReserved with
  | nil => rfl
  | cons profile rest ih =>
    rw [reserveTiled, reservePlaced]
    refine bind_congr_ok fun consumers _ => ?_
    split
    · exact ih hl
    refine bind_congr_ok ?_
    rintro ⟨size, headroom⟩ -
    refine bind_congr_ok fun charge _ => bind_congr_ok fun tiles htiles => ?_
    have hhit : (tiles.map fun tile => min tile.toNat (tileReserved.length - 1)) = tiles.map UInt32.toNat :=
      List.map_congr_left fun tile htile => by
        obtain ⟨consumer, -, hconsumer⟩ := exists_of_mapM_ok htiles htile
        rw [hl]
        exact Nat.min_eq_left (Nat.le_pred_of_lt (tileOfConsumer_lt ht hports hconsumer))
    simp only [hhit]
    exact bind_congr_ok fun charged hcharged => ih ((length_of_chargeTiles hcharged).trans hl)

end Accounting

/-! ## Every manager -/

/-- **Ports stay on real tiles.** A port is on a tile that there is, the one that the hardware has for its number, and
is so for good. Every consumer has the tile of its port. So an evaluation finds consumers on tiles that there are, and
to cut tiles to those that there are changes no charge; that goes for each store with the same ports, as for the one
that a removal evaluates. If nothing is wrong with the hardware, a port that it lists is on the tile that the list
says. -/
theorem reached_placed {hw : Hardware} {m : Manager} (hm : Reached hw m) :
    (∀ k p, m.store.port? k = some p →
      p.tile.toNat < max 1 hw.tileCount.toNat ∧ p.tile = hw.tileOf p.hardwareNumber ∧
        ∀ acts, ∃ p', (m.live acts).store.port? k = some p' ∧ p'.hardwareNumber = p.hardwareNumber ∧
          p'.tile = p.tile) ∧
    (∀ x ∈ m.store.consumers, ∃ p, m.store.portOf? x = some p ∧ tileOfConsumer m.store x = .ok p.tile ∧
      p.tile = hw.tileOf p.hardwareNumber) ∧
    (hw.isTiled = true → ∀ s : Store Record, s.placeAt = m.store.placeAt →
      (∀ consumer tile, tileOfConsumer s consumer = .ok tile → tile.toNat < hw.tileSlots) ∧
        ∀ c pool direction profiles,
          reserveTiled s c pool direction (List.replicate hw.tileSlots 0) profiles =
            reservePlaced s c pool direction (List.replicate hw.tileSlots 0) profiles) ∧
    ∀ config : Config, config.hardware = hw → config.validate = .ok () →
      ∀ (n tile : UInt32), hw.portTiles[n.toNat]? = some tile →
        hw.tileOf n = tile ∧ ∀ k p, m.store.port? k = some p → p.hardwareNumber = n → p.tile = tile := by
  have hplaced : ∀ k p, m.store.port? k = some p → p.tile = hw.tileOf p.hardwareNumber := fun k p hp =>
    hm.placed k _ _ (Store.placeAt_of_port? hp)
  refine ⟨fun k p hp => ⟨?_, hplaced k p hp, fun acts => ?_⟩, fun x hx => ?_, fun ht s hs => ?_, ?_⟩
  · exact hplaced k p hp ▸ hw.tileOf_lt _
  · exact Store.placeAt_eq_some.1
      ((hm.sound.moves_live acts).2.placeAt_stays (Store.placeAt_of_port? hp))
  · obtain ⟨-, L, hsound⟩ := hm.sound
    obtain ⟨hc, hk⟩ := Store.mem_consumers.1 hx
    obtain ⟨p, hp, -⟩ := hsound.wired.exists_portOf hc hk
    obtain ⟨k, hport⟩ := Store.exists_port?_of_portOf? hp
    exact ⟨p, hp, Store.tileOfConsumer_eq hp, hplaced k p hport⟩
  · have hports : ∀ k p, s.port? k = some p → p.tile ≤ hw.lastTile := fun k p hp => by
      have hplace := congrFun hs k ▸ Store.placeAt_of_port? hp
      exact hm.placed k _ _ hplace ▸ hw.tileOf_le _
    exact ⟨fun consumer tile h => tileOfConsumer_lt ht hports h, fun c pool direction profiles =>
      reserveTiled_eq_reservePlaced ht hports c pool direction profiles (List.length_replicate ..)⟩
  · rintro config rfl hvalid n tile hlisted
    have htile := Config.tileOf_listed (Config.hardwareFault?_of_validate hvalid) hlisted
    refine ⟨htile, ?_⟩
    rintro k p hp rfl
    exact (hplaced k p hp).trans htile

/-- the second port is on the second tile, where the hardware lists it, and stays there; the group of the first port is
charged to a tile that there is -/
theorem crowded_placed :
    ({ hardware := twoTiles } : Config).validate = .ok () ∧ twoTiles.isTiled = true ∧
    twoTiles.portTiles[(1 : UInt32).toNat]? = some 1 ∧
    (∃ p, crowded.store.port? secondPort.key = some p ∧ p.hardwareNumber = 1 ∧ p.tile = 1 ∧
      p.tile.toNat < max 1 twoTiles.tileCount.toNat ∧
        ∀ acts, ∃ p', (crowded.live acts).store.port? secondPort.key = some p' ∧ p'.tile = 1) ∧
    ∃ tile, tileOfConsumer crowded.store firstGroup.key = .ok tile ∧ tile.toNat < twoTiles.tileSlots := by
  have hvalid : ({ hardware := twoTiles } : Config).validate = .ok () := by decide
  have ht : twoTiles.isTiled = true := by decide
  obtain ⟨p, hp, hnumber, -⟩ := Store.placeAt_eq_some.1
    (show crowded.store.placeAt secondPort.key = some (1, 1) by decide +kernel)
  have hreached : Reached twoTiles crowded := ⟨true, crowding, rfl⟩
  obtain ⟨hports, hconsumers, hcharges, hlisted⟩ := reached_placed hreached
  have hentry : twoTiles.portTiles[(1 : UInt32).toNat]? = some 1 := by decide
  have htile := (hlisted { hardware := twoTiles } rfl hvalid 1 1 hentry).2 secondPort.key p hp hnumber
  obtain ⟨hlt, -, hstays⟩ := hports secondPort.key p hp
  obtain ⟨q, -, hgroup, -⟩ := hconsumers firstGroup.key (by decide +kernel)
  refine ⟨hvalid, ht, hentry, ⟨p, hp, hnumber, htile, hlt, fun acts => ?_⟩, q.tile, hgroup, ?_⟩
  · obtain ⟨p', hp', -, hsame⟩ := hstays acts
    exact ⟨p', hp', hsame.trans htile⟩
  · exact (hcharges ht crowded.store rfl).1 _ q.tile hgroup

end SharedBuffer
