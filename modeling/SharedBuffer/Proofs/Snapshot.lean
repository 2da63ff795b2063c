/-
What is written of an object tells it apart.

Records and reports name an object by the digits of its id, and show it as an object of named fields, which are put in
order of their names before they go on record. Neither loses anything: the digits state the id, and the fields, in any
order, the snapshot.

Results: `Key.eq_of_text` and `Snapshot.eq_of_sorted`.
-/
import SharedBuffer.Snapshot
import Mathlib.Tactic

namespace SharedBuffer

/-! ## Digits -/

theorem digitValue_digitChar {d : Nat} (h : d < 16) : digitValue d.digitChar = d := by
  interval_cases d <;> decide

theorem ofDigits_append (base : Nat) (l l' : List Char) :
    ofDigits base (l ++ l') = l'.foldl (fun n c => base * n + digitValue c) (ofDigits base l) := by
  rw [ofDigits, List.foldl_append]
  rfl

/-- digits to base sixteen read back as the number -/
theorem ofDigits_toDigits (n : Nat) : ofDigits 16 (Nat.toDigits 16 n) = n := by
  induction n using Nat.strongRecOn with
  | ind n ih =>
    rw [Nat.toDigits_eq_if (by decide)]
    split
    case isTrue h => simp [ofDigits, digitValue_digitChar h]
    case isFalse h =>
      rw [ofDigits_append, ih (n / 16) (by omega), List.foldl_cons, List.foldl_nil,
        digitValue_digitChar (Nat.mod_lt n (by decide)), Nat.div_add_mod]

/-- zeros in front change nothing -/
theorem ofDigits_replicate (base n : Nat) (l : List Char) :
    ofDigits base (List.replicate n '0' ++ l) = ofDigits base l := by
  have hzeros : ofDigits base (List.replicate n '0') = 0 := by
    induction n with
    | zero => rfl
    | succ n ih => rw [List.replicate_succ', ofDigits_append, ih]; rfl
  rw [ofDigits_append, hzeros]
  rfl

/-- **Padded digits state their number.** -/
theorem paddedHexText_inj {width m n : Nat} (h : paddedHexText width m = paddedHexText width n) : m = n := by
  have hdigits := congrArg (fun s => ofDigits 16 (s.toList.drop 2)) h
  simpa [paddedHexText, ofDigits_replicate, ofDigits_toDigits] using hdigits

/-- **A key is told by its type and its text.** -/
theorem Key.eq_of_text {k j : Key} (hname : k.kind.name = j.kind.name) (htext : k.text = j.text) : k = j := by
  have hid : k.id = j.id := UInt64.toNat_inj.1 (paddedHexText_inj htext)
  have hkind : k.kind = j.kind := by
    revert hname
    cases k.kind <;> cases j.kind <;> decide
  obtain ⟨kind, id⟩ := k
  obtain ⟨kind', id'⟩ := j
  obtain rfl : id = id' := hid
  obtain rfl : kind = kind' := hkind
  rfl

/-! ## Fields in order -/

theorem lookup_cons_ite {α : Type} (n name : String) (value : α) (l : List (String × α)) :
    ((name, value) :: l).lookup n = if n = name then some value else l.lookup n := by
  by_cases h : n = name
  · simp [h]
  · rw [List.lookup_cons, beq_false_of_ne h, if_neg h]

theorem lookup_putByName {α : Type} (n name : String) (value : α) (l : List (String × α)) :
    (putByName name value l).lookup n = if n = name then some value else l.lookup n := by
  induction l with
  | nil => exact lookup_cons_ite n name value []
  | cons e rest ih =>
    obtain ⟨m, v⟩ := e
    rw [putByName]
    split
    · exact lookup_cons_ite n name value _
    · split
      case isTrue hsame =>
        rw [lookup_cons_ite, lookup_cons_ite, hsame]
        split <;> rfl
      case isFalse hne =>
        rw [lookup_cons_ite, lookup_cons_ite, ih]
        split
        case isTrue hm => rw [if_neg fun h => hne (h.symm.trans hm)]
        case isFalse => rfl

namespace Json

/-- the last field of a name is the one that stays -/
theorem lookup_sortedFields (n : String) (done fields : List (String × Json)) :
    (sortedFields done fields).lookup n = ((fields.reverse.lookup n).map sorted).or (done.lookup n) := by
  induction fields generalizing done with
  | nil => simp [sortedFields]
  | cons e rest ih =>
    obtain ⟨name, value⟩ := e
    rw [sortedFields, ih, lookup_putByName, List.reverse_cons, List.lookup_append, lookup_cons_ite]
    cases rest.reverse.lookup n with
    | some v => simp
    | none => by_cases h : n = name <;> simp [h]

theorem sortedItems_eq (items : List Json) : sortedItems items = items.map sorted := by
  induction items with
  | nil => rfl
  | cons item rest ih => rw [sortedItems, ih, List.map_cons]

/-- objects with the same fields in order have the same values, each in order -/
theorem lookup_of_sorted {fields fields' : List (String × Json)} (h : (obj fields).sorted = (obj fields').sorted)
    (n : String) : (fields.reverse.lookup n).map sorted = (fields'.reverse.lookup n).map sorted := by
  rw [sorted, sorted, obj.injEq] at h
  have hlook := congrArg (List.lookup n) h
  simpa [lookup_sortedFields] using hlook

/-- where names do not repeat, a field is found behind others too -/
theorem lookup_reverse_of_mem {fields : List (String × Json)} (hnames : (fields.map Prod.fst).Nodup)
    {e : String × Json} (he : e ∈ fields) : fields.reverse.lookup e.1 = some e.2 := by
  induction fields with
  | nil => cases he
  | cons head rest ih =>
    obtain ⟨name, value⟩ := head
    rw [List.map_cons, List.nodup_cons] at hnames
    rw [List.reverse_cons, List.lookup_append]
    rcases List.mem_cons.1 he with rfl | he
    · have hnone : rest.reverse.lookup name = none := List.lookup_eq_none_iff.2 fun f hf =>
        bne_iff_ne.2 fun hsame => hnames.1 (List.mem_map.2 ⟨f, List.mem_reverse.1 hf, hsame.symm⟩)
      rw [hnone, lookup_cons_ite, if_pos rfl, Option.none_or]
    · rw [ih hnames.2 he, Option.some_or]

/-- the values of fields, by their names -/
theorem map_values {fields : List (String × Json)} (hnames : (fields.map Prod.fst).Nodup) :
    fields.map (fun e => some e.2.sorted) =
      (fields.map Prod.fst).map fun n => (fields.reverse.lookup n).map sorted := by
  rw [List.map_map]
  exact List.map_congr_left fun e he => by rw [Function.comp_apply, lookup_reverse_of_mem hnames he, Option.map_some]

/-- **Objects of the same fields that are alike in order have the same values.** -/
theorem values_of_sorted {fields fields' : List (String × Json)} (hsame : fields.map Prod.fst = fields'.map Prod.fst)
    (hnames : (fields.map Prod.fst).Nodup) (h : (obj fields).sorted = (obj fields').sorted) :
    fields.map (fun e => e.2.sorted) = fields'.map fun e => e.2.sorted := by
  refine List.map_injective_iff.2 (Option.some_injective Json) ?_
  rw [List.map_map, List.map_map]
  calc fields.map (fun e => some e.2.sorted)
      = (fields.map Prod.fst).map fun n => (fields.reverse.lookup n).map sorted := map_values hnames
    _ = (fields'.map Prod.fst).map fun n => (fields'.reverse.lookup n).map sorted := by
      rw [hsame]
      exact List.map_congr_left fun n _ => lookup_of_sorted h n
    _ = fields'.map fun e => some e.2.sorted := (map_values (hsame ▸ hnames)).symm

/-! ## Values -/

@[simp] theorem sorted_str (s : String) : (str s).sorted = str s := rfl

@[simp] theorem sorted_amount (n : UInt64) : (amount n).sorted = amount n := rfl

@[simp] theorem sorted_count (n : UInt32) : (count n).sorted = count n := rfl

@[simp] theorem amount_inj {m n : UInt64} : amount m = amount n ↔ m = n := by simp [amount, nat, UInt64.toNat_inj]

@[simp] theorem count_inj {m n : UInt32} : count m = count n ↔ m = n := by simp [count, nat, UInt32.toNat_inj]

/-- a list of amounts is in order, and told by the amounts -/
theorem sorted_amounts (l : List UInt64) : (arr (l.map amount)).sorted = arr (l.map amount) := by
  rw [sorted, sortedItems_eq, List.map_map]
  rfl

theorem amounts_inj {l l' : List UInt64} : arr (l.map amount) = arr (l'.map amount) ↔ l = l' := by
  rw [arr.injEq]
  exact (List.map_injective_iff.2 fun _ _ => amount_inj.1).eq_iff

theorem sorted_ofOption (o : Option UInt64) : (ofOption amount o).sorted = ofOption amount o := by cases o <;> rfl

theorem ofOption_inj {o o' : Option UInt64} : ofOption amount o = ofOption amount o' ↔ o = o' := by
  cases o <;> cases o' <;> simp [ofOption, amount, nat, UInt64.toNat_inj]

end Json

theorem Direction.name_inj {d d' : Direction} : d.name = d'.name ↔ d = d' := by cases d <;> cases d' <;> decide

theorem ThresholdMode.name_inj {m m' : ThresholdMode} : m.name = m'.name ↔ m = m' := by
  cases m <;> cases m' <;> decide

theorem ProfileMode.name_inj {m m' : ProfileMode} : m.name = m'.name ↔ m = m' := by
  cases m <;> cases m' <;> decide

theorem Threshold.sorted_inj {t u : Threshold} : t.toJson.sorted = u.toJson.sorted ↔ t = u := by
  refine ⟨fun h => ?_, fun h => h ▸ rfl⟩
  have hvalues := Json.values_of_sorted (by rfl) (by simp) h
  cases t <;> cases u <;>
    simp_all [Threshold.mode, ThresholdMode.name, Json.sorted, Json.amount, Json.nat, UInt64.toNat_inj, Int8.toInt_inj]

/-! ## Snapshots -/

open Json in
/-- groups and queues are shown alike, but for the kind that their fields start with -/
theorem SubqueueSnapshot.eq_of_sorted {q r : SubqueueSnapshot} {kind : String}
    (h : (obj (("object_type", .str kind) :: q.fields)).sorted =
      (obj (("object_type", .str kind) :: r.fields)).sorted) : q = r := by
  have hvalues := values_of_sorted (by rfl) (by simp [fields]) h
  simp only [List.map_cons, fields, sorted_amount, sorted_count, sorted_ofOption, ofOption_inj, amount_inj, count_inj,
    List.cons.injEq] at hvalues
  obtain ⟨-, hid, hport, hindex, hprofile, -⟩ := hvalues
  rw [SubqueueSnapshot.mk.injEq]
  exact ⟨hid, hport, hindex, hprofile⟩

open Json in
/-- **A snapshot is told by what is written of it**, its fields in order of their names. -/
theorem Snapshot.eq_of_sorted {s t : Snapshot} (h : s.toJson.sorted = t.toJson.sorted) : s = t := by
  cases s <;> cases t
  case pool.pool p q =>
    have hvalues := values_of_sorted (by rfl) (by simp [PoolSnapshot.fields]) h
    simp only [List.map_cons, PoolSnapshot.fields, sorted_amount, sorted_str, sorted_count, sorted_amounts, amounts_inj,
      amount_inj, count_inj, str.injEq, Direction.name_inj, ThresholdMode.name_inj, List.cons.injEq] at hvalues
    obtain ⟨-, hid, hdirection, hmode, hsize, hshared, htiles, htotal, hcount, -⟩ := hvalues
    rw [pool.injEq, PoolSnapshot.mk.injEq]
    exact ⟨hid, hdirection, hmode, hsize, hshared, htiles, htotal, hcount⟩
  case profile.profile p q =>
    have hvalues := values_of_sorted (by rfl) (by simp [ProfileSnapshot.fields]) h
    simp only [List.map_cons, ProfileSnapshot.fields, sorted_amount, sorted_str, sorted_count, sorted_amounts,
      amounts_inj, amount_inj, count_inj, str.injEq, ProfileMode.name_inj, ThresholdMode.name_inj,
      Threshold.sorted_inj, List.cons.injEq] at hvalues
    obtain ⟨-, hid, hpool, hsize, hmode, heffective, hthreshold, hxoff, hxon, hcount, hconsumers, -⟩ := hvalues
    rw [profile.injEq, ProfileSnapshot.mk.injEq]
    exact ⟨hid, hpool, hsize, hmode, heffective, hthreshold, hxoff, hxon, hcount, hconsumers⟩
  case port.port p q =>
    have hvalues := values_of_sorted (by rfl) (by simp [PortSnapshot.fields]) h
    simp only [List.map_cons, PortSnapshot.fields, sorted_amount, sorted_str, sorted_count, sorted_ofOption,
      ofOption_inj, amount_inj, count_inj, List.cons.injEq] at hvalues
    obtain ⟨-, hid, hnumber, htile, hgroups, hqueues, hprofile, -⟩ := hvalues
    rw [port.injEq, PortSnapshot.mk.injEq]
    exact ⟨hid, hnumber, htile, hgroups, hqueues, hprofile⟩
  case queue.queue p q =>
    exact congrArg queue (SubqueueSnapshot.eq_of_sorted h)
  case priorityGroup.priorityGroup p q =>
    exact congrArg priorityGroup (SubqueueSnapshot.eq_of_sorted h)
  all_goals
    have htype := lookup_of_sorted h "object_type"
    simp [PoolSnapshot.fields, ProfileSnapshot.fields, PortSnapshot.fields, SubqueueSnapshot.fields, lookup_cons_ite]
      at htype

end SharedBuffer
