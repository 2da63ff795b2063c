/-
The texts that name consumers in a plan.

A reader splits a text at the first bar, and what is behind it at the first dash, and reads the parts as numbers. No
number contains a mark, so there is one way to split a text that names consumers, and what is split in another way names
none. The value of a numeral is that of its digits in the decimal system, however many zeros lead.

Result: `ConsumerKey.reads_exactly`.
-/
import Mathlib.Data.List.TakeWhile
import Mathlib.Data.Nat.Digits.Defs
import SharedBuffer.Plan.ConsumerKey

namespace SharedBuffer

variable {cs digits : List Char} {mark : Char} {n : UInt32}

/-! ## Numerals -/

/-- some text is decimal digits, at least one, of a value -/
structure IsDecimalOf (value : Nat) (cs : List Char) : Prop where
  nonempty : cs ≠ []
  digits : ∀ c ∈ cs, c.isDigit = true
  value : Nat.ofDigits 10 (cs.reverse.map fun c => c.toNat - '0'.toNat) = value

/-- some text writes a 32-bit number: its digits, with at most one plus sign in front -/
inductive Numeral (n : UInt32) : List Char → Prop
  | plain {cs : List Char} (h : IsDecimalOf n.toNat cs) : Numeral n cs
  | signed {cs : List Char} (h : IsDecimalOf n.toNat cs) : Numeral n ('+' :: cs)

/-- digits read from the left have their value in the decimal system -/
theorem foldl_digits_eq (cs : List Char) : cs.foldl (fun n c => 10 * n + (c.toNat - '0'.toNat)) 0 =
    Nat.ofDigits 10 (cs.reverse.map fun c => c.toNat - '0'.toNat) := by
  rw [Nat.ofDigits_eq_foldr, List.foldr_map, List.foldr_reverse]
  simp only [Nat.cast_id, Nat.add_comm]

/-- the number that digits without a sign write, if it fits -/
def digitsU32? (digits : List Char) : Option UInt32 :=
  if digits.isEmpty || !digits.all Char.isDigit then none
  else
    let n := digits.foldl (fun n c => 10 * n + (c.toNat - '0'.toNat)) 0
    if n < UInt32.size then some (UInt32.ofNat n) else none

theorem digitsU32?_eq_some : digitsU32? digits = some n ↔ IsDecimalOf n.toNat digits := by
  have hfits : ∀ {v : Nat}, v < UInt32.size → (UInt32.ofNat v = n ↔ v = n.toNat) := fun hv =>
    ⟨fun h => h ▸ (UInt32.toNat_ofNat_of_lt' hv).symm, fun h => h ▸ UInt32.ofNat_toNat⟩
  simp only [digitsU32?, foldl_digits_eq]
  constructor
  · intro h
    split_ifs at h with hform hsmall
    rw [Bool.or_eq_true, not_or] at hform
    exact ⟨by simpa using hform.1, by simpa using hform.2, (hfits hsmall).1 (Option.some.inj h)⟩
  · rintro ⟨hne, hdigits, hvalue⟩
    have hform : ¬ (digits.isEmpty || !digits.all Char.isDigit) = true := by simpa [hne] using hdigits
    rw [if_neg hform, hvalue, if_pos n.toNat_lt, UInt32.ofNat_toNat]

theorem decimalU32?_signed (cs : List Char) : decimalU32? ('+' :: cs) = digitsU32? cs := rfl

theorem decimalU32?_plain (h : cs.head? ≠ some '+') : decimalU32? cs = digitsU32? cs := by
  unfold decimalU32? digitsU32?
  split
  · exact absurd rfl h
  · rfl

/-- numerals are read, each as the number it writes -/
theorem decimalU32?_eq_some : decimalU32? cs = some n ↔ Numeral n cs := by
  by_cases hsign : cs.head? = some '+'
  · obtain ⟨rest, rfl⟩ := List.head?_eq_some_iff.1 hsign
    rw [decimalU32?_signed, digitsU32?_eq_some]
    refine ⟨.signed, fun h => ?_⟩
    cases h with
    | plain h => exact absurd (h.digits '+' List.mem_cons_self) (by decide)
    | signed h => exact h
  · rw [decimalU32?_plain hsign, digitsU32?_eq_some]
    refine ⟨.plain, fun h => ?_⟩
    cases h with
    | plain h => exact h
    | signed h => exact absurd rfl hsign

/-- nothing but digits and a plus sign is in a numeral -/
theorem Numeral.notMem (h : Numeral n cs) (hdigit : mark.isDigit = false) (hplus : mark ≠ '+') : mark ∉ cs := by
  have hdecimal : ∀ {cs}, IsDecimalOf n.toNat cs → mark ∉ cs := fun h hmem =>
    Bool.false_ne_true (hdigit.symm.trans (h.digits mark hmem))
  cases h with
  | plain h => exact hdecimal h
  | signed h => exact List.not_mem_cons_of_ne_of_not_mem hplus (hdecimal h)

/-- what a number prints as is a numeral for it -/
theorem numeral_toString (n : UInt32) : Numeral n (toString n.toNat).toList := by
  rw [Nat.toString_eq_ofList_toDigits, String.toList_ofList]
  refine .plain ⟨Nat.toDigits_ne_nil, fun c => Nat.isDigit_of_mem_toDigits (by decide) (by decide), ?_⟩
  rw [← foldl_digits_eq]
  exact Nat.ofDigitChars_ten_toDigits

/-! ## Splitting -/

section

variable {before after : List Char}

theorem splitAtFirst_append (h : mark ∉ before) : splitAtFirst mark (before ++ mark :: after) = some (before, after) := by
  have hbefore : ∀ c ∈ before, decide (c ≠ mark) = true := fun c hc => decide_eq_true (ne_of_mem_of_not_mem hc h)
  rw [splitAtFirst, List.dropWhile_append_of_pos hbefore, List.takeWhile_append_of_pos hbefore]
  simp

theorem splitAtFirst_eq_none (h : mark ∉ cs) : splitAtFirst mark cs = none := by
  have hall : ∀ c ∈ cs, decide (c ≠ mark) = true := fun c hc => decide_eq_true (ne_of_mem_of_not_mem hc h)
  rw [splitAtFirst, List.dropWhile_eq_nil_iff.2 hall]

/-- a text is split at the first mark in it -/
theorem splitAtFirst_eq_some :
    splitAtFirst mark cs = some (before, after) ↔ cs = before ++ mark :: after ∧ mark ∉ before := by
  refine ⟨fun h => ?_, fun ⟨hcs, hbefore⟩ => hcs ▸ splitAtFirst_append hbefore⟩
  by_cases hmark : mark ∈ cs
  · obtain ⟨front, back, rfl, hfront⟩ := List.eq_append_cons_of_mem hmark
    cases (splitAtFirst_append hfront).symm.trans h
    exact ⟨rfl, hfront⟩
  · cases (splitAtFirst_eq_none hmark).symm.trans h

end

/-! ## Keys -/

/-- the texts of a key: the name of its port, a bar, and its one index, or the two ends of a range that is not empty -/
inductive ConsumerKey.Spelled : List Char → ConsumerKey → Prop
  | one {port first : UInt32} {number index : List Char} (hport : Numeral port number) (hindex : Numeral first index) :
    Spelled ("Ethernet".toList ++ number ++ '|' :: index) ⟨port, first, first⟩
  | range {port first last : UInt32} {number low high : List Char} (hport : Numeral port number)
    (hlow : Numeral first low) (hhigh : Numeral last high) (hle : first ≤ last) :
    Spelled ("Ethernet".toList ++ number ++ '|' :: (low ++ '-' :: high)) ⟨port, first, last⟩

theorem portNumber?_eq_some : portNumber? cs = some n ↔ ∃ number, cs = "Ethernet".toList ++ number ∧ Numeral n number := by
  rw [portNumber?]
  constructor
  · intro h
    split_ifs at h with hstart
    obtain ⟨number, rfl⟩ := List.isPrefixOf_iff_prefix.1 hstart
    exact ⟨number, rfl, decimalU32?_eq_some.1 h⟩
  · rintro ⟨number, rfl, hnumber⟩
    exact decimalU32?_eq_some.2 hnumber

namespace ConsumerKey

variable {first last : UInt32} {key : ConsumerKey}

theorem range?_one (h : Numeral first cs) : range? cs = some (first, first) := by
  rw [range?, splitAtFirst_eq_none (h.notMem rfl (by decide))]
  exact congrArg (Option.map _) (decimalU32?_eq_some.2 h)

theorem range?_range {low high : List Char} (hlow : Numeral first low) (hhigh : Numeral last high) :
    range? (low ++ '-' :: high) = some (first, last) := by
  rw [range?, splitAtFirst_append (hlow.notMem rfl (by decide))]
  simp only [decimalU32?_eq_some.2 hlow, decimalU32?_eq_some.2 hhigh]
  rfl

/-- what is read is an index, which stands for itself, or a range -/
theorem of_range? (h : range? cs = some (first, last)) : Numeral first cs ∧ last = first ∨
    ∃ low high, cs = low ++ '-' :: high ∧ Numeral first low ∧ Numeral last high := by
  unfold range? at h
  cases hsplit : splitAtFirst '-' cs with
  | none =>
    rw [hsplit] at h
    obtain ⟨index, hindex, heq⟩ := Option.map_eq_some_iff.1 h
    obtain ⟨rfl, rfl⟩ := Prod.mk.inj heq
    exact .inl ⟨decimalU32?_eq_some.1 hindex, rfl⟩
  | some parts =>
    obtain ⟨hcs, -⟩ := splitAtFirst_eq_some.1 hsplit
    simp only [hsplit, Option.bind_eq_bind, Option.bind_eq_some_iff, Option.pure_def, Option.some.injEq] at h
    obtain ⟨low, hlow, high, hhigh, heq⟩ := h
    obtain ⟨rfl, rfl⟩ := Prod.mk.inj heq
    exact .inr ⟨_, _, hcs, decimalU32?_eq_some.1 hlow, decimalU32?_eq_some.1 hhigh⟩

/-- behind a port's name and a bar, indexes are read, and a range has to hold something -/
theorem ofText?_of_range? {text : String} {port : UInt32} {number indexes : List Char}
    (htext : text.toList = "Ethernet".toList ++ number ++ '|' :: indexes) (hport : Numeral port number)
    (hrange : range? indexes = some (first, last)) :
    ofText? text = if first ≤ last then some ⟨port, first, last⟩ else none := by
  have hbar : '|' ∉ "Ethernet".toList ++ number := by
    rw [List.mem_append, not_or]
    exact ⟨by decide, hport.notMem rfl (by decide)⟩
  have hsplit := splitAtFirst_eq_some.2 ⟨htext, hbar⟩
  simp only [ofText?, hsplit, portNumber?_eq_some.2 ⟨number, rfl, hport⟩, hrange, Option.bind_eq_bind, Option.bind_some]

/-- a key is read from a port's name, a bar and indexes -/
theorem of_ofText? {text : String} (h : ofText? text = some key) :
    ∃ number indexes, text.toList = "Ethernet".toList ++ number ++ '|' :: indexes ∧ Numeral key.port number ∧
      range? indexes = some (key.first, key.last) ∧ key.first ≤ key.last := by
  simp only [ofText?, Option.bind_eq_bind, Option.bind_eq_some_iff, Prod.exists] at h
  obtain ⟨name, indexes, hsplit, port, hport, first, last, hrange, hkey⟩ := h
  split_ifs at hkey with hle
  obtain rfl := Option.some.inj hkey
  obtain ⟨number, rfl, hnumber⟩ := portNumber?_eq_some.1 hport
  exact ⟨number, indexes, (splitAtFirst_eq_some.1 hsplit).1, hnumber, hrange, hle⟩

/-- the texts that are read are those of the grammar -/
theorem ofText?_eq_some_iff_spelled {text : String} : ofText? text = some key ↔ Spelled text.toList key := by
  constructor
  · intro h
    obtain ⟨number, indexes, htext, hport, hrange, hle⟩ := of_ofText? h
    obtain ⟨port, first, last⟩ := key
    rw [htext]
    obtain ⟨hindex, (rfl : last = first)⟩ | ⟨low, high, rfl, hlow, hhigh⟩ := of_range? hrange
    · exact .one hport hindex
    · exact .range hport hlow hhigh hle
  · intro h
    generalize htext : text.toList = cs at h
    cases h with
    | one hport hindex =>
      exact (ofText?_of_range? htext hport (range?_one hindex)).trans (if_pos (UInt32.le_refl _))
    | range hport hlow hhigh hle => exact (ofText?_of_range? htext hport (range?_range hlow hhigh)).trans (if_pos hle)

/-- **Keys of consumers are read exactly.** A text is read as a key if and only if it spells that key: `Ethernet` and a
number, a bar, and one number, or two with a dash between them and the first no larger; each number is written in
decimal digits, perhaps with a plus sign in front, and fits 32 bits. Every other text is not read. The plain way to
write a key is read back, unless its range is empty. -/
theorem reads_exactly :
    (∀ text key, ofText? text = some key ↔ Spelled text.toList key) ∧
    (∀ text, ofText? text = none ↔ ∀ key, ¬ Spelled text.toList key) ∧
    (∀ n a : UInt32, ofText? ("Ethernet" ++ toString n.toNat ++ "|" ++ toString a.toNat) = some ⟨n, a, a⟩) ∧
    ∀ n a b : UInt32, ofText? ("Ethernet" ++ toString n.toNat ++ "|" ++ toString a.toNat ++ "-" ++ toString b.toNat) =
      if a ≤ b then some ⟨n, a, b⟩ else none := by
  have hplain (n : UInt32) (indexes : String) : ("Ethernet" ++ toString n.toNat ++ "|" ++ indexes).toList =
      "Ethernet".toList ++ (toString n.toNat).toList ++ '|' :: indexes.toList := by
    simp only [String.toList_append, List.append_assoc]
    rfl
  refine ⟨fun _ _ => ofText?_eq_some_iff_spelled, fun text => ?_, fun n a => ?_, fun n a b => ?_⟩
  · simp only [← ofText?_eq_some_iff_spelled, Option.eq_none_iff_forall_ne_some, ne_eq]
  · exact ofText?_eq_some_iff_spelled.2 (hplain n _ ▸ .one (numeral_toString n) (numeral_toString a))
  · rw [String.append_assoc, String.append_assoc]
    refine ofText?_of_range? (hplain n _) (numeral_toString n) ?_
    simp only [String.toList_append]
    exact range?_range (numeral_toString a) (numeral_toString b)

example : ofText? "Ethernet+012|3-4" = some ⟨12, 3, 4⟩ := by decide +kernel

end ConsumerKey

end SharedBuffer
