/-
Names of ports and consumers in a plan.

A port is `Ethernet` and its hardware number; consumers are a port, a bar, and an index or a range of indexes
`first-last`, which must not be empty. A number is written in decimal digits, with at most one plus sign in front, and
fits 32 bits.
-/

namespace SharedBuffer

/-- the 32-bit number that some text writes -/
def decimalU32? (cs : List Char) : Option UInt32 :=
  let digits := match cs with
    | '+' :: rest => rest
    | _ => cs
  if digits.isEmpty || !digits.all Char.isDigit then none
  else
    let n := digits.foldl (fun n c => 10 * n + (c.toNat - '0'.toNat)) 0
    if n < UInt32.size then some (UInt32.ofNat n) else none

/-- the text before and behind the first of a character -/
def splitAtFirst (mark : Char) (cs : List Char) : Option (List Char × List Char) :=
  match cs.dropWhile (· ≠ mark) with
  | _ :: rest => some (cs.takeWhile (· ≠ mark), rest)
  | [] => none

/-- what every port name starts with -/
def portNameStart : String := "Ethernet"

/-- the hardware number of a port's name -/
def portNumber? (name : List Char) : Option UInt32 :=
  if portNameStart.toList.isPrefixOf name then decimalU32? (name.drop portNameStart.length) else none

/-- consumers of a port with indexes in a row -/
structure ConsumerKey where
  port : UInt32
  first : UInt32
  last : UInt32
deriving DecidableEq

namespace ConsumerKey

/-- reads an index or a range of indexes -/
def range? (cs : List Char) : Option (UInt32 × UInt32) :=
  match splitAtFirst '-' cs with
  | some (first, last) => do return (← decimalU32? first, ← decimalU32? last)
  | none => (decimalU32? cs).map fun index => (index, index)

/-- reads the key of some consumers -/
def ofText? (text : String) : Option ConsumerKey := do
  let (name, indexes) ← splitAtFirst '|' text.toList
  let port ← portNumber? name
  let (first, last) ← range? indexes
  if first ≤ last then some ⟨port, first, last⟩ else none

end ConsumerKey

end SharedBuffer
