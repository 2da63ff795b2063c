/-
The audit trail: one record for each change that was made or refused.

A record says what was attempted on which object and how it ended; a refusal by admission control (no room, or still in
use) is a denial, any other refusal a failure. Written with a time, a record is a JSON object whose absent parts are
left out; `AuditRecord.ofJson?` reads it back.
-/
import SharedBuffer.Fault
import SharedBuffer.Object.Key
import SharedBuffer.Text.Json

namespace SharedBuffer

/-- what a record is about -/
inductive AuditCategory where
  | poolLifecycle
  | profileLifecycle
  | attributeChange
  | consumerBinding
  | portLifecycle
  | planApply
deriving DecidableEq

namespace AuditCategory

/-- every category -/
def all : List AuditCategory :=
  [poolLifecycle, profileLifecycle, attributeChange, consumerBinding, portLifecycle, planApply]

/-- the name of a category -/
def name : AuditCategory → String
  | poolLifecycle => "POOL_LIFECYCLE"
  | profileLifecycle => "PROFILE_LIFECYCLE"
  | attributeChange => "ATTRIBUTE_CHANGE"
  | consumerBinding => "CONSUMER_BINDING"
  | portLifecycle => "PORT_LIFECYCLE"
  | planApply => "PLAN_APPLY"

/-- the category with a name -/
def ofName? (s : String) : Option AuditCategory := all.find? (fun c => c.name == s)

end AuditCategory

/-- how an attempt ended -/
inductive AuditOutcome where
  | success
  | failure
  /-- refused by admission control -/
  | denied
deriving DecidableEq

namespace AuditOutcome

/-- every outcome -/
def all : List AuditOutcome := [success, failure, denied]

/-- the name of an outcome -/
def name : AuditOutcome → String
  | success => "success"
  | failure => "failure"
  | denied => "denied"

/-- the outcome with a name -/
def ofName? (s : String) : Option AuditOutcome := all.find? (fun o => o.name == s)

/-- the outcome of a request refused with a status -/
def ofRefusal : Status → AuditOutcome
  | .insufficientResources | .objectInUse => denied
  | _ => failure

end AuditOutcome

/-- a record of the audit trail, without its time -/
structure AuditRecord where
  category : AuditCategory
  source : String
  action : String
  outcome : AuditOutcome := .success
  object : Option String := none
  objectType : Option String := none
  status : Option String := none
  details : Option Json := none
  error : Option String := none

namespace AuditRecord

/-- the record with the object it is about -/
def withObject (r : AuditRecord) (k : Key) : AuditRecord :=
  { r with object := some k.text, objectType := some k.kind.name }

/-- the record with details, whose fields are put in order -/
def withDetails (r : AuditRecord) (details : Json) : AuditRecord := { r with details := some details.sorted }

/-- the record of a refused request -/
def withRefusal (r : AuditRecord) (fault : Fault) : AuditRecord :=
  { r with
    outcome := .ofRefusal fault.status
    status := some fault.status.name
    error := some fault.message }

/-- the record of an attempt that failed before any request was made -/
def withFailure (r : AuditRecord) (error : String) : AuditRecord :=
  { r with outcome := .failure, error := some error }

/-- the level a record is logged at -/
def level (r : AuditRecord) : String := if r.outcome = .success then "INFO" else "WARN"

/-- the message a record is logged with -/
def message (r : AuditRecord) : String := "AUDIT: " ++ r.category.name ++ " " ++ r.action ++ " " ++ r.outcome.name

/-- the fields of a record, absent parts left out -/
def fields (r : AuditRecord) : List (String × Json) :=
  [("category", .str r.category.name), ("source", .str r.source), ("action", .str r.action),
    ("outcome", .str r.outcome.name)] ++
  [("object", r.object.map Json.str), ("object_type", r.objectType.map Json.str), ("status", r.status.map Json.str),
    ("details", r.details), ("error", r.error.map Json.str)].filterMap
      fun (name, value) => value.map fun v => (name, v)

end AuditRecord

/-! ## Time -/

/-- a second of the calendar, in universal time -/
structure Timestamp where
  year : Nat
  month : Nat
  day : Nat
  hour : Nat
  minute : Nat
  second : Nat
deriving DecidableEq

namespace Timestamp

/-- a number with leading zeros -/
def padded (width n : Nat) : String :=
  let digits := Nat.toDigits 10 n
  String.ofList (List.replicate (width - digits.length) '0' ++ digits)

/-- the time as `YYYY-MM-DDTHH:MM:SSZ` -/
def text (t : Timestamp) : String :=
  padded 4 t.year ++ "-" ++ padded 2 t.month ++ "-" ++ padded 2 t.day ++ "T" ++ padded 2 t.hour ++ ":" ++
    padded 2 t.minute ++ ":" ++ padded 2 t.second ++ "Z"

/-- whether a year has a 29 February -/
def isLeap (year : Nat) : Bool := year % 4 == 0 && (year % 100 != 0 || year % 400 == 0)

/-- the number of days of a month; zero for a month that does not exist -/
def daysIn (year month : Nat) : Nat :=
  if month = 2 then (if isLeap year then 29 else 28)
  else if month ∈ [1, 3, 5, 7, 8, 10, 12] then 31
  else if month ∈ [4, 6, 9, 11] then 30
  else 0

/-- whether the parts name a second that exists; the sixtieth second is for leap seconds -/
def isValid (t : Timestamp) : Bool :=
  1 ≤ t.day && t.day ≤ daysIn t.year t.month && t.hour < 24 && t.minute < 60 && t.second ≤ 60

/-- the number that a run of digits writes -/
def number? (digits : List Char) : Option Nat :=
  if digits.all Char.isDigit && !digits.isEmpty then
    some (digits.foldl (fun n c => 10 * n + (c.toNat - '0'.toNat)) 0)
  else none

/-- reads a time as `text` writes it -/
def ofText? (s : String) : Option Timestamp :=
  match s.toList with
  | [y1, y2, y3, y4, '-', m1, m2, '-', d1, d2, 'T', h1, h2, ':', n1, n2, ':', s1, s2, 'Z'] => do
    let t : Timestamp := ⟨← number? [y1, y2, y3, y4], ← number? [m1, m2], ← number? [d1, d2], ← number? [h1, h2],
      ← number? [n1, n2], ← number? [s1, s2]⟩
    if t.isValid then some t else none
  | _ => none

end Timestamp

/-! ## Writing and reading -/

namespace AuditRecord

/-- a record with its time -/
def toJson (time : Timestamp) (r : AuditRecord) : Json := .obj (("timestamp", .str time.text) :: r.fields)

/-- the names of all fields, in order -/
def fieldNames : List String :=
  ["timestamp", "category", "source", "action", "outcome", "object", "object_type", "status", "details", "error"]

/-- the fields of a value read as a record: an object's, or those of a list that has an element for each -/
def readFields? : Json → Option (List (String × Json))
  | .obj fields => some fields
  | .arr items => if items.length = fieldNames.length then some (fieldNames.zip items) else none
  | _ => none

/-- a name, alone or as the only field of an object with nothing in it -/
def readName? : Json → Option String
  | .str s => some s
  | .obj [(name, .null)] => some name
  | _ => none

/-- a text -/
def readText? : Json → Option String
  | .str s => some s
  | _ => none

/-- a text that may be missing or null -/
def readOptionalText? : Option Json → Option (Option String)
  | none | some .null => some none
  | some (.str s) => some (some s)
  | some _ => none

/-- reads a record with its time; unknown fields are passed over, absent details and null ones are the same -/
def ofJson? (j : Json) : Option (Timestamp × AuditRecord) := do
  let fields ← readFields? j
  let time ← (fields.lookup "timestamp").bind readText? |>.bind Timestamp.ofText?
  let category ← (fields.lookup "category").bind readName? |>.bind AuditCategory.ofName?
  let source ← (fields.lookup "source").bind readText?
  let action ← (fields.lookup "action").bind readText?
  let outcome ← (fields.lookup "outcome").bind readName? |>.bind AuditOutcome.ofName?
  let object ← readOptionalText? (fields.lookup "object")
  let objectType ← readOptionalText? (fields.lookup "object_type")
  let status ← readOptionalText? (fields.lookup "status")
  let error ← readOptionalText? (fields.lookup "error")
  let details := match fields.lookup "details" with
    | none | some .null => none
    | some value => some value.sorted
  return (time, { category, source, action, outcome, object, objectType, status, details, error })

end AuditRecord

end SharedBuffer
