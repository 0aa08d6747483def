import ScanFleet.Table
import ScanFleet.Json.Value
import ScanFleet.Text.Blank
import ScanFleet.Text.Integer
import ScanFleet.Text.Split

set_option autoImplicit false

/-! # Time zones

A zone is a fixed number of seconds east. It is named in a table, or by a literal: `UTC`, or `UTC`
with a sign, hours up to 14 and, after a colon, minutes. A table is configured as entries
`name=seconds` between commas; an entry that is malformed counts for nothing. -/

namespace ScanFleet

/-- The seconds east of zones under their names. -/
abbrev ZoneTable := Table (String × Int)

namespace ZoneTable

/-! ## Literals -/

/-- Reads hours, and minutes after a colon, as two numbers. -/
def readHourMinute? (text : List Char) : Option (Int × Int) :=
  match cutAt ':' text with
  | some (hours, minutes) => do return (← readInt32? hours, ← readInt32? minutes)
  | none => (readInt32? text).map fun hours => (hours, 0)

/-- The seconds of an offset without its sign. -/
def readOffset? (text : List Char) : Option Int := do
  let (hours, minutes) ← readHourMinute? text
  if 0 ≤ hours ∧ hours ≤ 14 ∧ 0 ≤ minutes ∧ minutes < 60 then
    some (3600 * hours + 60 * minutes)
  else none

/-- The seconds east that a literal stands for. -/
def readLiteral? (text : List Char) : Option Int :=
  match afterLead ['U', 'T', 'C'] (trim text) with
  | some [] => some 0
  | some ('+' :: rest) => readOffset? rest
  | some ('-' :: rest) => (readOffset? rest).map (- ·)
  | _ => none

/-- The seconds east of a zone: by the table, or else as a literal. -/
def offset? (zones : ZoneTable) (name : String) : Option Int :=
  match zones.get? name with
  | some zone => some zone.2
  | none => readLiteral? name.toList

/-! ## Configuration -/

/-- Reads an entry: a name that is not blank, an equals sign and a number of seconds. -/
def readEntry? (entry : List Char) : Option (String × Int) := do
  let (name, seconds) ← cutAt '=' (trim entry)
  let seconds ← readInt32? (trim seconds)
  if trim name = [] then none else some (String.ofList (trim name), seconds)

/-- Reads a table; of several entries with one name the last stays. -/
def read (text : List Char) : ZoneTable := .ofList ((partsAt ',' text).filterMap readEntry?)

end ZoneTable

end ScanFleet
