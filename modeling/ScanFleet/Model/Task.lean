import ScanFleet.Geo.Coordinate

set_option autoImplicit false

/-! # Tasks

A task is the unit of work that a device is given when it checks in. Its written form names the
action first; a task written as a list gives the action and then the fields in order. -/

namespace ScanFleet

/-- What a device is to scan for at a place. -/
inductive ScanAction where
  | pokemon
  | raid
  | quest
  | bootstrap
  | spawnpoint
  deriving DecidableEq, Repr, Inhabited

namespace ScanAction

/-- The name of an action. -/
def name : ScanAction → String
  | pokemon => "scan_pokemon"
  | raid => "scan_raid"
  | quest => "scan_quest"
  | bootstrap => "scan_bootstrap"
  | spawnpoint => "scan_spawnpoint"

/-- The action with the given name. -/
def ofName? (name : String) : Option ScanAction :=
  [pokemon, raid, quest, bootstrap, spawnpoint].find? fun action => action.name == name

end ScanAction

/-- A unit of work. -/
inductive Task where
  | scan (action : ScanAction) (place : Coordinate) (minLevel maxLevel : UInt8)
  | checkIv (place : Coordinate) (encounter : String) (species : UInt16) (minLevel maxLevel : UInt8)
  | idle
  deriving DecidableEq, Inhabited

namespace Task

/-- Reads the fields of a scan. -/
def scanOfJson? (action : ScanAction) (j : Json) : Option Task := do
  let r ← j.record? ["coordinate", "min_level", "max_level"]
  return .scan action (← r.required "coordinate") (← r.required "min_level")
    (← r.required "max_level")

/-- Reads the fields of an IV check. -/
def checkIvOfJson? (j : Json) : Option Task := do
  let r ← j.record? ["coordinate", "encounter_id", "pokemon_id", "min_level", "max_level"]
  return .checkIv (← r.required "coordinate") (← r.required "encounter_id")
    (← r.required "pokemon_id") (← r.required "min_level") (← r.required "max_level")

/-- Reads the fields that belong to a named action; an idle task has none. -/
def ofAction? (action : String) (fields : Json) : Option Task :=
  if action = "idle" then
    match fields with
    | .list (_ :: _) => none
    | _ => some .idle
  else if action = "scan_iv" then checkIvOfJson? fields
  else (ScanAction.ofName? action).bind fun action => scanOfJson? action fields

/-- A task is read as a whole, so every part of it has to denote something. -/
def ofJson? (j : Json) : Option Task := do
  let _ ← j.canonical?
  match j with
  | .object members =>
    match members.filter fun member => member.1 == "action" with
    | [(_, .text action)] =>
      ofAction? action (.object (members.filter fun member => member.1 != "action"))
    | _ => none
  | .list (.text action :: fields) => ofAction? action (.list fields)
  | _ => none

/-- The written form. -/
def toJson : Task → Json
  | .scan action place minLevel maxLevel => .object
    [("action", .text action.name), ("coordinate", JsonForm.toJson place),
     ("min_level", JsonForm.toJson minLevel), ("max_level", JsonForm.toJson maxLevel)]
  | .checkIv place encounter species minLevel maxLevel => .object
    [("action", .text "scan_iv"), ("coordinate", JsonForm.toJson place),
     ("encounter_id", JsonForm.toJson encounter), ("pokemon_id", JsonForm.toJson species),
     ("min_level", JsonForm.toJson minLevel), ("max_level", JsonForm.toJson maxLevel)]
  | .idle => .object [("action", .text "idle")]

instance : JsonForm Task := ⟨toJson, ofJson?⟩

end Task

end ScanFleet
