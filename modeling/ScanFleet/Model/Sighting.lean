import ScanFleet.Geo.Coordinate

set_option autoImplicit false

/-! # Sightings and IV lists

A sighting is a creature that a device met. An IV list ranks the species that are worth a check of
their individual values: earlier entries rank higher. -/

namespace ScanFleet

/-- The individual values of a creature. -/
structure IvStats where
  attack : UInt8
  defense : UInt8
  stamina : UInt8
  deriving DecidableEq, Repr, Inhabited

instance : JsonForm IvStats where
  toJson s := .object
    [("attack", toJson s.attack), ("defense", toJson s.defense), ("stamina", toJson s.stamina)]
  ofJson? j := do
    let r ← j.record? ["attack", "defense", "stamina"]
    return ⟨← r.required "attack", ← r.required "defense", ← r.required "stamina"⟩

/-- A creature that a device met. -/
structure Sighting where
  /-- The name of the encounter. -/
  encounter : String
  species : UInt16
  place : Coordinate
  spawn : Option UInt64 := none
  /-- The second at which the creature despawns. -/
  expires : Option Int64 := none
  iv : Option IvStats := none
  level : Option UInt8 := none
  deriving DecidableEq, Inhabited

namespace Sighting

/-- Whether the creature is gone; one without a despawn time stays. -/
def expired (s : Sighting) (now : Int) : Bool := s.expires.any fun second => decide (second.toInt ≤ now)

instance : JsonForm Sighting where
  toJson s := .object
    [("encounter_id", toJson s.encounter), ("pokemon_id", toJson s.species),
     ("coordinate", toJson s.place), ("spawn_id", toJson s.spawn),
     ("expire_timestamp", toJson s.expires), ("iv", toJson s.iv), ("level", toJson s.level)]
  ofJson? j := do
    let r ← j.record? ["encounter_id", "pokemon_id", "coordinate", "spawn_id", "expire_timestamp",
      "iv", "level"]
    return {
      encounter := ← r.required "encounter_id"
      species := ← r.required "pokemon_id"
      place := ← r.required "coordinate"
      spawn := ← r.optional "spawn_id"
      expires := ← r.optional "expire_timestamp"
      iv := ← r.optional "iv"
      level := ← r.optional "level" }

end Sighting

/-- A named ranking of species. -/
structure IvList where
  name : String
  species : List UInt16
  deriving DecidableEq, Repr, Inhabited

namespace IvList

instance : Keyed IvList String := ⟨IvList.name⟩

/-- The rank of a species: its first place on the list. -/
def rank? (l : IvList) (species : UInt16) : Option Nat := l.species.findIdx? (· == species)

instance : JsonForm IvList where
  toJson l := .object [("name", toJson l.name), ("pokemon", toJson l.species)]
  ofJson? j := do
    let r ← j.record? ["name", "pokemon"]
    return ⟨← r.required "name", ← r.required "pokemon"⟩

end IvList

end ScanFleet
