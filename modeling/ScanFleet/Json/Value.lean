import ScanFleet.Table

set_option autoImplicit false

/-! # JSON values

A JSON value as it is written: members keep their order and may repeat a name. Integers and
doubles are told apart, because a field of integers takes no double. `void` stands for a piece of
text that is well formed but denotes nothing: a number beyond the doubles, a string with half of a
surrogate pair, a container nested too deeply. A record that does not look at such a piece can
still be read. -/

namespace ScanFleet

/-- A JSON value. -/
inductive Json where
  | null
  | bool (b : Bool)
  | int (n : Int)
  | float (x : Float)
  | text (s : String)
  | list (items : List Json)
  | object (members : List (String × Json))
  | void
  deriving Inhabited

/-- A pair is filed under its first part. -/
instance {β : Type} : Keyed (String × β) String := ⟨Prod.fst⟩

namespace Json

mutual

/-- The value with the members of every object in order of their names, the last of several members with
    one name staying; nothing where a part denotes nothing. -/
def canonical? : Json → Option Json
  | .void => none
  | .list items => (canonicalItems? items).map .list
  | .object members => (canonicalMembers? members).map fun ms => .object (Table.ofList ms).rows
  | .null => some .null
  | .bool b => some (.bool b)
  | .int n => some (.int n)
  | .float x => some (.float x)
  | .text s => some (.text s)

/-- The items in canonical form. -/
def canonicalItems? : List Json → Option (List Json)
  | [] => some []
  | item :: rest => do return (← item.canonical?) :: (← canonicalItems? rest)

/-- The members in canonical form, in written order. -/
def canonicalMembers? : List (String × Json) → Option (List (String × Json))
  | [] => some []
  | (name, value) :: rest => do
    return (name, ← value.canonical?) :: (← canonicalMembers? rest)

end

end Json

end ScanFleet
