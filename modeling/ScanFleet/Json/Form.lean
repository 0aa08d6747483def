import ScanFleet.Json.Value

set_option autoImplicit false

/-! # Types with a JSON form

`JsonForm α` says how values of `α` are written as JSON and read back. Reading is strict: an integer
field takes no double and nothing out of its range, and only an optional value takes `null`. A
record may be written as an object, whose unknown members are ignored, or as the list of its fields
in order. A form is lawful when writing and reading back gives the value again. -/

namespace ScanFleet

/-- How values of a type are written as JSON and read back. -/
class JsonForm (α : Type) where
  /-- The written form of a value. -/
  toJson : α → Json
  /-- The value with the given written form, if it is one. -/
  ofJson? : Json → Option α

export JsonForm (toJson ofJson?)

/-- Forms in which every value survives writing and reading. -/
class LawfulJsonForm (α : Type) [JsonForm α] : Prop where
  ofJson?_toJson (a : α) : ofJson? (toJson a) = some a

export LawfulJsonForm (ofJson?_toJson)

attribute [simp] ofJson?_toJson

/-- Forms that never write `null`, so that an optional value can. -/
class NonNullForm (α : Type) [JsonForm α] : Prop where
  toJson_ne_null (a : α) : toJson a ≠ .null

variable {α : Type}

/-! ## Plain values -/

instance : JsonForm Json := ⟨id, Json.canonical?⟩

instance : JsonForm String where
  toJson := .text
  ofJson?
    | .text s => some s
    | _ => none

instance : LawfulJsonForm String := ⟨fun _ => rfl⟩

instance : NonNullForm String := ⟨fun _ => nofun⟩

instance : JsonForm Bool where
  toJson := .bool
  ofJson?
    | .bool b => some b
    | _ => none

instance : LawfulJsonForm Bool := ⟨fun _ => rfl⟩

/-- A double is also read from an integer. -/
instance : JsonForm Float where
  toJson := .float
  ofJson?
    | .float x => some x
    | .int n => some (Float.ofInt n)
    | _ => none

instance : LawfulJsonForm Float := ⟨fun _ => rfl⟩

/-! ## Integers -/

/-- Reads an integer between two bounds. -/
def Json.intBetween? (least most : Int) : Json → Option Int
  | .int n => if least ≤ n ∧ n ≤ most then some n else none
  | _ => none

instance : JsonForm UInt8 where
  toJson n := .int n.toNat
  ofJson? j := (j.intBetween? 0 (UInt8.size - 1)).map fun n => .ofNat n.toNat

instance : LawfulJsonForm UInt8 := ⟨fun n => by
  have h := n.toNat_lt
  simp [toJson, ofJson?, Json.intBetween?, show (n.toNat : Int) ≤ 255 by omega]⟩

instance : NonNullForm UInt8 := ⟨fun _ => nofun⟩

instance : JsonForm UInt16 where
  toJson n := .int n.toNat
  ofJson? j := (j.intBetween? 0 (UInt16.size - 1)).map fun n => .ofNat n.toNat

instance : LawfulJsonForm UInt16 := ⟨fun n => by
  have h := n.toNat_lt
  simp [toJson, ofJson?, Json.intBetween?, show (n.toNat : Int) ≤ 65535 by omega]⟩

instance : JsonForm UInt32 where
  toJson n := .int n.toNat
  ofJson? j := (j.intBetween? 0 (UInt32.size - 1)).map fun n => .ofNat n.toNat

instance : LawfulJsonForm UInt32 := ⟨fun n => by
  have h := n.toNat_lt
  simp [toJson, ofJson?, Json.intBetween?, show (n.toNat : Int) ≤ 4294967295 by omega]⟩

instance : NonNullForm UInt32 := ⟨fun _ => nofun⟩

instance : JsonForm UInt64 where
  toJson n := .int n.toNat
  ofJson? j := (j.intBetween? 0 (UInt64.size - 1)).map fun n => .ofNat n.toNat

instance : LawfulJsonForm UInt64 := ⟨fun n => by
  have h := n.toNat_lt
  simp [toJson, ofJson?, Json.intBetween?, show (n.toNat : Int) ≤ 18446744073709551615 by omega]⟩

instance : NonNullForm UInt64 := ⟨fun _ => nofun⟩

instance : JsonForm Int64 where
  toJson n := .int n.toInt
  ofJson? j := (j.intBetween? Int64.minValue.toInt Int64.maxValue.toInt).map .ofInt

/-! ## Lists and optional values -/

instance [JsonForm α] : JsonForm (List α) where
  toJson xs := .list (xs.map toJson)
  ofJson?
    | .list items => items.mapM ofJson?
    | _ => none

instance [JsonForm α] [LawfulJsonForm α] : LawfulJsonForm (List α) := ⟨fun xs => by
  show (xs.map toJson).mapM ofJson? = some xs
  induction xs with
  | nil => rfl
  | cons x xs ih => simp [ih]⟩

instance [JsonForm α] : JsonForm (Option α) where
  toJson
    | some a => toJson a
    | none => .null
  ofJson?
    | .null => some none
    | j => (ofJson? j).map some

instance [JsonForm α] [LawfulJsonForm α] [NonNullForm α] : LawfulJsonForm (Option α) := ⟨fun a => by
  cases a with
  | none => rfl
  | some a =>
    show ofJson? (toJson a) = _
    have h := NonNullForm.toJson_ne_null a
    generalize hj : toJson a = j at h
    have hr : ofJson? j = some a := hj ▸ ofJson?_toJson a
    cases j with
    | null => exact absurd rfl h
    | _ => exact congrArg (Option.map some) hr⟩

/-! ## Records -/

/-- A record on the way in: the fields that are given, each once, and whether they are named. -/
structure Record where
  fields : List (String × Json)
  named : Bool

/-- Takes a record apart. Members under unknown names are ignored and a known name may stand only once; a
    list gives the fields in order and may stop early, but not run on. -/
def Json.record? (known : List String) : Json → Option Record
  | .object members =>
    let fields := members.filter fun member => known.contains member.1
    if (fields.map Prod.fst).Nodup then some ⟨fields, true⟩ else none
  | .list items => if items.length ≤ known.length then some ⟨known.zip items, false⟩ else none
  | _ => none

namespace Record

/-- The value given for a field. -/
def get? (r : Record) (name : String) : Option Json :=
  (r.fields.find? fun field => field.1 == name).map Prod.snd

/-- A field that has to be given. -/
def required [JsonForm α] (r : Record) (name : String) : Option α := (r.get? name).bind ofJson?

/-- A field that stands for `default` when it is not given. -/
def withDefault [JsonForm α] (r : Record) (name : String) (default : α) : Option α :=
  match r.get? name with
  | some j => ofJson? j
  | none => some default

/-- An optional field, which need not be given. -/
def optional [JsonForm α] (r : Record) (name : String) : Option (Option α) :=
  r.withDefault name none

/-- An optional field, which need not be given among named fields. -/
def nullable [JsonForm α] (r : Record) (name : String) : Option (Option α) :=
  if r.named then r.optional name else r.required name

end Record

end ScanFleet
