import SuiteShift.Number.Double

/-!
# JSON values

Requests, configuration files and reports are JSON. A value keeps the members of an object in
written order and with repetitions, because a repeated member is an error for some readers and
an overwrite for others.

- `Json.sound`: the value can be held in memory as written: no number beyond the doubles, no
  broken surrogate escape, nesting within a limit.
- `Json.get?`: the last member of a name.
- `Json.fields?`: the members of a record by name, each at most once; a record may also be
  written as an array, its fields in order.
-/

namespace SuiteShift

/-- A JSON value as it was read. -/
inductive Json where
  | null
  | bool (value : Bool)
  /-- A number written without fraction or exponent that fits 64 bits. -/
  | integer (value : Int)
  | real (value : Double)
  /-- A number too large for a double. -/
  | outOfRange
  | text (value : String)
  /-- A string with a surrogate escape that has no partner. -/
  | brokenText
  | array (items : List Json)
  | object (members : List (String × Json))
deriving Inhabited

namespace Json

mutual

/-- The value can be held in memory, with less than `depth` levels of nesting. -/
def sound (depth : Nat) : Json → Bool
  | .outOfRange => false
  | .brokenText => false
  | .array items => Nat.blt 1 depth && soundItems (depth - 1) items
  | .object members => Nat.blt 1 depth && soundMembers (depth - 1) members
  | _ => true

/-- Every item can be held in memory. -/
def soundItems (depth : Nat) : List Json → Bool
  | [] => true
  | item :: items => item.sound depth && soundItems depth items

/-- Every member can be held in memory. -/
def soundMembers (depth : Nat) : List (String × Json) → Bool
  | [] => true
  | (_, value) :: members => value.sound depth && soundMembers depth members

end

/-- Levels of nesting at which a document is refused. -/
def depthLimit : Nat := 128

mutual

/-- The value with every repeated member reduced to its last occurrence. -/
def merged : Json → Json
  | .array items => .array (mergedItems items)
  | .object members => .object (mergedMembers members)
  | other => other

/-- Merges every item. -/
def mergedItems : List Json → List Json
  | [] => []
  | item :: items => item.merged :: mergedItems items

/-- Merges every member and drops those that a later one of the same name overwrites. -/
def mergedMembers : List (String × Json) → List (String × Json)
  | [] => []
  | (name, value) :: members =>
    let rest := mergedMembers members
    if rest.any (fun member => member.1 == name) then rest else (name, value.merged) :: rest

end

/-- The last member of that name. -/
def get? (name : String) : Json → Option Json
  | .object members => (members.reverse.find? fun member => member.1 == name).map Prod.snd
  | _ => none

/-- The string, for a string. -/
def asText? : Json → Option String
  | .text value => some value
  | _ => none

/-- The truth value, for a truth value. -/
def asBool? : Json → Option Bool
  | .bool value => some value
  | _ => none

/-- The number, for a natural number. -/
def asNat? : Json → Option Nat
  | .integer value => if 0 ≤ value then some value.toNat else none
  | _ => none

/-- The number as a double. -/
def asDouble? : Json → Option Double
  | .integer value => some (Double.ofInt value)
  | .real value => some value
  | _ => none

/-- The items, for an array. -/
def asArray? : Json → Option (List Json)
  | .array items => some items
  | _ => none

/-- An array whose items are all read by `decode`. -/
def listOf? {α : Type} (decode : Json → Option α) : Json → Option (List α)
  | .array items => items.mapM decode
  | _ => none

/-- Whether members that no field names are passed over or refused. -/
inductive UnknownMembers where
  | pass
  | refuse
deriving DecidableEq

/-- The values of the named fields of a record, `none` for a missing one. A record is an object,
in which no field is given twice, or an array with the values in order. -/
def fields? (unknown : UnknownMembers) (names : List String) : Json → Option (List (Option Json))
  | .object members =>
    let known := members.filter fun member => names.contains member.1
    let twice := names.any fun name => 1 < (known.filter fun member => member.1 == name).length
    if twice then none
    else if unknown = .refuse && known.length != members.length then none
    else some (names.map fun name =>
      (known.find? fun member => member.1 == name).map Prod.snd)
  | .array items =>
    if names.length < items.length then none
    else some (items.map some ++ List.replicate (names.length - items.length) none)
  | _ => none

/-- A required field. -/
def required? {α : Type} (decode : Json → Option α) : Option Json → Option α
  | some value => decode value
  | none => none

/-- A field with a default for when it is missing. -/
def default? {α : Type} (fallback : α) (decode : Json → Option α) : Option Json → Option α
  | some value => decode value
  | none => some fallback

/-- A name out of a fixed set, written as a string or as an object that maps it to null. -/
def nameOf? {α : Type} (names : List (String × α)) : Json → Option α
  | .text name => names.lookup name
  | .object [(name, .null)] => names.lookup name
  | _ => none

/-- An array of strings. -/
def ofTexts (items : List String) : Json :=
  .array (items.map .text)

/-- A natural number. -/
def ofNat (n : Nat) : Json :=
  .integer n

end Json
end SuiteShift
