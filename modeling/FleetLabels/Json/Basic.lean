import FleetLabels.Decimal.Basic
import FleetLabels.KeyMap

/-!
# JSON values

The values of the JSON data format. A number is an integer or a real, as it was written; a real is
kept as a decimal. The members of an object are a list of entries, in any order and possibly with
several under one key: `Json.ofMembers` puts them into ascending order and lets the last of several
equal keys count. A value that no constructor can hold is kept as its text.
-/

namespace FleetLabels

/-- A JSON value. -/
inductive Json where
  | null
  | bool (b : Bool)
  | int (n : Int)
  | real (d : Decimal)
  | string (s : String)
  | array (items : List Json)
  | object (members : List (String × Json))
  /-- A value of which only the text is known: a number out of range, a string with half a surrogate
  pair, or an object with such a string for a key. -/
  | verbatim (source : String)
  deriving Repr, Inhabited

namespace Json

/-- The object with the given members, ascending, the last of equal keys counting. -/
def ofMembers (members : List (String × Json)) : Json :=
  .object (KeyMap.ofList members).entries

/-- An array of texts. -/
def strings (l : List String) : Json :=
  .array (l.map .string)

/-- A text, or `null` for none. -/
def stringOrNull : Option String → Json
  | some s => .string s
  | none => .null

/-- An object with a text per key. -/
def ofKeyMap (m : KeyMap String) : Json :=
  .object (m.entries.map fun e => (e.1, .string e.2))

/-- The value of a member of an object; anything else has no members. -/
def get? (j : Json) (key : String) : Option Json :=
  match j with
  | .object members => members.lookup key
  | _ => none

/-- The members of an object; anything else has none. -/
def members : Json → List (String × Json)
  | .object ms => ms
  | _ => []

/-- The items of an array; anything else has none. -/
def items : Json → List Json
  | .array xs => xs
  | _ => []

/-! ## Equality -/

mutual

/-- Whether two values are the same. -/
def same : Json → Json → Bool
  | .null, .null => true
  | .bool b, .bool b' => b == b'
  | .int n, .int n' => n == n'
  | .real d, .real d' => d == d'
  | .string s, .string s' => s == s'
  | .array items, .array items' => sameItems items items'
  | .object members, .object members' => sameMembers members members'
  | .verbatim source, .verbatim source' => source == source'
  | _, _ => false

/-- Whether two arrays have the same items. -/
def sameItems : List Json → List Json → Bool
  | [], [] => true
  | item :: rest, item' :: rest' => item.same item' && sameItems rest rest'
  | _, _ => false

/-- Whether two objects have the same members, in the same order. -/
def sameMembers : List (String × Json) → List (String × Json) → Bool
  | [], [] => true
  | (key, value) :: rest, (key', value') :: rest' =>
      key == key' && value.same value' && sameMembers rest rest'
  | _, _ => false

end

mutual

theorem same_iff : ∀ j j' : Json, j.same j' = true ↔ j = j'
  | .array items, j' => by cases j' <;> simp [same, sameItems_iff items]
  | .object members, j' => by cases j' <;> simp [same, sameMembers_iff members]
  | .null, j' => by cases j' <;> simp [same]
  | .bool _, j' => by cases j' <;> simp [same]
  | .int _, j' => by cases j' <;> simp [same]
  | .real _, j' => by cases j' <;> simp [same]
  | .string _, j' => by cases j' <;> simp [same]
  | .verbatim _, j' => by cases j' <;> simp [same]

theorem sameItems_iff : ∀ l l' : List Json, sameItems l l' = true ↔ l = l'
  | [], l' => by cases l' <;> simp [sameItems]
  | item :: rest, l' => by
      cases l' with
      | nil => simp [sameItems]
      | cons item' rest' => simp [sameItems, same_iff item, sameItems_iff rest]

theorem sameMembers_iff : ∀ l l' : List (String × Json), sameMembers l l' = true ↔ l = l'
  | [], l' => by cases l' <;> simp [sameMembers]
  | (key, value) :: rest, l' => by
      cases l' with
      | nil => simp [sameMembers]
      | cons e rest' =>
          obtain ⟨key', value'⟩ := e
          simp [sameMembers, same_iff value, sameMembers_iff rest]

end

instance : DecidableEq Json := fun j j' => decidable_of_iff (j.same j' = true) (same_iff j j')

end Json

end FleetLabels
