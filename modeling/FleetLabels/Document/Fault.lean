import FleetLabels.Instant.Text
import FleetLabels.Json.Basic
import FleetLabels.Text.Quoted

/-!
# Faults of documents

Why a JSON value is not the document that was wanted. A fault names what was found and what was
expected in its place, or the field that is missing.
-/

namespace FleetLabels

/-- What stands in a document where something else was expected. -/
inductive Found where
  | null
  | bool (b : Bool)
  | int (n : Int)
  | real (d : Decimal)
  | string (s : String)
  | array
  | object
  | verbatim (source : String)
  deriving DecidableEq, Repr

/-- How a value is named in a fault: scalars with their value, containers by their kind. -/
def Json.found : Json → Found
  | .null => .null
  | .bool b => .bool b
  | .int n => .int n
  | .real d => .real d
  | .string s => .string s
  | .array _ => .array
  | .object _ => .object
  | .verbatim source => .verbatim source

/-- The wording of what was found. -/
def Found.text : Found → String
  | .null => "null"
  | .bool true => "boolean `true`"
  | .bool false => "boolean `false`"
  | .int n => "integer `" ++ toString n ++ "`"
  | .real d => "floating point `" ++ d.text ++ "`"
  | .string s => "string " ++ Text.quote s
  | .array => "sequence"
  | .object => "map"
  | .verbatim source => "unreadable value " ++ Text.quote source

/-- Why a JSON value is not the document that was wanted. -/
inductive Fault where
  /-- A field without which the document makes no sense. -/
  | missingField (name : String)
  /-- A field that is there more than once. -/
  | repeatedField (name : String)
  /-- A value of the wrong kind. -/
  | wrongType (found : Found) (expected : String)
  /-- A value of the right kind that is not admitted. -/
  | wrongValue (found : Found) (expected : String)
  /-- An array of fields that ends before field number `length`, counted from zero. -/
  | tooFew (length : Nat) (expected : String)
  /-- An array of fields with more items than there are fields. -/
  | tooMany (length : Nat)
  /-- A text that is not a time. -/
  | time (fault : Instant.Fault)
  deriving DecidableEq, Repr

/-- The wording of a fault. -/
def Fault.message : Fault → String
  | .missingField name => "missing field `" ++ name ++ "`"
  | .repeatedField name => "duplicate field `" ++ name ++ "`"
  | .wrongType found expected => "invalid type: " ++ found.text ++ ", expected " ++ expected
  | .wrongValue found expected => "invalid value: " ++ found.text ++ ", expected " ++ expected
  | .tooFew length expected => "invalid length " ++ toString length ++ ", expected " ++ expected
  | .tooMany length =>
      "invalid length " ++ toString length ++ ", expected fewer elements in array"
  | .time fault => fault.message

end FleetLabels
