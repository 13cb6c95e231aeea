import FleetLabels.Document.Fault
import FleetLabels.Json.Reader

/-!
# Reading documents

The parts from which the readers of documents are made. A reader takes a JSON value and gives a
typed one or the first fault. The fields of an object are read one after the other in the order of
their keys, so that of two faults the one under the smaller key is reported; a missing field is
reported only when all fields that are there have been read. Fields that a reader does not ask for
are left alone, whatever they hold.

A field can be written more than once. In the documents of policies and of errors that is a fault
(`once`); in all others each value is read and the last one counts (`latest`).
-/

namespace FleetLabels.Document

variable {α : Type}

/-- A text. -/
def string : Json → Except Fault String
  | .string s => .ok s
  | j => .error (.wrongType j.found "a string")

/-- A truth value. -/
def boolean : Json → Except Fault Bool
  | .bool b => .ok b
  | j => .error (.wrongType j.found "a boolean")

/-- A whole number that fits into 32 bits with sign. -/
def int32 : Json → Except Fault Int32
  | .int n =>
      if -2147483648 ≤ n ∧ n ≤ 2147483647 then .ok (Int32.ofInt n)
      else .error (.wrongValue (.int n) "i32")
  | j => .error (.wrongType j.found "i32")

/-- A whole number that fits into 64 bits with sign. -/
def int64 : Json → Except Fault Int64
  | .int n =>
      if -9223372036854775808 ≤ n ∧ n ≤ 9223372036854775807 then .ok (Int64.ofInt n)
      else .error (.wrongValue (.int n) "i64")
  | j => .error (.wrongType j.found "i64")

/-- A whole number that fits into 16 bits without sign. -/
def uint16 : Json → Except Fault UInt16
  | .int n =>
      if 0 ≤ n ∧ n ≤ 65535 then .ok (UInt16.ofNat n.toNat)
      else .error (.wrongValue (.int n) "u16")
  | j => .error (.wrongType j.found "u16")

/-- A time. -/
def instant : Json → Except Fault Instant
  | .string s => (Instant.parse s).mapError .time
  | j => .error (.wrongType j.found "an RFC 3339 formatted date and time string")

/-- A list, read from the first item to the last. -/
def list (item : Json → Except Fault α) : Json → Except Fault (List α)
  | .array xs => xs.mapM item
  | j => .error (.wrongType j.found "a sequence")

/-- A map, read in the order of its members. -/
def keyMap (value : Json → Except Fault α) : Json → Except Fault (KeyMap α)
  | .object ms => KeyMap.ofList <$> ms.mapM fun e => (e.1, ·) <$> value e.2
  | j => .error (.wrongType j.found "a map")

/-- How deep the containers of a value nest that is kept as it is: what `Json.maxDepth` leaves inside
an entry of the managed fields of a listed object. -/
def valueDepth : Nat := Json.maxDepth - 6

/-- A value of any kind, kept as it is. -/
def value (j : Json) : Except Fault (Json.Whole valueDepth) :=
  match Json.Whole.of? valueDepth j with
  | some v => .ok v
  | none => .error (.wrongType j.found "a whole value")

/-- A value, or `null` for none. -/
def nullable (read : Json → Except Fault α) : Json → Except Fault (Option α)
  | .null => .ok none
  | j => some <$> read j

/-- The values of an object under `key`, in the order in which they are written. -/
def valuesAt (members : List (String × Json)) (key : String) : List Json :=
  members.filterMap fun e => if e.1 = key then some e.2 else none

/-- The field of an object under `key`, none if it has no such field; there must not be two. -/
def once (members : List (String × Json)) (key : String) (read : Json → Except Fault α) :
    Except Fault (Option α) :=
  match valuesAt members key with
  | [] => .ok none
  | [j] => some <$> read j
  | _ => .error (.repeatedField key)

/-- The same for a field that may be `null`, which stands for none. -/
def optionalOnce (members : List (String × Json)) (key : String)
    (read : Json → Except Fault α) : Except Fault (Option α) :=
  Option.join <$> once members key (nullable read)

/-- The last field of an object under `key`, none if it has no such field; the others are read
too. -/
def latest (members : List (String × Json)) (key : String) (read : Json → Except Fault α) :
    Except Fault (Option α) :=
  List.getLast? <$> (valuesAt members key).mapM read

/-- The same for a field that may be `null`, which stands for none. -/
def optional (members : List (String × Json)) (key : String) (read : Json → Except Fault α) :
    Except Fault (Option α) :=
  Option.join <$> latest members key (nullable read)

/-- A text that may be missing or `null`, and is empty then. -/
def stringOrEmpty (members : List (String × Json)) (key : String) : Except Fault String :=
  (·.getD "") <$> optional members key string

/-- A field that must be there, once the object has been read. -/
def required (key : String) : Option α → Except Fault α
  | some a => .ok a
  | none => .error (.missingField key)

/-- A text that must be the given one. -/
def literal (value : String) (j : Json) : Except Fault Unit := do
  let s ← string j
  if s = value then .ok () else .error (.wrongValue (.string s) value)

/-- The constant text that a field must hold if it is there. -/
def constant (members : List (String × Json)) (key value : String) : Except Fault Unit := do
  let _ ← latest members key (literal value)
  .ok ()

/-- The member of an optional field in the written document: nothing for none. -/
def entry (key : String) (write : α → Json) : Option α → List (String × Json)
  | none => []
  | some a => [(key, write a)]

end FleetLabels.Document
