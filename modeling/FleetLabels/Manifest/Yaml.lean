import FleetLabels.Json.Basic

/-!
# YAML text

A JSON value as a YAML document in block style: one line for each scalar, two blanks of indentation
for each level of mapping, and the items of a list at the column of the key that they belong to.
Texts are written plainly; the documents that are written here hold none that would need quotes.
-/

namespace FleetLabels.Yaml

/-- The text of a value that fits on the line of its key; none for a list or mapping with
entries. -/
def inline? : Json → Option String
  | .null => some "null"
  | .bool true => some "true"
  | .bool false => some "false"
  | .int n => some (toString n)
  | .real d => some d.text
  | .string s => some s
  | .array [] => some "[]"
  | .object [] => some "\x7b\x7d"
  | _ => none

/-- Lines moved to the right by one level. -/
def indent (lines : List String) : List String :=
  lines.map ("  " ++ ·)

/-- The lines of a list item: the first one begins with a dash, the others stand below it. -/
def dashed : List String → List String
  | [] => []
  | first :: rest => ("- " ++ first) :: indent rest

mutual

/-- The lines of a value. -/
def lines : Json → List String
  | .array items => itemLines items
  | .object members => memberLines members
  | j => (inline? j).toList

/-- The lines of the items of a list. -/
def itemLines : List Json → List String
  | [] => []
  | item :: rest => dashed (lines item) ++ itemLines rest

/-- The lines of the members of a mapping. -/
def memberLines : List (String × Json) → List String
  | [] => []
  | (key, value) :: rest =>
      (match inline? value with
        | some text => [key ++ ": " ++ text]
        | none =>
            match value with
            | .array _ => (key ++ ":") :: lines value
            | _ => (key ++ ":") :: indent (lines value)) ++ memberLines rest

end

end FleetLabels.Yaml
