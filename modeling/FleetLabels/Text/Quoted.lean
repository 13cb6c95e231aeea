import FleetLabels.Text.Printable

/-!
# Quoted text

The quoted form of a string inside a message: between double quotes, with a backslash form for the
characters that would not be seen or would end the quotation. A single quote needs none.
-/

namespace FleetLabels.Text

/-- The digits of a code point, in lower-case hexadecimal without leading zeros. -/
def hexDigits (n : Nat) : List Char :=
  Nat.toDigits 16 n

/-- How one character is written between double quotes. -/
def quoteChar (c : Char) : List Char :=
  if c = '"' then ['\\', '"']
  else if c = '\\' then ['\\', '\\']
  else if c = '\x00' then ['\\', '0']
  else if c = '\t' then ['\\', 't']
  else if c = '\r' then ['\\', 'r']
  else if c = '\n' then ['\\', 'n']
  else if isPrintable c then [c]
  else ['\\', 'u', '\x7b'] ++ hexDigits c.toNat ++ ['\x7d']

/-- A string in double quotes, every character written as `quoteChar` says. -/
def quote (s : String) : String :=
  String.ofList ('"' :: s.toList.flatMap quoteChar ++ ['"'])

end FleetLabels.Text
