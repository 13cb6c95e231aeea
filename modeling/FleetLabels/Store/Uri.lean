import FleetLabels.Failure

/-!
# Request addresses

Which texts can stand as the path and query of an address. Most ASCII characters may, and all
characters beyond; blanks, control characters and a few brackets may not. A number sign ends the
address, and what follows it is not looked at.
-/

namespace FleetLabels.Uri

/-- The largest number of bytes in an address. -/
def maxBytes : Nat := 65534

/-- The characters of a path. -/
def isPathChar (c : Char) : Bool :=
  let n := c.toNat
  n = 0x21 || n = 0x22 || (0x24 ≤ n && n ≤ 0x3B) || n = 0x3D || (0x40 ≤ n && n ≤ 0x5F)
    || (0x61 ≤ n && n ≤ 0x7E) || 0x80 ≤ n

/-- The characters of a query. -/
def isQueryChar (c : Char) : Bool :=
  let n := c.toNat
  n = 0x21 || (0x24 ≤ n && n ≤ 0x3B) || n = 0x3D || (0x3F ≤ n && n ≤ 0x7E) || 0x80 ≤ n

/-- The characters of a query, up to a number sign. -/
def checkQuery : List Char → Except BadRequest (List Char)
  | [] => .ok []
  | c :: rest =>
      if c = '#' then .ok []
      else if isQueryChar c then (c :: ·) <$> checkQuery rest
      else .error .invalidUri

/-- The characters of a path with its query, up to a number sign. -/
def checkPath : List Char → Except BadRequest (List Char)
  | [] => .ok []
  | c :: rest =>
      if c = '#' then .ok []
      else if c = '?' then (c :: ·) <$> checkQuery rest
      else if isPathChar c then (c :: ·) <$> checkPath rest
      else .error .invalidUri

/-- The address that a text stands for. -/
def check (s : String) : Except BadRequest String :=
  if maxBytes < s.utf8ByteSize then .error .uriTooLong
  else String.ofList <$> checkPath s.toList

/-- An address without its query and what follows a number sign. -/
def path (uri : String) : String :=
  String.ofList (uri.toList.takeWhile fun c => c != '?' && c != '#')

end FleetLabels.Uri
