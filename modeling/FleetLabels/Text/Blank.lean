/-!
# White space

The characters with the Unicode property `White_Space`, and text without them at its ends.
-/

namespace FleetLabels.Text

/-- The Unicode property `White_Space`. -/
def isBlank (c : Char) : Bool :=
  let n := c.toNat
  (0x09 ≤ n && n ≤ 0x0D) || n = 0x20 || n = 0x85 || n = 0xA0 || n = 0x1680
    || (0x2000 ≤ n && n ≤ 0x200A) || n = 0x2028 || n = 0x2029 || n = 0x202F || n = 0x205F
    || n = 0x3000

/-- A text without the white space it starts with. -/
def trimLeft (cs : List Char) : List Char :=
  cs.dropWhile isBlank

/-- A text without the white space at either end. -/
def trimmed (cs : List Char) : List Char :=
  (trimLeft (trimLeft cs).reverse).reverse

/-- Text without white space in front is left as it is. -/
theorem trimLeft_of_head {c : Char} (cs : List Char) (hc : isBlank c = false) :
    trimLeft (c :: cs) = c :: cs := by
  simp [trimLeft, hc]

@[simp] theorem trimLeft_nil : trimLeft [] = [] := rfl

end FleetLabels.Text
