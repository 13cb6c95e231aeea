import FleetLabels.Decimal.Unsigned
import FleetLabels.Settings.LogLevel
import FleetLabels.Text.Alphanumeric

/-!
# Log filters

Which lines of a log are let through. A filter is a list of directives with commas between them, and
a directive has up to four parts, `target[span{field=value}]=limit`: from which part of the program
a line comes, inside which span, with which field, and how much is let through. Of all directives
that care about a line the one with the longest target decides; a line that none cares about is held
back.
-/

namespace FleetLabels

/-- How much is let through: everything at least as serious as the word says. -/
inductive LogLimit where
  | off
  | error
  | warning
  | info
  | debug
  | trace
  deriving DecidableEq, Repr

namespace LogLimit

/-- The limits by number. -/
def ofNumber? : Nat → Option LogLimit
  | 0 => some .off
  | 1 => some .error
  | 2 => some .warning
  | 3 => some .info
  | 4 => some .debug
  | 5 => some .trace
  | _ => none

/-- The limits by name, in lower-case letters. -/
def ofName? : List Char → Option LogLimit
  | ['o', 'f', 'f'] => some .off
  | ['e', 'r', 'r', 'o', 'r'] => some .error
  | ['w', 'a', 'r', 'n'] => some .warning
  | ['i', 'n', 'f', 'o'] => some .info
  | ['d', 'e', 'b', 'u', 'g'] => some .debug
  | ['t', 'r', 'a', 'c', 'e'] => some .trace
  | _ => none

/-- The largest number that is read. -/
def maxNumber : Nat := 18446744073709551615

/-- The limit that a word stands for: a number, or a name without regard to case. -/
def ofWord? (word : List Char) : Option LogLimit :=
  ((Unsigned.parse maxNumber word).toOption.bind ofNumber?).or (ofName? (word.map Char.toLower))

/-- The limit that lets a level and all more serious ones through. -/
def ofLevel : LogLevel → LogLimit
  | .debug => .debug
  | .info => .info
  | .warning => .warning
  | .error => .error

/-- The least serious level that is let through, if one is. -/
def least? : LogLimit → Option LogLevel
  | .off => none
  | .error => some .error
  | .warning => some .warning
  | .info => some .info
  | .debug | .trace => some .debug

/-- Whether lines of a level are let through. -/
def admits (limit : LogLimit) (level : LogLevel) : Bool :=
  limit.least?.any fun least => least.severity ≤ level.severity

end LogLimit

/-- One directive of a filter. -/
structure LogDirective where
  /-- What the part of the program begins with that a line comes from. -/
  target : Option (List Char) := none
  /-- The span that a line stands in. -/
  span : Option (List Char) := none
  /-- The field that a line has, with the value of the field. -/
  field : Option (List Char × Option (List Char)) := none
  limit : LogLimit := .trace
  deriving DecidableEq, Repr

/-- A line for which a filter is asked: where it comes from, its fields, and how serious it is. -/
structure LogLine where
  target : List Char
  fields : List (List Char)
  level : LogLevel
  deriving DecidableEq, Repr

/-! ## Reading -/

/-- The characters of the first `n` bytes of a text, and the ones that follow; none if a character
stands across the boundary, or if there are not so many bytes. -/
def Text.splitAtByte? : List Char → Nat → Option (List Char × List Char)
  | cs, 0 => some ([], cs)
  | [], _ + 1 => none
  | c :: cs, n + 1 =>
      if c.utf8Size ≤ n + 1 then
        (splitAtByte? cs (n + 1 - c.utf8Size)).map fun (front, rest) => (c :: front, rest)
      else none

/-- The characters from one byte of a text up to another. -/
def Text.slice? (cs : List Char) (start stop : Nat) : Option (List Char) := do
  let (_, rest) ← splitAtByte? cs start
  let (part, _) ← splitAtByte? rest (stop - start)
  some part

namespace LogDirective

/-- Where the reading of a directive stands. A part that is being read is given by the byte at which
it begins. -/
inductive Place where
  | start
  /-- In a limit or a target. -/
  | word (start : Nat)
  /-- In the name of a span. -/
  | span (start : Nat)
  /-- In a field with its value. -/
  | field (start : Nat)
  /-- Behind the field. -/
  | fieldEnd
  /-- Behind the span. -/
  | spanEnd
  /-- In a limit that follows an equals sign. -/
  | limit (start : Nat)
  deriving DecidableEq, Repr

/-- Whether a directive that does not begin with a span may begin with a character. -/
def isFirst (c : Char) : Bool :=
  c = '-' || c = ':' || c = '_' || Text.isAlphanumeric c

/-- The field of a directive: its name, and the value behind an equals sign. Of several equals signs
the second one ends the value. -/
def fieldOf? (part : List Char) : Option (List Char × Option (List Char)) :=
  if part.isEmpty then none
  else
    match part.dropWhile (· != '=') with
    | [] => some (part, none)
    | _ :: value => some (part.takeWhile (· != '='), some (value.takeWhile (· != '=')))

/-- The next place after the character `c` at byte `i` of a piece, and the directive so far. -/
def step (piece : List Char) (i : Nat) (c : Char) :
    Place × LogDirective → Option (Place × LogDirective)
  | (.start, d) =>
      if c = '[' then some (.span (i + 1), d)
      else if isFirst c then some (.word i, d)
      else none
  | (.word start, d) =>
      if c = '=' then do
        some (.limit (i + 1), { d with target := some (← Text.slice? piece start i) })
      else if c = '[' then do
        some (.span (i + 1), { d with target := some (← Text.slice? piece start i) })
      else some (.word start, d)
  | (.span start, d) =>
      if c = ']' then do
        some (.spanEnd, { d with span := some (← Text.slice? piece start i) })
      else if c = '\x7b' then do
        let name ← Text.slice? piece start i
        some (.field (i + 1), { d with span := if name.isEmpty then none else some name })
      else some (.span start, d)
  | (.field start, d) =>
      if c = '\x7d' then do
        some (.fieldEnd, { d with field := some (← fieldOf? (← Text.slice? piece start i)) })
      else some (.field start, d)
  | (.fieldEnd, d) => if c = ']' then some (.spanEnd, d) else none
  | (.spanEnd, d) => if c = '=' then some (.limit (i + 1), d) else none
  | (.limit start, d) => some (.limit start, d)

/-- The place behind characters that begin at byte `i` of a piece, and the directive so far. -/
def walk (piece : List Char) :
    List Char → Nat → Place × LogDirective → Option (Place × LogDirective)
  | [], _, s => some s
  | c :: cs, i, s => do walk piece cs (i + c.utf8Size) (← step piece i c s)

/-- The directive once its piece is read. A word alone is a limit if it can be one, else a target
from which everything is let through. -/
def finish (piece : List Char) : Place × LogDirective → Option LogDirective
  | (.word start, d) => do
      let (_, word) ← Text.splitAtByte? piece start
      match LogLimit.ofWord? word with
      | some limit => some { d with limit }
      | none => some { d with target := some word }
  | (.limit start, d) => do
      let (_, word) ← Text.splitAtByte? piece start
      if word.isEmpty then some d else some { d with limit := ← LogLimit.ofWord? word }
  | (.spanEnd, d) => some d
  | _ => none

/-- The directive that a piece of a filter stands for. White space at its ends is passed over while
the parts are being found, but the parts are then cut by position from the whole piece: white space
in front moves them, and white space behind belongs to the last one. -/
def ofPiece? (piece : List Char) : Option LogDirective := do
  finish piece (← walk piece (Text.trimmed piece) 0 (.start, {}))

end LogDirective

/-! ## Deciding -/

namespace LogDirective

/-- Whether a directive is about lines by themselves, whatever they stand in and whatever the values
of their fields are. -/
def isPlain (d : LogDirective) : Bool :=
  d.span.isNone && d.field.all (·.2.isNone)

/-- Whether a directive is about lines like the given one. -/
def caresAbout (d : LogDirective) (line : LogLine) : Bool :=
  d.target.all (·.isPrefixOf line.target) && d.field.all (line.fields.contains ·.1)

/-- How specific a directive is: one with a longer target is more so, and one with no target least;
of equal ones the one with a field is. -/
def specificity (d : LogDirective) : Nat × Nat :=
  (d.target.elim 0 (·.length + 1), if d.field.isSome then 1 else 0)

/-- Whether a directive decides in place of another one that stands before it. -/
def overrules (d earlier : LogDirective) : Bool :=
  compare d.specificity.1 earlier.specificity.1 |>.then
    (compare d.specificity.2 earlier.specificity.2) |>.isGE

end LogDirective

/-- Which lines of a log are let through. -/
structure LogFilter where
  directives : List LogDirective
  deriving DecidableEq, Repr

namespace LogFilter

/-- The filter that lets a level and all more serious ones through. -/
def ofLevel (level : LogLevel) : LogFilter :=
  ⟨[{ limit := .ofLevel level }]⟩

/-- The filter that a text stands for, none if one of its directives cannot be read. Empty pieces
are passed over; a text without directives lets errors through. -/
def parse? (text : String) : Option LogFilter := do
  let pieces := (text.splitOn ",").filter (! ·.isEmpty)
  match ← pieces.mapM fun piece => LogDirective.ofPiece? piece.toList with
  | [] => some (ofLevel .error)
  | directives => some ⟨directives⟩

/-- The directive that decides about a line: the most specific one, and of equally specific ones the
last. -/
def decisive? (filter : LogFilter) (line : LogLine) : Option LogDirective :=
  (filter.directives.filter fun d => d.isPlain && d.caresAbout line).foldl
    (fun best d => some (best.elim d fun earlier => if d.overrules earlier then d else earlier))
    none

/-- Whether a line is let through. -/
def admits (filter : LogFilter) (line : LogLine) : Bool :=
  (filter.decisive? line).any (·.limit.admits line.level)

end LogFilter

end FleetLabels
