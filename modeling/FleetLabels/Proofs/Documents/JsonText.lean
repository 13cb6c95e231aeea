import FleetLabels.Json.Writer
import FleetLabels.Proofs.Documents.JsonNumbers

/-!
# JSON text is read back

The writer of JSON text and its reader agree: the text of a value denotes that value, with the
members of its objects in the order and number in which they are. This holds of all values but those
that no text denotes: integers that the reader would take for reals, reals whose text denotes
another real, and values that are known by their text only. `Json.isLegible` leaves these out.

The reader is bounded by fuel, and the length of a text is fuel enough for it; so the main induction
is on the fuel, and each item of a container is shorter than the container.

## Main results

* `Json.string?_stringText` — a string.
* `Json.value_chars` — a value in front of what may follow it.
* `Json.read?_text` — the text of a legible value denotes it.
-/

namespace FleetLabels

namespace Json

/-! ## Values that a text denotes -/

/-- Whether the text of a real denotes it. -/
def isReal (d : Decimal) : Bool :=
  match number d.text.toList with
  | some (.real d', []) => d' = d
  | _ => false

mutual

/-- Whether there is a text that denotes the value. -/
def isLegible : Json → Bool
  | .int n => -(maxNegative : Int) ≤ n && n ≤ maxSignificand
  | .real d => isReal d
  | .array items => itemsLegible items
  | .object members => membersLegible members
  | .verbatim _ => false
  | _ => true

/-- The same for all items of an array. -/
def itemsLegible : List Json → Bool
  | [] => true
  | item :: rest => item.isLegible && itemsLegible rest

/-- The same for all members of an object. -/
def membersLegible : List (String × Json) → Bool
  | [] => true
  | (_, value) :: rest => value.isLegible && membersLegible rest

end

theorem itemsLegible_iff (items : List Json) :
    itemsLegible items = true ↔ ∀ item ∈ items, item.isLegible = true := by
  induction items with
  | nil => simp [itemsLegible]
  | cons item rest ih => simp [itemsLegible, ih]

theorem membersLegible_iff (ms : List (String × Json)) :
    membersLegible ms = true ↔ ∀ e ∈ ms, e.2.isLegible = true := by
  induction ms with
  | nil => simp [membersLegible]
  | cons e rest ih =>
      obtain ⟨key, value⟩ := e
      simp [membersLegible, ih]

/-! ## Strings -/

theorem hexDigit?_digitChar : ∀ d, d < 16 → hexDigit? (Nat.digitChar d) = some d := by
  decide

/-- A code point in front of those that follow. -/
def withPoint (n : Nat) (r : List Nat × List Char) : List Nat × List Char :=
  (n :: r.1, r.2)

theorem bind_withPoint (n : Nat) (cs : List Char) :
    ((codePoints cs).bind fun r => some (n :: r.1, r.2)) = (codePoints cs).map (withPoint n) := by
  cases codePoints cs <;> rfl

theorem codePoints_shortEscape {c d : Char} (hd : shortEscape? d = some c) (rest : List Char) :
    codePoints ('\\' :: d :: rest) = (codePoints rest).map (withPoint c.toNat) := by
  have hunit : d ≠ 'u' := by
    intro heq
    rw [heq] at hd
    cases hd
  rw [codePoints.eq_def]
  split
  next heq => cases heq
  next heq => cases heq
  next heq => exact absurd (List.cons.inj (List.cons.inj heq).2).1 hunit
  next heq =>
    obtain ⟨rfl, rfl⟩ := List.cons.inj (List.cons.inj heq).2
    rw [hd]
    exact bind_withPoint c.toNat rest
  next hother heq =>
    obtain ⟨hbackslash, hrest⟩ := List.cons.inj heq
    exact (hother d rest hbackslash.symm hrest.symm).elim

/-- A control character is written as its number. -/
theorem codePoints_control {c : Char} (hc : c.toNat < 0x20) (rest : List Char) :
    codePoints ('\\' :: 'u' :: '0' :: '0' :: Nat.digitChar (c.toNat / 16) ::
      Nat.digitChar (c.toNat % 16) :: rest) = (codePoints rest).map (withPoint c.toNat) := by
  have hhigh := hexDigit?_digitChar (c.toNat / 16) (by omega)
  have hlow := hexDigit?_digitChar (c.toNat % 16) (by omega)
  have hzero : hexDigit? '0' = some 0 := by decide
  have hunit : hex4? '0' '0' (Nat.digitChar (c.toNat / 16)) (Nat.digitChar (c.toNat % 16)) =
      some c.toNat := by
    simp only [hex4?, hzero, hhigh, hlow, bind, Option.bind]
    congr 1
    omega
  rw [codePoints, hunit]
  exact bind_withPoint c.toNat rest

/-- All other characters stand for themselves. -/
theorem codePoints_plain {c : Char} (hquote : c ≠ '"') (hbackslash : c ≠ '\\')
    (hcontrol : ¬c.toNat < 0x20) (rest : List Char) :
    codePoints (c :: rest) = (codePoints rest).map (withPoint c.toNat) := by
  rw [codePoints.eq_def]
  split
  next heq => cases heq
  next heq => exact absurd (List.cons.inj heq).1 hquote
  next heq => exact absurd (List.cons.inj heq).1 hbackslash
  next heq => exact absurd (List.cons.inj heq).1 hbackslash
  next heq =>
    obtain ⟨rfl, rfl⟩ := List.cons.inj heq
    rw [if_neg hcontrol]
    exact bind_withPoint c.toNat rest

/-- One character is read back from how it stands in a string. -/
theorem codePoints_escape (c : Char) (rest : List Char) :
    codePoints (escape c ++ rest) = (codePoints rest).map (withPoint c.toNat) := by
  unfold escape
  split
  next h => exact codePoints_shortEscape (by rw [h]; rfl) rest
  split
  next h => exact codePoints_shortEscape (by rw [h]; rfl) rest
  split
  next h => exact codePoints_shortEscape (by rw [h]; rfl) rest
  split
  next h => exact codePoints_shortEscape (by rw [h]; rfl) rest
  split
  next h => exact codePoints_shortEscape (by rw [h]; rfl) rest
  split
  next h => exact codePoints_shortEscape (by rw [h]; rfl) rest
  split
  next h => exact codePoints_shortEscape (by rw [h]; rfl) rest
  split
  next hcontrol => exact codePoints_control hcontrol rest
  next hquote hbackslash _ _ _ _ _ hcontrol =>
    exact codePoints_plain hquote hbackslash hcontrol rest

theorem codePoints_flatMap (cs rest : List Char) :
    codePoints (cs.flatMap escape ++ '"' :: rest) = some (cs.map Char.toNat, rest) := by
  induction cs with
  | nil => simp [codePoints]
  | cons c cs ih => simp [codePoints_escape, ih, withPoint]

/-- No character is half of a surrogate pair. -/
theorem not_surrogate (c : Char) : isHigh c.toNat = false ∧ isLow c.toNat = false := by
  have hvalid : c.toNat < 0xD800 ∨ 0xDFFF < c.toNat ∧ c.toNat < 0x110000 := c.valid
  simp only [isHigh, isLow, Bool.and_eq_false_iff, decide_eq_false_iff_not]
  omega

theorem characters?_map (cs : List Char) : characters? (cs.map Char.toNat) = some cs := by
  induction cs with
  | nil => rfl
  | cons c cs ih =>
      have hc := not_surrogate c
      cases cs with
      | nil => simp [characters?, hc]
      | cons d cs =>
          simp only [List.map_cons] at ih ⊢
          simp [characters?, hc, ih]

theorem string?_stringText (s : String) (rest : List Char) :
    string? ((stringText s).toList ++ rest) = some (some s, rest) := by
  have hpoints := codePoints_flatMap s.toList rest
  simp [stringText, string?, hpoints, characters?_map]

/-- So is a real whose text denotes it. -/
theorem number_real {d : Decimal} (h : isReal d = true) :
    number d.text.toList = some (.real d, []) := by
  unfold isReal at h
  split at h
  next d' heq =>
    rw [heq, of_decide_eq_true h]
  next => cases h

/-! ## Values -/

/-- The text of a value, by characters. -/
def chars (j : Json) : List Char :=
  j.text.toList

/-- What is not white space is not skipped. -/
theorem skipSpace_cons {c : Char} (hc : isSpace c = false) (cs : List Char) :
    skipSpace (c :: cs) = c :: cs := by
  simp [skipSpace, hc]

/-- Nothing else starts as a number does. -/
theorem ne_of_number_start {c : Char} (hc : c.isDigit = true ∨ c = '-') :
    ∀ d ∈ ['n', 't', 'f', '"', '[', '\x7b', ']', '\x7d', ' ', '\n', '\t', '\r'], c ≠ d := by
  have hstart : ∀ d ∈ ['n', 't', 'f', '"', '[', '\x7b', ']', '\x7d', ' ', '\n', '\t', '\r'],
      ¬(d.isDigit = true ∨ d = '-') := by simp
  intro d hd heq
  exact hstart d hd (heq ▸ hc)

theorem isSpace_of_number_start {c : Char} (hc : c.isDigit = true ∨ c = '-') :
    isSpace c = false := by
  simp [isSpace, ne_of_number_start hc]

/-- A number is read where a value is wanted. -/
theorem value_number {cs : List Char} {r : Json × List Char} (h : number cs = some r)
    (fuel : Nat) : value fuel cs = some r := by
  obtain ⟨c, l, rfl, hc⟩ := head_of_number h
  have hother := ne_of_number_start hc
  rw [value, skipSpace_cons (isSpace_of_number_start hc)]
  split
  next heq => exact absurd (List.cons.inj heq).1 (hother _ (by decide))
  next heq => exact absurd (List.cons.inj heq).1 (hother _ (by decide))
  next heq => exact absurd (List.cons.inj heq).1 (hother _ (by decide))
  next heq => exact absurd (List.cons.inj heq).1 (hother _ (by decide))
  next heq => exact absurd (List.cons.inj heq).1 (hother _ (by decide))
  next heq => exact absurd (List.cons.inj heq).1 (hother _ (by decide))
  next => exact h

/-- A string starts with a quote. -/
theorem toList_stringText (s : String) :
    (stringText s).toList = '"' :: (s.toList.flatMap escape ++ ['"']) := by
  simp [stringText]

/-- A string is read where a value is wanted. -/
theorem value_stringText (s : String) (rest : List Char) (fuel : Nat) :
    value fuel ((stringText s).toList ++ rest) = some (.string s, rest) := by
  have hread := string?_stringText s rest
  rw [toList_stringText, List.cons_append] at hread ⊢
  rw [value, skipSpace_cons (by decide)]
  simp only [hread]
  rfl

/-! ## Containers -/

theorem length_le_intercalate {l : List Char} {ls : List (List Char)} (h : l ∈ ls) :
    l.length ≤ ([','].intercalate ls).length := by
  induction ls with
  | nil => simp at h
  | cons k ls ih =>
      cases ls with
      | nil => simp_all
      | cons m ls =>
          rw [List.intercalate_cons_cons]
          simp only [List.length_append, List.length_singleton]
          cases List.mem_cons.1 h with
          | inl heq =>
              rw [heq]
              omega
          | inr hmem =>
              have hle := ih hmem
              omega

theorem card_le_intercalate (ls : List (List Char)) :
    ls.length ≤ ([','].intercalate ls).length + 1 := by
  induction ls with
  | nil => simp
  | cons k ls ih =>
      cases ls with
      | nil => simp
      | cons m ls =>
          rw [List.intercalate_cons_cons]
          simp only [List.length_append, List.length_cons] at ih ⊢
          omega

section Containers

variable {α β : Type} {item : List Char → Option (α × List Char)} {write : β → List Char}
  {f : β → α} {close : Char}

/-- Items that are read back one by one are read back together. -/
theorem itemsTail_append (hclose : close = ']' ∨ close = '\x7d') {x : β} {xs : List β}
    (hitem : ∀ y ∈ x :: xs, ∀ rest, Delimited rest → item (write y ++ rest) = some (f y, rest))
    {fuel : Nat} (hfuel : xs.length < fuel) (rest : List Char) :
    itemsTail item close fuel ([','].intercalate ((x :: xs).map write) ++ close :: rest) =
      some ((x :: xs).map f, rest) := by
  have hspace : isSpace close = false := by rcases hclose with rfl | rfl <;> decide
  have hcomma : isSpace ',' = false := rfl
  induction xs generalizing x fuel with
  | nil =>
      cases fuel with
      | zero => simp at hfuel
      | succ fuel =>
          have hx := hitem x List.mem_cons_self (close :: rest) (delimited_cons rest (.inr hclose))
          have htext : [','].intercalate ([x].map write) ++ close :: rest =
              write x ++ close :: rest := by
            simp
          rw [htext, itemsTail, hx]
          rcases hclose with rfl | rfl <;> simp [skipSpace_cons hspace]
  | cons y xs ih =>
      cases fuel with
      | zero => simp at hfuel
      | succ fuel =>
          have hfuel' : xs.length < fuel := by simpa using hfuel
          have hxs := ih (fun z hz => hitem z (List.mem_cons_of_mem x hz)) hfuel'
          have hx := hitem x List.mem_cons_self
            (',' :: ([','].intercalate ((y :: xs).map write) ++ close :: rest))
            (delimited_cons _ (.inl rfl))
          have htext : [','].intercalate ((x :: y :: xs).map write) ++ close :: rest =
              write x ++ ',' :: ([','].intercalate ((y :: xs).map write) ++ close :: rest) := by
            simp
          rw [htext, itemsTail, hx]
          simp only [Option.bind_eq_bind, Option.bind_some, skipSpace_cons hcomma, hxs]
          rfl

/-- The items of a container are read back up to its end. -/
theorem itemsUpTo_append (hclose : close = ']' ∨ close = '\x7d') {xs : List β}
    (hitem : ∀ x ∈ xs, ∀ rest, Delimited rest → item (write x ++ rest) = some (f x, rest))
    (hhead : ∀ x ∈ xs, ∃ c l, write x = c :: l ∧ isSpace c = false ∧ c ≠ close)
    {fuel : Nat} (hfuel : xs.length ≤ fuel) (rest : List Char) :
    itemsUpTo item close fuel ([','].intercalate (xs.map write) ++ close :: rest) =
      some (xs.map f, rest) := by
  cases xs with
  | nil =>
      have hspace : isSpace close = false := by rcases hclose with rfl | rfl <;> decide
      show itemsUpTo item close fuel (close :: rest) = _
      rw [itemsUpTo, skipSpace_cons hspace]
      exact if_pos rfl
  | cons x xs =>
      obtain ⟨c, l, hx, hspace, hc⟩ := hhead x List.mem_cons_self
      have htail := itemsTail_append hclose hitem hfuel rest
      have htext : [','].intercalate ((x :: xs).map write) ++ close :: rest =
          c :: ([','].intercalate (l :: xs.map write) ++ close :: rest) := by
        simp [hx]
      rw [htext] at htail ⊢
      rw [itemsUpTo, skipSpace_cons hspace]
      simp only [if_neg hc]
      exact htail

end Containers

/-! ## Whole values -/

theorem itemTexts_eq (items : List Json) : itemTexts items = items.map text := by
  induction items with
  | nil => rfl
  | cons item rest ih => rw [itemTexts, ih, List.map_cons]

theorem memberTexts_eq (ms : List (String × Json)) :
    memberTexts ms = ms.map fun e => stringText e.1 ++ ":" ++ e.2.text := by
  induction ms with
  | nil => rfl
  | cons e rest ih => rw [memberTexts, ih, List.map_cons]

/-- A member of an object, by characters. -/
def memberChars (e : String × Json) : List Char :=
  (stringText e.1).toList ++ ':' :: e.2.chars

theorem chars_array (items : List Json) :
    (Json.array items).chars = '[' :: [','].intercalate (items.map chars) ++ [']'] := by
  have hchars : items.map (fun item => item.text.toList) = items.map chars := rfl
  simp [chars, text, itemTexts_eq, Function.comp_def, hchars]

theorem chars_object (ms : List (String × Json)) :
    (Json.object ms).chars = '\x7b' :: [','].intercalate (ms.map memberChars) ++ ['\x7d'] := by
  have hchars : ms.map (fun e => (stringText e.1).toList ++ ':' :: e.2.text.toList) =
      ms.map memberChars := rfl
  simp [chars, text, memberTexts_eq, Function.comp_def, hchars]

theorem object?_map (ms : List (String × Json)) :
    object? (ms.map fun e => (some e.1, e.2)) = some (.object ms) := by
  have hmembers : (ms.map fun e => (some e.1, e.2)).mapM
      (fun e : Option String × Json => e.1.map (·, e.2)) = some ms := by
    induction ms with
    | nil => rfl
    | cons e rest ih => simp [ih]
  rw [object?, hmembers]
  rfl

/-! ## Values in front of what may follow -/

/-- An array is read if its items are read with one unit of fuel less. -/
theorem value_array {fuel : Nat} {items : List Json} (hcard : items.length ≤ fuel + 1)
    (hitem : ∀ j ∈ items, ∀ rest, Delimited rest →
      value fuel (j.chars ++ rest) = some (j, rest))
    (hhead : ∀ j ∈ items, ∃ c l, j.chars = c :: l ∧ isSpace c = false ∧ c ≠ ']')
    (rest : List Char) :
    value (fuel + 1) ((Json.array items).chars ++ rest) = some (.array items, rest) := by
  have hitems := itemsUpTo_append (f := id) (.inl rfl) hitem hhead hcard rest
  have htext : (Json.array items).chars ++ rest =
      '[' :: ([','].intercalate (items.map chars) ++ ']' :: rest) := by
    simp [chars_array]
  rw [htext, value, skipSpace_cons (by decide)]
  simp only [hitems, List.map_id]
  rfl

/-- So is an object. -/
theorem value_object {fuel : Nat} {ms : List (String × Json)} (hcard : ms.length ≤ fuel + 1)
    (hitem : ∀ e ∈ ms, ∀ rest, Delimited rest →
      value fuel (e.2.chars ++ rest) = some (e.2, rest)) (rest : List Char) :
    value (fuel + 1) ((Json.object ms).chars ++ rest) = some (.object ms, rest) := by
  have hmember : ∀ e ∈ ms, ∀ rest, Delimited rest →
      member (value fuel) (memberChars e ++ rest) = some ((some e.1, e.2), rest) := by
    intro e he rest hrest
    have hkey := string?_stringText e.1 (':' :: (e.2.chars ++ rest))
    have htext : memberChars e ++ rest =
        (stringText e.1).toList ++ ':' :: (e.2.chars ++ rest) := by
      simp [memberChars]
    rw [htext, member, toList_stringText, List.cons_append, skipSpace_cons (by decide),
      ← List.cons_append, ← toList_stringText, hkey]
    have hcolon : isSpace ':' = false := rfl
    simp only [Option.bind_eq_bind, Option.bind_some, skipSpace_cons hcolon,
      hitem e he rest hrest]
  have hhead : ∀ e ∈ ms, ∃ c l, memberChars e = c :: l ∧ isSpace c = false ∧ c ≠ '\x7d' := by
    intro e _
    have hchars : memberChars e =
        '"' :: (e.1.toList.flatMap escape ++ ['"'] ++ ':' :: e.2.chars) := by
      rw [memberChars, toList_stringText, List.cons_append]
    exact ⟨_, _, hchars, by decide, by decide⟩
  have hmembers := itemsUpTo_append (f := fun e : String × Json => (some e.1, e.2)) (.inr rfl)
    hmember hhead hcard rest
  have htext : (Json.object ms).chars ++ rest =
      '\x7b' :: ([','].intercalate (ms.map memberChars) ++ '\x7d' :: rest) := by
    simp [chars_object]
  rw [htext, value, skipSpace_cons (by decide)]
  simp only [hmembers, Option.map_some, object?_map, Option.getD_some]

/-- A value that is neither an array nor an object is read with any fuel. -/
theorem value_scalar {j : Json} (h : j.isLegible = true) (harray : ∀ items, j ≠ .array items)
    (hobject : ∀ ms, j ≠ .object ms) {rest : List Char} (hrest : Delimited rest) (fuel : Nat) :
    value fuel (j.chars ++ rest) = some (j, rest) := by
  cases j with
  | null =>
      show value fuel ('n' :: 'u' :: 'l' :: 'l' :: rest) = _
      rw [value, skipSpace_cons (by decide)]
      rfl
  | bool b =>
      cases b with
      | true =>
          show value fuel ('t' :: 'r' :: 'u' :: 'e' :: rest) = _
          rw [value, skipSpace_cons (by decide)]
          rfl
      | false =>
          show value fuel ('f' :: 'a' :: 'l' :: 's' :: 'e' :: rest) = _
          rw [value, skipSpace_cons (by decide)]
          rfl
  | int n =>
      simp only [isLegible, Bool.and_eq_true, decide_eq_true_eq] at h
      have hread : number (Json.int n).chars = some (.int n, []) := number_int h.1 h.2
      exact value_number (number_extend hread (fun _ heq => nomatch heq) hrest) fuel
  | real d =>
      have hread : number (Json.real d).chars = some (.real d, []) := number_real h
      exact value_number (number_extend hread (fun _ heq => nomatch heq) hrest) fuel
  | string s => exact value_stringText s rest fuel
  | array items => exact absurd rfl (harray items)
  | object ms => exact absurd rfl (hobject ms)
  | verbatim source => cases h

/-- What a legible value starts with. -/
theorem head_chars {j : Json} (h : j.isLegible = true) :
    ∃ c l, j.chars = c :: l ∧ isSpace c = false ∧ c ≠ ']' := by
  have hnumber {cs : List Char} {r : Json × List Char} (h : number cs = some r) :
      ∃ c l, cs = c :: l ∧ isSpace c = false ∧ c ≠ ']' := by
    obtain ⟨c, l, hcs, hc⟩ := head_of_number h
    exact ⟨c, l, hcs, isSpace_of_number_start hc, ne_of_number_start hc _ (by decide)⟩
  cases j with
  | null => exact ⟨_, _, rfl, by decide, by decide⟩
  | bool b => cases b <;> exact ⟨_, _, rfl, by decide, by decide⟩
  | int n =>
      simp only [isLegible, Bool.and_eq_true, decide_eq_true_eq] at h
      exact hnumber (number_int h.1 h.2)
  | real d => exact hnumber (number_real h)
  | string s => exact ⟨_, _, toList_stringText s, by decide, by decide⟩
  | array items => exact ⟨_, _, chars_array items, by decide, by decide⟩
  | object ms => exact ⟨_, _, chars_object ms, by decide, by decide⟩
  | verbatim source => cases h

/-- A legible value is read back in front of whatever may follow it, with its length for fuel. -/
theorem value_chars (fuel : Nat) : ∀ (j : Json) (rest : List Char), j.isLegible = true →
    j.chars.length ≤ fuel → Delimited rest → value fuel (j.chars ++ rest) = some (j, rest) := by
  induction fuel with
  | zero =>
      intro j rest hj hfuel hrest
      obtain ⟨c, l, hchars, -⟩ := head_chars hj
      simp [hchars] at hfuel
  | succ fuel ih =>
      intro j rest hj hfuel hrest
      cases j with
      | array items =>
          have hlegible := (itemsLegible_iff items).1 hj
          have hlength : ([','].intercalate (items.map chars)).length + 2 ≤ fuel + 1 := by
            simpa [chars_array] using hfuel
          have hcard := card_le_intercalate (items.map chars)
          rw [List.length_map] at hcard
          refine value_array (by omega) (fun item hitem rest hrest => ?_)
            (fun item hitem => head_chars (hlegible item hitem)) rest
          have hle := length_le_intercalate (List.mem_map_of_mem (f := chars) hitem)
          exact ih item rest (hlegible item hitem) (by omega) hrest
      | object ms =>
          have hlegible := (membersLegible_iff ms).1 hj
          have hlength : ([','].intercalate (ms.map memberChars)).length + 2 ≤ fuel + 1 := by
            simpa [chars_object] using hfuel
          have hcard := card_le_intercalate (ms.map memberChars)
          rw [List.length_map] at hcard
          refine value_object (by omega) (fun e he rest hrest => ?_) rest
          have hle := length_le_intercalate (List.mem_map_of_mem (f := memberChars) he)
          have hvalue : e.2.chars.length ≤ (memberChars e).length := by
            simp only [memberChars, List.length_append, List.length_cons]
            omega
          exact ih e.2 rest (hlegible e he) (by omega) hrest
      | _ => exact value_scalar hj (fun _ h => nomatch h) (fun _ h => nomatch h) hrest _

/-- **The text of a legible value denotes it.** -/
theorem read?_text {j : Json} (h : j.isLegible = true) : read? j.text = some j := by
  have hread := value_chars j.chars.length j [] h (Nat.le_refl _) delimited_nil
  rw [List.append_nil] at hread
  show (value j.chars.length j.chars).bind _ = _
  rw [hread]
  rfl

end Json

end FleetLabels
