/-!
# Maps with text keys

A finite map from text to values, kept as the list of its entries in ascending order of the keys.
The order is part of the type, so that a map has one representation only and two maps with the same
look-ups are equal. Order here is the order of `String`, by code points.

## Main results

* `KeyMap.get?_insert`, `KeyMap.get?_erase`, `KeyMap.get?_filterKeys`: what each operation does to
  look-ups.
* `KeyMap.ext_get?`: look-ups determine the map.
-/

namespace FleetLabels

/-! ## Lists of entries -/

namespace Entries

variable {α β : Type}

/-- Keys ascend strictly, so that none occurs twice. -/
abbrev Ascending (l : List (String × α)) : Prop :=
  l.Pairwise fun a b => a.1 < b.1

/-- The entries with `key` bound to `value`: in its place by order, or instead of an older value. -/
def insert (key : String) (value : α) : List (String × α) → List (String × α)
  | [] => [(key, value)]
  | (k, v) :: rest =>
      if key < k then (key, value) :: (k, v) :: rest
      else if key = k then (key, value) :: rest
      else (k, v) :: insert key value rest

theorem mem_insert {key : String} {value : α} {l : List (String × α)} {e : String × α}
    (h : e ∈ insert key value l) : e = (key, value) ∨ e ∈ l := by
  induction l with
  | nil => simpa [insert] using h
  | cons hd tl ih =>
      obtain ⟨k, v⟩ := hd
      rw [insert] at h
      split at h
      · simpa using h
      · split at h
        · rcases List.mem_cons.1 h with h | h
          · exact .inl h
          · exact .inr (List.mem_cons_of_mem _ h)
        · rcases List.mem_cons.1 h with h | h
          · exact .inr (h ▸ List.mem_cons_self)
          · exact (ih h).imp_right (List.mem_cons_of_mem _)

theorem Ascending.insert {key : String} {value : α} {l : List (String × α)} (h : Ascending l) :
    Ascending (Entries.insert key value l) := by
  induction l with
  | nil => simp [Ascending, Entries.insert]
  | cons hd tl ih =>
      obtain ⟨k, v⟩ := hd
      have htl : Ascending tl := (List.pairwise_cons.1 h).2
      have hk : ∀ e ∈ tl, k < e.1 := (List.pairwise_cons.1 h).1
      rw [Entries.insert]
      split
      next hlt =>
        refine List.pairwise_cons.2 ⟨?_, h⟩
        intro e he
        rcases List.mem_cons.1 he with rfl | he
        · exact hlt
        · exact String.lt_trans hlt (hk e he)
      next hlt =>
        split
        next heq => exact List.pairwise_cons.2 ⟨fun e he => heq ▸ hk e he, htl⟩
        next hne =>
          refine List.pairwise_cons.2 ⟨?_, ih htl⟩
          intro e he
          rcases mem_insert he with rfl | he
          · exact Decidable.byContradiction fun hlt' =>
              hne (String.le_antisymm hlt' hlt)
          · exact hk e he

theorem lookup_cons (k key : String) (value : α) (l : List (String × α)) :
    ((key, value) :: l).lookup k = if k = key then some value else l.lookup k := by
  rw [List.lookup_cons]
  by_cases h : k = key
  · rw [beq_iff_eq.2 h, if_pos h]
  · rw [beq_eq_false_iff_ne.2 h, if_neg h]

theorem lookup_insert (key k : String) (value : α) (l : List (String × α)) :
    (insert key value l).lookup k = if k = key then some value else l.lookup k := by
  induction l with
  | nil => rw [insert, lookup_cons]
  | cons hd tl ih =>
      obtain ⟨k', v'⟩ := hd
      rw [insert]
      split
      · rw [lookup_cons]
      · split
        next heq => subst heq; by_cases h : k = key <;> simp only [lookup_cons, h, ↓reduceIte]
        next hne =>
          by_cases h : k = k'
          · subst h
            simp only [lookup_cons, Ne.symm hne, ↓reduceIte]
          · simp only [lookup_cons, h, ih, ↓reduceIte]

/-- A key below all keys of a list of entries has no value there. -/
theorem lookup_eq_none {k : String} {l : List (String × α)} (h : ∀ e ∈ l, k < e.1) :
    l.lookup k = none := by
  induction l with
  | nil => rfl
  | cons hd tl ih =>
      obtain ⟨k', v'⟩ := hd
      have hne : k ≠ k' := fun heq => String.lt_irrefl _ (heq ▸ h (k', v') List.mem_cons_self)
      rw [lookup_cons, if_neg hne, ih fun e he => h e (List.mem_cons_of_mem _ he)]

theorem lookup_filter (keep : String → Bool) (k : String) (l : List (String × α)) :
    (l.filter fun e => keep e.1).lookup k = if keep k then l.lookup k else none := by
  induction l with
  | nil => simp
  | cons hd tl ih =>
      obtain ⟨k', v'⟩ := hd
      rw [List.filter_cons]
      by_cases hk : k = k'
      · subst hk
        cases hkeep : keep k <;> simp only [ih, hkeep, lookup_cons, ↓reduceIte, Bool.false_eq_true]
      · cases hkeep : keep k' <;> simp only [ih, hk, lookup_cons, ↓reduceIte, Bool.false_eq_true]

/-- Ascending entries with the same look-ups are the same entries. -/
theorem ext_lookup {l₁ l₂ : List (String × α)} (h₁ : Ascending l₁) (h₂ : Ascending l₂)
    (h : ∀ k, l₁.lookup k = l₂.lookup k) : l₁ = l₂ := by
  induction l₁ generalizing l₂ with
  | nil =>
      cases l₂ with
      | nil => rfl
      | cons e tl =>
          have := h e.1
          rw [lookup_cons, if_pos rfl] at this
          cases this
  | cons e₁ t₁ ih =>
      cases l₂ with
      | nil =>
          have := h e₁.1
          rw [lookup_cons, if_pos rfl] at this
          cases this
      | cons e₂ t₂ =>
          obtain ⟨k₁, v₁⟩ := e₁
          obtain ⟨k₂, v₂⟩ := e₂
          obtain ⟨hk₁, ht₁⟩ := List.pairwise_cons.1 h₁
          obtain ⟨hk₂, ht₂⟩ := List.pairwise_cons.1 h₂
          have low {k k' : String} {v : α} {t : List (String × α)} (hlt : k < k')
              (ht : ∀ e ∈ t, k' < e.1) : ((k', v) :: t).lookup k = none := by
            refine lookup_eq_none fun e he => ?_
            rcases List.mem_cons.1 he with rfl | he
            · exact hlt
            · exact String.lt_trans hlt (ht e he)
          have hkey : k₁ = k₂ := by
            refine String.le_antisymm (fun hlt => ?_) (fun hlt => ?_)
            · have := h k₂
              rw [low hlt hk₁, lookup_cons, if_pos rfl] at this
              cases this
            · have := h k₁
              rw [low hlt hk₂, lookup_cons, if_pos rfl] at this
              cases this
          subst hkey
          have hvalue : v₁ = v₂ := by
            have := h k₁
            rw [lookup_cons, lookup_cons, if_pos rfl, if_pos rfl] at this
            exact Option.some.inj this
          subst hvalue
          refine congrArg _ (ih ht₁ ht₂ fun k => ?_)
          by_cases hk : k = k₁
          · subst hk
            rw [lookup_eq_none hk₁, lookup_eq_none hk₂]
          · have := h k
            rwa [lookup_cons, lookup_cons, if_neg hk, if_neg hk] at this

end Entries

/-! ## Maps -/

/-- A finite map from text to values. -/
structure KeyMap (α : Type) where
  entries : List (String × α)
  ascending : Entries.Ascending entries
  deriving DecidableEq

namespace KeyMap

variable {α β : Type}

instance [Repr α] : Repr (KeyMap α) where
  reprPrec m n := reprPrec m.entries n

/-- The map without entries. -/
def empty : KeyMap α := ⟨[], List.Pairwise.nil⟩

instance : EmptyCollection (KeyMap α) := ⟨empty⟩
instance : Inhabited (KeyMap α) := ⟨empty⟩

/-- The value at a key. -/
def get? (m : KeyMap α) (key : String) : Option α :=
  m.entries.lookup key

/-- The map with `key` bound to `value`. -/
def insert (m : KeyMap α) (key : String) (value : α) : KeyMap α :=
  ⟨Entries.insert key value m.entries, m.ascending.insert⟩

/-- The entries whose key passes a test. -/
def filterKeys (m : KeyMap α) (keep : String → Bool) : KeyMap α :=
  ⟨m.entries.filter fun e => keep e.1, m.ascending.filter _⟩

/-- The map without `key`. -/
def erase (m : KeyMap α) (key : String) : KeyMap α :=
  m.filterKeys (· != key)

/-- The keys, ascending. -/
def keys (m : KeyMap α) : List String :=
  m.entries.map (·.1)

/-- The values, in the order of their keys. -/
def values (m : KeyMap α) : List α :=
  m.entries.map (·.2)

/-- The map of a list of entries; of several with one key the last counts. -/
def ofList (l : List (String × α)) : KeyMap α :=
  l.foldl (fun m e => m.insert e.1 e.2) empty

/-- The map without any of the given keys. -/
def eraseAll (m : KeyMap α) (keys : List String) : KeyMap α :=
  keys.foldl erase m

@[simp] theorem get?_empty (key : String) : (empty : KeyMap α).get? key = none := rfl

theorem get?_insert (m : KeyMap α) (key k : String) (value : α) :
    (m.insert key value).get? k = if k = key then some value else m.get? k :=
  Entries.lookup_insert ..

theorem get?_filterKeys (m : KeyMap α) (keep : String → Bool) (k : String) :
    (m.filterKeys keep).get? k = if keep k then m.get? k else none :=
  Entries.lookup_filter ..

theorem get?_erase (m : KeyMap α) (key k : String) :
    (m.erase key).get? k = if k = key then none else m.get? k := by
  rw [erase, get?_filterKeys]
  by_cases h : k = key <;> simp [h]

theorem get?_eraseAll (m : KeyMap α) (keys : List String) (k : String) :
    (m.eraseAll keys).get? k = if k ∈ keys then none else m.get? k := by
  induction keys generalizing m with
  | nil => simp [eraseAll]
  | cons key rest ih =>
      rw [eraseAll, List.foldl_cons, ← eraseAll, ih, get?_erase]
      by_cases hk : k = key <;> by_cases hr : k ∈ rest <;> simp [hk, hr]

/-- Look-ups determine the map. -/
theorem ext_get? {m₁ m₂ : KeyMap α} (h : ∀ k, m₁.get? k = m₂.get? k) : m₁ = m₂ := by
  obtain ⟨l₁, h₁⟩ := m₁
  obtain ⟨l₂, h₂⟩ := m₂
  obtain rfl : l₁ = l₂ := Entries.ext_lookup h₁ h₂ h
  rfl

end KeyMap

end FleetLabels
