import FleetLabels.Policy.Document
import FleetLabels.Proofs.Labels
import Mathlib.Data.List.Forall2

/-!
# Readers and writers of documents

A document is written field by field, each under a key of its own, and read back by asking for one
key after the other. Whether the reader finds what the writer wrote is therefore a matter of the
values under one key only: `valuesAt` of a written document is the one field with that key, or
nothing, whatever else the document has.

Of a document that somebody else wrote only this is known: what the reader made of it has every
property that the readers of its parts ensure. That is `Gives`.

## Main results

* `Document.lastOf_entry`, `Document.onlyOf_entry` — a field that may be missing is read back.
* `Document.reads_string`, `Document.reads_list`, `Document.reads_ofKeyMap` and their companions —
  so are the values of the kinds that documents are made of.
* `Document.gives_optional`, `Document.gives_once` — what a field that was read has.
-/

namespace FleetLabels

/-! ## Results of readers -/

section Results

variable {ε α β : Type} {P : α → Prop} {Q : β → Prop}

theorem ok_bind (a : α) (f : α → Except ε β) : (Except.ok a >>= f) = f a := rfl

theorem map_ok (f : α → β) (a : α) : (f <$> Except.ok a : Except ε β) = .ok (f a) := rfl

theorem bind_eq_ok {x : Except ε α} {f : α → Except ε β} {b : β} :
    (x >>= f) = .ok b ↔ ∃ a, x = .ok a ∧ f a = .ok b := by
  cases x with
  | error e =>
      constructor
      · intro h
        cases h
      · intro ⟨a, ha, _⟩
        cases ha
  | ok a => simp [ok_bind]

theorem mapError_eq_ok {δ : Type} {x : Except ε α} {f : ε → δ} {a : α} :
    x.mapError f = .ok a ↔ x = .ok a := by
  cases x <;> simp [Except.mapError]

theorem mapError_eq_error {δ : Type} {x : Except ε α} {f : ε → δ} {d : δ} :
    x.mapError f = .error d ↔ ∃ e, x = .error e ∧ f e = d := by
  cases x <;> simp [Except.mapError]

/-- Whatever comes out has the property. -/
def Gives (P : α → Prop) (x : Except ε α) : Prop :=
  ∀ a, x = .ok a → P a

theorem gives_ok {a : α} (h : P a) : Gives P (Except.ok a : Except ε α) := by
  intro b hb
  exact Except.ok.inj hb ▸ h

theorem gives_error (e : ε) : Gives P (Except.error e) := by
  intro b hb
  cases hb

/-- What the first part ensures may be used for the second. -/
theorem gives_bind {x : Except ε α} {f : α → Except ε β} (hx : Gives P x)
    (hf : ∀ a, P a → Gives Q (f a)) : Gives Q (x >>= f) := by
  intro b hb
  cases x with
  | error e => cases hb
  | ok a => exact hf a (hx a rfl) b hb

/-- Nothing needs to be known of the first part. -/
theorem gives_of_bind {x : Except ε α} {f : α → Except ε β} (hf : ∀ a, Gives Q (f a)) :
    Gives Q (x >>= f) := by
  intro b hb
  cases x with
  | error e => cases hb
  | ok a => exact hf a b hb

theorem gives_map {x : Except ε α} {f : α → β} (hx : Gives P x) (hf : ∀ a, P a → Q (f a)) :
    Gives Q (f <$> x) := by
  intro b hb
  cases x with
  | error e => cases hb
  | ok a =>
      have hb' : f a = b := Except.ok.inj hb
      exact hb' ▸ hf a (hx a rfl)

theorem gives_mapM_of_mem {γ : Type} {f : γ → Except ε α} {l : List γ}
    (hf : ∀ c ∈ l, Gives P (f c)) : Gives (fun as => ∀ a ∈ as, P a) (l.mapM f) := by
  induction l with
  | nil =>
      apply gives_ok
      intro a ha
      simp at ha
  | cons c l ih =>
      have hrest := ih fun d hd => hf d (List.mem_cons_of_mem c hd)
      rw [List.mapM_cons]
      refine gives_bind (hf c List.mem_cons_self) fun a ha => gives_bind hrest fun as has =>
        gives_ok ?_
      intro b hb
      cases List.mem_cons.1 hb with
      | inl heq => exact heq ▸ ha
      | inr hmem => exact has b hmem

theorem gives_mapM {γ : Type} {f : γ → Except ε α} (hf : ∀ c, Gives P (f c)) (l : List γ) :
    Gives (fun as => ∀ a ∈ as, P a) (l.mapM f) :=
  gives_mapM_of_mem fun c _ => hf c

/-- A list is read item by item. -/
theorem mapM_eq_ok_iff {f : α → Except ε β} {l : List α} {bs : List β} :
    l.mapM f = .ok bs ↔ List.Forall₂ (fun a b => f a = .ok b) l bs := by
  induction l generalizing bs with
  | nil =>
      rw [List.forall₂_nil_left_iff]
      constructor
      · intro h
        exact (Except.ok.inj h).symm
      · intro h
        rw [h]
        rfl
  | cons a l ih =>
      rw [List.mapM_cons, List.forall₂_cons_left_iff]
      simp only [bind_eq_ok, ih]
      constructor
      · intro ⟨b, hb, bs', hbs, heq⟩
        exact ⟨b, bs', hb, hbs, (Except.ok.inj heq).symm⟩
      · intro ⟨b, bs', hb, hbs, heq⟩
        exact ⟨b, hb, bs', hbs, heq ▸ rfl⟩

theorem mapM_map_ok {γ : Type} {f : γ → Except ε α} {g : β → γ} {k : β → α}
    (l : List β) (h : ∀ b ∈ l, f (g b) = .ok (k b)) : (l.map g).mapM f = .ok (l.map k) := by
  induction l with
  | nil => rfl
  | cons b l ih =>
      have hb : f (g b) = .ok (k b) := h b List.mem_cons_self
      have hl : (l.map g).mapM f = .ok (l.map k) := ih fun c hc => h c (List.mem_cons_of_mem b hc)
      simp only [List.map_cons, List.mapM_cons, hb, hl, ok_bind]
      rfl

end Results

namespace Document

variable {α β : Type} {key : String} {ms : List (String × Json)}

/-! ## The values under a key -/

theorem valuesAt_nil : valuesAt [] key = [] := rfl

theorem valuesAt_cons (k : String) (j : Json) :
    valuesAt ((k, j) :: ms) key = if k = key then j :: valuesAt ms key else valuesAt ms key := by
  by_cases h : k = key
  · simp [valuesAt, h]
  · simp [valuesAt, h]

theorem valuesAt_append (ms' : List (String × Json)) :
    valuesAt (ms ++ ms') key = valuesAt ms key ++ valuesAt ms' key :=
  List.filterMap_append

theorem valuesAt_entry (k : String) (write : α → Json) (o : Option α) :
    valuesAt (entry k write o) key = if k = key then (o.map write).toList else [] := by
  cases o with
  | none => simp [entry, valuesAt]
  | some a => simp [entry, valuesAt_cons, valuesAt_nil]

/-! ## Fields that are read back -/

/-- The reader gives `a` for the value, which is not the `null` that stands for nothing. -/
def Reads (read : Json → Except Fault α) (j : Json) (a : α) : Prop :=
  read j = .ok a ∧ j ≠ .null

/-- An object is not the `null` that stands for nothing. -/
theorem reads_object {read : Json → Except Fault α} {a : α} (h : read (.object ms) = .ok a) :
    Reads read (.object ms) a :=
  ⟨h, fun hnull => nomatch hnull⟩

theorem Reads.nullable {read : Json → Except Fault α} {j : Json} {a : α} (h : Reads read j a) :
    Document.nullable read j = .ok (some a) := by
  have hread : Document.nullable read j = some <$> read j := by
    cases j with
    | null => exact absurd rfl h.2
    | _ => rfl
  rw [hread, h.1, map_ok]

/-- The last of several values, which may be `null`. -/
def lastOf (read : Json → Except Fault α) (js : List Json) : Except Fault (Option α) :=
  Option.join <$> (List.getLast? <$> js.mapM (nullable read))

/-- The only one of at most one value. -/
def onlyOf (key : String) (read : Json → Except Fault α) : List Json → Except Fault (Option α)
  | [] => .ok none
  | [j] => some <$> read j
  | _ => .error (.repeatedField key)

theorem optional_eq (read : Json → Except Fault α) :
    optional ms key read = lastOf read (valuesAt ms key) := rfl

theorem stringOrEmpty_eq :
    stringOrEmpty ms key = (·.getD "") <$> lastOf string (valuesAt ms key) := rfl

theorem once_eq (read : Json → Except Fault α) :
    once ms key read = onlyOf key read (valuesAt ms key) := rfl

theorem optionalOnce_eq (read : Json → Except Fault α) :
    optionalOnce ms key read = Option.join <$> onlyOf key (nullable read) (valuesAt ms key) := rfl

theorem required_eq_ok_iff {o : Option α} {a : α} : required key o = .ok a ↔ o = some a := by
  cases o with
  | none => simp [required]
  | some b => simp [required]

section Fields

variable {read : Json → Except Fault β} {write : α → Json} {f : α → β} {o : Option α}

theorem lastOf_entry (h : ∀ a ∈ o, Reads read (write a) (f a)) :
    lastOf read (o.map write).toList = .ok (o.map f) := by
  cases o with
  | none => rfl
  | some a =>
      have ha : nullable read (write a) = .ok (some (f a)) := (h a rfl).nullable
      simp only [lastOf, Option.map_some, Option.toList_some, List.mapM_cons, List.mapM_nil, ha,
        ok_bind]
      rfl

theorem onlyOf_entry (h : ∀ a ∈ o, Reads read (write a) (f a)) :
    Option.join <$> onlyOf key (nullable read) (o.map write).toList = .ok (o.map f) := by
  cases o with
  | none => rfl
  | some a =>
      have ha : nullable read (write a) = .ok (some (f a)) := (h a rfl).nullable
      simp only [onlyOf, Option.map_some, Option.toList_some, ha, map_ok]
      rfl

end Fields

/-- A field is read back as it was written. -/
theorem lastOf_self {read : Json → Except Fault α} {write : α → Json}
    (h : ∀ a, Reads read (write a) a) (o : Option α) :
    lastOf read (o.map write).toList = .ok o := by
  have hread : lastOf read (o.map write).toList = .ok (o.map id) := lastOf_entry fun a _ => h a
  rw [hread, Option.map_id, id]

theorem lastOf_single {read : Json → Except Fault α} {j : Json} {a : α} (h : Reads read j a) :
    lastOf read [j] = .ok (some a) := by
  simp only [lastOf, List.mapM_cons, List.mapM_nil, h.nullable, ok_bind]
  rfl

/-- A field that must not be there twice was not. -/
theorem length_valuesAt_of_once {read : Json → Except Fault α} {o : Option α}
    (h : once ms key read = .ok o) : (valuesAt ms key).length ≤ 1 := by
  rw [once_eq] at h
  cases hvalues : valuesAt ms key with
  | nil => simp
  | cons j js =>
      cases js with
      | nil => simp
      | cons _ _ =>
          rw [hvalues] at h
          cases h

theorem length_valuesAt_of_optionalOnce {read : Json → Except Fault α} {o : Option α}
    (h : optionalOnce ms key read = .ok o) : (valuesAt ms key).length ≤ 1 := by
  cases honce : once ms key (nullable read) with
  | error e =>
      rw [optionalOnce_eq, ← once_eq, honce] at h
      cases h
  | ok o' => exact length_valuesAt_of_once honce

theorem onlyOf_single {read : Json → Except Fault α} {j : Json} {a : α} (h : read j = .ok a) :
    onlyOf key read [j] = .ok (some a) := by
  rw [onlyOf, h, map_ok]

/-! ## Values that are read back -/

theorem reads_string (s : String) : Reads string (.string s) s :=
  ⟨rfl, fun h => nomatch h⟩

theorem reads_boolean (b : Bool) : Reads boolean (.bool b) b :=
  ⟨rfl, fun h => nomatch h⟩

theorem int32_toInt (n : Int32) : int32 (.int n.toInt) = .ok n := by
  have hlow := n.le_toInt
  have hhigh := n.toInt_lt
  have hrange : -2147483648 ≤ n.toInt ∧ n.toInt ≤ 2147483647 := by omega
  simp only [int32, if_pos hrange, Int32.ofInt_toInt]

theorem reads_int32 (n : Int32) : Reads int32 (.int n.toInt) n :=
  ⟨int32_toInt n, fun h => nomatch h⟩

theorem reads_int64 (n : Int64) : Reads int64 (.int n.toInt) n := by
  have hlow := n.le_toInt
  have hhigh := n.toInt_lt
  have hrange : -9223372036854775808 ≤ n.toInt ∧ n.toInt ≤ 9223372036854775807 := by omega
  constructor
  · simp only [int64, if_pos hrange, Int64.ofInt_toInt]
  · intro h
    cases h

/-- A constant text is what it must be. -/
theorem mapM_literal (value : String) : [Json.string value].mapM (literal value) = .ok [()] := by
  have hliteral : literal value (.string value) = .ok () := if_pos rfl
  simp only [List.mapM_cons, List.mapM_nil, hliteral, ok_bind]
  rfl

/-- A list is read item by item. -/
theorem reads_list_map {read : Json → Except Fault β} {write : α → Json} {f : α → β} {l : List α}
    (h : ∀ a ∈ l, read (write a) = .ok (f a)) :
    Reads (list read) (.array (l.map write)) (l.map f) := by
  constructor
  · rw [list, mapM_map_ok l h]
  · intro hnull
    cases hnull

/-- A list is read back if its items are. -/
theorem reads_list {read : Json → Except Fault α} {write : α → Json}
    (h : ∀ a, read (write a) = .ok a) (l : List α) :
    Reads (list read) (.array (l.map write)) l := by
  have hitems : Reads (list read) (.array (l.map write)) (l.map id) :=
    reads_list_map fun a _ => h a
  rw [List.map_id] at hitems
  exact hitems

theorem reads_strings (l : List String) : Reads (list string) (Json.strings l) l :=
  @reads_list _ string .string (fun _ => rfl) l

/-- A map is the map of its own entries. -/
theorem ofList_entries (m : KeyMap α) : KeyMap.ofList m.entries = m := by
  apply KeyMap.ext_get?
  intro k
  rw [KeyMap.ofList, KeyMap.get?_foldl_insert m.ascending, KeyMap.get?_empty, Option.or_none]
  rfl

theorem reads_ofKeyMap (m : KeyMap String) : Reads (keyMap string) (Json.ofKeyMap m) m := by
  have hentries : (m.entries.map fun e => (e.1, Json.string e.2)).mapM
      (fun e => (e.1, ·) <$> string e.2) = .ok (m.entries.map id) :=
    mapM_map_ok m.entries fun e _ => rfl
  refine reads_object ?_
  simp only [keyMap, hentries, List.map_id, map_ok, ofList_entries]

/-- A value that is kept is there as it was. -/
theorem reads_value (v : Json.Whole valueDepth) : Reads value v.json v := by
  constructor
  · rw [value, Json.Whole.of?_json]
  · exact v.present

/-! ## What was read -/

section Given

variable {read : Json → Except Fault α} {P : α → Prop}

theorem gives_nullable_of {j : Json} (h : Gives P (read j)) :
    Gives (fun o => ∀ a ∈ o, P a) (nullable read j) := by
  have hsome : Gives (fun o => ∀ a ∈ o, P a) (some <$> read j) := by
    refine gives_map h fun a ha => ?_
    intro b hb
    exact Option.some.inj hb ▸ ha
  cases j with
  | null =>
      apply gives_ok
      intro a ha
      cases ha
  | _ => exact hsome

theorem gives_nullable (h : ∀ j, Gives P (read j)) (j : Json) :
    Gives (fun o => ∀ a ∈ o, P a) (nullable read j) :=
  gives_nullable_of (h j)

theorem gives_list (h : ∀ j, Gives P (read j)) (j : Json) :
    Gives (fun l => ∀ a ∈ l, P a) (list read j) := by
  cases j with
  | array items => exact gives_mapM h items
  | _ => exact gives_error _

/-- An optional field that was read has what its reader ensures of the values under its key. -/
theorem gives_optional_of_mem (h : ∀ j ∈ valuesAt ms key, Gives P (read j)) :
    Gives (fun o => ∀ a ∈ o, P a) (optional ms key read) := by
  rw [optional_eq, lastOf]
  have hall : Gives (fun os => ∀ o ∈ os, ∀ a ∈ o, P a)
      ((valuesAt ms key).mapM (nullable read)) :=
    gives_mapM_of_mem fun j hj => gives_nullable_of (h j hj)
  refine gives_map (gives_map hall fun os hos => ?_)
    (fun o (ho : ∀ a, o = some (some a) → P a) => ?_)
  · intro a ha
    exact hos _ (List.mem_of_getLast? ha) a rfl
  · intro a ha
    exact ho a (Option.join_eq_some_iff.1 ha)

/-- An optional field that was read has what its reader ensures. -/
theorem gives_optional (h : ∀ j, Gives P (read j)) :
    Gives (fun o => ∀ a ∈ o, P a) (optional ms key read) :=
  gives_optional_of_mem fun j _ => h j

/-- So has a field that must not be there twice. -/
theorem gives_once (h : ∀ j, Gives P (read j)) :
    Gives (fun o => ∀ a ∈ o, P a) (once ms key read) := by
  rw [once_eq]
  cases valuesAt ms key with
  | nil =>
      apply gives_ok
      intro a ha
      cases ha
  | cons j js =>
      cases js with
      | nil =>
          refine gives_map (h j) fun a ha => ?_
          intro b hb
          exact Option.some.inj hb ▸ ha
      | cons _ _ => exact gives_error _

theorem gives_optionalOnce (h : ∀ j, Gives P (read j)) :
    Gives (fun o => ∀ a ∈ o, P a) (optionalOnce ms key read) := by
  refine gives_map (gives_once (gives_nullable h)) fun o ho => ?_
  intro a ha
  exact ho (some a) (Option.join_eq_some_iff.1 ha) a rfl

theorem gives_required {o : Option α} (h : ∀ a ∈ o, P a) : Gives P (required key o) := by
  cases o with
  | none => exact gives_error _
  | some a => exact gives_ok (h a rfl)

theorem gives_item {items : List Json} {place : Nat} {expected : String}
    (h : ∀ j, Gives P (read j)) : Gives P (item items place expected read) := by
  unfold item
  cases items[place]? with
  | none => exact gives_error _
  | some j => exact h j

end Given

end Document

end FleetLabels
