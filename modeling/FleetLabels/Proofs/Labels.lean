import FleetLabels.Labeling

/-!
# Labels of one node, key by key

`Labeling` says how the labels of a node are changed when it joins a selection, leaves it, or is
cleaned. This module says what stands under each key afterwards, which is the form that every
statement about a fleet needs: no later proof opens the merge loop, the key removals or the prefix
filter again.

A node that joins is not written when it has every label already, so `Node.joined?` may answer with
no node. `Node.joined` is the node that the fleet holds afterwards in either case.

## Main results

* `Node.get?_joined`, `Node.get?_left`, `Node.get?_stripped` — the value of a key after joining,
  after leaving, and after a cleanup.
* `Node.isManagedBy_joined`, `Node.isManagedBy_left`, `Node.isManagedBy_stripped` — a node carries
  the marker after joining, and neither after leaving nor after a cleanup.
* `Node.joined?_eq_none_iff` — when a node that joins is not written.
* `Node.labels_left`, `Node.labels_stripped` — the labels after leaving and after a cleanup, as what
  is left of the labels before.
* `Node.get?_joined_of_not_owned` and its two companions — none of the three touches a key that the
  policy does not own; `Node.bare_joined` and its companions — nor anything but labels.
* `Node.ext_parts` — when two nodes are the same.
-/

namespace FleetLabels

/-! ## Maps -/

namespace KeyMap

variable {α : Type}

theorem mem_keys_iff (m : KeyMap α) (k : String) : k ∈ m.keys ↔ ∃ v, m.get? k = some v := by
  unfold keys get?
  induction m.entries with
  | nil => simp
  | cons e rest ih =>
      obtain ⟨key, value⟩ := e
      rw [Entries.lookup_cons, List.map_cons, List.mem_cons, ih]
      by_cases hk : k = key
      · simp [hk]
      · simp [hk]

theorem get?_eq_none_of_notMem {m : KeyMap α} {k : String} (h : k ∉ m.keys) : m.get? k = none := by
  cases hv : m.get? k with
  | none => rfl
  | some v => exact absurd ((m.mem_keys_iff k).2 ⟨v, hv⟩) h

/-- Binding a key to the value that it has changes nothing. -/
theorem insert_of_get?_eq {m : KeyMap α} {k : String} {v : α} (h : m.get? k = some v) :
    m.insert k v = m := by
  refine ext_get? fun k' => ?_
  rw [get?_insert]
  by_cases hk : k' = k
  · rw [if_pos hk, hk, h]
  · rw [if_neg hk]

theorem get?_of_mem_entries {m : KeyMap α} {e : String × α} (h : e ∈ m.entries) :
    m.get? e.1 = some e.2 := by
  obtain ⟨l, hl⟩ := m
  show l.lookup e.1 = some e.2
  induction l with
  | nil => cases h
  | cons hd rest ih =>
      obtain ⟨key, value⟩ := hd
      obtain ⟨hkey, hrest⟩ := List.pairwise_cons.1 hl
      rw [Entries.lookup_cons]
      rcases List.mem_cons.1 h with rfl | h
      · exact if_pos rfl
      · have hne : e.1 ≠ key := fun heq => String.lt_irrefl _ (heq ▸ hkey e h)
        rw [if_neg hne]
        exact ih hrest h

/-- Ascending entries bound one after the other: they win over what the map held before. -/
theorem get?_foldl_insert {l : List (String × α)} (h : Entries.Ascending l) (m : KeyMap α)
    (k : String) :
    (l.foldl (fun m e => m.insert e.1 e.2) m).get? k = (l.lookup k).or (m.get? k) := by
  induction l generalizing m with
  | nil => rfl
  | cons e rest ih =>
      obtain ⟨key, value⟩ := e
      obtain ⟨hkey, hrest⟩ := List.pairwise_cons.1 h
      rw [List.foldl_cons, ih hrest, get?_insert, Entries.lookup_cons]
      by_cases hk : k = key
      · subst hk
        rw [Entries.lookup_eq_none hkey]
        simp
      · simp [hk]

end KeyMap

/-- The labels but for those under some keys. -/
def Labels.minus (labels : Labels) (gone : String → Prop) [DecidablePred gone] : Labels :=
  labels.filterKeys fun k => !decide (gone k)

namespace Labels

variable (labels : Labels) (gone : String → Prop) [DecidablePred gone]

theorem get?_minus (k : String) :
    (labels.minus gone).get? k = if gone k then none else labels.get? k := by
  rw [minus, KeyMap.get?_filterKeys]
  by_cases hk : gone k <;> simp [hk]

theorem mem_keys_minus {k : String} : k ∈ (labels.minus gone).keys ↔ ¬gone k ∧ k ∈ labels.keys := by
  rw [KeyMap.mem_keys_iff, get?_minus, KeyMap.mem_keys_iff]
  by_cases hk : gone k <;> simp [hk]

theorem minus_eq_self (h : ∀ k ∈ labels.keys, ¬gone k) : labels.minus gone = labels := by
  refine KeyMap.ext_get? fun k => ?_
  rw [get?_minus]
  by_cases hk : gone k
  · rw [if_pos hk, KeyMap.get?_eq_none_of_notMem fun hmem => h k hmem hk]
  · rw [if_neg hk]

end Labels

/-! ## The merge loop -/

/-- The loop sets the wanted values one after the other. It reports no change only if it left the
map as it was. -/
private theorem merge_loop (wanted : List (String × String)) (m : Labels) (changed : Bool) :
    let merged := wanted.foldl
      (fun (m, changed) (k, v) => if m.get? k = some v then (m, changed) else (m.insert k v, true))
      (m, changed)
    merged.1 = wanted.foldl (fun m e => m.insert e.1 e.2) m ∧
      (merged.2 = false → changed = false ∧ merged.1 = m) := by
  induction wanted generalizing m changed with
  | nil => exact ⟨rfl, fun h => ⟨h, rfl⟩⟩
  | cons e rest ih =>
      obtain ⟨k, v⟩ := e
      simp only [List.foldl_cons]
      by_cases h : m.get? k = some v
      · rw [if_pos h, KeyMap.insert_of_get?_eq h]
        exact ih m changed
      · rw [if_neg h]
        obtain ⟨hmap, hflag⟩ := ih (m.insert k v) true
        exact ⟨hmap, fun hfalse => absurd (hflag hfalse).1 (by decide)⟩

/-- The loop reports no change exactly if every wanted value was there from the start. -/
private theorem merge_loop_unchanged_iff (wanted : List (String × String)) (m : Labels)
    (changed : Bool) :
    (wanted.foldl
      (fun (m, changed) (k, v) => if m.get? k = some v then (m, changed) else (m.insert k v, true))
      (m, changed)).2 = false ↔ changed = false ∧ ∀ e ∈ wanted, m.get? e.1 = some e.2 := by
  induction wanted generalizing m changed with
  | nil => simp
  | cons e rest ih =>
      obtain ⟨k, v⟩ := e
      simp only [List.foldl_cons, List.forall_mem_cons]
      by_cases h : m.get? k = some v
      · simp only [h, if_true, ih, true_and]
      · simp only [h, if_false, ih, false_and, and_false, Bool.true_eq_false]

theorem Labels.merge_snd_eq_false_iff {labels : Labels} {wanted : List (String × String)} :
    (labels.merge wanted).2 = false ↔ ∀ e ∈ wanted, labels.get? e.1 = some e.2 := by
  rw [merge, merge_loop_unchanged_iff]
  exact and_iff_right rfl

theorem Labels.merge_fst (labels : Labels) (wanted : List (String × String)) :
    (labels.merge wanted).1 = wanted.foldl (fun m e => m.insert e.1 e.2) labels :=
  (merge_loop wanted labels false).1

theorem Labels.merge_fst_of_unchanged {labels : Labels} {wanted : List (String × String)}
    (h : (labels.merge wanted).2 = false) : (labels.merge wanted).1 = labels :=
  ((merge_loop wanted labels false).2 h).2

/-- The marker comes last, so it wins over a declared label under its own key. -/
theorem Labels.get?_merge_wantedLabels (labels declared : Labels) (marker k : String) :
    (labels.merge (wantedLabels declared marker)).1.get? k =
      if k = marker then some Marker.value else (declared.get? k).or (labels.get? k) := by
  rw [merge_fst, wantedLabels, List.foldl_append, List.foldl_cons, List.foldl_nil,
    KeyMap.get?_insert, KeyMap.get?_foldl_insert declared.ascending]
  rfl

/-! ## Joining, leaving, cleaning -/

namespace Node

/-- The node as the fleet holds it after it joined the selection. -/
def joined (n : Node) (declared : Labels) (marker : String) : Node :=
  (n.joined? declared marker).getD n

theorem joined?_cases (n : Node) (declared : Labels) (marker : String) :
    n.joined? declared marker =
        some (n.withLabels (n.labels.merge (wantedLabels declared marker)).1) ∨
      n.joined? declared marker = none ∧
        (n.labels.merge (wantedLabels declared marker)).1 = n.labels := by
  unfold joined?
  cases hchanged : (n.labels.merge (wantedLabels declared marker)).2 with
  | true => left; simp [hchanged]
  | false => right; exact ⟨by simp [hchanged], Labels.merge_fst_of_unchanged hchanged⟩

/-- A node is not written exactly if it carries everything that is wanted. -/
theorem joined?_eq_none_iff {n : Node} {declared : Labels} {marker : String} :
    n.joined? declared marker = none ↔
      ∀ e ∈ wantedLabels declared marker, n.labels.get? e.1 = some e.2 := by
  rw [← Labels.merge_snd_eq_false_iff]
  unfold joined?
  cases hchanged : (n.labels.merge (wantedLabels declared marker)).2 <;> simp [hchanged]

theorem labels_joined (n : Node) (declared : Labels) (marker : String) :
    (n.joined declared marker).labels = (n.labels.merge (wantedLabels declared marker)).1 := by
  rcases n.joined?_cases declared marker with h | ⟨h, hsame⟩
  · rw [joined, h, Option.getD_some, labels_withLabels]
  · rw [joined, h, Option.getD_none, hsame]

theorem get?_joined (n : Node) (declared : Labels) (marker k : String) :
    (n.joined declared marker).labels.get? k =
      if k = marker then some Marker.value else (declared.get? k).or (n.labels.get? k) := by
  rw [labels_joined, Labels.get?_merge_wantedLabels]

theorem get?_left (n : Node) (declared : Labels) (marker k : String) :
    (n.left declared marker).labels.get? k =
      if k = marker ∨ k ∈ declared.keys then none else n.labels.get? k := by
  rw [left, labels_withLabels, KeyMap.get?_eraseAll, KeyMap.get?_erase]
  by_cases hm : k = marker <;> by_cases hd : k ∈ declared.keys <;> simp [hm, hd]

theorem get?_stripped (n : Node) (policy : String) (declared : Labels) (k : String) :
    (n.stripped policy declared).labels.get? k =
      if Marker.owns policy k ∨ k ∈ declared.keys then none else n.labels.get? k := by
  rw [stripped, labels_withLabels, KeyMap.get?_eraseAll, KeyMap.get?_filterKeys]
  by_cases ho : Marker.owns policy k = true <;> by_cases hd : k ∈ declared.keys <;> simp [ho, hd]

end Node

/-! ## Who carries the marker -/

namespace Node

theorem isManagedBy_iff (n : Node) (marker : String) :
    n.isManagedBy marker = true ↔ n.labels.get? marker = some Marker.value := by
  rw [isManagedBy, beq_iff_eq]

@[simp] theorem isManagedBy_joined (n : Node) (declared : Labels) (marker : String) :
    (n.joined declared marker).isManagedBy marker = true := by
  rw [isManagedBy_iff, get?_joined, if_pos rfl]

@[simp] theorem isManagedBy_left (n : Node) (declared : Labels) (marker : String) :
    (n.left declared marker).isManagedBy marker = false := by
  rw [isManagedBy, get?_left, if_pos (Or.inl rfl)]
  rfl

/-- The marker lies under the prefix that a cleanup takes away. -/
@[simp] theorem isManagedBy_stripped (n : Node) (policy : String) (declared : Labels) :
    (n.stripped policy declared).isManagedBy (Marker.key policy) = false := by
  rw [isManagedBy, get?_stripped, if_pos (Or.inl (Marker.owns_key policy))]
  rfl

end Node

/-! ## What is left alone -/

/-- The keys that a policy may write: those under its prefix and those that it declares. -/
def Owned (policy : String) (declared : Labels) (k : String) : Prop :=
  Marker.owns policy k = true ∨ k ∈ declared.keys

instance (policy : String) (declared : Labels) (k : String) :
    Decidable (Owned policy declared k) := inferInstanceAs (Decidable (_ ∨ _))

theorem owned_key (policy : String) (declared : Labels) :
    Owned policy declared (Marker.key policy) := .inl (Marker.owns_key policy)

/-- Without slashes in their names, two policies have no key space in common. -/
theorem Marker.eq_of_owns {p q k : String} (hp : '/' ∉ p.toList) (hq : '/' ∉ q.toList)
    (hpk : owns p k = true) (hqk : owns q k = true) : p = q := by
  obtain ⟨r, hr⟩ := List.isPrefixOf_iff_prefix.1 hpk
  obtain ⟨r', hr'⟩ := List.isPrefixOf_iff_prefix.1 hqk
  have hkey : p.toList ++ '/' :: r = q.toList ++ '/' :: r' := by
    have h : (keySpace p).toList ++ r = (keySpace q).toList ++ r' := hr.trans hr'.symm
    simpa [keySpace] using h
  -- A name is what stands before the first slash.
  have hname : ∀ {name rest : List Char}, '/' ∉ name →
      (name ++ '/' :: rest).takeWhile (· != '/') = name := by
    intro name rest hslash
    have hall : ∀ c ∈ name, (c != '/') = true := by
      intro c hc
      exact bne_iff_ne.2 fun heq => hslash (heq ▸ hc)
    rw [List.takeWhile_append_of_pos hall]
    simp
  rw [String.ext_iff, ← hname hp, hkey, hname hq]

/-- Two policies without slashes in their names own no key in common, if neither declares a key of
the other. -/
theorem not_owned_of_owned {p q : String} {declared declared' : Labels} (hp : '/' ∉ p.toList)
    (hq : '/' ∉ q.toList) (hne : p ≠ q) (hpq : ∀ k ∈ declared.keys, ¬Owned q declared' k)
    (hqp : ∀ k ∈ declared'.keys, ¬Owned p declared k) {k : String} (hk : Owned p declared k) :
    ¬Owned q declared' k := by
  intro hk'
  rcases hk with hpk | hdeclared
  · rcases hk' with hqk | hdeclared'
    · exact hne (Marker.eq_of_owns hp hq hpk hqk)
    · exact hqp k hdeclared' (.inl hpk)
  · exact hpq k hdeclared hk'

namespace Node

theorem labels_left (n : Node) (declared : Labels) (marker : String) :
    (n.left declared marker).labels =
      n.labels.minus fun k => k = marker ∨ k ∈ declared.keys := by
  refine KeyMap.ext_get? fun k => ?_
  rw [get?_left, Labels.get?_minus]

theorem labels_stripped (n : Node) (policy : String) (declared : Labels) :
    (n.stripped policy declared).labels = n.labels.minus (Owned policy declared) := by
  refine KeyMap.ext_get? fun k => ?_
  rw [Labels.get?_minus]
  exact n.get?_stripped policy declared k

/-- A node without its labels: the part of it that labeling never changes. -/
def bare (n : Node) : Node := n.withLabels .empty

@[simp] theorem bare_withLabels (n : Node) (l : Labels) : (n.withLabels l).bare = n.bare := rfl

@[simp] theorem bare_left (n : Node) (declared : Labels) (marker : String) :
    (n.left declared marker).bare = n.bare := rfl

@[simp] theorem bare_stripped (n : Node) (policy : String) (declared : Labels) :
    (n.stripped policy declared).bare = n.bare := rfl

theorem bare_of_joined?_eq_some {n n' : Node} {declared : Labels} {marker : String}
    (h : n.joined? declared marker = some n') : n'.bare = n.bare := by
  rcases n.joined?_cases declared marker with hsome | ⟨hnone, -⟩
  · rw [hsome] at h
    rw [← Option.some.inj h, bare_withLabels]
  · rw [hnone] at h
    cases h

@[simp] theorem bare_joined (n : Node) (declared : Labels) (marker : String) :
    (n.joined declared marker).bare = n.bare := by
  cases h : n.joined? declared marker with
  | none => rw [joined, h, Option.getD_none]
  | some n' => rw [joined, h, Option.getD_some, bare_of_joined?_eq_some h]

theorem name_eq_of_bare_eq {n n' : Node} (h : n'.bare = n.bare) : n'.name = n.name := by
  show n'.bare.name = n.bare.name
  rw [h]

@[simp] theorem name_joined (n : Node) (declared : Labels) (marker : String) :
    (n.joined declared marker).name = n.name :=
  name_eq_of_bare_eq (n.bare_joined declared marker)

@[simp] theorem name_left (n : Node) (declared : Labels) (marker : String) :
    (n.left declared marker).name = n.name := rfl

@[simp] theorem name_stripped (n : Node) (policy : String) (declared : Labels) :
    (n.stripped policy declared).name = n.name := rfl

theorem get?_joined_of_not_owned {policy k : String} {declared : Labels}
    (h : ¬Owned policy declared k) (n : Node) :
    (n.joined declared (Marker.key policy)).labels.get? k = n.labels.get? k := by
  have hkey : k ≠ Marker.key policy := fun hk => h (hk ▸ owned_key policy declared)
  have hdeclared : declared.get? k = none := KeyMap.get?_eq_none_of_notMem fun hk => h (.inr hk)
  rw [get?_joined, if_neg hkey, hdeclared]
  rfl

theorem get?_left_of_not_owned {policy k : String} {declared : Labels}
    (h : ¬Owned policy declared k) (n : Node) :
    (n.left declared (Marker.key policy)).labels.get? k = n.labels.get? k := by
  rw [get?_left, if_neg]
  rintro (hk | hk)
  · exact h (hk ▸ owned_key policy declared)
  · exact h (.inr hk)

theorem get?_stripped_of_not_owned {policy k : String} {declared : Labels}
    (h : ¬Owned policy declared k) (n : Node) :
    (n.stripped policy declared).labels.get? k = n.labels.get? k := by
  rw [get?_stripped]
  exact if_neg h

/-! ## A node by its parts -/

/-- Whether a node has labels at all; having none left is a different thing. -/
def isLabeled (n : Node) : Bool := n.metadata.labels.isSome

theorem isLabeled_of_get? {n : Node} {k v : String} (h : n.labels.get? k = some v) :
    n.isLabeled = true := by
  unfold isLabeled
  cases hlabels : n.metadata.labels with
  | none =>
      rw [labels, Metadata.labelMap, hlabels] at h
      cases h
  | some l => rfl

/-- A node is told by its bare part, by the value under each key, and by whether there are labels. -/
theorem ext_parts {n n' : Node} (hbare : n.bare = n'.bare) (hlabeled : n.isLabeled = n'.isLabeled)
    (hlabels : ∀ k, n.labels.get? k = n'.labels.get? k) : n = n' := by
  have hmap : n.labels = n'.labels := KeyMap.ext_get? hlabels
  have hentry : n.metadata.labels = n'.metadata.labels := by
    unfold isLabeled at hlabeled
    unfold labels Metadata.labelMap at hmap
    cases hn : n.metadata.labels <;> cases hn' : n'.metadata.labels <;> simp_all
  have hrestore : ∀ m : Node, m =
      { m.bare with metadata := { m.bare.metadata with labels := m.metadata.labels } } :=
    fun _ => rfl
  rw [hrestore n, hrestore n', hbare, hentry]

/-- A node that joins has the marker at least. -/
theorem isLabeled_joined (n : Node) (declared : Labels) (marker : String) :
    (n.joined declared marker).isLabeled = true :=
  isLabeled_of_get? ((isManagedBy_iff ..).1 (n.isManagedBy_joined declared marker))

theorem isLabeled_of_isManagedBy {n : Node} {marker : String} (h : n.isManagedBy marker = true) :
    n.isLabeled = true := isLabeled_of_get? ((n.isManagedBy_iff marker).1 h)

end Node

end FleetLabels
