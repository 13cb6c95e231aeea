import FleetLabels.Proofs.Documents.JsonText
import FleetLabels.Proofs.Documents.Readers

/-!
# Values that are kept as they are

Some fields hold a value of a format of its own, of which the reader asks only that it is whole. What
is kept of such a value has the members of its objects in order. So it is kept as it is when it is
written and read again, and a text denotes it if one denoted the value that was read.

## Main results

* `Json.whole?_of_whole?` — what was made whole is whole as it is.
* `Json.Whole.of?_eq_some_iff` — which values can be kept: all whole ones but `null`.
* `Json.isLegible_of_whole?` — what is kept of a value that a text denotes is such a value too.
-/

namespace FleetLabels

/-- A map has no entries but those of the list that it was made of. -/
theorem KeyMap.mem_of_mem_entries_ofList {α : Type} {l : List (String × α)} {e : String × α}
    (h : e ∈ (ofList l).entries) : e ∈ l := by
  have hfold (m : KeyMap α) (h : e ∈ (l.foldl (fun m e => m.insert e.1 e.2) m).entries) :
      e ∈ l ∨ e ∈ m.entries := by
    clear * - h
    induction l generalizing m with
    | nil => exact .inr h
    | cons d l ih =>
        rcases ih (m.insert d.1 d.2) h with hl | hm
        · exact .inl (List.mem_cons_of_mem d hl)
        · rcases Entries.mem_insert hm with rfl | hm
          · exact .inl List.mem_cons_self
          · exact .inr hm
  rcases hfold .empty h with hl | hempty
  · exact hl
  · cases hempty

namespace Json

theorem wholeItems?_self {depth : Nat} {items : List Json}
    (h : ∀ item ∈ items, item.whole? depth = some item) : wholeItems? depth items = some items := by
  induction items with
  | nil => rfl
  | cons item rest ih =>
      have hrest := ih fun item' h' => h item' (List.mem_cons_of_mem item h')
      rw [wholeItems?, h item List.mem_cons_self, hrest]
      rfl

theorem wholeMembers?_self {depth : Nat} {ms : List (String × Json)}
    (h : ∀ e ∈ ms, e.2.whole? depth = some e.2) : wholeMembers? depth ms = some ms := by
  induction ms with
  | nil => rfl
  | cons e rest ih =>
      have hrest := ih fun e' h' => h e' (List.mem_cons_of_mem e h')
      rw [wholeMembers?, h e List.mem_cons_self, hrest]
      rfl

mutual

/-- What was made whole is whole as it is. -/
theorem whole?_of_whole? : ∀ (depth : Nat) (j v : Json), j.whole? depth = some v →
    v.whole? depth = some v
  | depth, .array items, v, h => by
      rw [whole?] at h
      split at h
      next => cases h
      next hdepth =>
        obtain ⟨items', hitems, rfl⟩ := Option.map_eq_some_iff.1 h
        have hself := wholeItems?_self (whole?_of_wholeItems? (depth - 1) items items' hitems)
        rw [whole?, if_neg hdepth, hself]
        rfl
  | depth, .object members, v, h => by
      rw [whole?] at h
      split at h
      next => cases h
      next hdepth =>
        obtain ⟨ms, hms, rfl⟩ := Option.map_eq_some_iff.1 h
        have hall := whole?_of_wholeMembers? (depth - 1) members ms hms
        have hself := wholeMembers?_self fun e he => hall e (KeyMap.mem_of_mem_entries_ofList he)
        rw [ofMembers, whole?, if_neg hdepth, hself]
        exact congrArg (some ∘ Json.object ∘ KeyMap.entries) (Document.ofList_entries _)
  | _, .verbatim _, _, h => nomatch h
  | _, .null, _, h => Option.some.inj h ▸ rfl
  | _, .bool _, _, h => Option.some.inj h ▸ rfl
  | _, .int _, _, h => Option.some.inj h ▸ rfl
  | _, .real _, _, h => Option.some.inj h ▸ rfl
  | _, .string _, _, h => Option.some.inj h ▸ rfl

theorem whole?_of_wholeItems? : ∀ (depth : Nat) (items items' : List Json),
    wholeItems? depth items = some items' → ∀ item ∈ items', item.whole? depth = some item
  | _, [], _, h => by
      obtain rfl := Option.some.inj h
      simp
  | depth, item :: rest, _, h => by
      simp only [wholeItems?, Option.bind_eq_bind, Option.bind_eq_some_iff] at h
      obtain ⟨v, hv, vs, hvs, heq⟩ := h
      obtain rfl := Option.some.inj heq
      exact List.forall_mem_cons.2
        ⟨whole?_of_whole? depth item v hv, whole?_of_wholeItems? depth rest vs hvs⟩

theorem whole?_of_wholeMembers? : ∀ (depth : Nat) (ms ms' : List (String × Json)),
    wholeMembers? depth ms = some ms' → ∀ e ∈ ms', e.2.whole? depth = some e.2
  | _, [], _, h => by
      obtain rfl := Option.some.inj h
      simp
  | depth, (key, value) :: rest, _, h => by
      simp only [wholeMembers?, Option.bind_eq_bind, Option.bind_eq_some_iff] at h
      obtain ⟨v, hv, vs, hvs, heq⟩ := h
      obtain rfl := Option.some.inj heq
      exact List.forall_mem_cons.2
        ⟨whole?_of_whole? depth value v hv, whole?_of_wholeMembers? depth rest vs hvs⟩

end

/-- The values that can be kept are the whole ones, without `null`. -/
theorem Whole.of?_eq_some_iff {depth : Nat} {j : Json} {v : Whole depth} :
    of? depth j = some v ↔ j.whole? depth = some v.json := by
  constructor
  · intro h
    obtain ⟨w, hw, htest⟩ := Option.bind_eq_some_iff.1 h
    split at htest
    next => exact Option.some.inj htest ▸ hw
    next => cases htest
  · intro h
    have htest : v.json.whole? depth = some v.json ∧ v.json ≠ .null :=
      ⟨whole?_of_whole? depth j v.json h, v.present⟩
    rw [of?, h]
    exact dif_pos htest

mutual

/-- What is kept of a value that a text denotes is such a value too. -/
theorem isLegible_of_whole? : ∀ (depth : Nat) (j v : Json), j.isLegible = true →
    j.whole? depth = some v → v.isLegible = true
  | depth, .array items, v, hj, h => by
      rw [whole?] at h
      split at h
      next => cases h
      next =>
        obtain ⟨items', hitems, rfl⟩ := Option.map_eq_some_iff.1 h
        exact itemsLegible_of_wholeItems? (depth - 1) items items' hj hitems
  | depth, .object members, v, hj, h => by
      rw [whole?] at h
      split at h
      next => cases h
      next =>
        obtain ⟨ms, hms, rfl⟩ := Option.map_eq_some_iff.1 h
        have hall := (membersLegible_iff ms).1
          (membersLegible_of_wholeMembers? (depth - 1) members ms hj hms)
        exact (membersLegible_iff _).2 fun e he => hall e (KeyMap.mem_of_mem_entries_ofList he)
  | _, .verbatim _, _, hj, _ => nomatch hj
  | _, .null, _, hj, h => Option.some.inj h ▸ hj
  | _, .bool _, _, hj, h => Option.some.inj h ▸ hj
  | _, .int _, _, hj, h => Option.some.inj h ▸ hj
  | _, .real _, _, hj, h => Option.some.inj h ▸ hj
  | _, .string _, _, hj, h => Option.some.inj h ▸ hj

theorem itemsLegible_of_wholeItems? : ∀ (depth : Nat) (items items' : List Json),
    itemsLegible items = true → wholeItems? depth items = some items' → itemsLegible items' = true
  | _, [], _, _, h => Option.some.inj h ▸ rfl
  | depth, item :: rest, _, hitems, h => by
      rw [itemsLegible, Bool.and_eq_true] at hitems
      simp only [wholeItems?, Option.bind_eq_bind, Option.bind_eq_some_iff] at h
      obtain ⟨v, hv, vs, hvs, heq⟩ := h
      obtain rfl := Option.some.inj heq
      rw [itemsLegible, isLegible_of_whole? depth item v hitems.1 hv,
        itemsLegible_of_wholeItems? depth rest vs hitems.2 hvs]
      rfl

theorem membersLegible_of_wholeMembers? : ∀ (depth : Nat) (ms ms' : List (String × Json)),
    membersLegible ms = true → wholeMembers? depth ms = some ms' → membersLegible ms' = true
  | _, [], _, _, h => Option.some.inj h ▸ rfl
  | depth, (key, value) :: rest, _, hms, h => by
      rw [membersLegible, Bool.and_eq_true] at hms
      simp only [wholeMembers?, Option.bind_eq_bind, Option.bind_eq_some_iff] at h
      obtain ⟨v, hv, vs, hvs, heq⟩ := h
      obtain rfl := Option.some.inj heq
      rw [membersLegible, isLegible_of_whole? depth value v hms.1 hv,
        membersLegible_of_wholeMembers? depth rest vs hms.2 hvs]
      rfl

end

end Json

end FleetLabels
