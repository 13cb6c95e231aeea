import FleetLabels.Proofs.InMemory
import FleetLabels.Proofs.Labels

/-!
# Key spaces of different policies

All that keeps policies out of each other's way is the spelling of their label keys. A key of a
policy is the name of the policy between two fixed texts, with anything behind them, and there is no
length in it or any quoting. This module says what can be read off such a key.

A marker ends in a fixed text too, so that it tells the name of its policy, whatever the name. Any
other key only tells it if the name has no slash: then the name ends at the first slash behind the
domain. Names that are the beginning of one another, names with dots and the empty name are told
apart by that slash alone. A cleanup that knows nothing of a policy but its name goes by these keys,
and therefore leaves those of all other policies as they are.

## Main results

* `Marker.owns_iff` — how the keys of a policy are spelled.
* `Marker.key_injective` — the marker tells the policy.
* `Marker.eq_of_owns` — so does every other key of a policy without a slash in its name.
* `keySpaces_disjoint` — all of this, and what it means for the labels of a node that is cleaned.
-/

namespace FleetLabels

namespace Marker

/-- The keys of a policy are those with its name between the domain and a slash. -/
theorem owns_iff {policy k : String} :
    owns policy k = true ↔ ∃ rest, k = "nlp.lento.dev." ++ policy ++ "/" ++ rest := by
  rw [owns, List.isPrefixOf_iff_prefix]
  constructor
  · rintro ⟨rest, hrest⟩
    refine ⟨String.ofList rest, String.toList_injective ?_⟩
    simpa [keySpace, domain] using hrest.symm
  · rintro ⟨rest, rfl⟩
    exact ⟨rest.toList, by simp [keySpace, domain]⟩

/-- What stands around the name in a marker can be taken off from both ends. -/
theorem key_injective : Function.Injective key := by
  intro p q h
  have hkeys : "nlp.lento.dev.".toList ++ (p.toList ++ "/managed-by".toList) =
      "nlp.lento.dev.".toList ++ (q.toList ++ "/managed-by".toList) := by
    simpa [key, keySpace, domain] using congrArg String.toList h
  have hnames : p.toList = q.toList := List.append_cancel_right (List.append_cancel_left hkeys)
  exact String.toList_injective hnames

end Marker

namespace Node

variable {policy k : String}

/-- Without declared labels, a cleanup takes away the key space of the policy and nothing else. -/
theorem get?_stripped_empty (n : Node) (policy k : String) :
    (n.stripped policy .empty).labels.get? k =
      if Marker.owns policy k = true then none else n.labels.get? k := by
  have hnone : k ∉ (KeyMap.empty : Labels).keys := List.not_mem_nil
  rw [get?_stripped]
  simp only [hnone, or_false]

theorem get?_stripped_empty_of_not_owns (n : Node) (h : Marker.owns policy k = false) :
    (n.stripped policy .empty).labels.get? k = n.labels.get? k := by
  rw [get?_stripped_empty, if_neg (Bool.eq_false_iff.1 h)]

/-- A node that is cleaned of one policy stays with another one whose marker is no key of the
first. -/
theorem isManagedBy_stripped_empty_of_not_owns (n : Node)
    (h : Marker.owns policy k = false) :
    (n.stripped policy .empty).isManagedBy k = n.isManagedBy k := by
  rw [isManagedBy, isManagedBy, n.get?_stripped_empty_of_not_owns h]

end Node

/-- Two policies without slashes in their names share no key. -/
theorem Marker.not_owns_of_owns {p q k : String} (hp : '/' ∉ p.toList) (hq : '/' ∉ q.toList)
    (hne : p ≠ q) (hk : owns q k = true) : owns p k = false :=
  Bool.eq_false_iff.2 fun hpk => hne (eq_of_owns hp hq hpk hk)

/-- **Key spaces do not overlap.** Policies of different names have different markers, each of them
among the keys of its policy. If the names have no slash, then no key belongs to both policies; and
a node that is cleaned of the one, of which no labels are declared, keeps every label under a key of
the other, and stays managed by it if it was. -/
theorem keySpaces_disjoint :
    (∀ p q, Marker.key p = Marker.key q → p = q) ∧
    (∀ p k, Marker.owns p k = true ↔ ∃ rest, k = "nlp.lento.dev." ++ p ++ "/" ++ rest) ∧
    (∀ p, Marker.owns p (Marker.key p) = true) ∧
    ∀ p q : String, '/' ∉ p.toList → '/' ∉ q.toList →
      (∀ k, Marker.owns p k = true → Marker.owns q k = true → p = q) ∧
      (p ≠ q → ∀ n : Node,
        (∀ k, Marker.owns q k = true →
          (n.stripped p .empty).labels.get? k = n.labels.get? k) ∧
        (n.stripped p .empty).isManagedBy (Marker.key q) = n.isManagedBy (Marker.key q)) := by
  refine ⟨fun p q h => Marker.key_injective h, fun p k => Marker.owns_iff, Marker.owns_key, ?_⟩
  intro p q hp hq
  refine ⟨fun k hpk hqk => Marker.eq_of_owns hp hq hpk hqk, fun hne n => ?_⟩
  have hapart : ∀ k, Marker.owns q k = true → Marker.owns p k = false := fun k hk =>
    Marker.not_owns_of_owns hp hq hne hk
  constructor
  · exact fun k hk => n.get?_stripped_empty_of_not_owns (hapart k hk)
  · exact n.isManagedBy_stripped_empty_of_not_owns (hapart _ (Marker.owns_key q))

/-- A node under policies of similar names: the name of the one begins with that of another, with a
dot behind it or a hyphen, or is empty. -/
def similarlyMarkedNode : Node :=
  .plain "a" "True"
    [(Marker.key "", "true"), (Marker.key "web", "true"), (Marker.keySpace "web" ++ "tier", "front"),
     (Marker.key "web-canary", "true"), (Marker.keySpace "web.eu" ++ "tier", "back")]

theorem keySpaces_disjoint_similarlyMarkedNode :
    let cleaned := similarlyMarkedNode.stripped "web" .empty
    cleaned.labels.get? (Marker.key "web") = none ∧
      cleaned.labels.get? (Marker.keySpace "web" ++ "tier") = none ∧
      cleaned.isManagedBy (Marker.key "") = true ∧
      cleaned.isManagedBy (Marker.key "web-canary") = true ∧
      cleaned.labels.get? (Marker.keySpace "web.eu" ++ "tier") = some "back" := by
  intro cleaned
  obtain ⟨-, -, -, hapart⟩ := keySpaces_disjoint
  have hempty := (hapart "web" "" (by decide) (by decide)).2 (by decide) similarlyMarkedNode
  have hcanary :=
    (hapart "web" "web-canary" (by decide) (by decide)).2 (by decide) similarlyMarkedNode
  have hdotted := (hapart "web" "web.eu" (by decide) (by decide)).2 (by decide) similarlyMarkedNode
  refine ⟨by decide +kernel, by decide +kernel, ?_, ?_, ?_⟩
  · exact hempty.2.trans (by decide +kernel)
  · exact hcanary.2.trans (by decide +kernel)
  · exact (hdotted.1 _ (by decide +kernel)).trans (by decide +kernel)

/-- With a slash in a name, the marker of one policy can be a key of another. -/
example : Marker.owns "web" (Marker.key "web/eu") = true := by decide +kernel

end FleetLabels
