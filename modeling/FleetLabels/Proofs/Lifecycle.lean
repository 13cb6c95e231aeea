import FleetLabels.Fleet.Basic

/-!
# The lifecycle of a policy

Which state a look-up shows, and what a pass does to a record: `track` puts the finalizer on,
`release` takes it off, and neither touches anything else.

## Main results

* `Policy.State.of_eq_iff` — the state that a look-up shows is the only one that fits what it found.
* `Policy.hasFinalizer_track`, `Policy.hasFinalizer_release` — the finalizer after either change.
* `Fleet.get?_storePolicy` — what stands under each name after a record has been stored.
-/

namespace FleetLabels

namespace Policy

/-- The state fits what a look-up found. -/
def State.Fits (found : Option Policy) : State → Prop
  | .gone => found = none
  | .terminating p => found = some p ∧ p.isDeleting = true
  | .tracked p => found = some p ∧ p.isDeleting = false ∧ p.hasFinalizer = true
  | .untracked p => found = some p ∧ p.isDeleting = false ∧ p.hasFinalizer = false

theorem State.fits_of (found : Option Policy) : (State.of found).Fits found := by
  cases found with
  | none => rfl
  | some p =>
      simp only [State.of]
      cases hdeleting : p.isDeleting with
      | true => exact ⟨rfl, hdeleting⟩
      | false =>
          cases hfinalizer : p.hasFinalizer with
          | true => exact ⟨rfl, hdeleting, hfinalizer⟩
          | false => exact ⟨rfl, hdeleting, hfinalizer⟩

theorem State.of_eq_iff {found : Option Policy} {state : State} :
    State.of found = state ↔ state.Fits found := by
  constructor
  · rintro rfl
    exact State.fits_of found
  · intro hfits
    cases state with
    | gone =>
        rw [show found = none from hfits]
        rfl
    | terminating p =>
        obtain ⟨rfl, hdeleting⟩ := hfits
        exact if_pos hdeleting
    | tracked p =>
        obtain ⟨rfl, hlive, hfinalizer⟩ := hfits
        simp only [State.of, hlive, hfinalizer]
        rfl
    | untracked p =>
        obtain ⟨rfl, hlive, hfinalizer⟩ := hfits
        simp only [State.of, hlive, hfinalizer]
        rfl

section Finalizers

variable (p : Policy)

@[simp] theorem name_release : p.release.name = p.name := rfl

@[simp] theorem isDeleting_release : p.release.isDeleting = p.isDeleting := rfl

theorem hasFinalizer_iff : p.hasFinalizer = true ↔ finalizer ∈ p.finalizers := by
  rw [hasFinalizer, List.contains_iff_mem]

@[simp] theorem hasFinalizer_track : p.track.hasFinalizer = true :=
  p.track.hasFinalizer_iff.2 (List.mem_append_right _ (List.mem_singleton_self _))

theorem hasFinalizer_release : p.release.hasFinalizer = false := by
  refine eq_false_of_ne_true fun h => ?_
  have hmem : finalizer ∈ p.finalizers.filter (· != finalizer) := p.release.hasFinalizer_iff.1 h
  exact bne_iff_ne.1 (List.mem_filter.1 hmem).2 rfl

end Finalizers

end Policy

/-- A record is stored under its name, unless it is under deletion and free of finalizers. -/
theorem Fleet.get?_storePolicy (policies : KeyMap Policy) (p : Policy) (name : String) :
    (storePolicy policies p).get? name =
      if name = p.name then
        (if p.isDeleting && p.finalizers.isEmpty then none else some p)
      else policies.get? name := by
  unfold storePolicy
  split
  · rw [KeyMap.get?_erase]
  · rw [KeyMap.get?_insert]

end FleetLabels
