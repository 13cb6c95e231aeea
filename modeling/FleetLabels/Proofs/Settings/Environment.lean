import FleetLabels.Proofs.Documents.Readers
import FleetLabels.Proofs.Settings.Values
import FleetLabels.Proofs.Text.Utf8
import FleetLabels.Settings.Basic
import Mathlib.Algebra.Group.Nat.Defs

/-!
# Settings of an environment

`Settings.load` reads three variables. This module says which environments it accepts and what the
settings are then: a delay is that of its variable or, if the variable holds no text, its default; a
variable that holds a text which is no delay is refused, the first of two by name; and the log level
never is, whatever its variable holds.

## Main results

* `Settings.secondsOr_eq_ok_iff`, `Settings.refused_of_secondsOr` — one delay.
* `Settings.logLevelOf_eq_iff` — the log level.
* `Settings.load_eq_ok_iff` — the settings that are loaded.
* `Settings.loads_valid_environments` — the whole of it, with the errors.
-/

namespace FleetLabels

/-! ## Variables -/

/-- A variable holds a text. One that is not set holds none, and neither does one with bytes that
are not UTF-8. -/
def Environment.Holds (env : Environment) (name value : String) : Prop :=
  ∃ raw, env.get? name = some raw ∧ raw.Spells value

theorem Environment.text?_eq_some_iff {env : Environment} {name value : String} :
    env.text? name = some value ↔ env.Holds name value := by
  unfold Environment.text? Environment.Holds
  cases env.get? name with
  | none => simp
  | some raw =>
      simp only [Option.some.injEq, exists_eq_left', ← Text.Raw.read_eq_ok_iff]
      cases raw.read <;> simp [Except.toOption]

theorem Environment.text?_eq_none_iff {env : Environment} {name : String} :
    env.text? name = none ↔ ∀ value, ¬ env.Holds name value := by
  simp only [← text?_eq_some_iff, Option.eq_none_iff_forall_ne_some, ne_eq]

/-- A variable holds one text. -/
theorem Environment.Holds.unique {env : Environment} {name v₁ v₂ : String}
    (h₁ : env.Holds name v₁) (h₂ : env.Holds name v₂) : v₁ = v₂ :=
  Option.some.inj ((text?_eq_some_iff.2 h₁).symm.trans (text?_eq_some_iff.2 h₂))

namespace Settings

variable {env : Environment} {key name value : String} {default n : Nat}

/-! ## Delays -/

/-- The seconds that a text denotes. -/
def Seconds (value : String) (n : Nat) : Prop :=
  ∃ core, Text.Trims value.toList core ∧ Unsigned.Denotes core n

/-- The delay that an environment asks for. -/
inductive Delay (env : Environment) (name : String) (default : Nat) : Nat → Prop
  | unset (unset : ∀ value, ¬ env.Holds name value) : Delay env name default default
  | given {value : String} {n : Nat} (holds : env.Holds name value) (seconds : Seconds value n)
      (positive : 1 ≤ n) (fits : n ≤ 2 ^ 64 - 1) : Delay env name default n

/-- The wording with which a variable that is no delay is refused. -/
inductive Refused (env : Environment) (name : String) : String → Prop
  | zero {value : String} (holds : env.Holds name value) (zero : Seconds value 0) :
      Refused env name (name ++ " must be greater than zero")
  | notSeconds {value : String} (holds : env.Holds name value)
      (none : ∀ n ≤ 2 ^ 64 - 1, ¬ Seconds value n) :
      Refused env name (name ++ " must be a whole number of seconds, got '" ++ value ++ "'")

theorem parse_trimmed_eq_ok_iff :
    Unsigned.parse maxSeconds (Text.trimmed value.toList) = .ok n ↔
      Seconds value n ∧ n ≤ 2 ^ 64 - 1 := by
  rw [Unsigned.parse_eq_ok_iff]
  constructor
  · rintro ⟨hdenotes, hn⟩
    exact ⟨⟨_, Text.trims_trimmed value.toList, hdenotes⟩, hn⟩
  · rintro ⟨⟨core, hcore, hdenotes⟩, hn⟩
    exact ⟨hcore.trimmed_eq ▸ hdenotes, hn⟩

theorem seconds_eq_ok_iff :
    seconds key value = .ok n ↔ Seconds value n ∧ 1 ≤ n ∧ n ≤ 2 ^ 64 - 1 := by
  have hparse : seconds key value = .ok n ↔
      Unsigned.parse maxSeconds (Text.trimmed value.toList) = .ok n ∧ 1 ≤ n := by
    unfold seconds
    cases Unsigned.parse maxSeconds (Text.trimmed value.toList) with
    | error fault => simp
    | ok m =>
        by_cases hm : m = 0
        · simp only [if_pos hm, reduceCtorEq, Except.ok.injEq, false_iff, not_and]
          omega
        · simp only [if_neg hm, Except.ok.injEq]
          omega
  rw [hparse, parse_trimmed_eq_ok_iff, and_assoc, and_comm (a := n ≤ 2 ^ 64 - 1)]

/-- A value that is no delay is zero, or no number that fits. -/
theorem refused_of_seconds {e : SettingsError} (h : env.Holds key value)
    (he : seconds key value = .error e) : Refused env key e.message := by
  unfold seconds at he
  cases hparse : Unsigned.parse maxSeconds (Text.trimmed value.toList) with
  | ok m =>
      rw [hparse] at he
      dsimp only at he
      by_cases hm : m = 0
      · rw [if_pos hm] at he
        cases he
        exact .zero h (hm ▸ (parse_trimmed_eq_ok_iff.1 hparse).1)
      · rw [if_neg hm] at he
        cases he
  | error fault =>
      rw [hparse] at he
      cases he
      refine .notSeconds h fun n hn hseconds => ?_
      have hok := parse_trimmed_eq_ok_iff.2 ⟨hseconds, hn⟩
      rw [hparse] at hok
      cases hok

theorem secondsOr_eq_ok_iff : secondsOr env key default = .ok n ↔ Delay env key default n := by
  unfold secondsOr
  cases htext : env.text? key with
  | none =>
      have hunset := Environment.text?_eq_none_iff.1 htext
      constructor
      · rintro ⟨⟩
        exact .unset hunset
      · rintro (_ | ⟨holds, _, _, _⟩)
        · rfl
        · exact absurd holds (hunset _)
  | some value =>
      have hholds := Environment.text?_eq_some_iff.1 htext
      dsimp only
      rw [seconds_eq_ok_iff]
      constructor
      · rintro ⟨hseconds, hpositive, hfits⟩
        exact .given hholds hseconds hpositive hfits
      · rintro (hunset | ⟨holds, hseconds, hpositive, hfits⟩)
        · exact absurd hholds (hunset value)
        · exact ⟨hholds.unique holds ▸ hseconds, hpositive, hfits⟩

theorem refused_of_secondsOr {e : SettingsError} (he : secondsOr env key default = .error e) :
    Refused env key e.message := by
  unfold secondsOr at he
  cases htext : env.text? key with
  | none =>
      rw [htext] at he
      cases he
  | some value =>
      rw [htext] at he
      exact refused_of_seconds (Environment.text?_eq_some_iff.1 htext) he

/-! ## The log level -/

/-- The level that an environment asks for, and the value that is remembered because it names none.
An empty value names none either, but is not remembered. -/
structure Level (env : Environment) (level : LogLevel) (invalid : Option String) : Prop where
  named : ∀ value l, env.Holds logLevelVariable value → LogLevel.Names value l → level = l
  otherwise : (∀ value l, env.Holds logLevelVariable value → ¬ LogLevel.Names value l) →
    level = .info
  invalid : ∀ value, invalid = some value ↔
    env.Holds logLevelVariable value ∧ value ≠ "" ∧ ∀ l, ¬ LogLevel.Names value l

theorem not_names_empty (l : LogLevel) : ¬ LogLevel.Names "" l := by
  rw [← LogLevel.parse?_eq_some_iff]
  cases l <;> decide

/-- At most one level and one value satisfy an environment. -/
theorem Level.unique {l₁ l₂ : LogLevel} {i₁ i₂ : Option String} (h₁ : Level env l₁ i₁)
    (h₂ : Level env l₂ i₂) : l₁ = l₂ ∧ i₁ = i₂ := by
  constructor
  · by_cases h : ∃ value l, env.Holds logLevelVariable value ∧ LogLevel.Names value l
    · obtain ⟨value, l, hholds, hnames⟩ := h
      rw [h₁.named value l hholds hnames, h₂.named value l hholds hnames]
    · have hnone : ∀ value l, env.Holds logLevelVariable value → ¬ LogLevel.Names value l :=
        fun value l hholds hnames => h ⟨value, l, hholds, hnames⟩
      rw [h₁.otherwise hnone, h₂.otherwise hnone]
  · exact Option.ext fun value => (h₁.invalid value).trans (h₂.invalid value).symm

theorem level_of_unset (h : ∀ value, ¬ env.Holds logLevelVariable value) :
    Level env .info none where
  named value _ hholds _ := absurd hholds (h value)
  otherwise _ := rfl
  invalid value := iff_of_false nofun fun hinvalid => h value hinvalid.1

theorem level_of_names {l : LogLevel} (hholds : env.Holds logLevelVariable value)
    (hnames : LogLevel.Names value l) : Level env l none where
  named v l' hv hl' := by
    rw [hv.unique hholds, ← LogLevel.parse?_eq_some_iff] at hl'
    rw [← LogLevel.parse?_eq_some_iff, hl'] at hnames
    exact (Option.some.inj hnames).symm
  otherwise hnone := absurd hnames (hnone value l hholds)
  invalid v := by
    refine iff_of_false nofun ?_
    rintro ⟨hv, -, hnone⟩
    exact hnone l (hv.unique hholds ▸ hnames)

theorem level_of_not_names (hholds : env.Holds logLevelVariable value)
    (hnone : ∀ l, ¬ LogLevel.Names value l) :
    Level env .info (if value.isEmpty then none else some value) where
  named v l hv hl := absurd (hv.unique hholds ▸ hl) (hnone l)
  otherwise _ := rfl
  invalid v := by
    constructor
    · intro h
      by_cases hempty : value.isEmpty = true
      · rw [if_pos hempty] at h
        cases h
      · rw [if_neg hempty] at h
        obtain rfl := Option.some.inj h
        exact ⟨hholds, fun heq => hempty (String.isEmpty_iff.2 heq), hnone⟩
    · rintro ⟨hv, hne, -⟩
      obtain rfl := hv.unique hholds
      exact if_neg fun h => hne (String.isEmpty_iff.1 h)

theorem level_logLevelOf (env : Environment) :
    Level env (logLevelOf (env.text? logLevelVariable)).1
      (logLevelOf (env.text? logLevelVariable)).2 := by
  cases htext : env.text? logLevelVariable with
  | none => exact level_of_unset (Environment.text?_eq_none_iff.1 htext)
  | some value =>
      have hholds := Environment.text?_eq_some_iff.1 htext
      cases hparse : LogLevel.parse? value with
      | some l =>
          have hnames := LogLevel.parse?_eq_some_iff.1 hparse
          have hempty : ¬ value.isEmpty = true := by
            rw [String.isEmpty_iff]
            rintro rfl
            exact not_names_empty l hnames
          simp only [logLevelOf, if_neg hempty, hparse]
          exact level_of_names hholds hnames
      | none =>
          have hnone (l : LogLevel) : ¬ LogLevel.Names value l := by
            rw [← LogLevel.parse?_eq_some_iff, hparse]
            nofun
          have hlevel : logLevelOf (some value) =
              (.info, if value.isEmpty then none else some value) := by
            simp only [logLevelOf, hparse]
            split <;> rfl
          rw [hlevel]
          exact level_of_not_names hholds hnone

theorem logLevelOf_eq_iff {level : LogLevel} {invalid : Option String} :
    logLevelOf (env.text? logLevelVariable) = (level, invalid) ↔ Level env level invalid := by
  constructor
  · intro h
    have hlevel := level_logLevelOf env
    rwa [h] at hlevel
  · intro h
    obtain ⟨hfst, hsnd⟩ := (level_logLevelOf env).unique h
    exact Prod.ext hfst hsnd

/-! ## Loading -/

/-- The settings that an environment asks for. -/
structure Asked (env : Environment) (s : Settings) : Prop where
  reconcileInterval : Delay env intervalVariable 300 s.reconcileInterval
  errorRequeue : Delay env errorRequeueVariable 60 s.errorRequeue
  level : Level env s.logLevel s.invalidLogLevel

theorem load_eq_ok_iff {s : Settings} : load env = .ok s ↔ Asked env s := by
  have hload : load env = .ok s ↔
      secondsOr env intervalVariable 300 = .ok s.reconcileInterval ∧
        secondsOr env errorRequeueVariable 60 = .ok s.errorRequeue ∧
          logLevelOf (env.text? logLevelVariable) = (s.logLevel, s.invalidLogLevel) := by
    simp only [load, bind_eq_ok]
    constructor
    · rintro ⟨_, hinterval, _, hrequeue, ⟨⟩⟩
      exact ⟨hinterval, hrequeue, rfl⟩
    · rintro ⟨hinterval, hrequeue, hlevel⟩
      refine ⟨_, hinterval, _, hrequeue, ?_⟩
      rw [hlevel]
  rw [hload, secondsOr_eq_ok_iff, secondsOr_eq_ok_iff, logLevelOf_eq_iff]
  constructor
  · rintro ⟨hinterval, hrequeue, hlevel⟩
    exact ⟨hinterval, hrequeue, hlevel⟩
  · rintro ⟨hinterval, hrequeue, hlevel⟩
    exact ⟨hinterval, hrequeue, hlevel⟩

/-- An error is that of the first variable that is refused. -/
theorem load_eq_error {e : SettingsError} (h : load env = .error e) :
    secondsOr env intervalVariable 300 = .error e ∨
      (∃ n, secondsOr env intervalVariable 300 = .ok n) ∧
        secondsOr env errorRequeueVariable 60 = .error e := by
  unfold load at h
  dsimp only at h
  cases hinterval : secondsOr env intervalVariable 300 with
  | error e' =>
      rw [hinterval] at h
      cases h
      exact .inl rfl
  | ok n =>
      rw [hinterval, ok_bind] at h
      cases hrequeue : secondsOr env errorRequeueVariable 60 with
      | error e' =>
          rw [hrequeue] at h
          cases h
          exact .inr ⟨⟨n, rfl⟩, rfl⟩
      | ok m =>
          rw [hrequeue] at h
          cases h

/-- A variable is valid: it holds no text, or one that denotes seconds within the bounds. -/
def Valid (env : Environment) (name : String) : Prop :=
  (∀ value, ¬ env.Holds name value) ∨
    ∃ value n, env.Holds name value ∧ Seconds value n ∧ 1 ≤ n ∧ n ≤ 2 ^ 64 - 1

theorem valid_iff_exists_delay (default : Nat) :
    Valid env name ↔ ∃ n, Delay env name default n := by
  constructor
  · rintro (hunset | ⟨value, n, hholds, hseconds, hpositive, hfits⟩)
    · exact ⟨default, .unset hunset⟩
    · exact ⟨n, .given hholds hseconds hpositive hfits⟩
  · rintro ⟨_, hunset | ⟨hholds, hseconds, hpositive, hfits⟩⟩
    · exact .inl hunset
    · exact .inr ⟨_, _, hholds, hseconds, hpositive, hfits⟩

theorem valid_iff_exists_secondsOr (default : Nat) :
    Valid env name ↔ ∃ n, secondsOr env name default = .ok n := by
  simp only [valid_iff_exists_delay default, secondsOr_eq_ok_iff]

theorem not_valid_of_secondsOr {e : SettingsError} (h : secondsOr env name default = .error e) :
    ¬ Valid env name := by
  rw [valid_iff_exists_secondsOr default, h]
  rintro ⟨n, ⟨⟩⟩

/-- **Which environments are accepted.** Loading succeeds exactly if both delays are valid, and
gives the settings that the environment asks for. If it fails, the error names the first of the two
variables that is not valid, and says what is wrong with it. -/
theorem loads_valid_environments (env : Environment) :
    ((∃ s, load env = .ok s) ↔ Valid env intervalVariable ∧ Valid env errorRequeueVariable) ∧
    (∀ s, load env = .ok s ↔ Asked env s) ∧
    ∀ e, load env = .error e →
      (¬ Valid env intervalVariable ∧ Refused env intervalVariable e.message) ∨
      (Valid env intervalVariable ∧ ¬ Valid env errorRequeueVariable ∧
        Refused env errorRequeueVariable e.message) := by
  refine ⟨?_, fun s => load_eq_ok_iff, fun e he => ?_⟩
  · rw [valid_iff_exists_delay 300, valid_iff_exists_delay 60]
    simp only [load_eq_ok_iff]
    constructor
    · rintro ⟨s, hasked⟩
      exact ⟨⟨_, hasked.reconcileInterval⟩, ⟨_, hasked.errorRequeue⟩⟩
    · rintro ⟨⟨interval, hinterval⟩, ⟨requeue, hrequeue⟩⟩
      exact ⟨⟨interval, requeue, _, _⟩, hinterval, hrequeue, level_logLevelOf env⟩
  · rcases load_eq_error he with hinterval | ⟨hinterval, hrequeue⟩
    · exact .inl ⟨not_valid_of_secondsOr hinterval, refused_of_secondsOr hinterval⟩
    · exact .inr ⟨(valid_iff_exists_secondsOr 300).2 hinterval, not_valid_of_secondsOr hrequeue,
        refused_of_secondsOr hrequeue⟩

/-- A variable whose bytes are not UTF-8, and one that holds zero. -/
def unreadableThenZero : Environment :=
  (KeyMap.empty.insert intervalVariable (.bytes [0xFF])).insert errorRequeueVariable (.text " +00 ")

/-- The first counts as unset, so the second is named. -/
theorem loads_valid_environments_unreadableThenZero :
    load unreadableThenZero = .error (.zero errorRequeueVariable) ∧
      Valid unreadableThenZero intervalVariable ∧ ¬ Valid unreadableThenZero errorRequeueVariable ∧
        Refused unreadableThenZero errorRequeueVariable
          "ERROR_REQUEUE_SECS must be greater than zero" := by
  have hload : load unreadableThenZero = .error (.zero errorRequeueVariable) := by decide +kernel
  have hinterval : Valid unreadableThenZero intervalVariable :=
    (valid_iff_exists_secondsOr 300).2 ⟨300, by decide +kernel⟩
  rcases (loads_valid_environments unreadableThenZero).2.2 _ hload with ⟨hnot, -⟩ | hrequeue
  · exact absurd hinterval hnot
  · exact ⟨hload, hrequeue⟩

end Settings

end FleetLabels
