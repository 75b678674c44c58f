import Regression.Proofs.Computation
import Regression.Proofs.Duration
import Regression.Proofs.Run.Invariants

/-!
# Limits of time

Settings limit the time of a query, the time for which a solver is waited for, and the time of a
run. Settings that are accepted keep the first two far below what can be counted. The third one is
only refused if it is zero, so that the end of a run may lie behind the end of the clock. Such a run
is broken off before it does anything.

* `Settings.validate_eq_ok_iff`: the times that are accepted.
* `Settings.history_eq_nil_iff`: the runs that are broken off.
* `times_of_accepted`: when the times of accepted settings fit where they are kept.
-/

namespace Regression

/-! ## Accepted times -/

theorem requireWithin_eq_ok_iff {field hint : String} {low high value : Nat} :
    requireWithin field low high value hint = .ok () ↔ low ≤ value ∧ value ≤ high := by
  unfold requireWithin
  split
  case isTrue h => simpa using h
  case isFalse h => simpa using h

theorem bind_unit_eq_ok_iff {ε : Type} {x y : Except ε Unit} :
    (x >>= fun _ => y) = .ok () ↔ x = .ok () ∧ y = .ok () := by
  cases x with
  | error e => simp [bind, Except.bind]
  | ok => exact (and_iff_right rfl).symm

theorem SolverSettings.timeoutMs_le {s : SolverSettings} (h : s.validate = .ok ()) :
    s.timeoutMs.toNat ≤ 86400000 := by
  obtain ⟨htimeout, -⟩ := bind_unit_eq_ok_iff.mp h
  exact (requireWithin_eq_ok_iff.mp htimeout).2

theorem RunSettings.validate_eq_ok_iff {s : RunSettings} :
    s.validate = .ok () ↔ 1 ≤ s.timeoutSecs.toNat := by
  have hsmall := s.timeoutSecs.toNat_lt
  rw [validate, requireWithin_eq_ok_iff]
  simp only [UInt64.size]
  omega

theorem Settings.validate_eq_ok_iff {settings : Settings} :
    settings.validate = .ok () ↔ settings.exploration.validate = .ok () ∧
      settings.solver.validate = .ok () ∧ settings.run.validate = .ok () := by
  rw [validate, bind_unit_eq_ok_iff, bind_unit_eq_ok_iff]

/-! ## Sums that are counted in 64 bits -/

/-- A sum, unless 64 bits do not suffice for its whole seconds. -/
def Duration.add? (a b : Duration) : Option Duration :=
  if (a + b).wholeSeconds < UInt64.size then some (a + b) else none

theorem Duration.add?_of_le {a b c : Duration} (h : a + b ≤ c)
    (hc : c.wholeSeconds < UInt64.size) : a.add? b = some (a + b) :=
  if_pos (Nat.lt_of_le_of_lt (wholeSeconds_mono h) hc)

namespace SolverSettings

variable {s : SolverSettings}

/-- How long a solver is waited for, summed up step by step. -/
def patience? (s : SolverSettings) : Option Duration :=
  (s.timeout.add? ⟨s.timeout.nanoseconds / 10⟩).bind (·.add? (.ofSeconds 2))

theorem timeout_le (h : s.validate = .ok ()) : s.timeout ≤ .ofSeconds 86400 := by
  have hle := timeoutMs_le h
  simp only [Duration.le_iff, timeout, Duration.ofMilliseconds, Duration.ofSeconds]
  omega

/-- A solver is waited for no longer than a day, a tenth of a day, and two seconds. -/
theorem patience_le (h : s.validate = .ok ()) : s.patience ≤ .ofSeconds 95042 := by
  have hle := timeoutMs_le h
  simp only [Duration.le_iff, patience, timeout, Duration.ofMilliseconds, Duration.ofSeconds,
    Duration.nanoseconds_add]
  omega

theorem patience?_eq (h : s.validate = .ok ()) : s.patience? = some s.patience := by
  have hmost : (Duration.ofSeconds 95042).wholeSeconds < UInt64.size := by
    rw [Duration.wholeSeconds_ofSeconds]
    decide
  have hle := patience_le h
  rw [patience] at hle
  have hfirst := Duration.le_trans (Duration.le_add_right _ _) hle
  rw [patience?, patience, Duration.add?_of_le hfirst hmost, Option.bind_some,
    Duration.add?_of_le hle hmost]

/-- The times of a solver fit where they are kept. -/
structure TimesFit (s : SolverSettings) : Prop where
  /-- The oracle is given the time of a query as a number of 64 bits. -/
  query : s.timeout.milliseconds < UInt64.size ∧
    UInt64.ofNat s.timeout.milliseconds = s.timeoutMs
  patience : s.patience? = some s.patience

theorem timesFit (h : s.validate = .ok ()) : s.TimesFit where
  query := by
    rw [timeout, Duration.milliseconds_ofMilliseconds, UInt64.ofNat_toNat]
    exact ⟨s.timeoutMs.toNat_lt, rfl⟩
  patience := patience?_eq h

end SolverSettings

/-! ## Deadlines -/

/-- A run has a deadline if the clock can show it. -/
theorem RunSettings.exists_start?_iff {s : RunSettings} {now : Duration} :
    (∃ watchdog, Watchdog.start? now s.timeout = some watchdog) ↔
      now.wholeSeconds + s.timeoutSecs.toNat ≤ Duration.clockSeconds := by
  rw [← Option.isSome_iff_exists, Watchdog.start?, timeout, Duration.wholeSeconds_add_ofSeconds]
  split
  case isTrue h => exact iff_of_true rfl h
  case isFalse h => exact iff_of_false Bool.false_ne_true h

/-- The runs that have a deadline at every reading that a clock may have. -/
theorem RunSettings.forall_reading_iff {s : RunSettings} :
    (∀ now : Duration, now.wholeSeconds < Nat.pow 2 40 →
      now.wholeSeconds + s.timeoutSecs.toNat ≤ Duration.clockSeconds) ↔
      s.timeoutSecs.toNat ≤ Nat.pow 2 63 - Nat.pow 2 40 := by
  have hclock : Duration.clockSeconds = Nat.pow 2 63 - 1 := rfl
  have hreadings : 0 < Nat.pow 2 40 ∧ Nat.pow 2 40 ≤ Nat.pow 2 63 := by decide
  constructor
  · intro h
    have hlast := h (.ofSeconds (Nat.pow 2 40 - 1))
    rw [Duration.wholeSeconds_ofSeconds] at hlast
    omega
  · intro h now hnow
    omega

theorem Run.Opens.ne_nil {ctx : RunContext} {es : History} {r : Except Failure RunRecord}
    (h : Opens ctx es r) : es ≠ [] := by
  cases h <;> exact List.cons_ne_nil _ _

/-- A run that has a deadline does something. -/
theorem Run.Runs.ne_nil {ctx : RunContext} {request : RunRequest} {es : History}
    {r : Except Failure RunOutcome} (h : Runs ctx request es r) : es ≠ [] := by
  cases h with
  | unopened opens => exact opens.ne_nil
  | missing opens => exact List.append_ne_nil_of_left_ne_nil opens.ne_nil _
  | failed opens => exact List.append_ne_nil_of_left_ne_nil opens.ne_nil _
  | iterated opens => exact List.append_ne_nil_of_left_ne_nil opens.ne_nil _

section

variable {σ : Type} (settings : Settings) (env : Environment (StateM σ)) (request : RunRequest)
  (s : σ)

/-- A run does nothing exactly if it has no deadline. -/
theorem Settings.history_eq_nil_iff : settings.history env request s = [] ↔
    Watchdog.start? (env.now.run s).1 settings.run.timeout = none := by
  have hanalyze := settings.analyze_eq env request s
  cases hstart : Watchdog.start? (env.now.run s).1 settings.run.timeout with
  | none =>
    rw [hstart] at hanalyze
    exact iff_of_true (congrArg (fun r => r.1.2) hanalyze) rfl
  | some watchdog =>
    rw [hstart] at hanalyze
    have hhistory : settings.history env request s = historyOf _ (env.now.run s).2 :=
      congrArg (fun r => r.1.2) hanalyze
    obtain ⟨hruns, -⟩ := (Run.shows_analyzeRequest (w := []) env
      (settings.context request watchdog) request).holds (env.now.run s).2
    rw [hhistory]
    exact iff_of_false hruns.ne_nil nofun

/-- Such a run is broken off. -/
theorem Settings.brokenOff_iff : settings.history env request s = [] ∧
    ((settings.analyze env request).run s).1 = .error (.analysis .noDeadline) ↔
      ¬ ∃ watchdog, Watchdog.start? (env.now.run s).1 settings.run.timeout = some watchdog := by
  rw [settings.history_eq_nil_iff, not_exists, ← Option.eq_none_iff_forall_ne_some]
  refine and_iff_left_of_imp fun hnone => ?_
  have hanalyze := settings.analyze_eq env request s
  rw [hnone] at hanalyze
  exact congrArg (fun r => r.1.1) hanalyze

end

/-! ## All times of settings -/

/-- The times of settings fit where they are kept, in a run that starts at a clock reading. -/
structure Settings.TimesFit (settings : Settings) (now : Duration) : Prop where
  solver : settings.solver.TimesFit
  deadline : ∃ watchdog, Watchdog.start? now settings.run.timeout = some watchdog

/-- Which times of settings fit. -/
structure Settings.Fitting (settings : Settings) : Prop where
  /-- Those of the solver do. -/
  solver : settings.solver.TimesFit
  timeout_le : settings.solver.timeout ≤ .ofSeconds 86400
  patience_le : settings.solver.patience ≤ .ofSeconds 95042
  /-- All of them do if the run ends before the clock. -/
  timesFit_iff : ∀ now, settings.TimesFit now ↔
    now.wholeSeconds + settings.run.timeoutSecs.toNat ≤ Duration.clockSeconds
  /-- They do at every reading that a clock may have. -/
  always_iff : (∀ now, now.wholeSeconds < Nat.pow 2 40 → settings.TimesFit now) ↔
    settings.run.timeoutSecs.toNat ≤ Nat.pow 2 63 - Nat.pow 2 40
  /-- Any other time of the run that is not zero is accepted as well. -/
  unbounded : ∀ seconds : UInt64, 1 ≤ seconds.toNat →
    ({ settings with run := { settings.run with timeoutSecs := seconds } } : Settings).validate =
      .ok ()
  /-- A run does nothing, and is broken off, if its times do not fit. -/
  brokenOff_iff : ∀ {σ : Type} (env : Environment (StateM σ)) (request : RunRequest) (s : σ),
    settings.history env request s = [] ∧
        ((settings.analyze env request).run s).1 = .error (.analysis .noDeadline) ↔
      ¬ settings.TimesFit (env.now.run s).1

/-- The times of accepted settings fit unless the run would end after the clock, which accepted
settings do not exclude. -/
theorem times_of_accepted {settings : Settings} (accepted : settings.validate = .ok ()) :
    settings.Fitting := by
  obtain ⟨hexploration, hsolver, -⟩ := Settings.validate_eq_ok_iff.mp accepted
  have hfits := SolverSettings.timesFit hsolver
  have hdeadline (now : Duration) : settings.TimesFit now ↔
      ∃ watchdog, Watchdog.start? now settings.run.timeout = some watchdog :=
    ⟨fun h => h.deadline, fun h => ⟨hfits, h⟩⟩
  have hfit (now : Duration) : settings.TimesFit now ↔
      now.wholeSeconds + settings.run.timeoutSecs.toNat ≤ Duration.clockSeconds :=
    (hdeadline now).trans RunSettings.exists_start?_iff
  refine ⟨hfits, SolverSettings.timeout_le hsolver, SolverSettings.patience_le hsolver, hfit, ?_, ?_,
    ?_⟩
  · rw [← RunSettings.forall_reading_iff]
    exact forall_congr' fun now => forall_congr' fun _ => hfit now
  · intro seconds hpositive
    exact Settings.validate_eq_ok_iff.mpr
      ⟨hexploration, hsolver, RunSettings.validate_eq_ok_iff.mpr hpositive⟩
  · intro σ env request s
    rw [hdeadline]
    exact settings.brokenOff_iff env request s

/-! ## An example -/

/-- The default settings, with the longest time for a run. -/
def longestRun : Settings :=
  { Settings.default 1 with run := { timeoutSecs := .ofNat (UInt64.size - 1) } }

/-- They are accepted, but no clock reading leaves room for such a run. -/
theorem times_of_accepted_longestRun :
    longestRun.validate = .ok () ∧ longestRun.Fitting ∧ ∀ now, ¬ longestRun.TimesFit now := by
  have accepted : longestRun.validate = .ok () := by decide +kernel
  have fitting := times_of_accepted accepted
  refine ⟨accepted, fitting, fun now => ?_⟩
  rw [fitting.timesFit_iff]
  have hseconds : Duration.clockSeconds < longestRun.run.timeoutSecs.toNat := by decide +kernel
  omega

end Regression
