import Mathlib.Data.Finset.Card
import Regression.Proofs.Run.Replays
import Regression.Proofs.Run.Results

/-!
# Refinement ends, and repeats nothing

However the surroundings behave, and however a run ends, there are no more iterations than names of
shared units that were reported, and one more.

* `refinement_ends`: the bound, for replays of a trace as well, and what a run that ended well says
  about the units it put back.
-/

namespace Regression

open History

/-- There are no more iterations than the bound, and they can all be numbered if the bound can. -/
structure EndsWithin (bound : Nat) (h : History) (r : Except Failure RunOutcome) : Prop where
  iterations : h.iterations.length ≤ bound
  numbered : bound < UInt32.size → r ≠ .error (.analysis .iterationsExhausted)

/-- The outcome of a run lists the units that were put back, each once, and one after each iteration
but the last one. -/
structure RefinedOnce (h : History) (outcome : RunOutcome) : Prop where
  nodup : outcome.refined.Nodup
  expansions : outcome.refined = h.expansions
  iterations : outcome.iterations.length = h.iterations.length
  putBack : List.Forall₂ Run.PutBack h.iterations.dropLast outcome.refined
  length : outcome.stopReason ≠ .baseToolMissing →
    outcome.iterations.length = outcome.refined.length + 1
  missing : outcome.stopReason = .baseToolMissing → outcome.iterations = [] ∧ outcome.refined = []
  /-- In the end all shared units have been put back that were reported last. -/
  nothingLeft : outcome.stopReason = .nothingLeftToRefine →
    ∃ units, h.summaries.getLast? = some units ∧ ∀ unit ∈ units.shared, unit.name ∈ outcome.refined

namespace Run

variable {ctx : RunContext} {h : History}

/-- Names that are put back once are no more than there are. -/
theorem Expanding.length_le {α : Type} {canIterate : Bool} {known : List String} {remaining : Nat}
    {r : Except Failure α} (expanding : Expanding canIterate known remaining h r)
    {U : Finset String} (shared : ∀ name ∈ h.sharedNames, name ∈ U) :
    h.expansions.length ≤ U.card := by
  have hsubset : h.expansions.toFinset ⊆ U := by
    intro name hname
    exact shared name (expanding.shared name (List.mem_toFinset.mp hname))
  have hcard := Finset.card_le_card hsubset
  rwa [List.toFinset_card_of_nodup expanding.nodup] at hcard

theorem Expanding.endsWithin {canIterate : Bool} {known : List String}
    {r : Except Failure RunOutcome} (expanding : Expanding canIterate known (UInt32.size - 1) h r)
    {U : Finset String} (shared : ∀ name ∈ h.sharedNames, name ∈ U) :
    EndsWithin (U.card + 1) h r := by
  have hlength := expanding.length_le shared
  have hprepared := expanding.prepared
  refine ⟨?_, fun hbound hr => ?_⟩
  · rw [length_iterations]
    omega
  · have hexhausted := expanding.exhausted hr
    omega

/-- The outcome of a run that ended well lists what was put back. -/
theorem Runs.refinedOnce {request : RunRequest} {outcome : RunOutcome}
    (runs : Runs ctx request h (.ok outcome)) : RefinedOnce h outcome := by
  have hnodup := runs.expanding.nodup
  have hlength : outcome.iterations.length = h.iterations.length := runs.pieces.length_eq.symm
  cases runs with
  | missing opens looks finishes =>
    have houtside := List.forall_mem_append.mpr ⟨opens.isOutside,
      List.forall_mem_append.mpr ⟨looks.isOutside, finishes.isOutside⟩⟩
    have hexpansions := (Unrefining.of_isOutside houtside).expansions_eq
    have hpieces := (Aside.of_isOutside houtside).quiet.cut_eq
    cases finishes
    refine ⟨List.nodup_nil, hexpansions.symm, hlength, ?_, ?_, ?_, ?_⟩
    · rw [iterations, hpieces]
      exact .nil
    · exact fun hreason => absurd rfl hreason
    · exact fun _ => ⟨rfl, rfl⟩
    · rintro ⟨⟩
  | @iterated es es' es'' es₄ run progress reason r opens looks iterates finishes =>
    have hbefore : ∀ e ∈ es ++ es', e.isOutside :=
      List.forall_mem_append.mpr ⟨opens.isOutside, looks.isOutside⟩
    have hbehind := finishes.isOutside
    have hrefining := iterates.refining (Aside.of_isOutside hbehind)
    have hreason : reason ≠ .baseToolMissing := iterates.ne_baseToolMissing
    have hu := Unrefining.of_isOutside hbefore
    have hu' := Unrefining.of_isOutside hbehind
    have hexpansions := hu.expansions_between hu' es''
    have hsummaries := hu.summaries_between hu' es''
    have hiterations : History.iterations (es ++ es' ++ (es'' ++ es₄)) =
        (es'' ++ es₄).iterations := by
      rw [iterations, cut_append (Aside.of_isOutside hbefore).quiet.not_isPrepared]
      rfl
    have hrefined : progress.refined = es''.expansions := hrefining.refined
    have hputBack := hrefining.putBack
    rw [← hrefined] at hputBack
    rw [← List.append_assoc] at hnodup hlength ⊢
    cases finishes
    refine ⟨?_, ?_, hlength, ?_, ?_, ?_, ?_⟩
    · rw [hexpansions, ← hrefined] at hnodup
      exact hnodup
    · rw [hexpansions]
      exact hrefined
    · rw [hiterations]
      exact hputBack
    · intro _
      have hcount := hrefining.iterations
      rw [← hrefined, List.length_nil, Nat.zero_add] at hcount
      exact hcount
    · exact fun hmissing => absurd hmissing hreason
    · rw [hsummaries]
      exact hrefining.nothingLeft

end Run

/-- A run ends after no more iterations than there are names of shared units, and one more, and
puts every unit back once. -/
theorem refinement_ends {σ : Type} (settings : Settings) (env : Environment (StateM σ))
    (request : RunRequest) (s : σ) :
    let h := settings.history env request s
    let r := ((settings.analyze env request).run s).1
    (∀ U : Finset String, (∀ name ∈ h.sharedNames, name ∈ U) → EndsWithin (U.card + 1) h r) ∧
      (∀ replay : σ → Replay, env.Replays replay → (replay s).current = none →
        EndsWithin ((replay s).trace.sharedNames.toFinset.card + 1) h r) ∧
      (settings.run.tool.canIterate = false →
        h.iterations.length ≤ 1 ∧ ∀ unit result, .expanded unit result ∉ h) ∧
      ∀ outcome, r = .ok outcome → RefinedOnce h outcome := by
  intro h r
  have hexpanding :
      Run.Expanding settings.run.tool.canIterate [] (UInt32.size - 1) h r := by
    rcases settings.runs_or env request s with ⟨watchdog, runs⟩ | ⟨hnil, hr⟩
    · exact runs.expanding
    · have hnil : h = [] := hnil
      have hr : r = .error (.analysis .noDeadline) := hr
      rw [hnil, hr]
      exact .of_unrefining (by simp [Unrefining]) (by simp) (by rintro ⟨⟩)
  refine ⟨fun U shared => hexpanding.endsWithin shared, fun replay replays fresh => ?_,
    fun hsingle => ?_, fun outcome hr => ?_⟩
  · refine hexpanding.endsWithin fun name hname => ?_
    exact List.mem_toFinset.mpr (settings.sharedNames_of_replays replays request fresh name hname)
  · obtain ⟨hprepared, hu⟩ := hexpanding.single hsingle
    refine ⟨by rwa [length_iterations], fun unit result hmem => ?_⟩
    cases hu _ hmem
  · obtain ⟨⟨watchdog, runs⟩, -⟩ := Settings.runs_history hr
    exact runs.refinedOnce

/-! ## A rehearsed refinement -/

/-- A trace where the function is abstracted at first. -/
def abstractedFirst : Trace where
  entries :=
    [{ summary := [{ name := "f" }], partitions := [unchanged] },
      { expanded := .ofList ["f"], partitions := [unchanged] }]

/-- The stage on which the trace is replayed. -/
def replayingStage : Rehearsal.Stage := { replay := { trace := abstractedFirst } }

/-- The function is put back, and the second iteration is the last one. -/
theorem refinement_ends_rehearsal :
    ∃ (h : History) (outcome : RunOutcome), outcome.refined = ["f"] ∧
      EndsWithin (Finset.card {"f"} + 1) h (.ok outcome) ∧
      EndsWithin (abstractedFirst.sharedNames.toFinset.card + 1) h (.ok outcome) ∧
      RefinedOnce h outcome := by
  have hrefined : ((((Settings.default 1).analyze Rehearsal.environment { benchmark := "f" }).run
      replayingStage).1.toOption.map (·.refined)) = some ["f"] := by
    decide +kernel
  have hshared : ∀ name ∈ ((Settings.default 1).history Rehearsal.environment { benchmark := "f" }
      replayingStage).sharedNames, name ∈ ({"f"} : Finset String) := by
    intro name hname
    have hmem := Settings.sharedNames_of_replays Rehearsal.environment_replays _ _ rfl name hname
    have hnames : replayingStage.replay.trace.sharedNames = ["f"] := by decide
    rw [hnames] at hmem
    exact List.mem_toFinset.mpr hmem
  obtain ⟨hnames, htrace, -, hok⟩ := refinement_ends (Settings.default 1) Rehearsal.environment
    { benchmark := "f" } replayingStage
  have hnames := hnames {"f"} hshared
  have htrace := htrace _ Rehearsal.environment_replays rfl
  cases hr : (((Settings.default 1).analyze Rehearsal.environment { benchmark := "f" }).run
      replayingStage).1 with
  | error e => simp [hr, Except.toOption] at hrefined
  | ok outcome =>
    rw [hr] at hnames htrace
    exact ⟨_, outcome, by simpa [hr, Except.toOption] using hrefined, hnames, htrace, hok _ hr⟩

end Regression
