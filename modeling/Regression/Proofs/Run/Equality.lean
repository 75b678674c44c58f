import Regression.Proofs.Aggregation
import Regression.Proofs.Expr.Nodes
import Regression.Proofs.Run.Results

/-!
# Runs that find equality

When a run finds that the versions are equal, they are: on every partition that the source delivered
in the last iteration, the versions agree wherever the path is taken. This only relies on the
answers `unsat`.

* `agreesOn_of_run_eq`: what the result of a run means for the versions.
-/

namespace Regression

open History

theorem Verdict.classify_of_result {v : Verdict} {c : Classification} (h : v.result.1 = c)
    (hne : c ≠ .error) : v.classify = .ok c := by
  unfold result at h
  cases hclassify : v.classify with
  | ok result =>
    rw [hclassify] at h
    exact congrArg _ h
  | error missing =>
    rw [hclassify] at h
    exact absurd h.symm hne

namespace Oracle

/-- The answer to a query was kept. -/
theorem Asks.recorded {timeoutMs : UInt64} {key : QueryKey} {conditions : List Expr}
    {es : History} {status : Status} (h : Asks timeoutMs key conditions es (.ok status)) :
    ∃ q answer, .recorded key q answer (.ok ()) ∈ es ∧ answer.status = status := by
  cases h with
  | @answered q answer build => exact ⟨q, answer, by simp, rfl⟩

/-- A path is unreachable because of an answer. -/
theorem Checks.recorded_of_unreachable {timeoutMs : UInt64} {iteration : UInt32} {p : Partition}
    {es : History} {v : Verdict} (h : Checks timeoutMs iteration p es v)
    (hv : v.classify = .ok .unreachable) :
    ∃ q answer, .recorded ⟨iteration, p.index, .pc⟩ q answer (.ok ()) ∈ es ∧
      answer.status = .unsat := by
  obtain ⟨statuses, failure, runtime, hinv, rfl⟩ := h
  have hpc : statuses.pc = some .unsat := Verdict.classify_eq_ok_unreachable.mp hv
  cases hinv with
  | failed => cases hpc
  | unreachable pc => exact pc.recorded
  | raised _ open_ => exact absurd (Option.some.inj hpc) open_
  | compared _ open_ _ _ compares =>
    cases compares <;> exact absurd (Option.some.inj hpc) open_

end Oracle

/-- What it means that a run found equality, for the events of its last iteration. -/
structure EqualityHolds (A : Arithmetic) (piece : History) : Prop where
  /-- A partition was classified as equal. -/
  some_eq : ∃ p ∈ piece.delivered, ∃ record, .wrote (.partition record) (.ok ()) ∈ piece ∧
    record.partition = p.index ∧ record.result = some .eq
  /-- The versions agree on every path, under every interpretation of the symbols. -/
  agree : ∀ p ∈ piece.delivered, ∀ S ρ, p.TakenOn A S ρ → p.AgreesOn A S ρ
  /-- Every path that was not refuted was explored completely, and is not abstract. -/
  certain : ∀ p ∈ piece.delivered,
    (∃ iteration q answer, .recorded ⟨iteration, p.index, .pc⟩ q answer (.ok ()) ∈ piece ∧
      answer.status = .unsat) ∨ p.depthLimited = false ∧ ¬p.pc.AppliesUif

/-- If a run finds equality and no answer `unsat` is wrong, then the versions agree on everything
that the source delivered in the last iteration. -/
theorem agreesOn_of_run_eq {σ : Type} {A : Arithmetic} {settings : Settings}
    {env : Environment (StateM σ)} {request : RunRequest} {s : σ} {outcome : RunOutcome}
    (sound : ∀ p, env.CanEmit (.pulled (.done (.ok (some p)))) →
      Oracle.RefutesSoundly env.CanEmit A settings.solver.timeoutMs p)
    (h : ((settings.analyze env request).run s).1 = .ok outcome)
    (heq : outcome.classification = .eq) :
    ∃ piece, (settings.history env request s).iterations.getLast? = some piece ∧
      EqualityHolds A piece := by
  obtain ⟨⟨watchdog, runs⟩, hcan⟩ := Settings.runs_history h
  have hresult : outcome.run.result = some .eq := by
    unfold RunOutcome.classification at heq
    cases hr : outcome.run.result with
    | none => rw [hr] at heq; cases heq
    | some c => rw [hr] at heq; exact congrArg some heq
  obtain ⟨htimedOut, hfailed, hmissing⟩ := runs.result_eq
  obtain ⟨piece, iteration, judged, record, hpiece, -, hana, hc, -⟩ := runs.last
    (fun hr => by cases hresult.symm.trans (htimedOut hr))
    (fun error hr => by cases hresult.symm.trans (hfailed error hr))
    (fun hr => by cases hresult.symm.trans (hmissing hr))
  obtain ⟨hf, hb, he, hfold⟩ := hana.of_result (hc.symm.trans hresult) (by decide) (by decide)
  obtain ⟨hsome, hall⟩ := foldPartitions_eq_eq hfold
  have hsub : piece ⊆ settings.history env request s :=
    (cut_subset _).2 piece (List.mem_of_getLast? hpiece)
  -- Each partition was checked, and the verdict is one of two.
  have hchecked : ∀ p ∈ piece.delivered, ∃ es v, es ⊆ piece ∧
      Oracle.Checks settings.solver.timeoutMs iteration p es v ∧
      (v.classify = .ok .eq ∨ v.classify = .ok .unreachable) := by
    intro p hp
    obtain ⟨v, hv, ⟨es, hes, hcheck⟩, -⟩ := hana.classified hf hb he hp
    refine ⟨es, v, hes, hcheck, ?_⟩
    rcases hall _ hv with hv | hv
    · exact .inl (Verdict.classify_of_result hv (by decide))
    · exact .inr (Verdict.classify_of_result hv (by decide))
  refine ⟨piece, hpiece, ?_, ?_, ?_⟩
  · obtain ⟨⟨p, v⟩, hmem, hv⟩ := List.mem_map.mp hsome
    have hp : p ∈ piece.delivered :=
      (hana.complete hf hb he).1 ▸ List.mem_map.mpr ⟨_, hmem, rfl⟩
    have hjudged : Run.Judged _ iteration piece p v := hana.each _ hmem
    exact ⟨p, hp, _, hjudged.stored, hjudged.index_eq, congrArg some hv⟩
  · intro p hp S ρ htaken
    obtain ⟨es, v, hes, hcheck, hv⟩ := hchecked p hp
    have hsound := sound p (hcan _ (hsub (mem_delivered.mp hp)))
    have hcan' : ∀ e ∈ es, env.CanEmit e := fun e he => hcan e (hsub (hes he))
    rcases hv with hv | hv
    · exact Oracle.agreesOn_of_classify_eq hsound hcheck hcan' hv S ρ htaken
    · exact absurd htaken
        (Oracle.not_takenOn_of_classify_unreachable hsound hcheck hcan' hv S ρ)
  · intro p hp
    obtain ⟨es, v, hes, hcheck, hv⟩ := hchecked p hp
    rcases hv with hv | hv
    · obtain ⟨-, -, hdepth, -, huif⟩ := Verdict.classify_eq_ok_eq.mp hv
      obtain ⟨statuses, failure, runtime, -, rfl⟩ := hcheck
      refine .inr ⟨hdepth, ?_⟩
      rw [← Expr.hasUif_iff, Bool.not_eq_true]
      exact huif
    · obtain ⟨q, answer, hrecorded, hstatus⟩ := hcheck.recorded_of_unreachable hv
      exact .inl ⟨iteration, q, answer, hes hrecorded, hstatus⟩

/-- The answers about the small environment are right. -/
theorem refutesSoundly_unchanged : ∀ p,
    (Environment.delivering unchanged agreeing).CanEmit (.pulled (.done (.ok (some p)))) →
      Oracle.RefutesSoundly (Environment.delivering unchanged agreeing).CanEmit .zero
        (Settings.default 1).solver.timeoutMs p := by
  rintro p ⟨d, s, hs⟩
  have hp : p = unchanged := by
    cases s with
    | true => cases hs
    | false => cases hs; rfl
  subst hp
  rintro kind conditions ⟨hconds, q, answer, hbuild, ⟨d, hcan⟩, hstatus⟩
  have htells := QueryDesk.tells_answering ⟨hconds, q, answer, hbuild, hcan, hstatus⟩
  cases kind with
  | pc | eq => cases htells.2
  | neq =>
    cases hconds
    rintro ⟨S, ρ, hholds⟩
    obtain ⟨n, hn⟩ := S.exists_uif_eq_int "f" [ρ.value "x" .int]
    have hvalue : (Expr.uif "f" .int [.var "x" .int]).eval .zero S ρ = some (.int n) := by
      simp [Expr.eval, Expr.evals, hn]
    have hne : (Expr.mk .ne (.uif "f" .int [.var "x" .int])
        (.uif "f" .int [.var "x" .int])).Holds .zero S ρ :=
      hholds _ (List.mem_cons_of_mem _ List.mem_cons_self)
    exact (Expr.holds_mk rfl hvalue hvalue rfl rfl).mp hne rfl

theorem equalityHolds_unchanged :
    ∃ (outcome : RunOutcome) (piece : History), outcome.classification = .eq ∧
      ((Settings.default 1).history (.delivering unchanged agreeing) { benchmark := "f" }
        false).iterations.getLast? = some piece ∧ EqualityHolds .zero piece := by
  have hrun : (((Settings.default 1).analyze (.delivering unchanged agreeing)
      { benchmark := "f" }).run false).1.toOption.map (·.classification) = some .eq := by
    decide +kernel
  cases hr : (((Settings.default 1).analyze (.delivering unchanged agreeing)
      { benchmark := "f" }).run false).1 with
  | error e =>
    rw [hr] at hrun
    cases hrun
  | ok outcome =>
    rw [hr] at hrun
    have heq : outcome.classification = .eq := Option.some.inj hrun
    obtain ⟨piece, hpiece, hholds⟩ := agreesOn_of_run_eq refutesSoundly_unchanged hr heq
    exact ⟨outcome, piece, heq, hpiece, hholds⟩

end Regression
