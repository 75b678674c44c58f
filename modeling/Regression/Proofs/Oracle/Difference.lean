import Regression.Proofs.Oracle.Soundness

/-!
# Different results may depend on uninterpreted symbols

A verdict `neq` says that the versions differ, however much of the path is abstracted. With a
trustworthy solver this is so under every interpretation of the uninterpreted symbols for which the
path is taken at all, except that the logarithm is not noticed among results without uninterpreted
functions.

* `Oracle.differsOn_of_classify_neq`: the versions differ somewhere on the path.
* `Oracle.isArtifact_guarded_and_logarithm`: neither exception can be left out.
* `Oracle.neq_without_sat_iff`: when results count as different without any answer `sat`.
-/

namespace Regression

namespace Oracle

/-! ## Results that differ -/

section

variable {σ : Type} (desk : QueryDesk (StateM σ)) (timeoutMs : UInt64) (iteration : UInt32)
  (p : Partition) (s : σ)

/-- What is asked of the desk for the verdict on a partition. -/
def checkHistory : History := historyOf (check desk.observed timeoutMs iteration p) s

theorem checks_checkHistory :
    Checks timeoutMs iteration p (checkHistory desk timeoutMs iteration p s)
        ((check desk timeoutMs iteration p).run s).1 ∧
      ∀ e ∈ checkHistory desk timeoutMs iteration p s, desk.CanEmit e :=
  (shows_check desk timeoutMs iteration p).holds s

variable {desk timeoutMs iteration p s}

/-- A path that is taken under some interpretation is taken under every other one, unless it is
restricted by uninterpreted symbols. -/
theorem exists_takenOn_of_tells {A : Arithmetic}
    (sound : ConfirmsSoundly desk.CanEmit A timeoutMs p)
    (hpc : Tells desk.CanEmit timeoutMs p .pc [p.pc] .sat) {S : Symbols}
    (hS : p.pc.isAbstract = true → ∃ ρ, p.TakenOn A S ρ) : ∃ ρ, p.TakenOn A S ρ := by
  by_cases habs : p.pc.isAbstract = true
  · exact hS habs
  · obtain ⟨S₀, ρ, hholds⟩ := sound _ _ hpc
    have htaken : p.TakenOn A S₀ ρ := hholds _ List.mem_cons_self
    exact ⟨ρ, (Partition.takenOn_congr (by simpa using habs) S).mp htaken⟩

variable (desk timeoutMs iteration p s)

/-- Versions with different results differ under any interpretation for which the path is taken,
unless the logarithm hides among results without uninterpreted functions. -/
theorem differsOn_of_classify_neq {A : Arithmetic}
    (confirms : ConfirmsSoundly desk.CanEmit A timeoutMs p)
    (refutes : RefutesSoundly desk.CanEmit A timeoutMs p)
    (hpc : ((check desk timeoutMs iteration p).run s).1.pcStatus = some .sat)
    (hneq : ((check desk timeoutMs iteration p).run s).1.classify = .ok .neq)
    (hlog : p.hasUif = true ∨ p.v1.raised? ≠ p.v2.raised? ∨ p.hasLog = false)
    (S : Symbols) (hS : p.pc.isAbstract = true → ∃ ρ, p.TakenOn A S ρ) :
    ∃ ρ, p.TakenOn A S ρ ∧ p.DiffersOn A S ρ := by
  obtain ⟨⟨statuses, failure, runtime, hinv, hv⟩, hcan⟩ :=
    checks_checkHistory desk timeoutMs iteration p s
  rw [hv] at hpc hneq
  change statuses.pc = some .sat at hpc
  obtain ⟨-, herr, -, hsat, hcertain⟩ := Verdict.classify_eq_ok_neq.mp hneq
  change failure.map Failure.message = none at herr
  change statuses.neq = some .sat at hsat
  change p.hasUif = false ∨ statuses.eq = some .unsat at hcertain
  generalize checkHistory desk timeoutMs iteration p s = es at hinv hcan
  cases hinv with
  | failed => cases hpc
  | unreachable => cases hpc
  | raised pc_eq _ raises =>
    cases hpc
    obtain ⟨ρ, htaken⟩ := exists_takenOn_of_tells confirms (pc_eq.tells hcan rfl) hS
    exact ⟨ρ, htaken, .inl ((compareRaised_neq_sat raises).mp hsat)⟩
  | @compared es es' _ _ _ _ pc_eq _ v1_eq v2_eq compares =>
    have hcan₁ : ∀ e ∈ es, desk.CanEmit e := fun e he => hcan e (List.mem_append_left _ he)
    have hcan₂ : ∀ e ∈ es', desk.CanEmit e := fun e he => hcan e (List.mem_append_right _ he)
    cases compares with
    | failed => cases hsat
    | decided neq_eq certain =>
      -- Without uninterpreted symbols one interpretation is as good as another.
      cases hsat
      have huif : p.hasUif = false := certain rfl
      have hnolog : p.hasLog = false := by
        rw [huif, Outcome.raised?_of_expr? v1_eq, Outcome.raised?_of_expr? v2_eq] at hlog
        simpa using hlog
      obtain ⟨S₀, ρ, htaken, a, b, ha, hb, hab⟩ :=
        neq_eq.value?_of_sat confirms hcan₂ v1_eq v2_eq rfl
      have hdiffers : p.DiffersOn A S₀ ρ := .inr ⟨a, b, ha, hb, by simpa using hab⟩
      exact ⟨ρ, (Partition.takenOn_congr (Partition.isAbstract_pc huif hnolog) S).mp htaken,
        (Partition.differsOn_congr huif hnolog S).mp hdiffers⟩
    | undecided => cases herr
    | @weighed es es' eq neq abstract eq_eq =>
      -- The results agree under no interpretation.
      cases hpc
      have hunsat : eq = .unsat := by simpa [abstract] using hcertain
      subst hunsat
      have hcan₃ : ∀ e ∈ es', desk.CanEmit e := fun e he => hcan₂ e (List.mem_append_right _ he)
      obtain ⟨ρ, htaken⟩ := exists_takenOn_of_tells confirms (pc_eq.tells hcan₁ rfl) hS
      obtain ⟨a, b, ha, hb, hab⟩ := eq_eq.value?_of_unsat refutes hcan₃ v1_eq v2_eq rfl htaken
      exact ⟨ρ, htaken, .inr ⟨a, b, ha, hb, by simpa using hab⟩⟩

end

/-- The path can be taken and the results can differ, but they cannot agree. -/
def differing : QueryKind → Status
  | .pc | .neq => .sat
  | .eq => .unsat

/-- What both versions compute by an abstracted function. -/
def abstracted : Expr := .uif "f" .int [.var "x" .int]

/-- One version returns one more than the other one. -/
def successor : Partition :=
  { index := 1
    pc := .mk .gt (.var "x" .int) (.int 0)
    v1 := .symbolic abstracted
    v2 := .symbolic (.mk .add abstracted (.int 1)) }

/-- Whatever the abstracted function is, its value is a number that is not its own successor. -/
theorem holds_successor (S : Symbols) (ρ : Inputs) :
    (Expr.mk .ne abstracted (.mk .add abstracted (.int 1))).Holds .zero S ρ ∧
      ¬ (Expr.mk .eq abstracted (.mk .add abstracted (.int 1))).Holds .zero S ρ := by
  obtain ⟨n, hn⟩ := S.exists_uif_eq_int "f" [ρ.value "x" .int]
  have hl : abstracted.eval .zero S ρ = some (.int n) := by
    simp [abstracted, Expr.eval, Expr.evals, hn]
  have hr : (Expr.mk .add abstracted (.int 1)).eval .zero S ρ = some (.int (n + 1)) := by
    rw [Expr.mk, Expr.eval, hl]
    rfl
  rw [Expr.holds_mk rfl hl hr rfl rfl, Expr.holds_mk rfl hl hr rfl rfl]
  simp [Operator.compares]

theorem differsOn_successor :
    ∃ ρ, successor.TakenOn .zero (.constant 0 true) ρ ∧
      successor.DiffersOn .zero (.constant 0 true) ρ := by
  have htaken : successor.pc.Holds .zero (.constant 0 true) (.constant 1 true) := by
    have hzero : (0 : Int64).toInt = 0 := rfl
    exact (Expr.holds_mk rfl rfl rfl rfl rfl).mpr (by simp [Operator.compares, hzero])
  refine differsOn_of_classify_neq (.answering differing) 1000 1 successor () ?confirms ?refutes
    rfl rfl (.inl rfl) _ (fun h => absurd h (by decide))
  case confirms =>
    intro kind conditions htells
    obtain ⟨hconds, hstatus⟩ := QueryDesk.tells_answering htells
    refine ⟨.constant 0 true, .constant 1 true, ?_⟩
    cases kind with
    | pc => cases hconds; simpa using htaken
    | neq => cases hconds; simpa using ⟨htaken, (holds_successor _ _).1⟩
    | eq => cases hstatus
  case refutes =>
    intro kind conditions htells
    obtain ⟨hconds, hstatus⟩ := QueryDesk.tells_answering htells
    cases kind with
    | pc | neq => cases hstatus
    | eq =>
      cases hconds
      rintro ⟨S, ρ, hholds⟩
      exact (holds_successor S ρ).2 (hholds _ (List.mem_cons_of_mem _ List.mem_cons_self))

/-! ## Artifacts of abstraction -/

/-- A verdict `neq` that vanishes under some interpretation of the symbols, although all answers are
right. -/
structure IsArtifact (A : Arithmetic) (desk : QueryDesk (StateM Unit)) (p : Partition) : Prop where
  confirms : ConfirmsSoundly desk.CanEmit A 1000 p
  refutes : RefutesSoundly desk.CanEmit A 1000 p
  taken : ((check desk 1000 1 p).run ()).1.pcStatus = some .sat
  neq : ((check desk 1000 1 p).run ()).1.classify = .ok .neq
  vanishes : ∃ S, ∀ ρ, ¬ (p.TakenOn A S ρ ∧ p.DiffersOn A S ρ)

/-- An abstracted function restricts the path. -/
def guarded : Partition :=
  { index := 1, pc := .uif "f" .bool [], v1 := .concrete (.int 0), v2 := .concrete (.int 1) }

/-- The logarithm is one of the results. -/
def logarithm : Partition :=
  { index := 1, pc := .bool true, v1 := .symbolic (.math .log [.int 1]), v2 := .concrete (.int 0) }

theorem isArtifact_guarded : IsArtifact .zero (.answering differing) guarded := by
  have hzero : (0 : Int64).toInt = 0 := rfl
  have hone : (1 : Int64).toInt = 1 := rfl
  refine ⟨?confirms, ?refutes, rfl, rfl, ?vanishes⟩
  case confirms =>
    intro kind conditions htells
    obtain ⟨hconds, hstatus⟩ := QueryDesk.tells_answering htells
    have htaken : guarded.pc.Holds .zero (.constant 0 true) (.constant 0 true) := by
      simp [guarded, Expr.Holds, Expr.eval, Expr.evals, Symbols.constant, Datum.pick]
    have hne : (Expr.mk .ne (.int 0) (.int 1)).Holds .zero (.constant 0 true) (.constant 0 true) :=
      (Expr.holds_mk rfl rfl rfl rfl rfl).mpr (by simp [Operator.compares, hzero, hone])
    refine ⟨.constant 0 true, .constant 0 true, ?_⟩
    cases kind with
    | pc => cases hconds; simpa using htaken
    | neq => cases hconds; simpa using ⟨htaken, hne⟩
    | eq => cases hstatus
  case refutes =>
    intro kind conditions htells
    obtain ⟨hconds, hstatus⟩ := QueryDesk.tells_answering htells
    cases kind with
    | pc | neq => cases hstatus
    | eq =>
      cases hconds
      rintro ⟨S, ρ, hholds⟩
      have heq : (Expr.mk .eq (.int 0) (.int 1)).Holds .zero S ρ :=
        hholds _ (List.mem_cons_of_mem _ List.mem_cons_self)
      have hvalues := (Expr.holds_mk rfl rfl rfl rfl rfl).mp heq
      simp [Operator.compares, hzero, hone] at hvalues
  case vanishes =>
    refine ⟨.constant 0 false, fun ρ h => ?_⟩
    have htaken : guarded.pc.Holds .zero (.constant 0 false) ρ := h.1
    simp [guarded, Expr.Holds, Expr.eval, Expr.evals, Symbols.constant, Datum.pick] at htaken

theorem isArtifact_logarithm : IsArtifact .zero (.answering fun _ => .sat) logarithm := by
  have hzero : (0 : Int64).toInt = 0 := rfl
  have hlog (n : ℤ) (ρ : Inputs) : (Expr.math .log [.int 1]).eval .zero (.constant n true) ρ =
      some (.real n) := by
    simp [Expr.eval, Expr.evals, Expr.int, Constant.value?, Datum.number?, MathFunction.apply,
      Symbols.constant]
  refine ⟨?confirms, ?refutes, rfl, rfl, ?vanishes⟩
  case confirms =>
    intro kind conditions htells
    obtain ⟨hconds, -⟩ := QueryDesk.tells_answering htells
    have htaken (n : ℤ) : logarithm.pc.Holds .zero (.constant n true) (.constant 0 true) := rfl
    have hne : (Expr.mk .ne (.math .log [.int 1]) (.int 0)).Holds .zero (.constant 1 true)
        (.constant 0 true) :=
      (Expr.holds_mk rfl (hlog 1 _) rfl rfl rfl).mpr (by simp [Operator.compares, hzero])
    have heq : (Expr.mk .eq (.math .log [.int 1]) (.int 0)).Holds .zero (.constant 0 true)
        (.constant 0 true) :=
      (Expr.holds_mk rfl (hlog 0 _) rfl rfl rfl).mpr (by simp [Operator.compares, hzero])
    cases kind with
    | pc => cases hconds; exact ⟨_, _, by simpa using htaken 0⟩
    | neq => cases hconds; exact ⟨_, _, by simpa using ⟨htaken 1, hne⟩⟩
    | eq => cases hconds; exact ⟨_, _, by simpa using ⟨htaken 0, heq⟩⟩
  case refutes =>
    intro kind conditions htells
    obtain ⟨-, hstatus⟩ := QueryDesk.tells_answering htells
    cases hstatus
  case vanishes =>
    refine ⟨.constant 0 true, fun ρ h => ?_⟩
    have hagree : logarithm.AgreesOn .zero (.constant 0 true) ρ := by
      refine .inr ⟨_, _, hlog 0 ρ, rfl, ?_⟩
      simp [Datum.Agree, Datum.promoted, hzero]
    exact hagree.not_differsOn h.2

theorem isArtifact_guarded_and_logarithm :
    IsArtifact .zero (.answering differing) guarded ∧
      IsArtifact .zero (.answering fun _ => .sat) logarithm :=
  ⟨isArtifact_guarded, isArtifact_logarithm⟩

/-! ## Answers that are unknown -/

section

variable {σ : Type} (desk : QueryDesk (StateM σ)) (timeoutMs : UInt64) (iteration : UInt32)
  (p : Partition) (s : σ)

/-- Results count as different without any answer `sat` exactly where one version raises an error
that the other one does not raise, while it is unknown whether the path is taken. -/
theorem neq_without_sat_iff :
    ((check desk timeoutMs iteration p).run s).1.classify = .ok .neq ∧
        .sat ∉ (checkHistory desk timeoutMs iteration p s).answers ↔
      p.v1.raised? ≠ p.v2.raised? ∧ p.depthLimited = false ∧
        ((check desk timeoutMs iteration p).run s).1.pcStatus = some .unknown := by
  obtain ⟨⟨statuses, failure, runtime, hinv, hv⟩, -⟩ :=
    checks_checkHistory desk timeoutMs iteration p s
  rw [hv, Verdict.classify_eq_ok_neq]
  generalize checkHistory desk timeoutMs iteration p s = es at hinv
  cases hinv with
  | failed => simp [conclude]
  | unreachable => simp [conclude]
  | @raised _ pc pc_eq open_ raises =>
    rw [pc_eq.answers_eq, ← compareRaised_neq_sat raises]
    constructor
    · rintro ⟨⟨-, -, hdepth, hsat, -⟩, hanswers⟩
      cases pc with
      | sat => simp at hanswers
      | unsat => exact absurd rfl open_
      | unknown => exact ⟨hsat, hdepth, rfl⟩
    · rintro ⟨hsat, hdepth, hpc⟩
      cases hpc
      refine ⟨⟨by simp [conclude], rfl, hdepth, hsat, .inr ?_⟩, by simp⟩
      exact compareRaised_eq_unsat hsat
  | compared _ _ v1_eq v2_eq compares =>
    rw [Outcome.raised?_of_expr? v1_eq, Outcome.raised?_of_expr? v2_eq]
    refine iff_of_false ?_ fun h => h.1 rfl
    rintro ⟨⟨-, -, -, hsat, -⟩, hanswers⟩
    cases compares with
    | failed => cases hsat
    | decided neq_eq =>
      cases hsat
      simp [neq_eq.answers_eq] at hanswers
    | undecided neq => simp [neq.answers_eq] at hanswers
    | weighed neq => simp [neq.answers_eq] at hanswers

end

/-- A raised error, and a desk that never knows. -/
example :
    ((check (.answering fun _ => .unknown) 1000 1
      { index := 1, pc := .bool true, v1 := .raised "E", v2 := .concrete (.int 0) }).run
        ()).1.classify = .ok .neq :=
  rfl

end Oracle

end Regression
