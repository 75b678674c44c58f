import Regression.Proofs.Oracle.Difference
import Regression.Proofs.Oracle.Protocol
import Regression.Proofs.Run.Invariants
import Regression.Proofs.Script.Collected

/-!
# Versions that change places

A verdict does not depend on which version comes first, as long as nobody at the desk minds the
order in which the two sides of an equality or disequality are written. It does depend on it which
operator relates the results, and where a result is rejected that has no sort or no form in scripts;
but either way both orders are rejected.

* `Query.exists_build_exchanged`: the sides of an equality may change places.
* `Oracle.exists_posed_exchanged`: a query about two results can be posed in both orders or in none.
* `Oracle.check_exchanged`: the verdicts on a partition and on the one with the versions exchanged.
-/

namespace Regression

open Script

/-! ## Equalities -/

namespace Operator

/-- The operators that assert that two results are equal, or that they differ. -/
inductive IsEquality : Operator → Prop
  | eq : IsEquality .eq
  | ne : IsEquality .ne
  | equals : IsEquality .equals
  | notEquals : IsEquality .notEquals

/-- Equality of texts compares texts; any other equality compares numbers, or two of one sort. -/
def Equates (op : Operator) (ls rs : ValueSort) : Prop :=
  if op.kind = .stringPredicate then ls = .string ∧ rs = .string
  else ls.isNumeric ∧ rs.isNumeric ∨ ls = rs

theorem Equates.symm {op : Operator} {ls rs : ValueSort} (h : op.Equates ls rs) :
    op.Equates rs ls := by
  unfold Equates at h ⊢
  split
  · next hkind =>
    rw [if_pos hkind] at h
    exact h.symm
  · next hkind =>
    rw [if_neg hkind] at h
    exact h.imp And.symm Eq.symm

end Operator

namespace Script.Term

variable {op : Operator} {l r : Term} {ls rs : ValueSort}

/-- What an equality can compare has a form. -/
theorem exists_renders_of_equates (hop : op.IsEquality) (h : op.Equates ls rs) :
    ∃ t, Renders op l r ls rs t .bool := by
  cases hop with
  | eq | ne =>
    by_cases hnumeric : ls.isNumeric ∧ rs.isNumeric
    · exact ⟨_, .numbers rfl hnumeric.1 hnumeric.2⟩
    · obtain rfl : ls = rs := h.resolve_left hnumeric
      exact ⟨_, .alike (by simp) (by simpa using hnumeric)⟩
  | equals | notEquals =>
    obtain ⟨rfl, rfl⟩ := h
    exact ⟨_, .stringPredicate rfl⟩

/-- Nothing else has one. -/
theorem Renders.equates (hop : op.IsEquality) {t : Term} {s : ValueSort}
    (h : Renders op l r ls rs t s) : op.Equates ls rs := by
  cases hop with
  | eq | ne =>
    cases h with
    | numbers _ left right => exact .inl ⟨left, right⟩
    | alike => exact .inr rfl
    | power power => cases power
    | arithmetic kind | boolean kind | stringPredicate kind => cases kind
  | equals | notEquals =>
    cases h with
    | numbers kind | arithmetic kind | boolean kind => cases kind
    | alike equality => rcases equality with h | h <;> cases h
    | power power => cases power
    | stringPredicate => exact ⟨rfl, rfl⟩

end Script.Term

/-- An equality is asserted if both sides have terms that it can compare. -/
theorem exists_assertion_iff {op : Operator} (hop : op.IsEquality) {v1 v2 : Expr} :
    (∃ t, assertion (.mk op v1 v2) = .ok t) ↔ ∃ l ls r rs, v1.term = .ok (l, ls) ∧
      v2.term = .ok (r, rs) ∧ op.Equates ls rs := by
  constructor
  · rintro ⟨t, h⟩
    obtain ⟨⟨t', s⟩, hterm, -⟩ := bind_eq_ok.mp h
    rw [Expr.mk, Expr.term] at hterm
    obtain ⟨⟨l, ls⟩, hl, hterm⟩ := bind_eq_ok.mp hterm
    obtain ⟨⟨r, rs⟩, hr, hbinary⟩ := bind_eq_ok.mp hterm
    exact ⟨l, ls, r, rs, hl, hr, (Term.renders_of_binary hbinary).equates hop⟩
  · rintro ⟨l, ls, r, rs, hl, hr, hequates⟩
    obtain ⟨t, ht⟩ := Term.exists_renders_of_equates (l := l) (r := r) hop hequates
    have hterm : (Expr.mk op v1 v2).term = .ok (t, .bool) := by
      rw [Expr.mk, Expr.term]
      exact bind_eq_ok.mpr ⟨_, hl, bind_eq_ok.mpr ⟨_, hr, ht.binary_eq⟩⟩
    exact ⟨t, bind_eq_ok.mpr ⟨_, hterm, rfl⟩⟩

/-- The sides of an equality may change places. -/
theorem Query.exists_build_exchanged {kind : QueryKind} {pc v1 v2 : Expr} {op : Operator}
    {timeoutMs : UInt64} {q : Query} (hop : op.IsEquality)
    (h : Query.build kind [pc, .mk op v1 v2] timeoutMs = .ok q) :
    ∃ q', Query.build kind [pc, .mk op v2 v1] timeoutMs = .ok q' := by
  have hterms := Query.assertion_of_build h
  rw [build] at h
  obtain ⟨script, hscript, -⟩ := bind_eq_ok.mp h
  have huses (u : Use) : u ∈ [pc, Expr.mk op v2 v1].flatMap Expr.uses ↔
      u ∈ [pc, Expr.mk op v1 v2].flatMap Expr.uses := by
    simp only [Expr.mk, Expr.uses, List.flatMap_cons, List.flatMap_nil, List.append_nil,
      List.mem_append]
    tauto
  have hassertions : ∀ e ∈ [pc, Expr.mk op v2 v1], ∃ t, assertion e = .ok t := by
    refine List.forall_mem_cons.mpr ⟨hterms pc List.mem_cons_self, ?_⟩
    rw [List.forall_mem_singleton, exists_assertion_iff hop]
    obtain ⟨l, ls, r, rs, hl, hr, hequates⟩ := (exists_assertion_iff hop).mp
      (hterms _ (List.mem_cons_of_mem _ List.mem_cons_self))
    exact ⟨r, rs, l, ls, hr, hl, hequates.symm⟩
  obtain ⟨script', hscript'⟩ := exists_ofAssertions_of_uses ⟨script, hscript⟩ huses hassertions
  exact ⟨_, bind_eq_ok.mpr ⟨script', hscript', rfl⟩⟩

/-! ## Queries about two results -/

/-- The two queries are the same, or one of them asserts an equality of which the other one asserts
with the sides exchanged. -/
inductive Query.Exchanged : Query → Query → Prop
  | same (q : Query) : Exchanged q q
  | exchanged {kind : QueryKind} {pc v1 v2 : Expr} {op : Operator} {timeoutMs : UInt64}
    {q q' : Query} (equality : op.IsEquality)
    (build : Query.build kind [pc, .mk op v1 v2] timeoutMs = .ok q)
    (build' : Query.build kind [pc, .mk op v2 v1] timeoutMs = .ok q') : Exchanged q q'

namespace Oracle

/-- The operator that relates two results, by the sort of the first one. -/
def relator (sort : ValueSort) (equal : Bool) : Operator :=
  if sort = .string then (if equal then .equals else .notEquals)
  else if equal then .eq else .ne

theorem isEquality_relator (sort : ValueSort) (equal : Bool) :
    (relator sort equal).IsEquality := by
  unfold relator
  split
  · cases equal
    · exact .notEquals
    · exact .equals
  · cases equal
    · exact .ne
    · exact .eq

/-- If an operator can compare two results, the second one would choose the same. -/
theorem relator_eq_of_equates {ls rs : ValueSort} {equal : Bool}
    (h : (relator ls equal).Equates ls rs) : relator rs equal = relator ls equal := by
  by_cases hstring : ls = .string
  · subst hstring
    have hrs : rs = .string := by cases equal <;> exact h.2
    rw [hrs]
  · have hrs : rs ≠ .string := by
      rintro rfl
      have hneither : ls.isNumeric ∧ ValueSort.string.isNumeric ∨ ls = .string := by
        rw [relator, if_neg hstring] at h
        cases equal <;> exact h
      rcases hneither with ⟨-, hnumeric⟩ | hls
      · cases hnumeric
      · exact hstring hls
    rw [relator, relator, if_neg hstring, if_neg hrs]

/-- The query about two results. -/
def posed (kind : QueryKind) (pc v1 v2 : Expr) (equal : Bool) (timeoutMs : UInt64) :
    Except Malformed Query := do
  Query.build kind [pc, ← relate v1 v2 equal] timeoutMs

/-- A query about two results can be posed in both orders or in none. -/
theorem exists_posed_exchanged {kind : QueryKind} {pc v1 v2 : Expr} {equal : Bool}
    {timeoutMs : UInt64} {q : Query} (h : posed kind pc v1 v2 equal timeoutMs = .ok q) :
    ∃ q', posed kind pc v2 v1 equal timeoutMs = .ok q' ∧ q.Exchanged q' := by
  obtain ⟨relation, hrelate, hbuild⟩ := bind_eq_ok.mp h
  obtain ⟨sort, hsort, hrelation⟩ := relate_eq_ok hrelate
  have hrelation : relation = .mk (relator sort equal) v1 v2 := hrelation
  subst hrelation
  have hop := isEquality_relator sort equal
  obtain ⟨q', hbuild'⟩ := Query.exists_build_exchanged hop hbuild
  refine ⟨q', bind_eq_ok.mpr ⟨_, ?_, hbuild'⟩, .exchanged hop hbuild hbuild'⟩
  -- Both results have sorts, since the query has a form; the second one chooses the same operator.
  obtain ⟨l, ls, r, rs, hl, hr, hequates⟩ := (exists_assertion_iff hop).mp
    (Query.assertion_of_build hbuild _ (List.mem_cons_of_mem _ List.mem_cons_self))
  cases hsort.symm.trans (Expr.sort?_of_term hl)
  rw [← relator_eq_of_equates hequates]
  exact bind_eq_ok.mpr ⟨rs, Expr.sort?_of_term hr, rfl⟩

end Oracle

/-! ## Desks that do not mind -/

section

variable {σ α β : Type} {R : σ → σ → Prop}

/-- At the desk it does not matter in which order the sides of an equality are written: how queries
are answered and their answers kept, from states that do not differ otherwise. -/
structure QueryDesk.Symmetric (R : σ → σ → Prop) (desk : QueryDesk (StateM σ)) : Prop where
  now : (Coupling.ofStates R).Rel (fun _ _ => True) desk.now desk.now
  isCancelled : (Coupling.ofStates R).Rel Eq desk.isCancelled desk.isCancelled
  ask {q q' : Query} (exchanged : q.Exchanged q') :
    (Coupling.ofStates R).Rel Eq (desk.ask q) (desk.ask q')
  record {q q' : Query} (key : QueryKey) (exchanged : q.Exchanged q') (answer : Answer) :
    (Coupling.ofStates R).Rel Eq (desk.record key q answer) (desk.record key q' answer)

/-- Both computations fail, or they have the same result and keep the states related. -/
def EndsAlike (R : σ → σ → Prop) (x y : StateM σ (Except Failure α)) : Prop :=
  ∀ s t, R s t → (∃ e e', (x.run s).1 = .error e ∧ (y.run t).1 = .error e') ∨
    ∃ a, (x.run s).1 = .ok a ∧ (y.run t).1 = .ok a ∧ R (x.run s).2 (y.run t).2

/-- A computation fails from every state. -/
def Fails (x : StateM σ (Except Failure α)) : Prop := ∀ s, ∃ e, (x.run s).1 = .error e

theorem fails_error (e : Failure) : Fails (pure (.error e) : StateM σ (Except Failure α)) :=
  fun _ => ⟨e, rfl⟩

theorem Fails.bind {x : StateM σ β} {f : β → StateM σ (Except Failure α)}
    (hf : ∀ b, Fails (f b)) : Fails (x >>= f) :=
  fun s => hf (x.run s).1 (x.run s).2

namespace EndsAlike

theorem fails {x y : StateM σ (Except Failure α)} (hx : Fails x) (hy : Fails y) :
    EndsAlike R x y := by
  intro s t _
  obtain ⟨e, he⟩ := hx s
  obtain ⟨e', he'⟩ := hy t
  exact .inl ⟨e, e', he, he'⟩

theorem ok (a : α) : EndsAlike R (pure (.ok a)) (pure (.ok a)) :=
  fun _ _ hR => .inr ⟨a, rfl, rfl, hR⟩

theorem bind {x y : StateM σ β} {f g : β → StateM σ (Except Failure α)}
    (hx : (Coupling.ofStates R).Rel Eq x y) (hf : ∀ b, EndsAlike R (f b) (g b)) :
    EndsAlike R (x >>= f) (y >>= g) := by
  intro s t hR
  obtain ⟨heq, hR'⟩ := hx s t hR
  have hresult : (y >>= g).run t = (g (x.run s).1).run (y.run t).2 := by
    rw [heq]
    rfl
  rw [hresult]
  exact hf (x.run s).1 _ _ hR'

end EndsAlike

namespace QueryDesk.Symmetric

open Oracle

variable {desk : QueryDesk (StateM σ)} {timeoutMs : UInt64} {key : QueryKey}

theorem query_exchanged (h : desk.Symmetric R) {conditions conditions' : List Expr} {q q' : Query}
    (hbuild : Query.build key.kind conditions timeoutMs = .ok q)
    (hbuild' : Query.build key.kind conditions' timeoutMs = .ok q') (exchanged : q.Exchanged q') :
    EndsAlike R (query desk timeoutMs key conditions) (query desk timeoutMs key conditions') := by
  refine .bind h.isCancelled fun cancelled => ?_
  cases cancelled with
  | true => exact .fails (fails_error _) (fails_error _)
  | false =>
    simp only [Bool.false_eq_true, if_false, hbuild, hbuild']
    refine .bind (h.ask exchanged) fun result => ?_
    rcases result with e | answer
    · exact .fails (fails_error _) (fails_error _)
    refine .bind (h.record key exchanged answer) fun result => ?_
    rcases result with e | ⟨⟩
    · exact .fails (fails_error _) (fails_error _)
    · exact .ok answer.status

theorem fails_query {conditions : List Expr} {m : Malformed}
    (hbuild : Query.build key.kind conditions timeoutMs = .error m) :
    Fails (query desk timeoutMs key conditions) := by
  refine .bind fun cancelled => ?_
  cases cancelled with
  | true => exact fails_error _
  | false =>
    simp only [Bool.false_eq_true, if_false, hbuild]
    exact fails_error _

theorem query (h : desk.Symmetric R) (conditions : List Expr) :
    EndsAlike R (query desk timeoutMs key conditions) (query desk timeoutMs key conditions) := by
  cases hbuild : Query.build key.kind conditions timeoutMs with
  | ok q => exact h.query_exchanged hbuild hbuild (.same q)
  | error m => exact .fails (fails_query hbuild) (fails_query hbuild)

/-- Without a query nothing is answered. -/
theorem fails_queryRelation {pc v1 v2 : Expr} {equal : Bool} {m : Malformed}
    (hposed : posed key.kind pc v1 v2 equal timeoutMs = .error m) :
    Fails (queryRelation desk timeoutMs key pc v1 v2 equal) := by
  unfold queryRelation
  cases hrelate : relate v1 v2 equal with
  | error m' => exact fails_error _
  | ok relation =>
    have hbuild : Query.build key.kind [pc, relation] timeoutMs = .error m := by
      rw [posed, hrelate] at hposed
      exact hposed
    exact fails_query hbuild

theorem queryRelation_exchanged (h : desk.Symmetric R) (pc v1 v2 : Expr) (equal : Bool) :
    EndsAlike R (queryRelation desk timeoutMs key pc v1 v2 equal)
      (queryRelation desk timeoutMs key pc v2 v1 equal) := by
  cases hposed : posed key.kind pc v1 v2 equal timeoutMs with
  | ok q =>
    obtain ⟨q', hposed', exchanged⟩ := exists_posed_exchanged hposed
    obtain ⟨relation, hrelate, hbuild⟩ := bind_eq_ok.mp hposed
    obtain ⟨relation', hrelate', hbuild'⟩ := bind_eq_ok.mp hposed'
    rw [queryRelation, queryRelation, hrelate, hrelate']
    exact h.query_exchanged hbuild hbuild' exchanged
  | error m =>
    refine .fails (fails_queryRelation hposed) ?_
    cases hposed' : posed key.kind pc v2 v1 equal timeoutMs with
    | error m' => exact fails_queryRelation hposed'
    | ok q' =>
      obtain ⟨q, hposed'', -⟩ := exists_posed_exchanged hposed'
      cases hposed.symm.trans hposed''

end QueryDesk.Symmetric

end

/-! ## Verdicts -/

namespace Partition

/-- The partition with the versions exchanged. -/
def exchanged (p : Partition) : Partition := { p with v1 := p.v2, v2 := p.v1 }

theorem hasUif_exchanged (p : Partition) : p.exchanged.hasUif = p.hasUif :=
  Bool.or_right_comm _ _ _

end Partition

namespace Oracle

/-- A classification does not depend on the version in which a function occurs. -/
theorem classify_exchanged (f : PartitionFacts) :
    { f with hasUifV1 := f.hasUifV2, hasUifV2 := f.hasUifV1 }.classify = f.classify := by
  have huif : { f with hasUifV1 := f.hasUifV2, hasUifV2 := f.hasUifV1 }.hasUif = f.hasUif :=
    Bool.or_right_comm _ _ _
  simp only [PartitionFacts.classify, PartitionFacts.compare, huif]

theorem compareRaised_comm (v1 v2 : Outcome) : compareRaised v2 v1 = compareRaised v1 v2 := by
  unfold compareRaised
  by_cases hsame : v1.raised? = v2.raised?
  · rw [hsame]
  · rw [if_neg (by simp [Ne.symm hsame]), if_neg (by simp [hsame])]

/-- The same answers are known, and there is a failure in both or in none. -/
def SameFindings (r r' : Statuses × Option Failure) : Prop :=
  r.1 = r'.1 ∧ r.2.isSome = r'.2.isSome

section

variable {σ α : Type} {R : σ → σ → Prop} {desk : QueryDesk (StateM σ)} {timeoutMs : UInt64}
  {iteration : UInt32} {s t : σ}

theorem SameFindings.bind {x y : StateM σ (Except Failure α)}
    {f g : Except Failure α → StateM σ (Statuses × Option Failure)} (hxy : EndsAlike R x y)
    (herror : ∀ e e' s t, SameFindings ((f (.error e)).run s).1 ((g (.error e')).run t).1)
    (hok : ∀ a s t, R s t → SameFindings ((f (.ok a)).run s).1 ((g (.ok a)).run t).1)
    (hR : R s t) : SameFindings ((x >>= f).run s).1 ((y >>= g).run t).1 := by
  have hrun {z : StateM σ (Except Failure α)}
      {k : Except Failure α → StateM σ (Statuses × Option Failure)} {u : σ} :
      (z >>= k).run u = (k (z.run u).1).run (z.run u).2 := rfl
  rw [hrun, hrun]
  rcases hxy s t hR with ⟨e, e', he, he'⟩ | ⟨a, ha, ha', hR'⟩
  · rw [he, he']
    exact herror e e' _ _
  · rw [ha, ha']
    exact hok a _ _ hR'

theorem compareReturned_exchanged (h : desk.Symmetric R) (p : Partition) (pc : Status)
    (v1 v2 : Expr) (hR : R s t) :
    SameFindings ((compareReturned desk timeoutMs iteration p pc v1 v2).run s).1
      ((compareReturned desk timeoutMs iteration p.exchanged pc v2 v1).run t).1 := by
  refine SameFindings.bind (h.queryRelation_exchanged p.pc v1 v2 false) ?_ ?_ hR
  · exact fun _ _ _ _ => ⟨rfl, rfl⟩
  intro neq s t hR
  simp only [p.hasUif_exchanged]
  split
  · refine SameFindings.bind (h.queryRelation_exchanged p.pc v1 v2 true) ?_ ?_ hR
    · exact fun _ _ _ _ => ⟨rfl, rfl⟩
    · exact fun _ _ _ _ => ⟨rfl, rfl⟩
  · exact ⟨rfl, rfl⟩

theorem investigate_exchanged (h : desk.Symmetric R) (p : Partition) (hR : R s t) :
    SameFindings ((investigate desk timeoutMs iteration p).run s).1
      ((investigate desk timeoutMs iteration p.exchanged).run t).1 := by
  refine SameFindings.bind (h.query [p.pc]) ?_ ?_ hR
  · exact fun _ _ _ _ => ⟨rfl, rfl⟩
  intro pc s t hR
  by_cases hunsat : pc = .unsat
  · simp only [hunsat, if_true]
    exact ⟨rfl, rfl⟩
  simp only [hunsat, if_false, Partition.exchanged]
  cases p.v1.expr? with
  | none =>
    rw [compareRaised_comm]
    cases p.v2.expr? <;> exact ⟨rfl, rfl⟩
  | some v1 =>
    cases p.v2.expr? with
    | none =>
      rw [compareRaised_comm]
      exact ⟨rfl, rfl⟩
    | some v2 => exact compareReturned_exchanged h p pc v1 v2 hR

end

/-- The verdicts agree that follow from the same findings. -/
theorem conclude_exchanged {r r' : Statuses × Option Failure} (h : SameFindings r r')
    (p : Partition) (runtime runtime' : Duration) :
    let v := conclude p r.1 r.2 runtime
    let v' := conclude p.exchanged r'.1 r'.2 runtime'
    v'.pcStatus = v.pcStatus ∧ v'.neqStatus = v.neqStatus ∧ v'.eqStatus = v.eqStatus ∧
      v'.constraintCount = v.constraintCount ∧ v'.error.isSome = v.error.isSome ∧
      v'.classify = v.classify := by
  obtain ⟨statuses, failure⟩ := r
  obtain ⟨_, failure'⟩ := r'
  obtain ⟨rfl, hfailure⟩ := h
  intro v v'
  have herror : v'.error.isSome = v.error.isSome := by
    simpa [v, v', conclude] using hfailure.symm
  refine ⟨rfl, rfl, rfl, rfl, herror, ?_⟩
  have hfacts : PartitionFacts.ofVerdict v' =
      { PartitionFacts.ofVerdict v with hasUifV1 := v.hasUifV2, hasUifV2 := v.hasUifV1 } := by
    simp only [PartitionFacts.ofVerdict, Verdict.isError, herror]
    rfl
  rw [Verdict.classify, Verdict.classify, hfacts]
  exact classify_exchanged _

/-- The verdict on a partition with the versions exchanged has the same statuses, an error exactly
if the other one has an error, and the same classification, if nobody minds the order of the sides
of an equality. -/
theorem check_exchanged {σ : Type} (R : σ → σ → Prop) (desk : QueryDesk (StateM σ))
    (symmetric : desk.Symmetric R) (timeoutMs : UInt64) (iteration : UInt32) (p : Partition)
    (s t : σ) (related : R s t) :
    let v := ((check desk timeoutMs iteration p).run s).1
    let v' := ((check desk timeoutMs iteration p.exchanged).run t).1
    v'.pcStatus = v.pcStatus ∧ v'.neqStatus = v.neqStatus ∧ v'.eqStatus = v.eqStatus ∧
      v'.constraintCount = v.constraintCount ∧ v'.error.isSome = v.error.isSome ∧
      v'.classify = v.classify := by
  obtain ⟨-, hstart⟩ := symmetric.now s t related
  exact conclude_exchanged (investigate_exchanged symmetric p hstart) p _ _

end Oracle

/-! ## A desk that files everything -/

/-- A desk that answers by the kind of a query and files every query with its answer. -/
def QueryDesk.filing (status : QueryKind → Status) :
    QueryDesk (StateM (List (QueryKey × Query × Answer))) where
  now := pure .zero
  isCancelled := pure false
  ask q := pure (.ok { status := status q.kind })
  record key q answer := modifyGet fun filed => (.ok (), filed ++ [(key, q, answer)])

theorem Query.Exchanged.kind_eq {q q' : Query} (h : q.Exchanged q') : q'.kind = q.kind := by
  cases h with
  | same => rfl
  | exchanged _ build build' => rw [kind_of_build build, kind_of_build build']

/-- What is filed need not be the same, as long as the answers are. -/
theorem QueryDesk.symmetric_filing (status : QueryKind → Status) :
    (QueryDesk.filing status).Symmetric fun s t =>
      s.map (fun filed => (filed.1, filed.2.2)) = t.map fun filed => (filed.1, filed.2.2) where
  now _ _ hR := ⟨trivial, hR⟩
  isCancelled _ _ hR := ⟨rfl, hR⟩
  ask {q q'} exchanged s t hR := by
    have hanswer (q : Query) (s : List (QueryKey × Query × Answer)) :
        (((filing status).ask q).run s).1 = .ok { status := status q.kind } := rfl
    refine ⟨?_, hR⟩
    rw [hanswer, hanswer, exchanged.kind_eq]
  record {q q'} key _ answer s t hR := by
    refine ⟨rfl, ?_⟩
    change (s ++ [(key, q, answer)]).map _ = (t ++ [(key, q', answer)]).map _
    rw [List.map_append, List.map_append, hR]
    rfl

namespace Oracle

/-- Two results that differ by one are different in both orders. -/
theorem check_exchanged_successor :
    ((check (.filing differing) 1000 1 successor.exchanged).run []).1.classify = .ok .neq :=
  (check_exchanged _ _ (QueryDesk.symmetric_filing differing) 1000 1 successor [] []
    rfl).2.2.2.2.2.trans rfl

end Oracle

end Regression
