import Regression.Proofs.Oracle.Trace

/-!
# What an iteration does

The phases of an iteration as relations between histories and results, one constructor for every
way in which a phase can end: `Pulls` and `Delivers` for the delivery of partitions, `Explores` for
preparing and exploring, `Concludes`, `Classifies` and `Judges` for the verdicts, and `Analyzes` for
the iteration as a whole.

* `Run.shows_analyze`: these relations leave nothing out.
-/

namespace Regression

namespace Run

section

variable (ctx : RunContext) (iteration : UInt32)

/-! ## Exploring -/

/-- The row of a partition that was delivered. -/
def indexRow (index : UInt32) : StoreWrite :=
  .partition (PartitionRecord.indexOnly ctx.benchmark ctx.tool iteration index)

/-- Partitions were pulled after the last one. -/
inductive Pulls : Option UInt32 → History → List Partition × Ending → Prop
  | expired {last : Option UInt32} : Pulls last [.pulled .expired] ([], .expired)
  | failed {last : Option UInt32} {e : Failure} :
    Pulls last [.pulled (.done (.error e))] ([], .failed e)
  | drained {last : Option UInt32} : Pulls last [.pulled (.done (.ok none))] ([], .drained)
  | outOfOrder {last : Option UInt32} {p : Partition} (order : follows p.index last = false) :
    Pulls last [.pulled (.done (.ok (some p)))]
      ([], .failed (.analysis (.outOfOrder p.index (last.getD 0))))
  | unstored {last : Option UInt32} {p : Partition} {e : StorageError}
    (order : follows p.index last) :
    Pulls last [.pulled (.done (.ok (some p))), .wrote (indexRow ctx iteration p.index) (.error e)]
      ([], .failed (.storage e))
  | next {last : Option UInt32} {p : Partition} {es : History} {rest : List Partition}
    {ending : Ending} (order : follows p.index last)
    (pulls : Pulls (some p.index) es (rest, ending)) :
    Pulls last
      (.pulled (.done (.ok (some p))) :: .wrote (indexRow ctx iteration p.index) (.ok ()) :: es)
      (p :: rest, ending)

/-- The exploration was started, and partitions were pulled. -/
inductive Delivers : History → List Partition × Ending → Prop
  | expired : Delivers [.started iteration .expired] ([], .expired)
  | failed {e : Failure} : Delivers [.started iteration (.done (.error e))] ([], .failed e)
  | pulled {es : History} {r : List Partition × Ending} (pulls : Pulls ctx iteration none es r) :
    Delivers (.started iteration (.done (.ok ())) :: es) r

/-- The versions were prepared and explored. -/
inductive Explores : History → Exploration → Prop
  | expired {timings : List (String × Duration)} :
    Explores [.prepared iteration .expired] { timedOut := true, timings }
  | failed {e : Failure} {timings : List (String × Duration)} :
    Explores [.prepared iteration (.done (.error e))]
      { error := some ("instrumentation failed: " ++ e.message), timings }
  | delivered {es : History} {partitions : List Partition} {ending : Ending}
    {timings : List (String × Duration)}
    (delivers : Delivers ctx iteration es (partitions, ending)) :
    Explores (.prepared iteration (.done (.ok ())) :: es) (.upTo partitions ending timings)

/-! ## Classifying -/

/-- The row of a partition with its verdict. -/
def verdictRow (v : Verdict) : StoreWrite :=
  .partition (v.record ctx.benchmark ctx.tool iteration)

/-- Verdicts were stored. -/
inductive Concludes : List (Partition × Verdict) → Classified → History →
    Except Failure Classified → Prop
  | done {found : Classified} : Concludes [] found [] (.ok found)
  | failed {p : Partition} {v : Verdict} {rest : List (Partition × Verdict)} {found : Classified}
    {e : StorageError} :
    Concludes ((p, v) :: rest) found [.wrote (verdictRow ctx iteration v) (.error e)]
      (.error (.storage e))
  | next {p : Partition} {v : Verdict} {rest : List (Partition × Verdict)} {found : Classified}
    {es : History} {r : Except Failure Classified}
    (concludes : Concludes rest (found.add p v) es r) :
    Concludes ((p, v) :: rest) found (.wrote (verdictRow ctx iteration v) (.ok ()) :: es) r

/-- Batches of partitions were checked. -/
inductive Classifies : List (List Partition) → Classified → History →
    Except Failure Classified → Prop
  | done {found : Classified} : Classifies [] found [] (.ok found)
  | expired {batch : List Partition} {rest : List (List Partition)} {found : Classified} :
    Classifies (batch :: rest) found [.polled true] (.ok { found with timedOut := true })
  | abandoned {batch : List Partition} {rest : List (List Partition)} {found : Classified}
    {es : History} {verdicts : List Verdict}
    (checks : Oracle.ChecksAll ctx.settings.solver.timeoutMs iteration batch es verdicts) :
    Classifies (batch :: rest) found (.polled false :: (es ++ [.closed .expired]))
      (.ok { found with timedOut := true })
  | aborted {batch : List Partition} {rest : List (List Partition)} {found : Classified}
    {es : History} {verdicts : List Verdict} {cause : String}
    (checks : Oracle.ChecksAll ctx.settings.solver.timeoutMs iteration batch es verdicts) :
    Classifies (batch :: rest) found (.polled false :: (es ++ [.closed (.done (.error cause))]))
      (.ok { found with error := some ("partition check aborted: " ++ cause) })
  | failed {batch : List Partition} {rest : List (List Partition)} {found : Classified}
    {es es' : History} {verdicts : List Verdict} {e : Failure}
    (checks : Oracle.ChecksAll ctx.settings.solver.timeoutMs iteration batch es verdicts)
    (concludes : Concludes ctx iteration (batch.zip verdicts) found es' (.error e)) :
    Classifies (batch :: rest) found
      (.polled false :: (es ++ .closed (.done (.ok ())) :: es')) (.error e)
  | next {batch : List Partition} {rest : List (List Partition)} {found found' : Classified}
    {es es' es'' : History} {verdicts : List Verdict} {r : Except Failure Classified}
    (checks : Oracle.ChecksAll ctx.settings.solver.timeoutMs iteration batch es verdicts)
    (concludes : Concludes ctx iteration (batch.zip verdicts) found es' (.ok found'))
    (classifies : Classifies rest found' es'' r) :
    Classifies (batch :: rest) found
      (.polled false :: (es ++ .closed (.done (.ok ())) :: (es' ++ es''))) r

/-- The explored partitions were checked. -/
inductive Judges (explored : Exploration) : History → Except Failure Classified → Prop
  | expired (timedOut : explored.timedOut) : Judges explored [] (.ok { timedOut := true })
  | classified {es : History} {r : Except Failure Classified} (inTime : explored.timedOut = false)
    (classifies : Classifies ctx iteration
      (batches (ctx.settings.solver.parallelism.toNat - 1) explored.partitions) {} es r) :
    Judges explored es r

/-! ## The whole iteration -/

/-- The row of an iteration that begins. -/
def startedRow : StoreWrite :=
  .iteration (IterationRecord.started ctx.benchmark ctx.tool iteration)

/-- The partitions of an iteration were explored and checked, and it was stored and listed. -/
inductive Analyzes : History → Except Failure IterationReport → Prop
  | unstarted {e : StorageError} :
    Analyzes [.wrote (startedRow ctx iteration) (.error e)] (.error (.storage e))
  | failed {es es' : History} {explored : Exploration} {e : Failure}
    (explores : Explores ctx iteration es explored)
    (judges : Judges ctx iteration explored es' (.error e)) :
    Analyzes (.wrote (startedRow ctx iteration) (.ok ()) :: (es ++ es')) (.error e)
  | unstored {es es' : History} {explored : Exploration} {found : Classified}
    {elapsed : Duration} {e : StorageError} (explores : Explores ctx iteration es explored)
    (judges : Judges ctx iteration explored es' (.ok found)) :
    Analyzes (.wrote (startedRow ctx iteration) (.ok ()) :: (es ++ (es' ++
      [.wrote (.iteration (reportOf ctx iteration explored found elapsed).record) (.error e)])))
      (.error (.storage e))
  | unlisted {es es' : History} {explored : Exploration} {found : Classified}
    {elapsed checking : Duration} {e : FileError} (explores : Explores ctx iteration es explored)
    (judges : Judges ctx iteration explored es' (.ok found)) :
    Analyzes (.wrote (startedRow ctx iteration) (.ok ()) :: (es ++ (es' ++
      [.wrote (.iteration (reportOf ctx iteration explored found elapsed).record) (.ok ()),
        .appended ctx.resultsPath (blockOf ctx explored found checking).text (.error e)])))
      (.error (.ofFile e))
  | done {es es' : History} {explored : Exploration} {found : Classified}
    {elapsed checking : Duration} (explores : Explores ctx iteration es explored)
    (judges : Judges ctx iteration explored es' (.ok found)) :
    Analyzes (.wrote (startedRow ctx iteration) (.ok ()) :: (es ++ (es' ++
      [.wrote (.iteration (reportOf ctx iteration explored found elapsed).record) (.ok ()),
        .appended ctx.resultsPath (blockOf ctx explored found checking).text (.ok ())])))
      (.ok (reportOf ctx iteration explored found elapsed))

end

/-! ## The steps of an iteration -/

/-- The result of some steps without the stopwatches. -/
abbrev value {α : Type} (r : Except Failure (α × Stopwatches)) : Except Failure α := r.map (·.1)

section

variable {σ : Type} (env : Environment (StateM σ)) (ctx : RunContext) (iteration : UInt32)
  {w : Stopwatches}

theorem shows_put (row : StoreWrite) :
    Shows env.CanEmit w (put env.observed row) (put env row) fun r es =>
      ∃ result, es = [.wrote row result] ∧ r = match result with
        | .ok () => .ok ((), w)
        | .error e => .error (.storage e) := by
  refine shows_bind_lift (shows_noting fun s => ⟨s, rfl⟩) ?_
  rintro (e | ⟨⟩) es rfl
  · exact shows_throw ⟨_, rfl, rfl⟩
  · exact shows_pure ⟨_, rfl, rfl⟩

theorem shows_bind_put {α : Type} {env : Environment (StateM σ)} {row : StoreWrite}
    {f : Unit → RunM (StateT History (StateM σ)) α} {f₀ : Unit → RunM (StateM σ) α}
    {Q : Except Failure (α × Stopwatches) → History → Prop}
    (he : ∀ e, Q (.error (.storage e)) [.wrote row (.error e)])
    (hf : Shows env.CanEmit w (f ()) (f₀ ()) fun r es => Q r (.wrote row (.ok ()) :: es)) :
    Shows env.CanEmit w (put env.observed row >>= f) (put env row >>= f₀) Q := by
  refine shows_bind (shows_put env row) ?_ ?_
  · rintro e es ⟨result, rfl, h⟩
    cases result with
    | error e => cases h; exact he e
    | ok _ => cases h
  · rintro _ w' es ⟨result, rfl, h⟩
    cases result with
    | error e => cases h
    | ok _ => cases h; exact hf

theorem shows_bind_requireFile {α : Type} {env : Environment (StateM σ)}
    {result : Except FileError Unit} {f : Unit → RunM (StateT History (StateM σ)) α}
    {f₀ : Unit → RunM (StateM σ) α} {Q : Except Failure (α × Stopwatches) → History → Prop}
    (he : ∀ e, result = .error e → Q (.error (.ofFile e)) [])
    (hf : result = .ok () → Shows env.CanEmit w (f ()) (f₀ ()) Q) :
    Shows env.CanEmit w (requireFile result >>= f) (requireFile result >>= f₀) Q := by
  cases result with
  | error e => exact shows_throw (he e rfl)
  | ok _ => exact hf rfl

theorem shows_pull (last : Option UInt32) :
    Regression.Shows env.CanEmit (pull env.observed ctx iteration last)
      (pull env ctx iteration last) fun r es => Pulls ctx iteration last es r := by
  induction hroom : room last using Nat.strongRecOn generalizing last with
  | ind n ih =>
    rw [pull, pull]
    refine Regression.shows_bind (shows_noting fun s => ⟨_, s, rfl⟩) ?_
    rintro (next | _) es rfl
    · rcases next with e | (_ | p)
      · exact Regression.shows_pure .failed
      · exact Regression.shows_pure .drained
      · by_cases order : follows p.index last
        · simp only [order, dite_true]
          refine Regression.shows_bind (shows_noting fun s => ⟨s, rfl⟩) ?_
          rintro (e | ⟨⟩) es rfl
          · exact Regression.shows_pure (.unstored order)
          · refine Regression.shows_bind (ih _ (hroom ▸ room_lt order) _ rfl) ?_
            rintro ⟨rest, ending⟩ es hpulls
            exact Regression.shows_pure (by rw [List.append_nil]; exact .next order hpulls)
        · simp only [order]
          exact Regression.shows_pure (.outOfOrder (by simpa using order))
    · exact Regression.shows_pure .expired

theorem shows_deliver :
    Regression.Shows env.CanEmit (deliver env.observed ctx iteration) (deliver env ctx iteration)
      fun r es => Delivers ctx iteration es r := by
  refine Regression.shows_bind (shows_noting fun s => ⟨_, s, rfl⟩) ?_
  rintro ((e | ⟨⟩) | _) es rfl
  · exact Regression.shows_pure .failed
  · exact shows_mono (shows_pull env ctx iteration none) (fun _ h => h)
      fun _ _ h => .pulled h
  · exact Regression.shows_pure .expired

theorem shows_explore (topic : String) :
    Shows env.CanEmit w (explore env.observed ctx topic iteration) (explore env ctx topic iteration)
      fun r es => ∃ explored, value r = .ok explored ∧ Explores ctx iteration es explored := by
  refine shows_bind_startWatch fun now => ?_
  refine shows_bind_lift (shows_noting fun s => ⟨_, s, rfl⟩) ?_
  rintro prepared es rfl
  refine shows_bind_stopWatch fun now => ?_
  rcases prepared with (e | ⟨⟩) | _
  · exact shows_pure ⟨_, rfl, .failed⟩
  · refine shows_bind_startWatch fun now => ?_
    refine shows_bind_lift (shows_deliver env ctx iteration) ?_
    rintro ⟨partitions, ending⟩ es hdelivers
    refine shows_bind_stopWatch fun now => ?_
    exact shows_pure ⟨_, rfl, by rw [List.append_nil]; exact .delivered hdelivers⟩
  · exact shows_pure ⟨_, rfl, .expired⟩

theorem shows_conclude (items : List (Partition × Verdict)) (found : Classified) :
    Shows env.CanEmit w (conclude env.observed ctx iteration items found)
      (conclude env ctx iteration items found)
      fun r es => Concludes ctx iteration items found es (value r) := by
  induction items generalizing found w with
  | nil => exact shows_pure .done
  | cons item rest ih =>
    obtain ⟨p, v⟩ := item
    rw [conclude, conclude]
    refine shows_bind_put ?_ ?_
    · intro e
      exact .failed
    · exact shows_mono (ih (found.add p v)) (fun _ h => h) fun _ _ h => .next h

theorem shows_classify (pieces : List (List Partition)) (found : Classified) :
    Shows env.CanEmit w (classify env.observed ctx iteration pieces found)
      (classify env ctx iteration pieces found)
      fun r es => Classifies ctx iteration pieces found es (value r) := by
  induction pieces generalizing found w with
  | nil => exact shows_pure .done
  | cons batch rest ih =>
    rw [classify, classify]
    refine shows_bind_lift (shows_noting fun s => ⟨_, s, rfl⟩) ?_
    rintro expired es rfl
    cases expired with
    | true => exact shows_pure .expired
    | false =>
      refine shows_bind_lift (shows_silent env.openBatch) ?_
      rintro _ es rfl
      refine shows_bind_lift (shows_mono (Oracle.shows_checkAll (env.desk ctx.deadline)
        ctx.settings.solver.timeoutMs iteration batch) (fun _ => QueryDesk.canEmit_of_desk)
          fun _ _ h => h) ?_
      intro verdicts es hchecks
      refine shows_bind_lift (shows_noting fun s => ⟨_, s, rfl⟩) ?_
      rintro ((cause | ⟨⟩) | _) es' rfl
      · exact shows_pure (.aborted hchecks)
      · refine shows_bind (shows_conclude env ctx iteration (batch.zip verdicts) found) ?_ ?_
        · intro e es' hconcludes
          exact .failed hchecks hconcludes
        · intro found' w' es' hconcludes
          refine shows_mono (ih found') (fun _ h => h) ?_
          intro r es'' h
          -- The relation says where the events are cut; the goal alone does not.
          have hnext := Classifies.next hchecks hconcludes h
          exact hnext
      · exact shows_pure (.abandoned hchecks)

theorem shows_check (topic : String) (explored : Exploration) :
    Shows env.CanEmit w (check env.observed ctx topic iteration explored)
      (check env ctx topic iteration explored)
      fun r es => Judges ctx iteration explored es ((value r).map (·.1)) := by
  refine shows_bind_startWatch fun now => ?_
  by_cases hexpired : explored.timedOut = true
  · rw [if_pos hexpired, if_pos hexpired]
    refine shows_bind (shows_pure (P := fun r es => es = [] ∧ value r = .ok { timedOut := true })
      ⟨rfl, rfl⟩) ?_ ?_
    · rintro e es ⟨-, h⟩
      cases h
    · rintro found w es ⟨rfl, h⟩
      cases h
      refine shows_bind_stopWatch fun now => ?_
      exact shows_pure (.expired hexpired)
  · rw [if_neg hexpired, if_neg hexpired]
    refine shows_bind (shows_classify env ctx iteration _ _) ?_ ?_
    · intro e es hclassifies
      exact .classified (by simpa using hexpired) hclassifies
    · intro found w es hclassifies
      refine shows_bind_stopWatch fun now => ?_
      refine shows_pure ?_
      rw [List.append_nil]
      exact .classified (by simpa using hexpired) hclassifies

theorem shows_analyze :
    Shows env.CanEmit w (analyze env.observed ctx iteration) (analyze env ctx iteration)
      fun r es => Analyzes ctx iteration es (value r) := by
  refine shows_bind_startWatch fun now => ?_
  refine shows_bind_put (fun e => .unstarted) ?_
  refine shows_bind (shows_explore env ctx iteration _) ?_ ?_
  · rintro e es ⟨_, h, -⟩
    cases h
  rintro explored w es ⟨explored, h, hexplores⟩
  cases h
  refine shows_bind (shows_check env ctx iteration _ explored) ?_ ?_
  · intro e es' hjudges
    exact .failed hexplores hjudges
  rintro ⟨found, checking⟩ w es' hjudges
  refine shows_bind_stopWatch fun now => ?_
  refine shows_bind_put (fun e => .unstored hexplores hjudges) ?_
  refine shows_bind_lift (shows_noting fun s => ⟨s, rfl⟩) ?_
  rintro result es'' rfl
  refine shows_bind_requireFile ?_ ?_
  · rintro e rfl
    exact .unlisted hexplores hjudges
  · rintro rfl
    exact shows_pure (.done hexplores hjudges)

end

end Run

end Regression
