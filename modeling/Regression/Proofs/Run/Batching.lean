import Regression.Proofs.Run.Analysis
import Regression.Proofs.Run.Surroundings

/-!
# Batches

A batch is checked before its verdicts are stored. Beside it, a run that checks one partition after
the other falls behind with its queries, and makes up for them while the verdicts of the batch are
stored. The answers that are due in between are those about the rest of the batch.

* `Run.ends_classify_cons`: a batch that is checked calmly, before its verdicts are stored.
* `Run.meet_put`, `Run.meet_conclude`: one verdict, and all verdicts of a batch.
* `Run.meet_classify`: all batches.
* `Environment.Moves.classifiesAlike`: the classification, as a step of coupled runs.
-/

namespace Regression

open History

namespace Run

section

variable {σ α β : Type}

/-- What comes of steps of an observed run. -/
abbrev ends (x : RunM (StateT History (StateM σ)) α) (w : Stopwatches) (h : History) (s : σ) :
    (Except Failure (α × Stopwatches) × History) × σ :=
  ((x.run w).run.run h).run s

theorem ends_bind_lift (x : StateT History (StateM σ) α)
    (f : α → RunM (StateT History (StateM σ)) β) (w : Stopwatches) (h : History) (s : σ) :
    ends (liftM x >>= f) w h s =
      ends (f ((x.run h).run s).1.1) w ((x.run h).run s).1.2 ((x.run h).run s).2 :=
  rfl

theorem run_noting (event : α → Event) (x : StateM σ α) (h : History) (s : σ) :
    ((noting event x).run h).run s = (((x.run s).1, h ++ [event (x.run s).1]), (x.run s).2) :=
  rfl

theorem ends_bind_put (env : Environment (StateM σ)) (row : StoreWrite)
    (f : Unit → RunM (StateT History (StateM σ)) β) (w : Stopwatches) (h : History) (s : σ) :
    ends (put env.observed row >>= f) w h s =
      match (env.write row).run s with
      | (.ok (), s') => ends (f ()) w (h ++ [.wrote row (.ok ())]) s'
      | (.error e, s') => ((.error (.storage e), h ++ [.wrote row (.error e)]), s') := by
  rw [put, bind_assoc]
  refine (ends_bind_lift _ _ w h s).trans ?_
  rw [show ((env.observed.write row).run h).run s = _ from run_noting (.wrote row) _ h s]
  obtain ⟨⟨result, s'⟩, hrun⟩ : ∃ a, (env.write row).run s = a := ⟨_, rfl⟩
  rw [hrun]
  cases result with
  | error e => rfl
  | ok _ => rfl

end

section

variable {σ τ : Type} {part : σ → τ} {u : Surroundings τ} {r : Responder}
  {env : Environment (StateM σ)} {ctx : RunContext} {iteration : UInt32}

theorem grows_conclude {items : List (Partition × Verdict)} {rest : List (List Partition)}
    {found : Classified} {w : Stopwatches} :
    Grows (((conclude env.observed ctx iteration items found >>=
      classify env.observed ctx iteration rest).run w).run) :=
  (shows_bind (shows_conclude env ctx iteration items found) (fun _ _ _ => trivial)
    fun found _ _ _ => shows_mono (shows_classify env ctx iteration rest found) (fun _ h => h)
      fun _ _ _ => trivial : Shows env.CanEmit w _ _ fun _ _ => True).grows

/-- A question that has only one calm answer, any other one ending the work, is answered so in calm
work. -/
theorem ends_bind_noting {α β : Type} {event : α → Event} {x : StateM σ α}
    {f : α → RunM (StateT History (StateM σ)) β} {w : Stopwatches} {h : History} {s : σ} {b : α}
    (changes : Changes part u.Answers event x) (only : ∀ a, (event a).IsCalm r → a = b)
    (leaves : ∀ t t', u.Answers (event b) t t' → t' = t)
    (calm : (ends (liftM (noting event x) >>= f) w h s).1.2.IsCalm r)
    (stops : ∀ a, a ≠ b → ∃ c, f a = pure c) :
    ∃ s', part s' = part s ∧
      ends (liftM (noting event x) >>= f) w h s = ends (f b) w (h ++ [event b]) s' := by
  rw [ends_bind_lift, run_noting] at calm ⊢
  have hleft := changes s
  obtain ⟨⟨a, s'⟩, hanswer⟩ : ∃ p, x.run s = p := ⟨_, rfl⟩
  rw [hanswer] at calm hleft ⊢
  by_cases ha : a = b
  · subst ha
    exact ⟨s', leaves _ _ hleft, rfl⟩
  · obtain ⟨c, hc⟩ := stops a ha
    rw [hc] at calm
    exact absurd (only a (calm _ (List.mem_append_right h List.mem_cons_self))) ha

/-- In calm work the watchdog is found not to have expired. -/
theorem ends_bind_isExpired {α : Type} (answers : env.Moves part u.Answers) {d : Duration}
    {f : Bool → RunM (StateT History (StateM σ)) α} {w : Stopwatches} {h : History} {s : σ}
    (calm : (ends (liftM (env.observed.isExpired d) >>= f) w h s).1.2.IsCalm r)
    (stops : ∃ c, f true = pure c) :
    ∃ s', part s' = part s ∧ ends (liftM (env.observed.isExpired d) >>= f) w h s =
      ends (f false) w (h ++ [.polled false]) s' :=
  ends_bind_noting (answers.isExpired d) (fun _ h => h) (fun _ _ h => h) calm
    fun expired hne => by rwa [(Bool.not_eq_false expired).mp hne]

/-- In calm work a batch is checked to its end. -/
theorem ends_bind_closeBatch {α : Type} (answers : env.Moves part u.Answers) {d : Duration}
    {f : Raced (Except String Unit) → RunM (StateT History (StateM σ)) α} {w : Stopwatches}
    {h : History} {s : σ}
    (calm : (ends (liftM (env.observed.closeBatch d) >>= f) w h s).1.2.IsCalm r)
    (stops : ∀ result, result ≠ .done (.ok ()) → ∃ c, f result = pure c) :
    ∃ s', part s' = part s ∧ ends (liftM (env.observed.closeBatch d) >>= f) w h s =
      ends (f (.done (.ok ()))) w (h ++ [.closed (.done (.ok ()))]) s' :=
  ends_bind_noting (answers.closeBatch d) (fun _ h => h) (fun _ _ h => h) calm stops

/-- A batch is checked before its verdicts are stored. If that is calm, it asks what is always asked
about the partitions, and comes to the verdicts that they always get. -/
theorem ends_classify_cons (answers : env.Moves part u.Answers) {batch : List Partition}
    {rest : List (List Partition)} {found : Classified} {w : Stopwatches} {h : History} {s : σ}
    (calm : (ends (classify env.observed ctx iteration (batch :: rest) found) w h s).1.2.IsCalm r) :
    ∃ (verdicts : List Verdict) (es : History) (s' : σ),
      verdicts.map Verdict.untimed = batch.map (fun p =>
        (r.check ctx.settings.solver.timeoutMs iteration p).1.untimed) ∧
      es.filed.Perm (batch.flatMap fun p =>
        (r.check ctx.settings.solver.timeoutMs iteration p).2.filed) ∧
      es.visible = [] ∧ part s' = part s ∧
      ends (classify env.observed ctx iteration (batch :: rest) found) w h s =
        ends (conclude env.observed ctx iteration (batch.zip verdicts) found >>=
          classify env.observed ctx iteration rest) w (h ++ es) s' := by
  rw [classify] at calm ⊢
  obtain ⟨s₁, hpart₁, hstart⟩ := ends_bind_isExpired answers calm ⟨_, rfl⟩
  rw [hstart, if_neg Bool.false_ne_true] at calm ⊢
  obtain ⟨s₂, hopen, hpart₂⟩ : ∃ s₂, (env.observed.openBatch.run (h ++ [.polled false])).run s₁ =
      (((), h ++ [.polled false]), s₂) ∧ part s₂ = part s₁ := ⟨_, rfl, answers.openBatch s₁⟩
  obtain ⟨⟨⟨verdicts, h₃⟩, s₃⟩, hchecks⟩ : ∃ a, ((Oracle.checkAll (env.observed.desk ctx.deadline)
    ctx.settings.solver.timeoutMs iteration batch).run (h ++ [.polled false])).run s₂ = a :=
      ⟨_, rfl⟩
  rw [ends_bind_lift, hopen, ends_bind_lift, hchecks] at calm ⊢
  obtain ⟨s₄, hpart₄, hend⟩ := ends_bind_closeBatch answers calm fun result hne => by
    rcases result with (cause | ⟨⟩) | _
    exacts [⟨_, rfl⟩, absurd rfl hne, ⟨_, rfl⟩]
  rw [hend] at calm ⊢
  have hcalm : h₃.IsCalm r := calm.before ((List.prefix_append _ _).trans (grows_conclude _ s₄))
  obtain ⟨hverdicts, ⟨es, rfl, hperm⟩, hpart₃⟩ :=
    Responder.checkAll_calm (answers.desk_leaves ctx.deadline) hchecks hcalm
  refine ⟨verdicts, [.polled false] ++ es ++ [.closed (.done (.ok ()))], s₄, hverdicts,
    ?_, ?_, ?_, ?_⟩
  · have hevents := hperm.filterMap Event.filed?
    rw [List.filterMap_flatMap] at hevents
    have hclosed : filed [.closed (.done (.ok ()))] = [] := rfl
    rw [filed_append, filed_append, show filed [.polled false] = [] from rfl, hclosed,
      List.nil_append, List.append_nil]
    exact hevents
  · have hnone : es.visible = [] := visible_of_isFromDesk fun e he => by
      obtain ⟨p, -, he⟩ := List.mem_flatMap.mp (hperm.mem_iff.mp he)
      exact r.isFromDesk_check _ _ p e he
    rw [visible_append, visible_append, hnone]
    rfl
  · exact hpart₄.trans (hpart₃.trans (hpart₂.trans hpart₁))
  · rw [List.append_assoc h, List.append_assoc h]

variable {size : UInt64} {d : Duration} (u : Surroundings τ) (pick : PickOrder)

theorem isCalm_ends_classify {h : History} (calm : h.IsCalm r) (ctx : RunContext)
    (iteration : UInt32) (pieces : List (List Partition)) (found : Classified) (w : Stopwatches)
    (t : τ) :
    (ends (classify (u.environment r pick).observed ctx iteration pieces found) w h
      t).1.2.IsCalm r := by
  obtain ⟨es, hrun, hcan, -⟩ := shows_classify (u.environment r pick) ctx iteration pieces found h t
  rw [ends, hrun]
  exact calm.append fun e he => u.isCalm_of_canEmit (hcan e he)

/-- A partition that is a batch of its own is checked, and its verdict is stored at once. -/
theorem ends_classify_singleton {h : History} (calm : h.IsCalm r) (ctx : RunContext)
    (iteration : UInt32) (p : Partition) (more : List (List Partition)) (found : Classified)
    (w : Stopwatches) (t : τ) :
    ∃ (v : Verdict) (es : History),
      v.untimed = (r.check ctx.settings.solver.timeoutMs iteration p).1.untimed ∧
      es.filed.Perm (r.check ctx.settings.solver.timeoutMs iteration p).2.filed ∧
      es.visible = [] ∧ (h ++ es).IsCalm r ∧
      ends (classify (u.environment r pick).observed ctx iteration ([p] :: more) found) w h t =
        ends (put (u.environment r pick).observed (verdictRow ctx iteration v) >>= fun _ =>
          classify (u.environment r pick).observed ctx iteration more (found.add p v))
            w (h ++ es) t := by
  have hcalm := isCalm_ends_classify u pick calm ctx iteration ([p] :: more) found w t
  obtain ⟨verdicts, es, t', hverdicts, hfiled, hvisible, ht, hcheck⟩ :=
    ends_classify_cons (u.environment_moves r pick) hcalm
  obtain rfl : t' = t := ht
  rw [hcheck] at hcalm ⊢
  obtain ⟨v, rfl⟩ : ∃ v, verdicts = [v] := List.length_eq_one_iff.mp (by
    simpa using congrArg List.length hverdicts)
  rw [List.flatMap_singleton] at hfiled
  refine ⟨v, es, (List.cons.inj hverdicts).1, hfiled, hvisible,
    hcalm.before (grows_conclude _ _), ?_⟩
  rw [List.zip_cons_cons, List.zip_nil_left, conclude, bind_assoc]
  rfl

end

/-! ## Two runs -/

/-- Steps of two runs came to the same, and the runs are together. -/
def EndTogether {σ τ : Type} (r : Responder) (part : σ → τ)
    (x : (Except Failure (Classified × Stopwatches) × History) × σ)
    (y : (Except Failure (Classified × Stopwatches) × History) × τ) : Prop :=
  Coupling.Ends Eq x.1.1 y.1.1 ∧ Together r part [] x.1.2 x.2 y.1.2 y.2

/-- Whenever two runs are together but for some queries, and the first one stays calm, their steps
come to the same. -/
def Meet {σ τ : Type} (r : Responder) (part : σ → τ) (due : List (QueryKey × Query × Answer))
    (x : RunM (StateT History (StateM σ)) Classified)
    (y : RunM (StateT History (StateM τ)) Classified) : Prop :=
  ∀ {w w' : Stopwatches} {h : History} {s : σ} {h' : History} {t : τ}, w.untimed = w'.untimed →
    Together r part due h s h' t → (ends x w h s).1.2.IsCalm r →
      EndTogether r part (ends x w h s) (ends y w' h' t)

section

variable {σ τ : Type} {part : σ → τ} {u : Surroundings τ} {r : Responder}
  {env : Environment (StateM σ)} {ctx : RunContext} {iteration : UInt32} {size : UInt64}
  {d : Duration} {pick : PickOrder} {due : List (QueryKey × Query × Answer)}

/-- Both runs store a verdict. If it is refused, they fail alike, and no query is due any more. -/
theorem meet_put (answers : env.Moves part u.Answers) {v v' : Verdict}
    (same : v.untimed = v'.untimed) {x : RunM (StateT History (StateM σ)) Classified}
    {y : RunM (StateT History (StateM τ)) Classified} (meet : Meet r part due x y) :
    Meet r part due (put env.observed (verdictRow ctx iteration v) >>= fun _ => x)
      (put (u.environment r pick).observed (verdictRow (ctx.batched size d) iteration v') >>=
        fun _ => y) := by
  intro w w' h s h' t hw together calm
  have hrow : (verdictRow ctx iteration v).untimed =
      (verdictRow (ctx.batched size d) iteration v').untimed := by
    refine congrArg StoreWrite.partition ?_
    rw [v.untimed_record, same, ← v'.untimed_record]
    rfl
  obtain ⟨⟨result, s₁⟩, hwrite⟩ : ∃ a, (env.write (verdictRow ctx iteration v)).run s = a :=
    ⟨_, rfl⟩
  have hwrite' : ((u.environment r pick).write (verdictRow (ctx.batched size d) iteration
      v')).run t = (result, part s₁) := by
    have hanswer := answers.write (verdictRow ctx iteration v) s
    rw [hwrite, together.state] at hanswer
    rw [← show _ = (result, part s₁) from hanswer, hrow]
    rfl
  have hwrote : Together r part due (h ++ [.wrote (verdictRow ctx iteration v) result]) s₁
      (h' ++ [.wrote (verdictRow (ctx.batched size d) iteration v') result]) (part s₁) :=
    together.add trivial (congrArg (fun w => some (Event.wrote w result)) hrow) rfl rfl rfl
  rw [ends_bind_put, hwrite] at calm ⊢
  rw [ends_bind_put, hwrite']
  cases result with
  | error e =>
    refine ⟨.error, hwrote.calm, hwrote.state, hwrote.visible, fun hno => ?_⟩
    simp [Event.refusesVerdict, verdictRow, PartitionRecord.isClassified, Verdict.record] at hno
  | ok _ => exact meet hw hwrote calm

/-- While the verdicts on a batch are stored, the other run checks one partition after the other,
and stores each verdict at once. -/
theorem meet_conclude (answers : env.Moves part u.Answers)
    {next : Classified → RunM (StateT History (StateM σ)) Classified}
    {more : List (List Partition)}
    (meet : ∀ found, Meet r part [] (next found) (classify (u.environment r pick).observed
      (ctx.batched size d) iteration more found))
    {batch : List Partition} {verdicts : List Verdict}
    (same : verdicts.map Verdict.untimed = batch.map (fun p =>
      (r.check ctx.settings.solver.timeoutMs iteration p).1.untimed)) (found : Classified) :
    Meet r part
      (batch.flatMap fun p => (r.check ctx.settings.solver.timeoutMs iteration p).2.filed)
      (conclude env.observed ctx iteration (batch.zip verdicts) found >>= next)
      (classify (u.environment r pick).observed (ctx.batched size d) iteration
        (batch.map (fun p => [p]) ++ more) found) := by
  induction batch generalizing verdicts found with
  | nil =>
    rw [List.zip_nil_left, conclude, pure_bind]
    exact meet found
  | cons p batch ih =>
    obtain ⟨v, verdicts, rfl⟩ : ∃ v vs, verdicts = v :: vs := by
      cases verdicts with
      | nil => cases same
      | cons v vs => exact ⟨v, vs, rfl⟩
    obtain ⟨hv, hverdicts⟩ := List.cons.inj same
    intro w w' h s h' t hw together calm
    rw [List.flatMap_cons] at together
    obtain ⟨v', es, hv', hfiled, hvisible, hcalm, hcheck⟩ := ends_classify_singleton u pick
      together.calm (ctx.batched size d) iteration p (batch.map (fun p => [p]) ++ more) found w' t
    have hsame : v.untimed = v'.untimed := hv.trans hv'.symm
    have hfound : found.add p v = found.add p v' := by
      have hadd (v : Verdict) : found.add p v = found.add p v.untimed := rfl
      rw [hadd v, hsame, ← hadd v']
    rw [List.zip_cons_cons, conclude, bind_assoc] at calm ⊢
    rw [List.map_cons, List.cons_append, hcheck, ← hfound]
    exact meet_put answers hsame (ih hverdicts _) hw (together.madeUp hcalm hvisible hfiled) calm

variable (size d pick) in
/-- Batches are checked with the same result as one partition after the other. -/
theorem meet_classify (answers : env.Moves part u.Answers) (pieces : List (List Partition))
    (found : Classified) :
    Meet r part [] (classify env.observed ctx iteration pieces found)
      (classify (u.environment r pick).observed (ctx.batched size d) iteration
        (pieces.flatten.map fun p => [p]) found) := by
  induction pieces generalizing found with
  | nil => exact fun hw together _ => ⟨.ok rfl hw, together⟩
  | cons batch rest ih =>
    intro w w' h s h' t hw together calm
    obtain ⟨verdicts, es, s', hverdicts, hfiled, hvisible, hpart, hcheck⟩ :=
      ends_classify_cons answers calm
    rw [hcheck] at calm ⊢
    rw [List.flatten_cons, List.map_append]
    exact meet_conclude answers ih hverdicts found hw (together.ahead hvisible hfiled hpart) calm

end

/-! ## Whole runs -/

theorem batches_zero {α : Type} (items : List α) : batches 0 items = items.map fun a => [a] := by
  induction items with
  | nil => rw [batches, List.map_nil]
  | cons a items ih => rw [batches, List.take_zero, List.drop_zero, ih, List.map_cons]

end Run

section

variable {σ τ : Type} {part : σ → τ} {u : Surroundings τ} {env : Environment (StateM σ)}

/-- Partitions are classified in batches of any size and in any order as one after the other. -/
theorem Environment.Moves.classifiesAlike (answers : env.Moves part u.Answers) (r : Responder)
    (ctx : RunContext) (d : Duration) (pick : PickOrder) :
    env.observed.ClassifiesAlike (.calmly r (Together r part [])) ctx 1 d
      (u.environment r pick).observed := by
  intro iteration partitions w w' hw
  refine ⟨(Run.shows_classify env ctx iteration _ {}).grows, fun _ _ => ⟨_, .refl _⟩, ?_⟩
  intro h s h' t together calm
  have hboth := Run.meet_classify 1 d pick answers _ {} hw together calm
  rw [batches_flatten, ← Run.batches_zero] at hboth
  exact hboth

end

end Regression
