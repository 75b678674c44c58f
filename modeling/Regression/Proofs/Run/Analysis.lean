import Regression.Proofs.Run.Delivery

/-!
# What is known of an analysed iteration

The events of an iteration decide its record: failures, an aborted batch and an expired watchdog
decide the result, and without them all partitions were delivered and classified.

The account of an iteration lists its partitions, the verdicts that were stored, and its record. It
says what was written, and it follows from the events as well: whole batches are checked, one after
the other, until one is aborted or the watchdog is seen to have expired.

* `Run.Analyzed`: how a record follows from the events of its iteration.
* `Run.Accounted`: how an account follows from the events of its iteration.
* `Run.Analyzes.accounted`: every iteration that was analysed has an account.
-/

namespace Regression

open History

theorem History.quiet_of_isChecking {h : History} (hc : ∀ e ∈ h, e.isChecking) : h.Quiet :=
  fun e he => Event.isQuiet_of_isChecking (hc e he)

theorem batches_flatten {α : Type} (extra : Nat) (items : List α) :
    (batches extra items).flatten = items := by
  fun_induction batches extra items with
  | case1 => rfl
  | case2 a rest ih => rw [List.flatten_cons, ih, List.cons_append, List.take_append_drop]

theorem batches_take_flatten {α : Type} (extra : Nat) (items : List α) (count : Nat) :
    ((batches extra items).take count).flatten = items.take (count * (extra + 1)) := by
  fun_induction batches extra items generalizing count with
  | case1 => simp
  | case2 a rest ih =>
    cases count with
    | zero => simp
    | succ count =>
      have hlength : (count + 1) * (extra + 1) = extra + count * (extra + 1) + 1 := by
        rw [Nat.add_one_mul]
        omega
      rw [List.take_succ_cons, List.flatten_cons, ih, hlength, List.take_succ_cons,
        List.cons_append, List.take_add]

namespace Classified

/-- Add classified partitions. -/
def addAll (f : Classified) (judged : List (Partition × Verdict)) : Classified :=
  judged.foldl (fun f j => f.add j.1 j.2) f

variable (f : Classified) (judged judged' : List (Partition × Verdict))

theorem addAll_append : f.addAll (judged ++ judged') = (f.addAll judged).addAll judged' :=
  List.foldl_append

theorem timedOut_addAll : (f.addAll judged).timedOut = f.timedOut := by
  induction judged generalizing f with
  | nil => rfl
  | cons j judged ih => exact ih (f.add j.1 j.2)

theorem error_addAll : (f.addAll judged).error = f.error := by
  induction judged generalizing f with
  | nil => rfl
  | cons j judged ih => exact ih (f.add j.1 j.2)

/-- No batch was given up. -/
structure IsOpen (f : Classified) : Prop where
  error : f.error = none
  timedOut : f.timedOut = false

theorem IsOpen.addAll {f : Classified} (hopen : f.IsOpen) (judged : List (Partition × Verdict)) :
    (f.addAll judged).IsOpen :=
  ⟨(f.error_addAll judged).trans hopen.error, (f.timedOut_addAll judged).trans hopen.timedOut⟩

theorem classes_addAll :
    (f.addAll judged).classes = f.classes ++ judged.map (·.2.result.1) := by
  induction judged generalizing f with
  | nil => exact (List.append_nil _).symm
  | cons j judged ih =>
    have hadd : (f.add j.1 j.2).classes = f.classes ++ [j.2.result.1] := rfl
    rw [List.map_cons, List.append_cons, ← hadd]
    exact ih (f.add j.1 j.2)

theorem hasUif_addAll : (f.addAll judged).hasUif = (f.hasUif || judged.any (·.2.hasUif)) := by
  induction judged generalizing f with
  | nil => exact (Bool.or_false _).symm
  | cons j judged ih =>
    have hadd : (f.add j.1 j.2).hasUif = (f.hasUif || j.2.hasUif) := rfl
    rw [List.any_cons, ← Bool.or_assoc, ← hadd]
    exact ih (f.add j.1 j.2)

theorem depthLimited_addAll :
    (f.addAll judged).depthLimited = (f.depthLimited || judged.any (·.2.depthLimited)) := by
  induction judged generalizing f with
  | nil => exact (Bool.or_false _).symm
  | cons j judged ih =>
    have hadd : (f.add j.1 j.2).depthLimited = (f.depthLimited || j.2.depthLimited) := rfl
    rw [List.any_cons, ← Bool.or_assoc, ← hadd]
    exact ih (f.add j.1 j.2)

/-- The names of partitions without a definite classification are collected. -/
theorem mem_inconclusive_addAll {name : String} :
    name ∈ (f.addAll judged).inconclusive ↔ name ∈ f.inconclusive ∨
      ∃ j ∈ judged, j.2.result.1.isConclusive = false ∧ name ∈ j.1.uifNames := by
  induction judged generalizing f with
  | nil => simp [addAll]
  | cons j judged ih =>
    have hadd : name ∈ (f.add j.1 j.2).inconclusive ↔ name ∈ f.inconclusive ∨
        j.2.result.1.isConclusive = false ∧ name ∈ j.1.uifNames := by
      cases hresult : j.2.result.1.isConclusive with
      | true => simp [add, hresult]
      | false => simp [add, hresult, NameSet.mem_union]
    have hrest := ih (f.add j.1 j.2)
    rw [hadd, or_assoc] at hrest
    rw [List.exists_mem_cons_iff]
    exact hrest

end Classified

namespace Run

section

variable (ctx : RunContext) (iteration : UInt32)

/-- A partition was checked, and what was found out was stored. -/
structure Judged (h : History) (p : Partition) (v : Verdict) : Prop where
  checks : ∃ es ⊆ h, Oracle.Checks ctx.settings.solver.timeoutMs iteration p es v
  stored : .wrote (verdictRow ctx iteration v) (.ok ()) ∈ h

/-- How the record of an iteration follows from its events, and from what was found out about its
partitions. -/
structure Analyzed (h : History) (judged : List (Partition × Verdict)) (record : IterationRecord) :
    Prop where
  result : record.result =
    some (classifyIteration (judged.map (·.2.result.1)) ⟨h.failed || h.aborted, h.expired⟩)
  hasTimedOut : record.hasTimedOut = some h.expired
  /-- Nothing follows an aborted batch. -/
  inTime : h.aborted → h.expired = false
  each : ∀ j ∈ judged, Judged ctx iteration h j.1 j.2
  delivered : judged.map (·.1) <+: h.delivered
  /-- Nothing is left out if nothing went wrong. -/
  complete : h.failed = false → h.aborted = false → h.expired = false →
    judged.map (·.1) = h.delivered ∧ .pulled (.done (.ok none)) ∈ h

end

/-- The account of an iteration. -/
structure Account where
  number : UInt32
  partitions : List Partition
  /-- The partitions with the verdicts that were stored. -/
  judged : List (Partition × Verdict)
  record : IterationRecord

/-- What is written in an iteration: its row, one for each partition, one in its place for each
verdict, and the row of the iteration again. -/
def Account.writes (ctx : RunContext) (a : Account) : List StoreWrite :=
  startedRow ctx a.number :: (a.partitions.map (fun p => indexRow ctx a.number p.index) ++
    (a.judged.map (fun j => verdictRow ctx a.number j.2) ++ [.iteration a.record]))

/-- How an account follows from the events of its iteration. -/
structure Accounted (ctx : RunContext) (h : History) (a : Account) : Prop where
  analyzed : Analyzed ctx a.number h a.judged a.record
  partitions : a.partitions = h.accepted
  /-- Batches are checked as a whole, one after the other. -/
  batches : a.judged.map (·.1) =
    ((batches (ctx.settings.solver.parallelism.toNat - 1) a.partitions).take
      h.finishedBatches).flatten
  /-- The batch that was given up is not among them. -/
  cutOff : ∀ k ∈ h.cutOff, k.partition ∈ (a.partitions.drop a.judged.length).map (·.index)
  key : a.record.key = (ctx.benchmark, ctx.tool, a.number)
  partitionCount : a.record.partitionCount = some (.ofNat a.partitions.length)
  hasUif : a.record.hasUif = some (a.judged.any (·.2.hasUif))
  isDepthLimited : a.record.isDepthLimited = some (a.judged.any (·.2.depthLimited))

section

variable {ctx : RunContext} {iteration : UInt32}

theorem Judged.mono {h h' : History} {p : Partition} {v : Verdict}
    (judged : Judged ctx iteration h p v) (hsub : h ⊆ h') : Judged ctx iteration h' p v := by
  obtain ⟨⟨es, hes, hchecks⟩, hstored⟩ := judged
  exact ⟨⟨es, List.Subset.trans hes hsub, hchecks⟩, hsub hstored⟩

/-- The verdict names the partition. -/
theorem Judged.index_eq {h : History} {p : Partition} {v : Verdict}
    (judged : Judged ctx iteration h p v) : v.index = p.index := by
  obtain ⟨⟨es, -, statuses, failure, runtime, -, rfl⟩, -⟩ := judged
  rfl

/-! ## Classifying -/

/-- The events in which verdicts are stored. -/
def verdictEvents (ctx : RunContext) (iteration : UInt32) (judged : List (Partition × Verdict)) :
    History :=
  judged.map fun j => .wrote (verdictRow ctx iteration j.2) (.ok ())

/-- Verdicts are stored one after the other, and added to what was found. -/
theorem Concludes.eq {items : List (Partition × Verdict)} {found found' : Classified}
    {es : History} (h : Concludes ctx iteration items found es (.ok found')) :
    found' = found.addAll items ∧ es = verdictEvents ctx iteration items := by
  generalize hr : Except.ok found' = r at h
  induction h with
  | done =>
    cases hr
    exact ⟨rfl, rfl⟩
  | failed => cases hr
  | next _ ih =>
    obtain ⟨hfound, hes⟩ := ih hr
    exact ⟨hfound, congrArg (_ :: ·) hes⟩

section

variable (judged : List (Partition × Verdict))

theorem forall_mem_verdictEvents {P : Event → Prop}
    (h : ∀ v, P (.wrote (verdictRow ctx iteration v) (.ok ()))) :
    ∀ e ∈ verdictEvents ctx iteration judged, P e :=
  List.forall_mem_map.mpr fun j _ => h j.2

theorem unpolled_verdictEvents : (verdictEvents ctx iteration judged).Unpolled :=
  forall_mem_verdictEvents judged fun _ => rfl

theorem expired_verdictEvents : (verdictEvents ctx iteration judged).expired = false := by
  rw [expired, List.any_eq_false]
  exact forall_mem_verdictEvents judged fun _ => by simp [Event.isExpiry]

theorem aborted_verdictEvents : (verdictEvents ctx iteration judged).aborted = false :=
  (unpolled_verdictEvents judged).aborted_eq

theorem answered_verdictEvents : (verdictEvents ctx iteration judged).answered = [] := by
  rw [answered, List.filterMap_eq_nil_iff]
  exact forall_mem_verdictEvents judged fun _ => rfl

theorem writes_verdictEvents : (verdictEvents ctx iteration judged).writes =
    judged.map fun j => verdictRow ctx iteration j.2 := by
  rw [writes, verdictEvents, List.filterMap_map]
  exact congrFun List.filterMap_eq_map judged

end

/-! ### Batches -/

/-- The events of a batch that was checked to its end, and those behind it. -/
def batchEvents (ctx : RunContext) (iteration : UInt32) (es : History)
    (judged : List (Partition × Verdict)) (rest : History) : History :=
  .polled false :: (es ++ .closed (.done (.ok ())) :: (verdictEvents ctx iteration judged ++ rest))

section

variable {es : History} (hdesk : es.FromDesk) (judged : List (Partition × Verdict)) (rest : History)

include hdesk

omit hdesk in
theorem subset_batchEvents : es ⊆ batchEvents ctx iteration es judged rest ∧
    verdictEvents ctx iteration judged ⊆ batchEvents ctx iteration es judged rest ∧
      rest ⊆ batchEvents ctx iteration es judged rest := by
  refine ⟨fun e he => ?_, fun e he => ?_, fun e he => ?_⟩ <;>
    simp [batchEvents, he]

theorem expired_batchEvents :
    (batchEvents ctx iteration es judged rest).expired = rest.expired := by
  simp [batchEvents, expired_cons, expired_append, Event.isExpiry, hdesk.expired_eq,
    expired_verdictEvents]

theorem aborted_batchEvents :
    (batchEvents ctx iteration es judged rest).aborted = rest.aborted := by
  have hfirst := aborted_append es
    (.closed (.done (.ok ())) :: (verdictEvents ctx iteration judged ++ rest))
  have hsecond := aborted_append (verdictEvents ctx iteration judged) rest
  rw [hdesk.unpolled.aborted_eq] at hfirst
  rw [aborted_verdictEvents] at hsecond
  exact hfirst.trans hsecond

theorem finishedBatches_batchEvents :
    (batchEvents ctx iteration es judged rest).finishedBatches = rest.finishedBatches + 1 := by
  have hverdicts : (verdictEvents ctx iteration judged).finishedBatches = 0 :=
    (unpolled_verdictEvents judged).finishedBatches_eq
  simp [batchEvents, finishedBatches_cons, finishedBatches_append, Event.isFinish,
    hdesk.unpolled.finishedBatches_eq, hverdicts]

theorem writes_batchEvents : (batchEvents ctx iteration es judged rest).writes =
    judged.map (fun j => verdictRow ctx iteration j.2) ++ rest.writes := by
  have hfirst := writes_append es
    (.closed (.done (.ok ())) :: (verdictEvents ctx iteration judged ++ rest))
  have hsecond := writes_append (verdictEvents ctx iteration judged) rest
  rw [hdesk.writes_eq] at hfirst
  rw [writes_verdictEvents] at hsecond
  exact hfirst.trans hsecond

theorem cutOff_batchEvents : (batchEvents ctx iteration es judged rest).cutOff = rest.cutOff := by
  have hfirst := cutOffFrom_append hdesk.unpolled []
    (.closed (.done (.ok ())) :: (verdictEvents ctx iteration judged ++ rest))
  have hunpolled : (verdictEvents ctx iteration judged).Unpolled := unpolled_verdictEvents judged
  have hsecond := cutOffFrom_append hunpolled [] rest
  rw [answered_verdictEvents] at hsecond
  exact hfirst.trans hsecond

end

/-- A batch whose verdicts were stored is judged. -/
theorem judged_of_batch {batch : List Partition} {verdicts : List Verdict} {es h : History}
    (checks : Oracle.ChecksAll ctx.settings.solver.timeoutMs iteration batch es verdicts)
    (hes : es ⊆ h) (stored : verdictEvents ctx iteration (batch.zip verdicts) ⊆ h) :
    (batch.zip verdicts).map (·.1) = batch ∧
      ∀ x ∈ batch.zip verdicts, Judged ctx iteration h x.1 x.2 := by
  obtain ⟨hlength, hchecks⟩ := List.forall₂_iff_zip.mp checks.forall₂
  refine ⟨List.map_fst_zip hlength.le, fun x hx => ?_⟩
  obtain ⟨es', hsub, hcheck⟩ := hchecks hx
  exact ⟨⟨es', List.Subset.trans hsub hes, hcheck⟩, stored (List.mem_map.mpr ⟨x, hx, rfl⟩)⟩

/-- How what was found follows from the verdicts that were stored, and these from the events. -/
structure Checked (ctx : RunContext) (iteration : UInt32) (pieces : List (List Partition))
    (found found' : Classified) (h : History) (judged : List (Partition × Verdict)) : Prop where
  found_eq : found' =
    { found.addAll judged with error := found'.error, timedOut := found'.timedOut }
  each : ∀ j ∈ judged, Judged ctx iteration h j.1 j.2
  partitions : judged.map (·.1) = (pieces.take h.finishedBatches).flatten
  complete : found'.error = none → found'.timedOut = false → judged.map (·.1) = pieces.flatten
  writes : h.writes = judged.map fun j => verdictRow ctx iteration j.2
  cutOff : ∀ k ∈ h.cutOff, k.partition ∈ (pieces.flatten.drop judged.length).map (·.index)

theorem Checked.nil {pieces : List (List Partition)} {found found' : Classified} {h : History}
    (hfound : found' = { found with error := found'.error, timedOut := found'.timedOut })
    (hfinished : h.finishedBatches = 0)
    (hcomplete : found'.error = none → found'.timedOut = false → pieces = [])
    (hwrites : h.writes = [])
    (hcutOff : ∀ k ∈ h.cutOff, k.partition ∈ pieces.flatten.map (·.index)) :
    Checked ctx iteration pieces found found' h [] where
  found_eq := hfound
  each := by simp
  partitions := by rw [hfinished]; rfl
  complete herror ht := by rw [hcomplete herror ht]; rfl
  writes := hwrites
  cutOff := hcutOff

/-- A batch that was given up leaves only its answers. -/
theorem Checked.givenUp {batch : List Partition} {rest : List (List Partition)}
    {found found' : Classified} {es : History} {verdicts : List Verdict}
    {result : Raced (Except String Unit)}
    (checks : Oracle.ChecksAll ctx.settings.solver.timeoutMs iteration batch es verdicts)
    (unfinished : ∀ u, result ≠ .done (.ok u))
    (hfound : found' = { found with error := found'.error, timedOut := found'.timedOut })
    (hcut : found'.error = none → found'.timedOut = true) :
    Checked ctx iteration (batch :: rest) found found'
      (.polled false :: (es ++ [.closed result])) [] := by
  have hdesk : es.FromDesk := checks.isFromDesk
  obtain ⟨hlast, hkept⟩ : History.finishedBatches [.closed result] = 0 ∧
      ∀ keys, cutOffFrom keys [.closed result] = keys := by
    rcases result with (_ | u) | _
    · exact ⟨rfl, fun _ => rfl⟩
    · exact absurd rfl (unfinished u)
    · exact ⟨rfl, fun _ => rfl⟩
  have hfinished : History.finishedBatches (.polled false :: (es ++ [.closed result])) = 0 := by
    have hfirst := finishedBatches_append es [.closed result]
    rw [hdesk.unpolled.finishedBatches_eq, hlast] at hfirst
    exact hfirst
  have hwrites : History.writes (.polled false :: (es ++ [.closed result])) = [] := by
    have hfirst := writes_append es [.closed result]
    rw [hdesk.writes_eq] at hfirst
    exact hfirst
  have hcutOff : History.cutOff (.polled false :: (es ++ [.closed result])) = es.answered := by
    have hfirst := cutOffFrom_append hdesk.unpolled [] [.closed result]
    rw [hkept] at hfirst
    exact hfirst
  have hcomplete : found'.error = none → found'.timedOut = false → batch :: rest = [] := by
    intro herror ht
    rw [hcut herror] at ht
    cases ht
  refine .nil hfound hfinished hcomplete hwrites fun k hk => ?_
  rw [hcutOff] at hk
  rw [List.flatten_cons, List.map_append]
  exact List.mem_append_left _ (checks.answered_partition hk)

/-- A batch whose verdicts were stored comes before the others. -/
theorem Checked.next {batch : List Partition} {rest : List (List Partition)}
    {found found' : Classified} {es h : History} {verdicts : List Verdict}
    {judged : List (Partition × Verdict)}
    (checks : Oracle.ChecksAll ctx.settings.solver.timeoutMs iteration batch es verdicts)
    (checked : Checked ctx iteration rest (found.addAll (batch.zip verdicts)) found' h judged) :
    Checked ctx iteration (batch :: rest) found found'
      (batchEvents ctx iteration es (batch.zip verdicts) h) (batch.zip verdicts ++ judged) := by
  have hdesk : es.FromDesk := checks.isFromDesk
  obtain ⟨hes, hstored, hrest⟩ : es ⊆ batchEvents ctx iteration es (batch.zip verdicts) h ∧
      verdictEvents ctx iteration (batch.zip verdicts) ⊆
        batchEvents ctx iteration es (batch.zip verdicts) h ∧
      h ⊆ batchEvents ctx iteration es (batch.zip verdicts) h := subset_batchEvents _ _
  obtain ⟨hbatch, hbatched⟩ := judged_of_batch checks hes hstored
  constructor
  case found_eq =>
    rw [Classified.addAll_append]
    exact checked.found_eq
  case each =>
    exact List.forall_mem_append.mpr ⟨hbatched, fun j hj => (checked.each j hj).mono hrest⟩
  case partitions =>
    rw [finishedBatches_batchEvents hdesk, List.map_append, hbatch, List.take_succ_cons,
      List.flatten_cons, checked.partitions]
  case complete =>
    intro herror hinTime
    rw [List.map_append, hbatch, List.flatten_cons, checked.complete herror hinTime]
  case writes => rw [writes_batchEvents hdesk, checked.writes, List.map_append]
  case cutOff =>
    have hlength : (batch.zip verdicts).length = batch.length := by
      rw [← List.length_map, hbatch]
    have hdrop : (batch :: rest).flatten.drop (batch.zip verdicts ++ judged).length =
        rest.flatten.drop judged.length := by
      rw [List.flatten_cons, List.length_append, hlength, ← List.drop_drop, List.drop_left]
    rw [cutOff_batchEvents hdesk, hdrop]
    exact checked.cutOff

/-- What was found tells how checking ended, and it ended in one way. -/
structure EndsAs (found : Classified) (h : History) : Prop where
  timedOut : found.timedOut = h.expired
  error : found.error.isSome = h.aborted
  inTime : h.aborted → h.expired = false

/-- A batch that was checked to its end leaves open how checking ends. -/
theorem EndsAs.batch {found : Classified} {es h : History} (ends : EndsAs found h)
    (hdesk : es.FromDesk) (judged : List (Partition × Verdict)) :
    EndsAs found (batchEvents ctx iteration es judged h) where
  timedOut := by rw [expired_batchEvents hdesk, ends.timedOut]
  error := by rw [aborted_batchEvents hdesk, ends.error]
  inTime := by
    rw [aborted_batchEvents hdesk, expired_batchEvents hdesk]
    exact ends.inTime

/-- A batch that was given up tells how checking ended. -/
theorem EndsAs.givenUp {found : Classified} {es : History} {result : Raced (Except String Unit)}
    (hdesk : es.FromDesk) (ends : EndsAs found [.closed result]) :
    EndsAs found (.polled false :: (es ++ [.closed result])) := by
  have hexpired : History.expired (.polled false :: (es ++ [.closed result])) =
      History.expired [.closed result] := by
    have hlast := expired_append es [.closed result]
    rw [hdesk.expired_eq, Bool.false_or] at hlast
    exact hlast
  have haborted : History.aborted (.polled false :: (es ++ [.closed result])) =
      History.aborted [.closed result] := by
    have hlast := aborted_append es [.closed result]
    rw [hdesk.unpolled.aborted_eq, Bool.false_or] at hlast
    exact hlast
  refine ⟨?_, ?_, ?_⟩
  · rw [hexpired, ends.timedOut]
  · rw [haborted, ends.error]
  · rw [haborted, hexpired]
    exact ends.inTime

namespace Classifies

variable {pieces : List (List Partition)} {found found' : Classified} {es : History}

theorem isChecking (h : Classifies ctx iteration pieces found es (.ok found')) :
    ∀ e ∈ es, e.isChecking := by
  generalize hr : Except.ok found' = r at h
  induction h with
  | done => simp
  | expired => simp [Event.isChecking]
  | abandoned checks | aborted checks =>
    refine List.forall_mem_cons.mpr ⟨rfl, List.forall_mem_append.mpr ⟨?_, ?_⟩⟩
    · exact FromDesk.isChecking checks.isFromDesk
    · simp [Event.isChecking]
  | failed => cases hr
  | next checks concludes _ ih =>
    cases hr
    obtain ⟨-, rfl⟩ := concludes.eq
    refine List.forall_mem_cons.mpr ⟨rfl, List.forall_mem_append.mpr ⟨?_, ?_⟩⟩
    · exact FromDesk.isChecking checks.isFromDesk
    · refine List.forall_mem_cons.mpr ⟨rfl, List.forall_mem_append.mpr ⟨?_, ih rfl⟩⟩
      exact forall_mem_verdictEvents _ fun _ => rfl

/-- The batches are checked one after the other, until one is aborted or the watchdog is seen to have
expired. -/
theorem checked (h : Classifies ctx iteration pieces found es (.ok found'))
    (hfound : found.IsOpen) :
    EndsAs found' es ∧ ∃ judged, Checked ctx iteration pieces found found' es judged := by
  generalize hr : Except.ok found' = r at h
  induction h with
  | done =>
    cases hr
    refine ⟨⟨hfound.timedOut, ?_, fun _ => rfl⟩, [], .nil rfl rfl (fun _ _ => rfl) rfl ?_⟩
    · rw [hfound.error]
      rfl
    · simp [cutOff, cutOffFrom]
  | expired =>
    cases hr
    refine ⟨⟨rfl, ?_, by simp [History.aborted, Event.isAbort]⟩, [],
      .nil rfl rfl (by simp) rfl ?_⟩
    · rw [hfound.error]
      rfl
    · simp [cutOff, cutOffFrom]
  | abandoned checks =>
    cases hr
    refine ⟨.givenUp checks.isFromDesk ⟨rfl, ?_, by simp [History.aborted, Event.isAbort]⟩, [],
      .givenUp checks (by simp) rfl fun _ => rfl⟩
    rw [hfound.error]
    rfl
  | aborted checks =>
    cases hr
    exact ⟨.givenUp checks.isFromDesk ⟨hfound.timedOut, rfl, fun _ => rfl⟩, [],
      .givenUp checks (by simp) rfl (by simp)⟩
  | failed => cases hr
  | @next batch rest found found'' es es' es'' verdicts r checks concludes _ ih =>
    obtain ⟨rfl, rfl⟩ := concludes.eq
    obtain ⟨hends, judged, hchecked⟩ := ih (hfound.addAll _) hr
    exact ⟨hends.batch checks.isFromDesk _, batch.zip verdicts ++ judged, hchecked.next checks⟩

end Classifies

/-- The partitions that were explored are checked, unless the watchdog is seen to have expired. -/
theorem Judges.checked {explored : Exploration} {es : History} {found : Classified}
    (h : Judges ctx iteration explored es (.ok found)) :
    (∀ e ∈ es, e.isChecking) ∧ found.timedOut = (explored.timedOut || es.expired) ∧
      found.error.isSome = es.aborted ∧ (es.aborted → found.timedOut = false) ∧
      ∃ judged, Checked ctx iteration
        (batches (ctx.settings.solver.parallelism.toNat - 1) explored.partitions) {} found es
          judged := by
  cases h with
  | expired timedOut =>
    refine ⟨by simp, by rw [timedOut]; rfl, rfl, by simp [History.aborted], [],
      .nil rfl rfl (by simp) rfl ?_⟩
    simp [cutOff, cutOffFrom]
  | classified inTime classifies =>
    obtain ⟨hends, judged, hchecked⟩ := classifies.checked ⟨rfl, rfl⟩
    refine ⟨classifies.isChecking, ?_, hends.error, ?_, judged, hchecked⟩
    · rw [inTime, hends.timedOut]
      rfl
    · rw [hends.timedOut]
      exact hends.inTime

/-! ## Iterations -/

theorem Analyzed.append_quiet {h h' : History} {judged : List (Partition × Verdict)}
    {record : IterationRecord} (hana : Analyzed ctx iteration h judged record) (hq : h'.Quiet)
    (he : h'.expired = false) (hu : h'.Unpolled) :
    Analyzed ctx iteration (h ++ h') judged record := by
  have hfailed : (h ++ h').failed = h.failed := failed_append_quiet hq
  have haborted : (h ++ h').aborted = h.aborted := by
    rw [aborted_append, hu.aborted_eq, Bool.or_false]
  have hexpired : (h ++ h').expired = h.expired := by rw [expired_append, he, Bool.or_false]
  have hdelivered : (h ++ h').delivered = h.delivered := delivered_append_quiet hq
  refine ⟨?_, ?_, ?_, ?_, ?_, ?_⟩
  · rw [hfailed, haborted, hexpired, hana.result]
  · rw [hexpired, hana.hasTimedOut]
  · rw [haborted, hexpired]
    exact hana.inTime
  · exact fun j hj => (hana.each j hj).mono (List.subset_append_left _ _)
  · rw [hdelivered]
    exact hana.delivered
  · rw [hfailed, haborted, hexpired, hdelivered]
    intro hf hb ht
    obtain ⟨hall, hdrained⟩ := hana.complete hf hb ht
    exact ⟨hall, List.mem_append_left _ hdrained⟩

/-- What comes behind an iteration does not change its account. -/
theorem Accounted.append {h h' : History} {a : Account} (hacc : Accounted ctx h a)
    (ha : h'.Aside) : Accounted ctx (h ++ h') a where
  analyzed := hacc.analyzed.append_quiet ha.quiet ha.expired_eq ha.unpolled
  partitions := by rw [accepted_append_quiet ha.quiet, hacc.partitions]
  batches := by
    rw [finishedBatches_append, ha.unpolled.finishedBatches_eq, Nat.add_zero, hacc.batches]
  cutOff := by
    have hcutOff : (h ++ h').cutOff = h.cutOff := cutOffFrom_append_unpolled ha.unpolled []
    rw [hcutOff]
    exact hacc.cutOff
  key := hacc.key
  partitionCount := hacc.partitionCount
  hasUif := hacc.hasUif
  isDepthLimited := hacc.isDepthLimited

section

variable {es es' : History} {explored : Exploration} {found : Classified}
  {judged : List (Partition × Verdict)}

/-- Whether an iteration failed, was broken off or ran out of time shows when it was explored and
checked. -/
theorem Explores.flags_eq (explores : Explores ctx iteration es explored)
    (judges : Judges ctx iteration explored es' (.ok found)) :
    (es ++ es').failed = explored.error.isSome ∧ (es ++ es').aborted = found.error.isSome ∧
      (es ++ es').expired = found.timedOut := by
  obtain ⟨hchecking, htime, herror, -⟩ := judges.checked
  rw [failed_append_quiet (quiet_of_isChecking hchecking), explores.failed_eq, aborted_append,
    explores.unpolled.aborted_eq, expired_append, explores.expired_eq, htime, herror]
  exact ⟨rfl, rfl, rfl⟩

/-- What was found, as far as it depends on the verdicts alone. -/
theorem Checked.found_flags {pieces : List (List Partition)} {h : History}
    (checked : Checked ctx iteration pieces {} found h judged) :
    found.classes = judged.map (·.2.result.1) ∧ found.hasUif = judged.any (·.2.hasUif) ∧
      found.depthLimited = judged.any (·.2.depthLimited) := by
  rw [checked.found_eq]
  exact ⟨Classified.classes_addAll {} judged, Classified.hasUif_addAll {} judged,
    Classified.depthLimited_addAll {} judged⟩

/-- The record of an iteration follows from its events and verdicts. -/
theorem Explores.analyzed (elapsed : Duration) (explores : Explores ctx iteration es explored)
    (judges : Judges ctx iteration explored es' (.ok found))
    (checked : Checked ctx iteration
      (batches (ctx.settings.solver.parallelism.toNat - 1) explored.partitions) {} found es'
        judged) :
    Analyzed ctx iteration (es ++ es') judged
      (reportOf ctx iteration explored found elapsed).record := by
  obtain ⟨hchecking, htime, -, hinTime, -⟩ := judges.checked
  have hquiet : es'.Quiet := quiet_of_isChecking hchecking
  obtain ⟨hfailed, haborted, hexpired⟩ := explores.flags_eq judges
  have hprefix : judged.map (·.1) <+: explored.partitions := by
    rw [checked.partitions, batches_take_flatten]
    exact List.take_prefix _ _
  constructor
  case result =>
    rw [hfailed, haborted, hexpired, ← checked.found_flags.1]
    rfl
  case hasTimedOut =>
    rw [hexpired]
    rfl
  case inTime =>
    rw [aborted_append, explores.unpolled.aborted_eq, Bool.false_or, hexpired]
    exact hinTime
  case each => exact fun j hj => (checked.each j hj).mono (List.subset_append_right _ _)
  case delivered =>
    rw [delivered_append_quiet hquiet]
    exact hprefix.trans explores.prefix_delivered
  case complete =>
    rw [hfailed, haborted, hexpired, delivered_append_quiet hquiet]
    intro hf hb ht
    have herror : explored.error = none := by simpa using hf
    have hunbroken : found.error = none := by simpa using hb
    have hinTime : explored.timedOut = false := by
      rw [htime, Bool.or_eq_false_iff] at ht
      exact ht.1
    refine ⟨?_, List.mem_append_left _ (explores.drained_mem herror hinTime)⟩
    rw [checked.complete hunbroken ht, batches_flatten, explores.delivered_eq herror]

/-- What an iteration explored and found decides its account. -/
theorem Explores.accounted (elapsed : Duration) (explores : Explores ctx iteration es explored)
    (judges : Judges ctx iteration explored es' (.ok found)) :
    ∃ judged, Accounted ctx (es ++ es') ⟨iteration, explored.partitions, judged,
        (reportOf ctx iteration explored found elapsed).record⟩ ∧
      (es ++ es').writes = explored.partitions.map (fun p => indexRow ctx iteration p.index) ++
        judged.map (fun j => verdictRow ctx iteration j.2) ∧
      ∀ name, name ∈ found.inconclusive ↔
        ∃ j ∈ judged, j.2.result.1.isConclusive = false ∧ name ∈ j.1.uifNames := by
  obtain ⟨hchecking, -, -, -, judged, checked⟩ := judges.checked
  obtain ⟨-, huif, hdepth⟩ := checked.found_flags
  refine ⟨judged, ?_, ?_, fun name => ?_⟩
  · constructor
    case analyzed => exact explores.analyzed elapsed judges checked
    case partitions =>
      rw [accepted_append_quiet (quiet_of_isChecking hchecking), explores.accepted_eq]
    case batches =>
      rw [finishedBatches_append, explores.unpolled.finishedBatches_eq, Nat.zero_add]
      exact checked.partitions
    case cutOff =>
      intro k hk
      have hcut : (es ++ es').cutOff = cutOffFrom es.answered es' :=
        cutOffFrom_append explores.unpolled [] es'
      rw [hcut, explores.answered_eq] at hk
      have hdropped := checked.cutOff k hk
      rwa [batches_flatten] at hdropped
    case key => rfl
    case partitionCount => rfl
    case hasUif => exact congrArg some huif
    case isDepthLimited => exact congrArg some hdepth
  · rw [writes_append, explores.writes_eq, checked.writes]
  · have hnone : name ∉ (Classified.inconclusive {}) := List.not_mem_nil
    rw [checked.found_eq]
    exact (Classified.mem_inconclusive_addAll {} judged).trans (or_iff_right hnone)

end

/-- Every iteration that was analysed has an account, which says what was written. -/
theorem Analyzes.accounted {es : History} {report : IterationReport}
    (h : Analyzes ctx iteration es (.ok report)) :
    ∃ e rest a, es = .wrote (startedRow ctx iteration) (.ok ()) :: e :: rest ∧
      e.isPrepared = true ∧ (∀ e ∈ rest, e.isWork) ∧ Accounted ctx (e :: rest) a ∧
      a.number = iteration ∧ a.record = report.record ∧ es.writes = a.writes ctx ∧
      report.record.result = some report.result ∧
      report.record.hasTimedOut = some report.timedOut ∧
      ∀ name, name ∈ report.inconclusive ↔
        ∃ j ∈ a.judged, j.2.result.1.isConclusive = false ∧ name ∈ j.1.uifNames := by
  cases h with
  | @done es es' explored found elapsed checking explores judges =>
    obtain ⟨judged, hacc, hwrites, hinconclusive⟩ := explores.accounted elapsed judges
    obtain ⟨e, rest, rfl, hprepared, hrest⟩ := explores.eq_cons
    have hchecking : ∀ e ∈ es', e.isChecking := judges.checked.1
    refine ⟨e, rest ++ (es' ++ [_, _]), ⟨iteration, explored.partitions, judged,
      (reportOf ctx iteration explored found elapsed).record⟩, rfl, hprepared, ?_, ?_, rfl, rfl, ?_,
      rfl, rfl, hinconclusive⟩
    · simp only [List.forall_mem_append]
      exact ⟨hrest, fun e he => Event.isWork_of_isChecking (hchecking e he),
        by simp [Event.isWork]⟩
    · have hlast : Aside
          [.wrote (.iteration (reportOf ctx iteration explored found elapsed).record) (.ok ()),
            .appended ctx.resultsPath (blockOf ctx explored found checking).text (.ok ())] := by
        simp [Aside, Event.isAside]
      simpa using hacc.append hlast
    · have hlast := writes_append ((e :: rest) ++ es')
        [.wrote (.iteration (reportOf ctx iteration explored found elapsed).record) (.ok ()),
          .appended ctx.resultsPath (blockOf ctx explored found checking).text (.ok ())]
      rw [hwrites, List.append_assoc, List.append_assoc] at hlast
      exact congrArg (startedRow ctx iteration :: ·) hlast

end

end Run

end Regression
