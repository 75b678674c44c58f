import Regression.Proofs.Run.Following
import Regression.Proofs.Run.Termination

/-!
# A replay follows the refinements

While a trace is replayed without faults, the units that are expanded when an iteration begins are
those that were put back before. They decide which entry is explored, up to the first index that
does not increase. No refinement fails, and without entries the first iteration is the last one.

* `Run.Iterates.followed`: the iterations of any run follow the trace.
* `replay_follows_refinements`: the same for all runs, with what becomes of an empty trace.
-/

namespace Regression

open History

/-! ## Iterations one after the other -/

namespace Event

/-- The record of an iteration. -/
def iteration? : Event → Option IterationRecord
  | .wrote (.iteration record) _ => some record
  | _ => none

/-- Neither prepares nor explores. -/
def isLater : Event → Bool
  | .prepared .. | .started .. | .pulled .. => false
  | _ => true

/-- Part of checking partitions. -/
def isJudging : Event → Bool
  | .polled .. | .cancelled _ | .asked .. | .recorded .. | .closed _ => true
  | .wrote (.partition _) _ => true
  | _ => false

/-- No input was missing. -/
def isFound : Event → Bool
  | .looked _ found => found
  | _ => true

/-- The store or the results file did not take something. -/
def isRejection : Event → Bool
  | .wrote _ (.error _) | .reset _ (.error _) | .appended _ _ (.error _) => true
  | _ => false

theorem of_isLater {e : Event} (h : e.isLater) :
    e.isPrepared = false ∧ e.delivered? = none ∧ (e.refused? = none → e.isQuiet) := by
  cases e with
  | wrote w result =>
    refine ⟨rfl, rfl, ?_⟩
    cases w <;> cases result <;> simp [isQuiet, refused?]
  | _ => first | exact ⟨rfl, rfl, fun _ => rfl⟩ | cases h

theorem isLater_of_isOutside {e : Event} (h : e.isOutside) : e.isLater := by
  cases e <;> first | rfl | cases h

theorem of_isJudging {e : Event} (h : e.isJudging) : e.isLater ∧ e.iteration? = none := by
  cases e with
  | wrote w result =>
    cases w with
    | partition row => exact ⟨rfl, rfl⟩
    | _ => cases h
  | _ => first | exact ⟨rfl, rfl⟩ | cases h

end Event

namespace History

/-- The record with which the iteration of a piece was closed, which comes before that of the next
iteration. -/
def closing? (piece : History) : Option IterationRecord := piece.findSome? Event.iteration?

/-- What holds of every iteration: of what happened before it, its number, and its events up to the
next one. -/
inductive Each (P : History → Nat → History → Prop) : History → Nat → List History → Prop
  | nil {before : History} {k : Nat} : Each P before k []
  | cons {before piece : History} {k : Nat} {pieces : List History} (first : P before k piece)
    (rest : Each P (before ++ piece) (k + 1) pieces) : Each P before k (piece :: pieces)

theorem Each.imp {P Q : History → Nat → History → Prop} {start : History} {k : Nat}
    {pieces : List History} (each : Each P start k pieces)
    (h : ∀ before rest k piece, start ++ pieces.flatten = before ++ rest → P before k piece →
      Q before k piece) : Each Q start k pieces := by
  induction each with
  | nil => exact .nil
  | @cons before piece k pieces first _ ih =>
    refine .cons (h before (piece :: pieces).flatten k piece rfl first) (ih ?_)
    intro start rest k' piece' heq
    refine h start rest k' piece' ?_
    rw [← heq, List.flatten_cons, List.append_assoc]

theorem cut_flatten (h : History) : h.cut.1 ++ h.cut.2.flatten = h := by
  induction h with
  | nil => rfl
  | cons e es ih =>
    cases he : e.isPrepared with
    | true =>
      rw [cut_cons he, List.nil_append, List.flatten_cons, List.cons_append, ih]
    | false =>
      rw [cut_cons_of_not he, List.cons_append, ih]

theorem delivered_append_later {h rest : History} (later : ∀ e ∈ rest, e.isLater) :
    (h ++ rest).delivered = h.delivered := by
  have hnone : rest.delivered = [] := by
    rw [delivered, List.filterMap_eq_nil_iff]
    exact fun e he => (Event.of_isLater (later e he)).2.1
  rw [delivered_append, hnone, List.append_nil]

/-- Later events are quiet unless a row of a partition is refused. -/
theorem quiet_of_later {h rest : History} (later : ∀ e ∈ rest, e.isLater)
    (hrefused : (h ++ rest).refused = []) : rest.Quiet ∧ h.refused = [] := by
  have happend : (h ++ rest).refused = h.refused ++ rest.refused := List.filterMap_append
  rw [happend, List.append_eq_nil_iff] at hrefused
  refine ⟨fun e he => (Event.of_isLater (later e he)).2.2 ?_, hrefused.1⟩
  exact List.filterMap_eq_nil_iff.mp hrefused.2 e he

end History

/-! ## Following a trace -/

/-- The text for an iteration whose exploration failed. -/
def failedText (fault : AnalysisFault) : String :=
  "symbolic execution failed: " ++ (Failure.analysis fault).message

/-- The exploration of an iteration failed, and the record of the iteration says so. -/
structure FailedWith (fault : AnalysisFault) (piece : History) : Prop where
  failed : piece.failed
  record : ∀ record ∈ piece.closing?,
    record.result = some .error ∧ ∃ rest, record.errors = some (failedText fault ++ rest)

/-- Partitions were explored up to the first one whose index does not increase. -/
structure ExploresAll (partitions : List Partition) (piece : History) : Prop where
  accepted : piece.accepted = following none partitions
  inOrder : (partitions.map (·.index)).IsChain (· < ·) →
    piece.accepted = partitions ∧ piece.failed = false
  outOfOrder : ∀ {taken rest p q}, partitions = taken ++ p :: q :: rest →
    ((taken ++ [p]).map (·.index)).IsChain (· < ·) → ¬ p.index < q.index →
      piece.accepted = taken ++ [p] ∧ FailedWith (.outOfOrder q.index p.index) piece

/-- How the iteration `k` follows a trace, if these units are expanded when it begins. Nothing is
explored but the partitions of the entry for them, and all of these up to the first one out of order
unless the time was over or the store refused a row. -/
inductive FollowsTrace (t : Trace) (expanded : NameSet) (k : Nat) (piece : History) : Prop
  | entry {entry : TraceEntry} (chosen : t.Chooses expanded k entry)
    (only : piece.delivered <+: entry.partitions)
    (all : piece.expired = false → piece.refused = [] → ExploresAll entry.partitions piece)
  | empty (none : t.entries = []) (nothing : piece.delivered = [])
    (fails : piece.expired = false → FailedWith .emptyTrace piece)

theorem Progress.next_toNat {progress : Progress} {remaining : Nat}
    (hroom : progress.iterations.length + (remaining + 1) < UInt32.size) :
    progress.next.toNat = progress.iterations.length + 1 := by
  rw [Progress.next, UInt32.toNat_ofNat_of_lt']
  exact Nat.lt_of_le_of_lt (by omega) hroom

namespace Run

section

variable {ctx : RunContext} {iteration : UInt32} {t : Trace} {es before : History}
  {r r' : Replay}

/-! ### Checking -/

theorem Concludes.isJudging {items : List (Partition × Verdict)} {found : Classified}
    {result : Except Failure Classified} (h : Concludes ctx iteration items found es result) :
    (∀ e ∈ es, e.isJudging) ∧ ∀ e, result = .error e → ∃ e' ∈ es, e'.isRejection := by
  induction h with
  | done => exact ⟨by simp, by rintro _ ⟨⟩⟩
  | failed => exact ⟨by simp [verdictRow, Event.isJudging], by simp [Event.isRejection]⟩
  | next _ ih =>
    refine ⟨List.forall_mem_cons.mpr ⟨rfl, ih.1⟩, fun e he => ?_⟩
    obtain ⟨e', hmem, hrejection⟩ := ih.2 e he
    exact ⟨e', List.mem_cons_of_mem _ hmem, hrejection⟩

theorem Classifies.isJudging {pieces : List (List Partition)} {found : Classified}
    {result : Except Failure Classified} (h : Classifies ctx iteration pieces found es result) :
    (∀ e ∈ es, e.isJudging) ∧ ∀ e, result = .error e → ∃ e' ∈ es, e'.isRejection := by
  have hdesk {batch : List Partition} {es : History} {verdicts : List Verdict}
      (checks : Oracle.ChecksAll ctx.settings.solver.timeoutMs iteration batch es verdicts) :
      ∀ e ∈ es, e.isJudging := by
    intro e he
    have hfrom := checks.isFromDesk e he
    cases e <;> first | rfl | cases hfrom
  induction h with
  | done => exact ⟨by simp, by rintro _ ⟨⟩⟩
  | expired => exact ⟨by simp [Event.isJudging], by rintro _ ⟨⟩⟩
  | abandoned checks | aborted checks =>
    refine ⟨List.forall_mem_cons.mpr ⟨rfl, List.forall_mem_append.mpr ⟨hdesk checks, ?_⟩⟩, ?_⟩
    · simp [Event.isJudging]
    · rintro _ ⟨⟩
  | failed checks concludes =>
    obtain ⟨hjudging, hrejection⟩ := concludes.isJudging
    refine ⟨List.forall_mem_cons.mpr ⟨rfl, List.forall_mem_append.mpr ⟨hdesk checks, ?_⟩⟩, ?_⟩
    · exact List.forall_mem_cons.mpr ⟨rfl, hjudging⟩
    · rintro e -
      obtain ⟨e', hmem, hrejection⟩ := hrejection _ rfl
      exact ⟨e', by simp [hmem], hrejection⟩
  | next checks concludes _ ih =>
    refine ⟨List.forall_mem_cons.mpr ⟨rfl, List.forall_mem_append.mpr ⟨hdesk checks, ?_⟩⟩, ?_⟩
    · exact List.forall_mem_cons.mpr ⟨rfl,
        List.forall_mem_append.mpr ⟨concludes.isJudging.1, ih.1⟩⟩
    · intro e he
      obtain ⟨e', hmem, hrejection⟩ := ih.2 e he
      exact ⟨e', by simp [hmem], hrejection⟩

theorem Judges.isJudging {explored : Exploration} {result : Except Failure Classified}
    (h : Judges ctx iteration explored es result) :
    (∀ e ∈ es, e.isJudging) ∧ ∀ e, result = .error e → ∃ e' ∈ es, e'.isRejection := by
  cases h with
  | expired => exact ⟨by simp, by rintro _ ⟨⟩⟩
  | classified _ classifies => exact classifies.isJudging

/-! ### Pieces -/

theorem Explores.closing?_eq {explored : Exploration} (h : Explores ctx iteration es explored) :
    es.closing? = none := by
  have hpulls {last : Option UInt32} {es : History} {result : List Partition × Ending}
      (pulls : Pulls ctx iteration last es result) : es.closing? = none := by
    induction pulls with
    | next _ _ ih => exact ih
    | _ => rfl
  cases h with
  | expired | failed => rfl
  | delivered delivers =>
    cases delivers with
    | expired | failed => rfl
    | pulled pulls =>
      rw [closing?, List.findSome?_cons, List.findSome?_cons]
      exact hpulls pulls

/-- If an iteration is closed by these events, then with the record for what it explored. -/
def Closes (ctx : RunContext) (iteration : UInt32) (explored : Exploration) (rest : History) :
    Prop :=
  ∀ record ∈ rest.closing?, ∃ found elapsed,
    record = (reportOf ctx iteration explored found elapsed).record

section

variable {rest : History}

/-- The record of an iteration tells why its exploration failed. -/
theorem Explores.failedWith {fault : AnalysisFault} {taken : List Partition}
    {timings : List (String × Duration)}
    (h : Explores ctx iteration es (.upTo taken (.failed (.analysis fault)) timings))
    (closes : Closes ctx iteration (.upTo taken (.failed (.analysis fault)) timings) rest)
    (failed : (es ++ rest).failed) : FailedWith fault (es ++ rest) := by
  refine ⟨failed, fun record hrecord => ?_⟩
  rw [closing?, List.findSome?_append, ← closing?, h.closing?_eq] at hrecord
  obtain ⟨found, elapsed, rfl⟩ := closes record hrecord
  exact (errors_reportOf rfl found elapsed).2

/-- Without an entry the exploration fails. -/
theorem Explores.failedWith_empty {timings : List (String × Duration)}
    (h : Explores ctx iteration es (.upTo [] (.failed (.analysis .emptyTrace)) timings))
    (closes : Closes ctx iteration (.upTo [] (.failed (.analysis .emptyTrace)) timings) rest)
    (nothing : es.delivered = []) : FailedWith .emptyTrace (es ++ rest) := by
  refine h.failedWith closes ?_
  -- Without deliveries nothing can be out of order, so that an event has failed.
  have hfailed := h.failed_eq
  rw [History.failed, inOrder, nothing] at hfailed
  have hany : es.any Event.isFailure = true := by
    simpa [Exploration.error_upTo, Ending.isFailed] using hfailed
  rw [History.failed, List.any_append, hany]
  rfl

/-- If nothing interferes, then the partitions are explored up to the first one out of order. -/
theorem Explores.exploresAll {partitions : List Partition} {timings : List (String × Duration)}
    (h : Explores ctx iteration es
      (.upTo (exploring none partitions).1 (exploring none partitions).2 timings))
    (closes : Closes ctx iteration
      (.upTo (exploring none partitions).1 (exploring none partitions).2 timings) rest)
    (quiet : rest.Quiet) : ExploresAll partitions (es ++ rest) := by
  have haccepted : (es ++ rest).accepted = (exploring none partitions).1 := by
    rw [accepted_append_quiet quiet, h.accepted_eq, Exploration.partitions_upTo]
  have hfailed : (es ++ rest).failed = (exploring none partitions).2.isFailed := by
    rw [failed_append_quiet quiet, h.failed_eq, Exploration.error_upTo]
  refine ⟨haccepted.trans (exploring_fst _ _), fun order => ?_,
    @fun taken behind p q heq order disorder => ?_⟩
  · have hexploring : exploring none partitions = _ := exploring_of_inOrder order
    rw [haccepted, hfailed, hexploring]
    exact ⟨rfl, rfl⟩
  · subst heq
    have hexploring : exploring none (taken ++ p :: q :: behind) = _ :=
      exploring_of_outOfOrder order disorder
    rw [hexploring] at haccepted hfailed h closes
    exact ⟨haccepted, h.failedWith closes hfailed⟩

/-- The piece of an iteration begins with preparing and exploring, and follows the trace. -/
theorem Explores.followsTrace {explored : Exploration} (h : Explores ctx iteration es explored)
    (behind : r.Behind t before) (along : r.Along es r') (later : ∀ e ∈ rest, e.isLater)
    (closes : Closes ctx iteration explored rest) :
    FollowsTrace t (.ofList before.expansions) iteration.toNat (es ++ rest) := by
  have hexpired (h : (es ++ rest).expired = false) : es.expired = false := by
    rw [expired_append, Bool.or_eq_false_iff] at h
    exact h.1
  have hfollows := h.follows along
  cases hentry : r.entryFor iteration with
  | none =>
    rw [hentry] at hfollows
    obtain ⟨hdelivered, hexact⟩ := hfollows
    refine .empty ?_ ?_ fun hinTime => ?_
    · exact behind.trace ▸ Replay.entryFor_eq_none hentry
    · rw [delivered_append_later later, hdelivered]
    · obtain ⟨timings, rfl⟩ := hexact (hexpired hinTime)
      exact h.failedWith_empty closes hdelivered
  | some entry =>
    rw [hentry] at hfollows
    obtain ⟨honly, hexact⟩ := hfollows
    have hchosen := Trace.chooses_of_entryFor hentry
    rw [behind.trace, behind.expanded] at hchosen
    refine .entry hchosen ?_ fun hinTime hrefused => ?_
    · rwa [delivered_append_later later]
    · obtain ⟨hquiet, hes⟩ := quiet_of_later later hrefused
      obtain ⟨timings, rfl⟩ := hexact (hexpired hinTime) hes
      exact h.exploresAll closes hquiet

end

/-- Checking closes nothing. -/
theorem Closes.prepend {explored : Exploration} {h rest : History}
    (closes : Closes ctx iteration explored rest) (judging : ∀ e ∈ h, e.isJudging) :
    Closes ctx iteration explored (h ++ rest) := by
  have hnone : h.closing? = none :=
    List.findSome?_eq_none_iff.mpr fun e he => (Event.of_isJudging (judging e he)).2
  have hclosing : (h ++ rest).closing? = rest.closing? := by
    rw [closing?, List.findSome?_append, ← closing?, hnone]
    rfl
  unfold Closes
  rw [hclosing]
  exact closes

/-- Behind their first event these events are a piece up to the next iteration, and it follows the
trace. -/
structure Begins (t : Trace) (before es rest : History) (k : Nat) (first : Event)
    (piece : History) : Prop where
  cut : History.cut (es ++ rest) = ([first], piece :: rest.cut.2)
  later : first.isLater
  events : [first] ++ piece = es ++ rest.cut.1
  follows : FollowsTrace t (.ofList (History.expansions (before ++ [first]))) k piece

theorem Explores.begins {explored : Exploration} {es' rest : History}
    (h : Explores ctx iteration es explored) (behind : r.Behind t before)
    (along : r.Along (.wrote (startedRow ctx iteration) (.ok ()) :: (es ++ es')) r')
    (later : ∀ e ∈ es', e.isLater) (later' : ∀ e ∈ rest.cut.1, e.isLater)
    (closes : Closes ctx iteration explored (es' ++ rest.cut.1)) :
    ∃ first piece, Begins t before (.wrote (startedRow ctx iteration) (.ok ()) :: (es ++ es')) rest
      iteration.toNat first piece := by
  obtain - | ⟨step, hexplored⟩ := along
  obtain ⟨r'', hes, -⟩ := hexplored.split
  have hfollows := h.followsTrace (behind.step step) hes
    (List.forall_mem_append.mpr ⟨later, later'⟩) closes
  obtain ⟨e, work, rfl, hprepared, hwork⟩ := h.eq_cons
  have hcut : History.cut (work ++ es' ++ rest) = (work ++ es' ++ rest.cut.1, rest.cut.2) := by
    refine History.cut_append (List.forall_mem_append.mpr ⟨?_, ?_⟩)
    · exact fun e he => Event.not_isPrepared_of_isWork (hwork e he)
    · exact fun e he => (Event.of_isLater (later e he)).1
  refine ⟨_, _, ?_, rfl, by simp, hfollows⟩
  rw [List.cons_append, History.cut_cons_of_not rfl, List.cons_append, List.cons_append,
    History.cut_cons hprepared, hcut]
  simp

/-- An iteration that has begun is a piece that follows the trace, however it ended. -/
theorem Analyzes.begins {result : Except Failure IterationReport} {rest : History}
    (h : Analyzes ctx iteration es result) (behind : r.Behind t before) (along : r.Along es r')
    (hrest : ∀ e, result = .error e → rest = []) (later : ∀ e ∈ rest.cut.1, e.isLater) :
    (∃ e first, result = .error e ∧ es = [first] ∧ first.isLater) ∨
      ∃ first piece, Begins t before es rest iteration.toNat first piece := by
  have hlater {es : History} (hjudging : ∀ e ∈ es, e.isJudging) : ∀ e ∈ es, e.isLater :=
    fun e he => (Event.of_isJudging (hjudging e he)).1
  cases h with
  | unstarted => exact .inl ⟨_, _, rfl, rfl, rfl⟩
  | failed explores judges =>
    obtain rfl := hrest _ rfl
    have hjudging := judges.isJudging.1
    refine .inr (explores.begins behind along (hlater hjudging) later (.prepend ?_ hjudging))
    rintro record ⟨⟩
  | unstored explores judges | unlisted explores judges | done explores judges =>
    have hjudging := judges.isJudging.1
    refine .inr (explores.begins behind along
      (List.forall_mem_append.mpr ⟨hlater hjudging, by simp [Event.isLater]⟩) later ?_)
    rw [List.append_assoc]
    refine .prepend ?_ hjudging
    rintro record ⟨⟩
    exact ⟨_, _, rfl⟩

/-! ### Iterations -/

/-- A unit that a replay reported can be put back. -/
theorem Refines.succeeds {refined : List String} {inconclusive : NameSet}
    {result : Except StopReason String} (h : Refines ctx refined inconclusive es result)
    (behind : r.Behind t before) (along : r.Along es r') :
    (∀ e ∈ es, e.isLater) ∧ ∀ error, result ≠ .error (.refinementFailed error) := by
  cases h with
  | exhausted | expired | expanded => exact ⟨by simp [Event.isLater], by rintro error ⟨⟩⟩
  | @failed units unit e select =>
    obtain - | ⟨⟨hunits, hsame⟩, - | ⟨step, -⟩⟩ := along
    have hunit : unit ∈ r.summary :=
      hunits ▸ (List.mem_filter.mp (Heuristic.select?_eq_some select).1).1
    rw [hsame, Replay.Performs, behind.expands hunit] at step
    rcases step with ⟨h, -⟩ | ⟨h, -⟩ <;> cases h

theorem cut_of_later {h : History} (later : ∀ e ∈ h, e.isLater) : h.cut = (h, []) := by
  have hcut : History.cut (h ++ []) = _ :=
    History.cut_append fun e he => (Event.of_isLater (later e he)).1
  simpa [History.cut] using hcut

/-- The iterations of these events follow the trace, and `before` them there were `k`. -/
structure Followed (t : Trace) (before : History) (k : Nat) (es : History) : Prop where
  later : ∀ e ∈ es.cut.1, e.isLater
  each : Each (fun before k piece => FollowsTrace t (.ofList before.expansions) k piece)
    (before ++ es.cut.1) (k + 1) es.cut.2

theorem followed_of_later {k : Nat} (later : ∀ e ∈ es, e.isLater) : Followed t before k es := by
  constructor
  · rwa [cut_of_later later]
  · rw [cut_of_later later]
    exact .nil

/-- Events that belong to the iteration before. -/
theorem Followed.prepend {k : Nat} {rest : History} (followed : Followed t (before ++ es) k rest)
    (later : ∀ e ∈ es, e.isLater) : Followed t before k (es ++ rest) := by
  have hcut : History.cut (es ++ rest) = (es ++ rest.cut.1, rest.cut.2) :=
    History.cut_append fun e he => (Event.of_isLater (later e he)).1
  constructor
  · rw [hcut]
    exact List.forall_mem_append.mpr ⟨later, followed.later⟩
  · rw [hcut, ← List.append_assoc]
    exact followed.each

/-- A piece is followed by other iterations. -/
theorem Begins.followed {rest piece : History} {k : Nat} {first : Event}
    (begins : Begins t before es rest (k + 1) first piece)
    (followed : Followed t (before ++ es) (k + 1) rest) : Followed t before k (es ++ rest) := by
  constructor
  · rw [begins.cut]
    simpa using begins.later
  · rw [begins.cut]
    refine .cons begins.follows ?_
    rw [List.append_assoc, begins.events, ← List.append_assoc]
    exact followed.each

/-- An iteration follows the trace, and so do the iterations behind it. -/
theorem Analyzes.followed {rest : History} {progress : Progress} {remaining : Nat}
    {report : IterationReport} (analyzes : Analyzes ctx progress.next es (.ok report))
    (behind : r.Behind t before) (along : r.Along es r')
    (hroom : progress.iterations.length + (remaining + 1) < UInt32.size)
    (followed : Followed t (before ++ es) (progress.iterations.length + 1) rest) :
    Followed t before progress.iterations.length (es ++ rest) := by
  rcases analyzes.begins behind along (by rintro _ ⟨⟩) followed.later with
    ⟨_, -, h, -⟩ | ⟨first, piece, begins⟩
  · cases h
  · rw [Progress.next_toNat hroom] at begins
    exact begins.followed followed

/-- The iterations of a run follow the trace, and no refinement fails. -/
theorem Iterates.followed {remaining : Nat} {progress : Progress} {tail : History}
    {result : Except Failure (Progress × StopReason)}
    (h : Iterates ctx remaining progress es result)
    (behind : r.Behind t before) (along : r.Along es r')
    (hroom : progress.iterations.length + remaining < UInt32.size)
    (later : ∀ e ∈ tail, e.isLater) (htail : ∀ e, result = .error e → tail = []) :
    Followed t before progress.iterations.length (es ++ tail) ∧
      ∀ progress' error, result ≠ .ok (progress', .refinementFailed error) := by
  induction h generalizing before r with
  | exhausted => exact ⟨followed_of_later later, by rintro progress' error ⟨⟩⟩
  | failed analyzes =>
    obtain rfl := htail _ rfl
    refine ⟨?_, by rintro progress' error ⟨⟩⟩
    rcases analyzes.begins behind along (fun _ _ => rfl) (by simp [History.cut]) with
      ⟨-, first, -, rfl, hfirst⟩ | ⟨first, piece, begins⟩
    · exact followed_of_later (by simpa using hfirst)
    · rw [Progress.next_toNat hroom] at begins
      exact begins.followed (followed_of_later (by simp))
  | timedOut analyzes =>
    exact ⟨analyzes.followed behind along hroom (followed_of_later later),
      by rintro progress' error ⟨⟩⟩
  | stopped analyzes _ stop =>
    refine ⟨analyzes.followed behind along hroom (followed_of_later later), ?_⟩
    rintro progress' error ⟨⟩
    rcases stopAfter?_eq_some stop with h | h <;> cases h
  | unrefined analyzes _ _ refines =>
    obtain ⟨r'', hes, hes'⟩ := along.split
    obtain ⟨hlater, hreason⟩ := refines.succeeds (behind.along hes) hes'
    rw [List.append_assoc]
    refine ⟨analyzes.followed behind hes hroom
      (followed_of_later (List.forall_mem_append.mpr ⟨hlater, later⟩)), ?_⟩
    rintro progress' error ⟨⟩
    exact hreason error rfl
  | @next remaining progress es es' es'' report unit result analyzes _ _ refines iterates ih =>
    obtain ⟨r₁, hes, hrest⟩ := along.split
    obtain ⟨r₂, hes', hes''⟩ := hrest.split
    have hlater := (refines.succeeds (behind.along hes) hes').1
    have hlength : ((progress.analyzed report).expanded unit).iterations.length =
        progress.iterations.length + 1 := List.length_append
    obtain ⟨hfollowed, hreason⟩ := ih ((behind.along hes).along hes') hes'' (by omega) htail
    rw [hlength] at hfollowed
    rw [List.append_assoc, List.append_assoc]
    exact ⟨analyzes.followed behind hes hroom (hfollowed.prepend hlater), hreason⟩

/-! ### Rejections -/

theorem Analyzes.rejected {e : Failure} (h : Analyzes ctx iteration es (.error e)) :
    ∃ e' ∈ es, e'.isRejection := by
  cases h with
  | unstarted => exact ⟨_, List.mem_singleton_self _, rfl⟩
  | failed _ judges =>
    obtain ⟨e', hmem, hrejection⟩ := judges.isJudging.2 e rfl
    exact ⟨e', by simp [hmem], hrejection⟩
  | unstored =>
    exact ⟨_, List.mem_cons_of_mem _ (List.mem_append_right _ (List.mem_append_right _
      (List.mem_singleton_self _))), rfl⟩
  | unlisted =>
    exact ⟨_, List.mem_cons_of_mem _ (List.mem_append_right _ (List.mem_append_right _
      (List.mem_cons_of_mem _ (List.mem_singleton_self _)))), rfl⟩

theorem Opens.rejected {e : Failure} (h : Opens ctx es (.error e)) :
    ∃ e' ∈ es, e'.isRejection := by
  cases h <;> simp [Event.isRejection]

theorem PutsAll.rejected {rows : List StoreWrite} {e : Failure} (h : PutsAll rows es (.error e)) :
    ∃ e' ∈ es, e'.isRejection := by
  generalize hr : Except.error e = result at h
  induction h with
  | done => cases hr
  | failed => exact ⟨_, List.mem_singleton_self _, rfl⟩
  | next _ ih =>
    obtain ⟨e', hmem, hrejection⟩ := ih hr
    exact ⟨e', List.mem_cons_of_mem _ hmem, hrejection⟩

theorem Finishes.rejected {run : RunRecord} {progress : Progress} {reason : StopReason}
    {e : Failure} (h : Finishes ctx run progress reason es (.error e)) :
    ∃ e' ∈ es, e'.isRejection := by
  cases h with
  | unstored => exact ⟨_, List.mem_singleton_self _, rfl⟩
  | failed _ puts =>
    obtain ⟨e', hmem, hrejection⟩ := puts.rejected
    exact ⟨e', List.mem_cons_of_mem _ hmem, hrejection⟩

/-! ### Without entries -/

/-- Without entries an iteration fails, unless its time is over. -/
theorem Analyzes.of_empty {report : IterationReport} (h : Analyzes ctx iteration es (.ok report))
    (behind : r.Behind t before) (along : r.Along es r') (empty : t.entries = [])
    (inTime : es.expired = false) :
    report.result = .error ∧ report.record.result = some .error ∧ report.timedOut = false := by
  obtain ⟨first, work, a, heq, -, -, hacc, -, hrecord, -, hresult, htimedOut, -⟩ :=
    h.accounted
  have hexpired : History.expired (first :: work) = false := by
    rw [heq] at inTime
    exact inTime
  have hflag := hacc.analyzed.hasTimedOut
  rw [hrecord, htimedOut, hexpired] at hflag
  cases h with
  | @done es es' explored found elapsed checking explores judges =>
    obtain - | ⟨step, hexplored⟩ := along
    obtain ⟨r'', hes, -⟩ := hexplored.split
    have hfollows := explores.follows hes
    have hentry : r.entryFor iteration = none := by
      simp [Replay.entryFor, behind.trace, empty]
    cases step
    rw [hentry] at hfollows
    obtain ⟨timings, rfl⟩ := hfollows.2 (by
      rw [expired_cons, expired_append, Bool.or_eq_false_iff, Bool.or_eq_false_iff] at inTime
      exact inTime.2.1)
    have herror : (Exploration.upTo [] (.failed (.analysis .emptyTrace)) timings).error =
        some (failedText .emptyTrace) := rfl
    obtain ⟨hreport, hreported, -⟩ :
        (reportOf ctx iteration (.upTo [] _ timings) found elapsed).result = .error ∧ _ ∧ _ :=
      errors_reportOf herror found elapsed
    exact ⟨hreport, hreported, Option.some.inj hflag⟩

/-- An iteration without entries is the last one. -/
theorem Iterates.of_empty {remaining : Nat} {progress : Progress}
    {result : Except Failure (Progress × StopReason)}
    (h : Iterates ctx remaining progress es result)
    (hremaining : 0 < remaining) (behind : r.Behind t before) (along : r.Along es r')
    (empty : t.entries = []) (inTime : es.expired = false) :
    match result with
    | .ok (progress', reason) => ∃ record,
        progress'.iterations = progress.iterations ++ [record] ∧ record.result = some .error ∧
          progress'.refined = progress.refined ∧ reason = .final .error
    | .error _ => ∃ e ∈ es, e.isRejection := by
  have hstops {es es' : History} {r' : Replay} {report : IterationReport}
      (analyzes : Analyzes ctx progress.next es (.ok report)) (along : r.Along (es ++ es') r')
      (inTime : (es ++ es').expired = false) : report.result = .error := by
    obtain ⟨r'', hes, -⟩ := along.split
    rw [expired_append, Bool.or_eq_false_iff] at inTime
    exact (analyzes.of_empty behind hes empty inTime.1).1
  cases h with
  | exhausted => cases hremaining
  | failed analyzes => exact analyzes.rejected
  | timedOut analyzes expired =>
    rw [(analyzes.of_empty behind along empty inTime).2.2] at expired
    cases expired
  | @stopped _ _ _ report _ analyzes _ stop =>
    obtain ⟨hresult, hrecord, -⟩ := analyzes.of_empty behind along empty inTime
    rw [hresult] at stop
    cases stop
    exact ⟨report.record, rfl, hrecord, rfl, rfl⟩
  | unrefined analyzes _ goOn | next analyzes _ goOn =>
    rw [hstops analyzes along inTime] at goOn
    cases goOn

/-! ### Whole runs -/

theorem later_of_isOutside {h : History} (outside : ∀ e ∈ h, e.isOutside) : ∀ e ∈ h, e.isLater :=
  fun e he => Event.isLater_of_isOutside (outside e he)

/-- The iterations of a run follow the trace, and no refinement fails. -/
theorem Runs.followed {request : RunRequest} {result : Except Failure RunOutcome}
    (h : Runs ctx request es result) (along : Replay.Along { trace := t } es r) :
    Followed t [] 0 es ∧ ∀ outcome, result = .ok outcome →
      ∀ error, outcome.stopReason ≠ .refinementFailed error := by
  have behind := Replay.behind_fresh t
  cases h with
  | unopened opens =>
    exact ⟨followed_of_later (later_of_isOutside opens.isOutside), by rintro outcome ⟨⟩⟩
  | missing opens looks finishes =>
    have houtside := List.forall_mem_append.mpr ⟨opens.isOutside,
      List.forall_mem_append.mpr ⟨looks.isOutside, finishes.isOutside⟩⟩
    refine ⟨followed_of_later (later_of_isOutside houtside), ?_⟩
    rintro outcome rfl error hreason
    cases finishes
    cases hreason
  | @failed es es' es'' run e opens looks iterates =>
    have houtside := List.forall_mem_append.mpr ⟨opens.isOutside, looks.isOutside⟩
    rw [← List.append_assoc] at along ⊢
    obtain ⟨r', hes, hrest⟩ := along.split
    have hnothing : ∀ e ∈ ([] : History), e.isLater := by simp
    have hfollowed := (iterates.followed (behind.along hes) hrest (by decide) hnothing
      fun _ _ => rfl).1
    rw [List.append_nil] at hfollowed
    exact ⟨hfollowed.prepend (later_of_isOutside houtside), by rintro outcome ⟨⟩⟩
  | @iterated es es' es'' es₄ run progress reason result opens looks iterates finishes =>
    have houtside := List.forall_mem_append.mpr ⟨opens.isOutside, looks.isOutside⟩
    rw [← List.append_assoc] at along ⊢
    obtain ⟨r', hes, hrest⟩ := along.split
    obtain ⟨r'', hes'', -⟩ := hrest.split
    obtain ⟨hfollowed, hreason⟩ := iterates.followed (behind.along hes) hes'' (by decide)
      (later_of_isOutside finishes.isOutside) (by rintro _ ⟨⟩)
    refine ⟨hfollowed.prepend (later_of_isOutside houtside), ?_⟩
    rintro outcome rfl error hstop
    cases finishes
    cases hstop
    exact hreason progress error rfl

end

end Run

/-- The only iteration of a run failed, and the run with it. -/
structure FailsAtOnce (outcome : RunOutcome) : Prop where
  iterations : ∃ record, outcome.iterations = [record] ∧ record.result = some .error
  result : outcome.run.result = some .error
  stopReason : outcome.stopReason = .final .error
  refined : outcome.refined = []

/-- A run whose input exists fails at once if there are no entries. It has an outcome unless
something is rejected. -/
theorem Run.Runs.of_empty {ctx : RunContext} {request : RunRequest} {h : History} {r : Replay}
    {result : Except Failure RunOutcome} (runs : Runs ctx request h result)
    (along : Replay.Along { trace := {} } h r) (found : ∀ e ∈ h, e.isFound)
    (inTime : h.expired = false) :
    match result with
    | .ok outcome => FailsAtOnce outcome
    | .error _ => ∃ e ∈ h, e.isRejection := by
  have behind := Replay.behind_fresh {}
  have hremaining : 0 < UInt32.size - 1 := by decide
  cases runs with
  | unopened opens => exact opens.rejected
  | @missing es es' es'' run input _ opens looks finishes =>
    cases looks
    have hfound : (Event.looked input false).isFound := found _ (by simp)
    cases hfound
  | failed opens looks iterates =>
    rw [← List.append_assoc] at along
    obtain ⟨r', hes, hiterates⟩ := along.split
    simp only [expired_append, Bool.or_eq_false_iff] at inTime
    obtain ⟨e', hmem, hrejection⟩ :=
      iterates.of_empty hremaining (behind.along hes) hiterates rfl inTime.2.2
    exact ⟨e', by simp [hmem], hrejection⟩
  | iterated opens looks iterates finishes =>
    rw [← List.append_assoc] at along
    obtain ⟨r', hes, hrest⟩ := along.split
    obtain ⟨r'', hiterates, -⟩ := hrest.split
    simp only [expired_append, Bool.or_eq_false_iff] at inTime
    obtain ⟨record, hiterations, hrecord, hrefined, rfl⟩ :=
      iterates.of_empty hremaining (behind.along hes) hiterates rfl inTime.2.2.1
    cases result with
    | error e =>
      obtain ⟨e', hmem, hrejection⟩ := finishes.rejected
      exact ⟨e', by simp [hmem], hrejection⟩
    | ok outcome =>
      cases finishes
      refine ⟨⟨record, hiterations, hrecord⟩, ?_, rfl, hrefined⟩
      simp [Run.outcome, completed, concluded, resultOf, classifyRun, hiterations, hrecord]

/-! ## Replays without faults -/

/-- In an environment a trace is replayed and nothing else changes the replay; as long as it is
`sound`, nothing but the deadline prevents a step, and it stays so. -/
def Environment.Performs {σ : Type} (env : Environment (StateM σ)) (replay : σ → Replay)
    (sound : σ → Prop) : Prop :=
  env.Moves (fun s => (replay s, sound s)) fun e before after =>
    before.2 → Replay.Performs e before.1 after.1 ∧ after.2

section

variable {σ : Type} {env : Environment (StateM σ)} {replay : σ → Replay} {sound : σ → Prop}

/-- Along every course the replay takes its steps. -/
theorem Environment.Performs.along (performs : env.Performs replay sound) {s s' : σ} {h : History}
    (hsound : sound s) (course : env.Course s h s') : (replay s).Along h (replay s') := by
  refine (Environment.Moves.along (I := fun h p => (replay s).Along h p.1 ∧ p.2) performs ?_
    ⟨.nil, hsound⟩ course).1
  rintro h e before after ⟨along, hbefore⟩ step
  obtain ⟨hstep, hafter⟩ := step hbefore
  exact ⟨along.append (.cons hstep .nil), hafter⟩

/-- What holds of an iteration while a trace is replayed. It begins in some state; in any such state
the expanded units are those that were put back before, and they decide what is explored. -/
structure FollowsRefinements (env : Environment (StateM σ)) (replay : σ → Replay) (s : σ)
    (t : Trace) (before : History) (k : Nat) (piece : History) : Prop where
  begins : ∃ s', env.Course s before s'
  shared : ∀ s', env.Course s before s' → (replay s').expanded = .ofList before.expansions
  follows : FollowsTrace t (.ofList before.expansions) k piece

/-- The replay of a trace follows the refinements of a run. In every iteration the entry for the
units that were put back before is explored, and no refinement fails. Without entries a run whose
input exists fails at once. -/
theorem replay_follows_refinements (performs : env.Performs replay sound) (settings : Settings)
    (request : RunRequest) {s : σ} {t : Trace} (fresh : replay s = { trace := t })
    (hsound : sound s) :
    let h := settings.history env request s
    let r := ((settings.analyze env request).run s).1
    Each (FollowsRefinements env replay s t) h.cut.1 1 h.cut.2 ∧
      (∀ outcome, r = .ok outcome → (∀ error, outcome.stopReason ≠ .refinementFailed error) ∧
        (replay ((settings.analyze env request).run s).2).expanded = .ofList outcome.refined) ∧
      (t.entries = [] → (∀ e ∈ h, e.isFound) → h.expired = false →
        (∀ outcome, r = .ok outcome → FailsAtOnce outcome) ∧
        ((Watchdog.start? (env.now.run s).1 settings.run.timeout).isSome →
          (∀ e ∈ h, e.isRejection = false) → ∃ outcome, r = .ok outcome)) := by
  intro h r
  have course := settings.course env request s
  have halong {before : History} {s' : σ} (course : env.Course s before s') :
      Replay.Along { trace := t } before (replay s') :=
    fresh ▸ performs.along hsound course
  have hbehind {before : History} {s' : σ} (course : env.Course s before s') :=
    (Replay.behind_fresh t).along (halong course)
  refine ⟨?_, fun outcome hr => ?_, ?_⟩
  · have hfollowed : Run.Followed t [] 0 h := by
      rcases settings.runs_or env request s with ⟨watchdog, runs⟩ | ⟨hnil, -⟩
      · exact (runs.followed (halong course)).1
      · rw [show h = [] from hnil]
        exact Run.followed_of_later (by simp)
    refine hfollowed.each.imp fun before rest k piece heq follows => ?_
    have hsplit : h = before ++ rest := h.cut_flatten.symm.trans heq
    refine ⟨?_, fun s' course' => (hbehind course').expanded, follows⟩
    rw [← show h = settings.history env request s from rfl, hsplit] at course
    exact course.exists_before
  · obtain ⟨⟨watchdog, runs⟩, -⟩ := Settings.runs_history hr
    refine ⟨(runs.followed (halong course)).2 outcome rfl, ?_⟩
    rw [(hbehind course).expanded, runs.refinedOnce.expansions]
    rfl
  · intro hentries found inTime
    obtain rfl : t = {} := by
      cases t
      exact congrArg Trace.mk hentries
    refine ⟨fun outcome hr => ?_, fun hdeadline accepted => ?_⟩
    · obtain ⟨⟨watchdog, runs⟩, -⟩ := Settings.runs_history hr
      exact runs.of_empty (halong course) found inTime
    · obtain ⟨watchdog, hwatchdog⟩ := Option.isSome_iff_exists.mp hdeadline
      have runs := Settings.runs_of_start hwatchdog request
      cases hr : ((settings.analyze env request).run s).1 with
      | ok outcome => exact ⟨outcome, hr⟩
      | error e =>
        rw [hr] at runs
        obtain ⟨e', hmem, hrejection⟩ := runs.of_empty (halong course) found inTime
        rw [accepted e' hmem] at hrejection
        cases hrejection

end

/-! ## Rehearsals -/

namespace Rehearsal

/-- No fault is planned, and no unit is put back without consequences. -/
def Stage.IsFaultless (s : Stage) : Prop := s.faults = [] ∧ s.forgetsExpansions = false

/-- Without faults work is done, unless the deadline has come. -/
theorem run_perform {α : Type} {s : Stage} (h : s.IsFaultless) (deadline : Duration)
    (point : FaultPoint) (iteration : UInt32) (delivered : Nat)
    (work : OnStage (Except Failure α)) :
    (perform deadline point iteration delivered work).run s =
      if deadline ≤ s.clock then (.expired, s) else (.done (work.run s).1, (work.run s).2) := by
  rw [perform, StateT.run_bind]
  simp only [StateT.run_get, pure_bind]
  split
  · rfl
  · rw [h.1]
    rfl

/-- Work on a replay does its step, unless the deadline has come. -/
theorem does_perform {α : Type} {s : Stage} (h : s.IsFaultless) (deadline : Duration)
    (point : FaultPoint) (iteration : UInt32) (delivered : Nat)
    {work : OnStage (Except Failure α)} {step : Except AnalysisFault (α × Replay)}
    (hwork : (Raced.done (work.run s).1).Does step s.replay (work.run s).2.replay)
    (hkept : (work.run s).2.IsFaultless) :
    let done := (perform deadline point iteration delivered work).run s
    done.1.Does step s.replay done.2.replay ∧ done.2.IsFaultless := by
  intro done
  rw [show done = _ from run_perform h deadline point iteration delivered work]
  split
  · exact ⟨.inl ⟨rfl, rfl⟩, h⟩
  · exact ⟨hwork, hkept⟩

/-- Rehearsals without faults replay their traces exactly. -/
theorem environment_performs : environment.Performs Stage.replay Stage.IsFaultless where
  now _ := rfl
  today _ := rfl
  openBatch _ := rfl
  deskNow _ _ := rfl
  inputExists _ _ h := ⟨rfl, h⟩
  prepare d i s h := by
    have hprepared : Stage.IsFaultless { s with prepared := i } := h
    exact @does_perform Unit _ hprepared d .prepare i 0 (return .ok ()) (.ok ((), s.replay))
      (.inr ⟨rfl, rfl⟩) hprepared
  start d i s h := by
    have hstarted : Stage.IsFaultless { s with started := i, delivered := 0 } := h
    refine does_perform hstarted d .start i 0 ?_ ?_ <;>
      simp only [modifyGet, MonadStateOf.modifyGet, StateT.modifyGet, StateT.run] <;>
      cases s.replay.start i
    exacts [.inr ⟨rfl, rfl⟩, .inr ⟨rfl, rfl⟩, h, h]
  next d s h := by
    refine does_perform h d .next s.started s.delivered ?_ ?_ <;>
      simp only [modifyGet, MonadStateOf.modifyGet, StateT.modifyGet, StateT.run] <;>
      cases s.replay.next
    exacts [.inr ⟨rfl, rfl⟩, .inr ⟨rfl, rfl⟩, h, h]
  summary _ h := ⟨⟨rfl, rfl⟩, h⟩
  expand d unit s h := by
    refine does_perform h d .expand s.prepared 0 ?_ ?_ <;>
      simp only [modifyGet, MonadStateOf.modifyGet, StateT.modifyGet, StateT.run, h.2,
        Bool.false_eq_true, if_false] <;>
      cases s.replay.expand unit.name
    exacts [.inr ⟨rfl, rfl⟩, .inr ⟨rfl, rfl⟩, h, ⟨h.1, rfl⟩]
  isExpired _ _ h := ⟨rfl, h⟩
  closeBatch _ _ h := ⟨rfl, h⟩
  isCancelled _ _ h := ⟨rfl, h⟩
  ask d q s h := by
    have hleaves := leaves_awaitAnswer (fun s : Stage => (s.replay, s.IsFaultless)) (fun _ _ => rfl)
      d q s
    obtain ⟨hreplay, hfaultless⟩ := Prod.mk.inj hleaves
    exact ⟨hreplay, hfaultless.mpr h⟩
  record d key q answer :=
    (leaves_record (fun s : Stage => (s.replay, s.IsFaultless)) (fun _ _ => rfl) (fun _ _ => rfl)
      _).changes fun _ _ h => ⟨rfl, h⟩
  write w :=
    (leaves_write (fun s : Stage => (s.replay, s.IsFaultless)) (fun _ _ => rfl) (fun _ _ => rfl)
      w).changes fun _ _ h => ⟨rfl, h⟩
  resetResults path :=
    (leaves_onFiles (fun s : Stage => (s.replay, s.IsFaultless)) (fun _ _ => rfl)
      (.resetResults path)).changes fun _ _ h => ⟨rfl, h⟩
  appendResults path text :=
    (leaves_onFiles (fun s : Stage => (s.replay, s.IsFaultless)) (fun _ _ => rfl)
      (.appendResults path text)).changes fun _ _ h => ⟨rfl, h⟩

end Rehearsal

/-- The function is put back in a rehearsal, and the entry for it is explored. Without entries a
rehearsal fails at once. -/
theorem replay_follows_refinements_rehearsal :
    (∃ (h : History) (s : Rehearsal.Stage), h.iterations.length = 2 ∧
      s.replay.expanded = .ofList ["f"] ∧
      Each (FollowsRefinements Rehearsal.environment Rehearsal.Stage.replay replayingStage
        abstractedFirst) h.cut.1 1 h.cut.2) ∧
    ∃ outcome, ((Settings.default 1).analyze Rehearsal.environment { benchmark := "f" } |>.run
      {}).1 = .ok outcome ∧ FailsAtOnce outcome := by
  constructor
  · have hrefined : ((((Settings.default 1).analyze Rehearsal.environment { benchmark := "f" }).run
        replayingStage).1.toOption.map (·.refined)) = some ["f"] := by
      decide +kernel
    have hlength : ((Settings.default 1).history Rehearsal.environment { benchmark := "f" }
        replayingStage).iterations.length = 2 := by
      decide +kernel
    obtain ⟨outcome, hr, hrefined⟩ := exists_ok_of_toOption hrefined
    obtain ⟨heach, hok, -⟩ := replay_follows_refinements Rehearsal.environment_performs
      (Settings.default 1) { benchmark := "f" } (s := replayingStage) rfl ⟨rfl, rfl⟩
    exact ⟨_, _, hlength, hrefined ▸ (hok outcome hr).2, heach⟩
  · have hquiet : ((Settings.default 1).history Rehearsal.environment { benchmark := "f" }
        {}).all (fun e => !e.isRejection && !e.isExpiry && e.isFound) = true := by
      decide +kernel
    have hall := List.all_eq_true.mp hquiet
    simp only [Bool.and_eq_true, Bool.not_eq_true'] at hall
    obtain ⟨-, -, hempty⟩ := replay_follows_refinements Rehearsal.environment_performs
      (Settings.default 1) { benchmark := "f" } (s := {}) rfl ⟨rfl, rfl⟩
    have hinTime : ((Settings.default 1).history Rehearsal.environment { benchmark := "f" }
        {}).expired = false :=
      List.any_eq_false.mpr fun e he => by simp [(hall e he).1.2]
    obtain ⟨hfails, hends⟩ := hempty rfl (fun e he => (hall e he).2) hinTime
    obtain ⟨outcome, hr⟩ := hends (by decide) fun e he => (hall e he).1.1
    exact ⟨outcome, hr, hfails outcome hr⟩

end Regression
