import Regression.Proofs.Run.Course
import Regression.Proofs.Run.Refusals
import Regression.Proofs.Run.Replays

/-!
# Following a trace

A replay without faults does its own steps, which only the deadline prevents. The events say then
where the replay is: which units are expanded, and which partitions an iteration can explore.

* `Replay.Behind.along`: what is known of a replay behind some events.
* `Trace.chooses_of_entryFor`: the entry that a replay starts.
* `Run.Explores.follows`: an iteration explores the partitions of that entry.
-/

namespace Regression

open History

/-! ## Steps of a replay -/

/-- Work with a deadline did what it was to do, or it was given up without an effect. -/
def Raced.Does {α τ : Type} (result : Raced (Except Failure α))
    (work : Except AnalysisFault (α × τ)) (before after : τ) : Prop :=
  result = .expired ∧ after = before ∨
    match work with
    | .ok (a, moved) => result = .done (.ok a) ∧ after = moved
    | .error fault => result = .done (.error (.analysis fault)) ∧ after = before

/-- Work that has an effect was done. -/
theorem Raced.Does.eq_or {α τ : Type} {result : Raced (Except Failure α)}
    {work : Except AnalysisFault (α × τ)} {before after : τ} (h : result.Does work before after) :
    after = before ∨ ∃ a, result = .done (.ok a) ∧ work = .ok (a, after) := by
  rcases h with ⟨-, rfl⟩ | h
  · exact .inl rfl
  · cases work with
    | error fault => exact .inl h.2
    | ok r =>
      obtain ⟨hresult, rfl⟩ := h
      exact .inr ⟨r.1, hresult, rfl⟩

namespace Replay

/-- What a replay does: its own steps, which only the deadline prevents. -/
def Performs : Event → Replay → Replay → Prop
  | .prepared _ result, before, after => result.Does (.ok ((), before)) before after
  | .started iteration result, before, after =>
    result.Does ((before.start iteration).map ((), ·)) before after
  | .pulled result, before, after => result.Does before.next before after
  | .summarized units, before, after => units = before.summary ∧ after = before
  | .expanded unit result, before, after =>
    result.Does ((before.expand unit.name).map ((), ·)) before after
  | _, before, after => after = before

/-- Without faults a replay does what it may do with them. -/
theorem Performs.steps {e : Event} {before after : Replay} (h : Performs e before after) :
    Steps e before after := by
  have hdone {work : Except AnalysisFault Replay} {result : Raced (Except Failure Unit)}
      (h : result.Does (work.map ((), ·)) before after) : after = before ∨ work = .ok after := by
    refine h.eq_or.imp_right ?_
    rintro ⟨a, -, hwork⟩
    obtain ⟨r, hr, hpair⟩ := exists_of_map_eq_ok hwork
    rw [hr, (Prod.mk.inj hpair).2]
  cases e with
  | prepared i result => rcases h with ⟨-, rfl⟩ | ⟨-, rfl⟩ <;> rfl
  | started iteration result => exact hdone h
  | pulled result => exact h.eq_or.imp_right fun ⟨a, _, hwork⟩ => ⟨a, hwork⟩
  | expanded unit result => exact hdone h
  | _ => exact h

theorem start_eq {before after : Replay} {iteration : UInt32}
    (h : before.start iteration = .ok after) : ∃ entry, before.entryFor iteration = some entry ∧
      after = { before with current := some entry, pending := entry.partitions } := by
  unfold start at h
  cases hentry : before.entryFor iteration with
  | none =>
    rw [hentry] at h
    cases h
  | some entry =>
    rw [hentry] at h
    cases h
    exact ⟨entry, rfl, rfl⟩

/-- A unit is expanded when its expansion succeeds, and not otherwise. -/
theorem Performs.expanded_eq {e : Event} {before after : Replay} (h : Performs e before after) :
    after.expanded =
      (History.expansions [e]).foldl (fun s name => s.insert name) before.expanded := by
  cases e with
  | started iteration result =>
    rcases h.steps with rfl | hstart
    · rfl
    · obtain ⟨entry, -, rfl⟩ := start_eq hstart
      rfl
  | pulled result =>
    rcases h.steps with rfl | ⟨p?, hnext⟩
    · rfl
    · unfold next at hnext
      split at hnext <;> cases hnext <;> rfl
  | expanded unit result =>
    rcases h with ⟨rfl, rfl⟩ | h
    · rfl
    · cases hexpand : before.expand unit.name with
      | error fault =>
        rw [hexpand] at h
        obtain ⟨rfl, rfl⟩ := h
        rfl
      | ok r =>
        rw [hexpand] at h
        obtain ⟨rfl, rfl⟩ := h
        rw [expand] at hexpand
        obtain ⟨-, rfl⟩ := of_ite_eq_ok hexpand
        rfl
  | summarized units =>
    obtain ⟨-, rfl⟩ := h
    rfl
  | _ =>
    rw [show after = before from h.steps]
    rfl

/-- The events of a replay, from state to state. -/
inductive Along : Replay → History → Replay → Prop
  | nil {r : Replay} : Along r [] r
  | cons {r r' r'' : Replay} {e : Event} {h : History} (step : Performs e r r')
    (along : Along r' h r'') : Along r (e :: h) r''

theorem Along.append {r r' r'' : Replay} {h h' : History} (along : Along r h r')
    (along' : Along r' h' r'') : Along r (h ++ h') r'' := by
  induction along with
  | nil => exact along'
  | cons step _ ih => exact .cons step (ih along')

theorem Along.split {r r'' : Replay} {h h' : History} (along : Along r (h ++ h') r'') :
    ∃ r', Along r h r' ∧ Along r' h' r'' := by
  induction h generalizing r with
  | nil => exact ⟨r, .nil, along⟩
  | cons e es ih =>
    cases along with
    | cons step rest =>
      obtain ⟨r', hes, hrest⟩ := ih rest
      exact ⟨r', .cons step hes, hrest⟩

/-- What is known of the replay of a trace behind some events. -/
structure Behind (t : Trace) (h : History) (r : Replay) : Prop where
  trace : r.trace = t
  onTrace : r.OnTrace
  expanded : r.expanded = .ofList h.expansions

theorem behind_fresh (t : Trace) : Behind t [] { trace := t } where
  trace := rfl
  onTrace := by rintro entry ⟨⟩
  expanded := rfl

theorem Behind.step {t : Trace} {h : History} {r r' : Replay} {e : Event} (behind : Behind t h r)
    (performs : Performs e r r') : Behind t (h ++ [e]) r' := by
  obtain ⟨htrace, honTrace⟩ := performs.steps.onTrace behind.onTrace
  refine ⟨htrace.trans behind.trace, honTrace, ?_⟩
  rw [performs.expanded_eq, behind.expanded, NameSet.ofList, NameSet.ofList, expansions_append,
    List.foldl_append]

theorem Behind.along {t : Trace} {h h' : History} {r r' : Replay} (behind : Behind t h r)
    (along : Along r h' r') : Behind t (h ++ h') r' := by
  induction along generalizing h with
  | nil => rwa [List.append_nil]
  | cons step _ ih =>
    have hrest := ih (behind.step step)
    rwa [List.append_assoc] at hrest

/-- A unit that is abstracted in the current entry can be expanded. -/
theorem Behind.expands {t : Trace} {h : History} {r : Replay} {unit : AbstractedUnit}
    (behind : Behind t h r) (hunit : unit ∈ r.summary) :
    r.expand unit.name = .ok { r with expanded := r.expanded.insert unit.name } := by
  have hknown : unit.name ∈ r.trace.unitNames := by
    unfold summary at hunit
    cases hcurrent : r.current with
    | none =>
      rw [hcurrent] at hunit
      cases hunit
    | some entry =>
      rw [hcurrent] at hunit
      exact List.mem_flatMap.mpr
        ⟨entry, behind.onTrace entry hcurrent, List.mem_map_of_mem hunit⟩
  exact if_pos hknown

end Replay

/-! ## Entries -/

/-- The entry that belongs to some expanded units in the iteration `k`, which is counted from 1: the
first one for these units, else the one in the place of the iteration, else the last one. -/
inductive Trace.Chooses (t : Trace) (expanded : NameSet) (k : Nat) : TraceEntry → Prop
  | matching {before after : List TraceEntry} {entry : TraceEntry}
    (entries : t.entries = before ++ entry :: after) (same : entry.expanded = expanded)
    (first : ∀ other ∈ before, other.expanded ≠ expanded) : Chooses t expanded k entry
  | inPlace {entry : TraceEntry} (unmatched : ∀ other ∈ t.entries, other.expanded ≠ expanded)
    (place : t.entries[k - 1]? = some entry) : Chooses t expanded k entry
  | last {entry : TraceEntry} (unmatched : ∀ other ∈ t.entries, other.expanded ≠ expanded)
    (beyond : t.entries.length ≤ k - 1) (last : t.entries.getLast? = some entry) :
    Chooses t expanded k entry

theorem Trace.chooses_of_entryFor {r : Replay} {iteration : UInt32} {entry : TraceEntry}
    (h : r.entryFor iteration = some entry) :
    r.trace.Chooses r.expanded iteration.toNat entry := by
  rw [Replay.entryFor, Option.or_eq_some_iff, Option.or_eq_some_iff] at h
  rcases h with hfound | ⟨hnone, h⟩
  · obtain ⟨hsame, before, after, hentries, hfirst⟩ := List.find?_eq_some_iff_append.mp hfound
    refine .matching hentries (of_decide_eq_true hsame) fun other hother => ?_
    simpa using hfirst other hother
  · have hunmatched : ∀ other ∈ r.trace.entries, other.expanded ≠ r.expanded := by
      simpa using hnone
    rcases h with hplace | ⟨hbeyond, hlast⟩
    · exact .inPlace hunmatched hplace
    · exact .last hunmatched (List.getElem?_eq_none_iff.mp hbeyond) hlast

/-- There is an entry for everything unless there is none at all. -/
theorem Replay.entryFor_eq_none {r : Replay} {iteration : UInt32}
    (h : r.entryFor iteration = none) : r.trace.entries = [] := by
  rw [entryFor, Option.or_eq_none_iff, Option.or_eq_none_iff] at h
  exact List.getLast?_eq_none_iff.mp h.2.2

/-! ## Exploring an entry -/

theorem Replay.Performs.of_pulled {result : Raced (Except Failure (Option Partition))}
    {before after : Replay} {entry : TraceEntry} (h : Performs (.pulled result) before after)
    (current : before.current = some entry) :
    result = .expired ∨
      before.pending = [] ∧ result = .done (.ok none) ∨
      ∃ p rest, before.pending = p :: rest ∧ result = .done (.ok (some p)) ∧
        after = { before with pending := rest } := by
  rcases h with ⟨rfl, -⟩ | h
  · exact .inl rfl
  · unfold next at h
    rw [current] at h
    cases hpending : before.pending with
    | nil =>
      rw [hpending] at h
      exact .inr (.inl ⟨rfl, h.1⟩)
    | cons p rest =>
      rw [hpending] at h
      exact .inr (.inr ⟨p, rest, rfl, h.1, current ▸ h.2⟩)

namespace Run

/-- What pulling comes to if the source has these partitions, and all of them are stored. -/
def exploring : Option UInt32 → List Partition → List Partition × Ending
  | _, [] => ([], .drained)
  | last, p :: rest =>
    if follows p.index last then
      let (taken, ending) := exploring (some p.index) rest
      (p :: taken, ending)
    else ([], .failed (.analysis (.outOfOrder p.index (last.getD 0))))

theorem exploring_fst (last : Option UInt32) (partitions : List Partition) :
    (exploring last partitions).1 = following last partitions := by
  induction partitions generalizing last with
  | nil => rfl
  | cons p rest ih =>
    rw [exploring, following]
    split
    · exact congrArg (p :: ·) (ih _)
    · rfl

/-- Partitions in order are explored to the end. -/
theorem exploring_of_inOrder {last : Option UInt32} {partitions : List Partition}
    (order : (last.toList ++ partitions.map (·.index)).IsChain (· < ·)) :
    exploring last partitions = (partitions, .drained) := by
  induction partitions generalizing last with
  | nil => rfl
  | cons p rest ih =>
    obtain ⟨hfollows, hrest⟩ := follows_of_isChain order
    rw [exploring, if_pos hfollows, ih hrest]

/-- Partitions are explored up to the first one whose index does not increase. -/
theorem exploring_of_outOfOrder {last : Option UInt32} {taken rest : List Partition}
    {p q : Partition}
    (order : (last.toList ++ (taken ++ [p]).map (·.index)).IsChain (· < ·))
    (disorder : ¬ p.index < q.index) :
    exploring last (taken ++ p :: q :: rest) =
      (taken ++ [p], .failed (.analysis (.outOfOrder q.index p.index))) := by
  induction taken generalizing last with
  | nil =>
    obtain ⟨hfollows, -⟩ := follows_of_isChain order
    have hlast : follows q.index (some p.index) = false := by simpa [follows] using disorder
    simp [exploring, hfollows, hlast]
  | cons first taken ih =>
    obtain ⟨hfollows, hrest⟩ := follows_of_isChain order
    rw [List.cons_append, exploring, if_pos hfollows, ih hrest]
    rfl

section

variable {ctx : RunContext} {iteration : UInt32} {es : History} {before after : Replay}

/-- Nothing is pulled that was not pending, and all of it if nothing interferes. -/
theorem Pulls.follows {last : Option UInt32} {r : List Partition × Ending} {entry : TraceEntry}
    (h : Pulls ctx iteration last es r) (along : before.Along es after)
    (current : before.current = some entry) :
    es.delivered <+: before.pending ∧
      (es.expired = false → es.refused = [] → r = exploring last before.pending) := by
  induction h generalizing before with
  | expired => exact ⟨List.nil_prefix, by rintro ⟨⟩⟩
  | @failed last e =>
    obtain - | ⟨step, -⟩ := along
    rcases step.of_pulled current with h | ⟨-, h⟩ | ⟨p, rest, -, h, -⟩ <;> cases h
  | drained =>
    obtain - | ⟨step, -⟩ := along
    rcases step.of_pulled current with h | ⟨hpending, -⟩ | ⟨p, rest, -, h, -⟩
    · cases h
    · rw [hpending]
      exact ⟨List.nil_prefix, fun _ _ => rfl⟩
    · cases h
  | @outOfOrder last p order =>
    obtain - | ⟨step, -⟩ := along
    rcases step.of_pulled current with h | ⟨-, h⟩ | ⟨p', rest, hpending, h, -⟩
    · cases h
    · cases h
    · cases h
      rw [hpending, exploring, order]
      exact ⟨List.cons_prefix_cons.mpr ⟨rfl, List.nil_prefix⟩, fun _ _ => rfl⟩
  | @unstored last p e order =>
    obtain - | ⟨step, -⟩ := along
    rcases step.of_pulled current with h | ⟨-, h⟩ | ⟨p', rest, hpending, h, -⟩
    · cases h
    · cases h
    · cases h
      rw [hpending]
      exact ⟨List.cons_prefix_cons.mpr ⟨rfl, List.nil_prefix⟩, by rintro - ⟨⟩⟩
  | @next last p es taken ending order _ ih =>
    obtain - | ⟨step, - | ⟨wrote, along⟩⟩ := along
    rcases step.of_pulled current with h | ⟨-, h⟩ | ⟨p', rest, hpending, h, rfl⟩
    · cases h
    · cases h
    · cases h
      -- Storing the row leaves the replay as it is.
      cases wrote
      obtain ⟨hdelivered, hexact⟩ := ih along current
      rw [hpending, exploring, if_pos order]
      refine ⟨List.cons_prefix_cons.mpr ⟨rfl, hdelivered⟩, fun hexpired hrefused => ?_⟩
      rw [← hexact hexpired hrefused]

/-- Nothing is delivered but partitions of the entry that is started, and all of it if nothing
interferes. Without an entry the exploration fails. -/
theorem Delivers.follows {r : List Partition × Ending} (h : Delivers ctx iteration es r)
    (along : before.Along es after) :
    match before.entryFor iteration with
    | some entry => es.delivered <+: entry.partitions ∧
        (es.expired = false → es.refused = [] → r = exploring none entry.partitions)
    | none => es.delivered = [] ∧
        (es.expired = false → r = ([], .failed (.analysis .emptyTrace))) := by
  cases hentry : before.entryFor iteration with
  | none =>
    have hstart : before.start iteration = .error .emptyTrace := by rw [Replay.start, hentry]
    cases h with
    | expired => exact ⟨rfl, by rintro ⟨⟩⟩
    | failed =>
      obtain - | ⟨step, -⟩ := along
      rw [Replay.Performs, hstart] at step
      rcases step with ⟨h, -⟩ | ⟨h, -⟩
      · cases h
      · cases h
        exact ⟨rfl, fun _ => rfl⟩
    | pulled =>
      obtain - | ⟨step, -⟩ := along
      rw [Replay.Performs, hstart] at step
      rcases step with ⟨h, -⟩ | ⟨h, -⟩ <;> cases h
  | some entry =>
    have hstart : before.start iteration =
        .ok { before with current := some entry, pending := entry.partitions } := by
      rw [Replay.start, hentry]
    cases h with
    | expired => exact ⟨List.nil_prefix, by rintro ⟨⟩⟩
    | failed =>
      obtain - | ⟨step, -⟩ := along
      rw [Replay.Performs, hstart] at step
      rcases step with ⟨h, -⟩ | ⟨h, -⟩ <;> cases h
    | pulled pulls =>
      obtain - | ⟨step, rest⟩ := along
      rw [Replay.Performs, hstart] at step
      rcases step with ⟨h, -⟩ | ⟨-, rfl⟩
      · cases h
      · exact pulls.follows rest rfl

/-- What an iteration explores, given what delivering comes to. -/
theorem Explores.follows {explored : Exploration} (h : Explores ctx iteration es explored)
    (along : before.Along es after) :
    match before.entryFor iteration with
    | some entry => es.delivered <+: entry.partitions ∧
        (es.expired = false → es.refused = [] → ∃ timings, explored =
          .upTo (exploring none entry.partitions).1 (exploring none entry.partitions).2 timings)
    | none => es.delivered = [] ∧ (es.expired = false → ∃ timings, explored =
        .upTo [] (.failed (.analysis .emptyTrace)) timings) := by
  cases h with
  | expired =>
    cases before.entryFor iteration with
    | none => exact ⟨rfl, by rintro ⟨⟩⟩
    | some entry => exact ⟨List.nil_prefix, by rintro ⟨⟩⟩
  | failed =>
    obtain - | ⟨step, -⟩ := along
    rcases step with ⟨h, -⟩ | ⟨h, -⟩ <;> cases h
  | @delivered es partitions ending timings delivers =>
    obtain - | ⟨step, rest⟩ := along
    have hsame : _ = before := step.steps
    rw [hsame] at rest
    have hfollows := delivers.follows rest
    cases hentry : before.entryFor iteration with
    | none =>
      rw [hentry] at hfollows
      refine ⟨hfollows.1, fun hexpired => ⟨timings, ?_⟩⟩
      cases hfollows.2 hexpired
      rfl
    | some entry =>
      rw [hentry] at hfollows
      refine ⟨hfollows.1, fun hexpired hrefused => ⟨timings, ?_⟩⟩
      rw [← hfollows.2 hexpired hrefused]

end

end Run

end Regression
