import Regression.Proofs.Run.Invariants

/-!
# Calm work

Work is calm as long as nothing comes too late, no query is cancelled, and how a query is answered
and its answer kept depends on nothing else. What the oracle asks about a partition is then the
same, whenever it asks.

* `Coupling.calmly`: work that is calm is coupled with work of another kind.
* `Responder.check_calm`: what is asked about a partition, and its verdict.
* `Responder.checkAll_calm`: partitions are checked with the same verdicts in any order.
-/

namespace Regression

/-- How queries are answered and answers are kept, if that depends on nothing else. -/
structure Responder where
  answer : Query → Except Failure Answer
  keep : QueryKey → Query → Answer → Except Failure Unit

/-! ## Calm histories -/

/-- Nothing came too late or was cancelled, and queries were answered in one way. -/
def Event.IsCalm (r : Responder) : Event → Prop
  | .prepared _ result | .started _ result | .expanded _ result => result ≠ .expired
  | .pulled result => result ≠ .expired
  | .polled expired => expired = false
  | .closed result => result = .done (.ok ())
  | .cancelled answer => answer = false
  | .asked q result => result = r.answer q
  | .recorded key q answer result => result = r.keep key q answer
  | _ => True

def History.IsCalm (r : Responder) (h : History) : Prop := ∀ e ∈ h, e.IsCalm r

theorem History.IsCalm.append {r : Responder} {h h' : History} (calm : h.IsCalm r)
    (calm' : h'.IsCalm r) : (h ++ h').IsCalm r :=
  List.forall_mem_append.mpr ⟨calm, calm'⟩

/-- What came before something calm was calm. -/
theorem History.IsCalm.before {r : Responder} {h h' : History} (calm : h'.IsCalm r)
    (hle : h <+: h') : h.IsCalm r :=
  fun e he => calm e (hle.subset he)

/-- The query whose answer was kept, with its key and the answer. -/
def Event.filed? : Event → Option (QueryKey × Query × Answer)
  | .recorded key q answer (.ok ()) => some (key, q, answer)
  | _ => none

/-- All answers that were kept, with their queries and keys. -/
def History.filed (h : History) : List (QueryKey × Query × Answer) := h.filterMap Event.filed?

@[simp] theorem History.filed_append (h h' : History) : (h ++ h').filed = h.filed ++ h'.filed :=
  List.filterMap_append

/-! ## Work that adds to a history -/

section

variable {σ τ α β : Type}

/-- Observed work adds to the history. -/
def Grows (x : StateT History (StateM σ) α) : Prop := ∀ h s, h <+: ((x.run h).run s).1.2

theorem Shows.grows {can : Event → Prop} {x : StateT History (StateM σ) α} {x₀ : StateM σ α}
    {P : α → History → Prop} (h : Shows can x x₀ P) : Grows x := by
  intro hist s
  obtain ⟨es, hrun, -, -⟩ := h hist s
  rw [hrun]
  exact List.prefix_append hist es

/-- Observed work that is calm keeps histories and states related to those of other work. In any
case it adds to the history, and its result is possible. -/
def Coupling.calmly (r : Responder) (R : History → σ → History → τ → Prop) :
    Coupling (StateT History (StateM σ)) (StateT History (StateM τ)) where
  Rel Q x y := Grows x ∧ (∀ h s, ∃ b, Q ((x.run h).run s).1.1 b) ∧
    ∀ h s h' t, R h s h' t → ((x.run h).run s).1.2.IsCalm r →
      Q ((x.run h).run s).1.1 ((y.run h').run t).1.1 ∧
        R ((x.run h).run s).1.2 ((x.run h).run s).2 ((y.run h').run t).1.2 ((y.run h').run t).2
  pure hQ := ⟨fun h _ => List.prefix_refl h, fun _ _ => ⟨_, hQ⟩, fun _ _ _ _ hR _ => ⟨hQ, hR⟩⟩
  bind := by
    rintro α β γ δ Q Q' x y f g ⟨hgrows, hresult, hx⟩ hf
    refine ⟨fun h s => ?_, fun h s => ?_, fun h s h' t hR hcalm => ?_⟩
    · obtain ⟨b, hQ⟩ := hresult h s
      exact (hgrows h s).trans ((hf _ b hQ).1 _ _)
    · obtain ⟨b, hQ⟩ := hresult h s
      exact (hf _ b hQ).2.1 _ _
    · obtain ⟨b, hQ⟩ := hresult h s
      -- What came first is calm as well, since the rest only adds to it.
      have hfirst : ((x.run h).run s).1.2.IsCalm r :=
        History.IsCalm.before hcalm ((hf _ b hQ).1 _ _)
      obtain ⟨hab, hR'⟩ := hx h s h' t hR hfirst
      exact (hf _ _ hab).2.2 _ _ _ _ hR' hcalm

variable {r : Responder} {R : History → σ → History → τ → Prop} {Q : α → β → Prop}
  {x : StateM σ α} {y : StateM τ β}

theorem Coupling.calmly_silent (possible : ∀ a, ∃ b, Q a b)
    (h : ∀ hist s hist' t, R hist s hist' t →
      Q (x.run s).1 (y.run t).1 ∧ R hist (x.run s).2 hist' (y.run t).2) :
    (calmly r R).Rel Q (StateT.lift x : StateT History (StateM σ) α) (StateT.lift y) :=
  ⟨fun hist _ => List.prefix_refl hist, fun _ _ => possible _,
    fun hist s hist' t hR _ => h hist s hist' t hR⟩

theorem Coupling.calmly_noting {event : α → Event} {event' : β → Event}
    (possible : ∀ a, ∃ b, Q a b)
    (h : ∀ hist s hist' t, R hist s hist' t → (event (x.run s).1).IsCalm r →
      Q (x.run s).1 (y.run t).1 ∧
        R (hist ++ [event (x.run s).1]) (x.run s).2 (hist' ++ [event' (y.run t).1]) (y.run t).2) :
    (calmly r R).Rel Q (noting event x) (noting event' y) := by
  refine ⟨fun hist s => List.prefix_append hist _, fun _ _ => possible _, ?_⟩
  intro hist s hist' t hR hcalm
  exact h hist s hist' t hR (hcalm _ (List.mem_append_right hist (List.mem_singleton_self _)))

end

/-! ## Desks -/

/-- A desk at which nothing else matters. -/
def Responder.desk {m : Type → Type} [Monad m] (r : Responder) : QueryDesk m where
  now := pure .zero
  isCancelled := pure false
  ask q := pure (r.answer q)
  record key q answer := pure (r.keep key q answer)

/-- Whatever is asked at a desk leaves a part of the state alone. -/
structure QueryDesk.Leaves {σ τ : Type} (part : σ → τ) (desk : QueryDesk (StateM σ)) : Prop where
  now : Regression.Leaves part desk.now
  isCancelled : Regression.Leaves part desk.isCancelled
  ask (q : Query) : Regression.Leaves part (desk.ask q)
  record (key : QueryKey) (q : Query) (answer : Answer) :
    Regression.Leaves part (desk.record key q answer)

/-- What the oracle makes of a partition: its verdict, and the events. -/
def Responder.check (r : Responder) (timeoutMs : UInt64) (iteration : UInt32) (p : Partition) :
    Verdict × History :=
  (((Oracle.check (m := StateT History (StateM Unit)) (QueryDesk.observed r.desk) timeoutMs
    iteration p).run []).run ()).1

namespace Responder

theorem isFromDesk_check (r : Responder) (timeoutMs : UInt64) (iteration : UInt32)
    (p : Partition) : ∀ e ∈ (r.check timeoutMs iteration p).2, e.isFromDesk :=
  ((Oracle.shows_check (r.desk (m := StateM Unit)) timeoutMs iteration p).holds ()).1.isFromDesk

variable {σ τ : Type} {part : σ → τ} {desk : QueryDesk (StateM σ)} {r : Responder}

theorem alike_desk (leaves : desk.Leaves part) (r : Responder) (first : History) (before : τ) :
    desk.observed.Alike
      (.calmly r fun h s h' (_ : Unit) => h = first ++ h' ∧ part s = before)
      (QueryDesk.observed r.desk) where
  now := Coupling.calmly_silent (fun _ => ⟨.zero, trivial⟩) fun _ s _ _ ⟨hhist, hpart⟩ =>
    ⟨trivial, hhist, (leaves.now s).trans hpart⟩
  isCancelled := by
    refine Coupling.calmly_noting (fun a => ⟨a, rfl⟩) ?_
    rintro _ s hist' _ ⟨rfl, hpart⟩ hcalm
    have hresult : (desk.isCancelled.run s).1 = false := hcalm
    rw [hresult, List.append_assoc]
    exact ⟨rfl, rfl, (leaves.isCancelled s).trans hpart⟩
  ask q := by
    refine Coupling.calmly_noting (fun a => ⟨a, rfl⟩) ?_
    rintro _ s hist' _ ⟨rfl, hpart⟩ hcalm
    have hresult : ((desk.ask q).run s).1 = r.answer q := hcalm
    rw [hresult, List.append_assoc]
    exact ⟨rfl, rfl, (leaves.ask q s).trans hpart⟩
  record key q answer := by
    refine Coupling.calmly_noting (fun a => ⟨a, rfl⟩) ?_
    rintro _ s hist' _ ⟨rfl, hpart⟩ hcalm
    have hresult : ((desk.record key q answer).run s).1 = r.keep key q answer := hcalm
    rw [hresult, List.append_assoc]
    exact ⟨rfl, rfl, (leaves.record key q answer s).trans hpart⟩

/-- A check that is calm asks what is always asked about the partition, and comes to the verdict
that it always gets, its time aside. -/
theorem check_calm (leaves : desk.Leaves part) {timeoutMs : UInt64} {iteration : UInt32}
    {p : Partition} {h : History} {s : σ} {v : Verdict} {h' : History} {s' : σ}
    (hrun : ((Oracle.check desk.observed timeoutMs iteration p).run h).run s = ((v, h'), s'))
    (calm : h'.IsCalm r) :
    v.untimed = (r.check timeoutMs iteration p).1.untimed ∧
      h' = h ++ (r.check timeoutMs iteration p).2 ∧ part s' = part s := by
  have hcheck := ((alike_desk leaves r h (part s)).check timeoutMs iteration p).2.2 h s [] ()
    ⟨(List.append_nil h).symm, rfl⟩
  rw [hrun] at hcheck
  exact hcheck calm

/-- Checks that are calm ask what is always asked about the partitions, in some order, and come to
the verdicts that they always get. -/
theorem checkAll_calm (leaves : desk.Leaves part) {timeoutMs : UInt64} {iteration : UInt32}
    {partitions : List Partition} {h : History} {s : σ} {verdicts : List Verdict} {h' : History}
    {s' : σ}
    (hrun : ((Oracle.checkAll desk.observed timeoutMs iteration partitions).run h).run s =
      ((verdicts, h'), s'))
    (calm : h'.IsCalm r) :
    verdicts.map Verdict.untimed =
        partitions.map (fun p => (r.check timeoutMs iteration p).1.untimed) ∧
      (∃ es, h' = h ++ es ∧
        es.Perm (partitions.flatMap fun p => (r.check timeoutMs iteration p).2)) ∧
      part s' = part s := by
  fun_induction Oracle.checkAll desk timeoutMs iteration partitions
    generalizing h s verdicts h' s' with
  | case1 =>
    rw [Oracle.checkAll] at hrun
    cases hrun
    exact ⟨rfl, ⟨[], (List.append_nil h).symm, .rfl⟩, rfl⟩
  | case2 p rest k =>
    rename_i ih
    rw [Oracle.checkAll, StateT.run_bind, StateT.run_bind] at hrun
    obtain ⟨⟨⟨v, h₁⟩, s₁⟩, hfirst⟩ : ∃ a, ((Oracle.check desk.observed timeoutMs iteration
      ((p :: rest).get k)).run h).run s = a := ⟨_, rfl⟩
    obtain ⟨⟨⟨vs, h₂⟩, s₂⟩, hothers⟩ : ∃ a, ((Oracle.checkAll desk.observed timeoutMs iteration
      ((p :: rest).eraseIdx k)).run h₁).run s₁ = a := ⟨_, rfl⟩
    have hboth : ((verdicts, h'), s') = ((vs.insertIdx k v, h₂), s₂) := by
      rw [← hrun]
      dsimp only [QueryDesk.observed] at hfirst ⊢
      rw [hfirst]
      exact congrArg (fun a => ((a.1.1.insertIdx k v, a.1.2), a.2)) hothers
    cases hboth
    have hgrows : h₁ <+: h' := by
      have hle := (Oracle.shows_checkAll desk timeoutMs iteration
        ((p :: rest).eraseIdx k)).grows h₁ s₁
      rwa [hothers] at hle
    obtain ⟨hv, rfl, hpart⟩ := check_calm leaves hfirst (calm.before hgrows)
    obtain ⟨hvs, ⟨es, rfl, hperm⟩, hpart'⟩ := ih hothers calm
    refine ⟨?_, ⟨_, List.append_assoc _ _ _, ?_⟩, hpart'.trans hpart⟩
    · rw [List.map_insertIdx, hvs, hv,
        ← List.map_insertIdx fun p => (r.check timeoutMs iteration p).1.untimed]
      exact congrArg (List.map _) (List.insertIdx_eraseIdx_getElem k.isLt)
    · have hpicked : (((p :: rest).get k) :: (p :: rest).eraseIdx k).Perm (p :: rest) :=
        List.getElem_cons_eraseIdx_perm k.isLt
      have hevents := hpicked.flatMap_right fun p => (r.check timeoutMs iteration p).2
      rw [List.flatMap_cons] at hevents
      exact (hperm.append_left _).trans hevents

end Responder

end Regression
