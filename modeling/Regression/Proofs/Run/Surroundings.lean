import Regression.Proofs.Run.Calm

/-!
# Surroundings

What answers a run may depend on time, on who answers queries, and on what was asked before. A part
of its environment depends on nothing but what is asked of this part: that is what surrounds the
run. As long as they are calm, runs with the same surroundings do the same, but for their queries.

* `Environment.Moves.akin`: an environment is coupled with its surroundings.
* `History.visible`: what two such runs show, times and queries aside.
-/

namespace Regression

/-- What is asked for in a run, queries aside, if the answers depend on nothing else and nothing
comes too late. -/
structure Surroundings (τ : Type) where
  inputExists : String → StateM τ Bool
  prepare : UInt32 → StateM τ (Except Failure Unit)
  start : UInt32 → StateM τ (Except Failure Unit)
  next : StateM τ (Except Failure (Option Partition))
  summary : StateM τ AbstractionSummary
  expand : AbstractedUnit → StateM τ (Except Failure Unit)
  /-- Take a write without its times. -/
  write : StoreWrite → StateM τ (Except StorageError Unit)
  resetResults : String → StateM τ (Except FileError Unit)
  /-- Add some text to a results file. -/
  appendResults : String → StateM τ (Except FileError Unit)

namespace Surroundings

variable {τ : Type} (u : Surroundings τ)

/-- The answer of an event is that of the surroundings, which it changes in their way. Queries do
not change them. -/
def Answers : Event → τ → τ → Prop
  | .looked input found, t, t' => (u.inputExists input).run t = (found, t')
  | .prepared i (.done result), t, t' => (u.prepare i).run t = (result, t')
  | .started i (.done result), t, t' => (u.start i).run t = (result, t')
  | .pulled (.done result), t, t' => u.next.run t = (result, t')
  | .summarized units, t, t' => u.summary.run t = (units, t')
  | .expanded unit (.done result), t, t' => (u.expand unit).run t = (result, t')
  | .wrote w result, t, t' => (u.write w.untimed).run t = (result, t')
  | .reset path result, t, t' => (u.resetResults path).run t = (result, t')
  | .appended path _ result, t, t' => (u.appendResults path).run t = (result, t')
  | .polled _, t, t' | .closed _, t, t' => t' = t
  | .cancelled _, t, t' | .asked .., t, t' | .recorded .., t, t' => t' = t
  | _, _, _ => True

/-- The environment that consists of the surroundings alone. Its clock stands still, and partitions
are picked in a given order. -/
def environment (r : Responder) (pick : PickOrder) : Environment (StateM τ) where
  now := pure .zero
  today := pure default
  inputExists := u.inputExists
  prepare _ i := .done <$> u.prepare i
  start _ i := .done <$> u.start i
  next _ := .done <$> u.next
  summary := u.summary
  expand _ unit := .done <$> u.expand unit
  isExpired _ := pure false
  openBatch := pure ()
  closeBatch _ := pure (.done (.ok ()))
  desk _ := { r.desk with pick }
  write w := u.write w.untimed
  resetResults := u.resetResults
  appendResults path _ := u.appendResults path

/-- An environment that consists of surroundings answers as they do. -/
theorem environment_moves (r : Responder) (pick : PickOrder) :
    (u.environment r pick).Moves id u.Answers where
  now _ := rfl
  today _ := rfl
  openBatch _ := rfl
  deskNow _ _ := rfl
  inputExists _ _ := rfl
  prepare _ _ _ := rfl
  start _ _ _ := rfl
  next _ _ := rfl
  summary _ := rfl
  expand _ _ _ := rfl
  isExpired _ _ := rfl
  closeBatch _ _ := rfl
  isCancelled _ _ := rfl
  ask _ _ _ := rfl
  record _ _ _ _ _ := rfl
  write _ _ := rfl
  resetResults _ _ := rfl
  appendResults _ _ _ := rfl

/-- Nothing disturbs a run there. -/
theorem isCalm_of_canEmit {r : Responder} {pick : PickOrder} {e : Event}
    (h : (u.environment r pick).CanEmit e) : e.IsCalm r := by
  cases e with
  | looked | summarized | wrote | reset | appended => trivial
  | prepared i result | started i result | expanded unit result =>
    obtain ⟨_, s, rfl⟩ := h
    intro hexpired
    cases hexpired
  | pulled result =>
    obtain ⟨_, s, rfl⟩ := h
    intro hexpired
    cases hexpired
  | polled | closed =>
    obtain ⟨_, s, rfl⟩ := h
    rfl
  | cancelled | asked | recorded =>
    obtain ⟨_, s, rfl⟩ := h
    rfl

end Surroundings

/-! ## What runs show -/

/-- An event without its times, unless it is a matter of queries or of the watchdog. The texts of
results files contain times. -/
def Event.visible? : Event → Option Event
  | .polled _ | .closed _ | .cancelled _ | .asked .. | .recorded .. => none
  | .wrote w result => some (.wrote w.untimed result)
  | .appended path _ result => some (.appended path "" result)
  | e => some e

/-- What a run shows, times and queries aside. -/
def History.visible (h : History) : History := h.filterMap Event.visible?

@[simp] theorem History.visible_append (h h' : History) :
    (h ++ h').visible = h.visible ++ h'.visible :=
  List.filterMap_append

theorem History.visible_of_isFromDesk {h : History} (hd : ∀ e ∈ h, e.isFromDesk) :
    h.visible = [] := by
  rw [visible, List.filterMap_eq_nil_iff]
  intro e he
  have hfrom := hd e he
  cases e <;> first | rfl | cases hfrom

/-- The store refused what was found out about a partition. -/
def Event.refusesVerdict : Event → Bool
  | .wrote (.partition row) (.error _) => row.isClassified
  | _ => false

/-- A refusal can be seen. -/
theorem History.any_refusesVerdict_visible (h : History) :
    h.visible.any Event.refusesVerdict = h.any Event.refusesVerdict := by
  rw [visible, List.any_filterMap]
  refine List.any_congr rfl ?_
  intro e
  cases e with
  | wrote w result => cases w <;> cases result <;> rfl
  | _ => rfl

/-- Two runs are together: they have shown the same, and kept the same answers, except for some that
are still due in the other one, which is calm. After a verdict was refused the answers do not
matter. -/
structure Together {σ τ : Type} (r : Responder) (part : σ → τ)
    (due : List (QueryKey × Query × Answer)) (h : History) (s : σ) (h' : History) (t : τ) :
    Prop where
  calm : h'.IsCalm r
  state : part s = t
  visible : h.visible = h'.visible
  filed : h.any Event.refusesVerdict = false → h.filed.Perm (h'.filed ++ due)

section

variable {σ τ α : Type} {part : σ → τ} {due : List (QueryKey × Query × Answer)}
  {u : Surroundings τ} {r : Responder}

theorem Together.silent {h h' : History} {s s' : σ} {t : τ}
    (together : Together r part due h s h' t) (state : part s' = part s) :
    Together r part due h s' h' t :=
  { together with state := state.trans together.state }

/-- One run goes ahead with queries. -/
theorem Together.ahead {h h' : History} {s s' : σ} {t : τ} (together : Together r part [] h s h' t)
    {es : History} (visible : es.visible = []) (filed : es.filed.Perm due)
    (state : part s' = part s) : Together r part due (h ++ es) s' h' t where
  calm := together.calm
  state := state.trans together.state
  visible := by rw [History.visible_append, visible, List.append_nil, together.visible]
  filed := by
    intro hno
    rw [List.any_append, Bool.or_eq_false_iff] at hno
    have hbefore := together.filed hno.1
    rw [List.append_nil] at hbefore
    rw [History.filed_append]
    exact hbefore.append filed

/-- The other run makes up for some of the queries. -/
theorem Together.madeUp {h h' : History} {s : σ} {t : τ}
    {answers : List (QueryKey × Query × Answer)}
    (together : Together r part (answers ++ due) h s h' t) {es : History}
    (calm : (h' ++ es).IsCalm r) (visible : es.visible = []) (filed : es.filed.Perm answers) :
    Together r part due h s (h' ++ es) t where
  calm := calm
  state := together.state
  visible := by rw [History.visible_append, visible, List.append_nil, together.visible]
  filed := by
    intro hno
    rw [History.filed_append, List.append_assoc]
    exact (together.filed hno).trans ((filed.symm.append_right due).append_left _)

/-- Events that show the same keep runs together. -/
theorem Together.add {h h' : History} {s s' : σ} {t t' : τ}
    (together : Together r part due h s h' t) {e e' : Event} (calm : e'.IsCalm r)
    (visible : e.visible? = e'.visible?) (filed : e.filed? = none) (filed' : e'.filed? = none)
    (state : part s' = t') :
    Together r part due (h ++ [e]) s' (h' ++ [e']) t' where
  calm := together.calm.append (List.forall_mem_singleton.mpr calm)
  state := state
  visible := by
    have hone : History.visible [e] = History.visible [e'] := by
      rw [History.visible, History.visible, List.filterMap_cons, List.filterMap_cons, visible]
    rw [History.visible_append, History.visible_append, together.visible, hone]
  filed := by
    intro hrefused
    rw [List.any_append, Bool.or_eq_false_iff] at hrefused
    have hnone {e : Event} (he : e.filed? = none) : History.filed [e] = [] := by
      simp [History.filed, he]
    rw [History.filed_append, History.filed_append, hnone filed, hnone filed', List.append_nil,
      List.append_nil]
    exact together.filed hrefused.1

theorem Coupling.calmly_changes {event event' : α → Event} {x : StateM σ α} {y : StateM τ α}
    (changes : Changes part u.Answers event x)
    (answers : ∀ a t t', u.Answers (event a) t t' → (event a).IsCalm r → y.run t = (a, t'))
    (calm : ∀ a, (event a).IsCalm r → (event' a).IsCalm r)
    (visible : ∀ a, (event a).visible? = (event' a).visible?)
    (filed : ∀ a, (event a).filed? = none) (filed' : ∀ a, (event' a).filed? = none) :
    (calmly r (Together r part due)).Rel Eq (noting event x) (noting event' y) := by
  refine calmly_noting (fun a => ⟨a, rfl⟩) ?_
  intro hist s hist' t together hcalm
  have hrun := answers _ _ _ (changes s) hcalm
  rw [together.state] at hrun
  rw [hrun]
  exact ⟨rfl, together.add (calm _ hcalm) (visible _) (filed _) (filed' _) rfl⟩

/-- An environment that answers as its surroundings do is coupled with them. -/
theorem Environment.Moves.akin {env : Environment (StateM σ)} (answers : env.Moves part u.Answers)
    (r : Responder) (d d' : Duration) (pick : PickOrder) :
    env.observed.Akin (.calmly r (Together r part [])) d d' (u.environment r pick).observed where
  now := Coupling.calmly_silent (fun _ => ⟨.zero, trivial⟩) fun _ s _ _ together =>
    ⟨trivial, together.silent (answers.now s)⟩
  today := Coupling.calmly_silent (fun _ => ⟨default, trivial⟩) fun _ s _ _ together =>
    ⟨trivial, together.silent (answers.today s)⟩
  inputExists input := Coupling.calmly_changes (answers.inputExists input)
    (fun _ _ _ h _ => h) (fun _ h => h) (fun _ => rfl) (fun _ => rfl) fun _ => rfl
  prepare i := by
    refine Coupling.calmly_changes (answers.prepare d i) ?_ (fun _ h => h) (fun _ => rfl)
      (fun _ => rfl) fun _ => rfl
    rintro (result | _) t t' h hcalm
    · exact congrArg (fun a => (Raced.done a.1, a.2)) h
    · exact absurd rfl hcalm
  start i := by
    refine Coupling.calmly_changes (answers.start d i) ?_ (fun _ h => h) (fun _ => rfl)
      (fun _ => rfl) fun _ => rfl
    rintro (result | _) t t' h hcalm
    · exact congrArg (fun a => (Raced.done a.1, a.2)) h
    · exact absurd rfl hcalm
  next := by
    refine Coupling.calmly_changes (answers.next d) ?_ (fun _ h => h) (fun _ => rfl)
      (fun _ => rfl) fun _ => rfl
    rintro (result | _) t t' h hcalm
    · exact congrArg (fun a => (Raced.done a.1, a.2)) h
    · exact absurd rfl hcalm
  summary := Coupling.calmly_changes answers.summary (fun _ _ _ h _ => h) (fun _ h => h)
    (fun _ => rfl) (fun _ => rfl) fun _ => rfl
  expand unit := by
    refine Coupling.calmly_changes (answers.expand d unit) ?_ (fun _ h => h) (fun _ => rfl)
      (fun _ => rfl) fun _ => rfl
    rintro (result | _) t t' h hcalm
    · exact congrArg (fun a => (Raced.done a.1, a.2)) h
    · exact absurd rfl hcalm
  write {w w'} same := by
    refine Coupling.calmly_changes (answers.write w) (fun _ t t' h _ => ?_) (fun _ h => h)
      (fun result => ?_) (fun _ => rfl) fun _ => rfl
    · rw [← h, same]
      rfl
    · exact congrArg (fun w => some (Event.wrote w result)) same
  resetResults path := Coupling.calmly_changes (answers.resetResults path) (fun _ _ _ h _ => h)
    (fun _ h => h) (fun _ => rfl) (fun _ => rfl) fun _ => rfl
  appendResults path text text' := Coupling.calmly_changes (answers.appendResults path text)
    (fun _ _ _ h _ => h) (fun _ h => h) (fun _ => rfl) (fun _ => rfl) fun _ => rfl

/-- Queries leave the surroundings alone. -/
theorem Environment.Moves.desk_leaves {env : Environment (StateM σ)}
    (answers : env.Moves part u.Answers) (d : Duration) : (env.desk d).Leaves part where
  now := answers.deskNow d
  isCancelled := answers.isCancelled d
  ask := answers.ask d
  record := answers.record d

end

end Regression
