import Mathlib.Data.List.Nodup
import Regression.Proofs.Expr.Nodes
import Regression.Proofs.Script.Reading

/-!
# What a script declares

A script declares just what its conditions need, and a name has one signature in it.

* `Expr.mem_uses`: the uses of an expression are those of the nodes that occur in it.
* `Script.IsAscending.signature_unique`: a name that is declared has one signature.
* `Script.Declarations.adds_of_useAll`: what is declared after some uses were accepted.
* `Script.useAll_of_assertions?`: the uses of the conditions of a script were all accepted.
-/

namespace Regression

open Script

namespace Expr

/-! ## Nodes and uses -/

/-- What a node needs by itself, its operands and arguments aside. -/
def ownUse? : Expr → Option Use
  | .const _ => none
  | .var x s => some (.name x (.ok ⟨[], s⟩))
  | .binary op _ _ _ => if op = .pow then some (.function .pow) else none
  | .uif f s args => some (.name f ((sorts? args).map fun params => ⟨params, s⟩))
  | .math f _ => some (.function f)

mutual

theorem uses_eq : ∀ e : Expr, e.uses = e.nodes.filterMap ownUse?
  | .const _ | .var _ _ => rfl
  | .binary op l r location => by
    rw [uses, nodes, List.filterMap_cons, List.filterMap_append, uses_eq l, uses_eq r, ownUse?]
    by_cases hpow : op = .pow
    · rw [if_pos hpow, if_pos hpow]
      rfl
    · rw [if_neg hpow, if_neg hpow]
      rfl
  | .uif f s args => by
    rw [uses, nodes, usesOf_eq args]
    rfl
  | .math f args => by
    rw [uses, nodes, usesOf_eq args]
    rfl

theorem usesOf_eq : ∀ es : List Expr, usesOf es = (nodesOf es).filterMap ownUse?
  | [] => rfl
  | e :: es => by rw [usesOf, nodesOf, List.filterMap_append, uses_eq e, usesOf_eq es]

end

theorem mem_uses {u : Use} {e : Expr} :
    u ∈ e.uses ↔ ∃ x : Expr, x.Occurs e ∧ x.ownUse? = some u := by
  rw [uses_eq, List.mem_filterMap]
  simp only [mem_nodes]

end Expr

namespace Script

/-! ## One name after another -/

section

variable {name : String} {signature : Signature} {names names' : List (String × Signature)}

/-- In ascending order of names, so that no name occurs twice. -/
def IsAscending (names : List (String × Signature)) : Prop := names.Pairwise (·.1 < ·.1)

theorem mem_declareName (h : declareName name signature names = some names')
    (p : String × Signature) : p ∈ names' ↔ p = (name, signature) ∨ p ∈ names := by
  induction names generalizing names' with
  | nil =>
    cases h
    rw [List.mem_singleton, or_iff_left List.not_mem_nil]
  | cons first rest ih =>
    obtain ⟨first, known⟩ := first
    rw [declareName] at h
    split at h
    · cases h
      exact List.mem_cons
    · next hnotless =>
      split at h
      · obtain ⟨rest', hrest, rfl⟩ := Option.map_eq_some_iff.mp h
        rw [List.mem_cons, List.mem_cons, ih hrest, or_left_comm]
      · next hnotgreater =>
        split at h
        · next hsame =>
          cases h
          have hfirst : (first, known) = (name, signature) :=
            Prod.ext (NameSet.eq_of_not_lt hnotgreater hnotless) hsame
          rw [hfirst]
          refine ⟨.inr, fun hp => hp.elim (fun heq => heq ▸ List.mem_cons_self) id⟩
        · cases h

theorem isAscending_declareName (h : declareName name signature names = some names')
    (hnames : IsAscending names) : IsAscending names' := by
  induction names generalizing names' with
  | nil =>
    cases h
    exact List.pairwise_singleton _ _
  | cons first rest ih =>
    obtain ⟨first, known⟩ := first
    obtain ⟨hfirst, hrest⟩ := List.pairwise_cons.mp hnames
    rw [declareName] at h
    split at h
    · next hless =>
      cases h
      refine List.pairwise_cons.mpr ⟨fun p hp => ?_, hnames⟩
      rcases List.mem_cons.mp hp with rfl | hp
      · exact hless
      · exact String.lt_trans hless (hfirst p hp)
    · split at h
      · next hgreater =>
        obtain ⟨rest', hdeclared, rfl⟩ := Option.map_eq_some_iff.mp h
        refine List.pairwise_cons.mpr ⟨fun p hp => ?_, ih hdeclared hrest⟩
        rcases (mem_declareName hdeclared p).mp hp with rfl | hp
        · exact hgreater
        · exact hfirst p hp
      · split at h
        · cases h
          exact hnames
        · cases h

theorem IsAscending.nodup (h : IsAscending names) : (names.map (·.1)).Nodup := by
  refine List.pairwise_map.mpr (List.Pairwise.imp (fun {p q} hlt heq => ?_) h)
  rw [heq] at hlt
  exact String.lt_irrefl _ hlt

theorem IsAscending.signature_unique (h : IsAscending names) {other : Signature}
    (hsignature : (name, signature) ∈ names) (hother : (name, other) ∈ names) :
    signature = other := by
  exact congrArg Prod.snd (List.inj_on_of_nodup_map h.nodup hsignature hother rfl)

end

/-! ## All uses -/

namespace Declarations

variable {d d' d'' : Declarations} {us vs : List Use}

/-- What is declared after some uses were accepted. -/
structure Adds (us : List Use) (d d' : Declarations) : Prop where
  functions : ∀ f, f ∈ d'.functions ↔ .function f ∈ us ∨ f ∈ d.functions
  names : ∀ p, p ∈ d'.names ↔ .name p.1 (.ok p.2) ∈ us ∨ p ∈ d.names
  hasSignature : ∀ name r, .name name r ∈ us → ∃ signature, r = .ok signature
  ascending : IsAscending d.names → IsAscending d'.names

theorem Adds.nil (d : Declarations) : Adds [] d d where
  functions _ := by rw [or_iff_right List.not_mem_nil]
  names _ := by rw [or_iff_right List.not_mem_nil]
  hasSignature _ _ hmem := absurd hmem List.not_mem_nil
  ascending := id

theorem Adds.append (h : Adds us d d') (h' : Adds vs d' d'') : Adds (us ++ vs) d d'' where
  functions f := by rw [h'.functions, h.functions, List.mem_append, or_left_comm, or_assoc]
  names p := by rw [h'.names, h.names, List.mem_append, or_left_comm, or_assoc]
  hasSignature name r hmem :=
    (List.mem_append.mp hmem).elim (h.hasSignature name r) (h'.hasSignature name r)
  ascending := h'.ascending ∘ h.ascending

theorem adds_of_use_function {f : MathFunction} (h : d.use (.function f) = .ok d') :
    Adds [.function f] d d' := by
  cases h
  by_cases hf : f ∈ d.functions
  · rw [if_pos hf]
    refine ⟨fun g => ?_, fun p => ?_, fun name r hmem => ?_, id⟩
    · rw [List.mem_singleton, Use.function.injEq]
      refine ⟨.inr, fun hg => hg.elim (fun heq => heq ▸ hf) id⟩
    · simp
    · simp at hmem
  · rw [if_neg hf]
    refine ⟨fun g => ?_, fun p => ?_, fun name r hmem => ?_, id⟩
    · rw [List.mem_singleton, Use.function.injEq, List.mem_cons]
    · simp
    · simp at hmem

theorem adds_of_use_name {name : String} {r : Except Malformed Signature}
    (h : d.use (.name name r) = .ok d') : Adds [.name name r] d d' := by
  obtain ⟨signature, rfl, hdeclared⟩ := bind_eq_ok.mp h
  split at hdeclared
  · next names hnames =>
    cases hdeclared
    refine ⟨fun f => ?_, fun p => ?_, fun x r hmem => ?_, isAscending_declareName hnames⟩
    · simp
    · rw [mem_declareName hnames, List.mem_singleton, Use.name.injEq, Except.ok.injEq,
        Prod.ext_iff]
    · cases List.mem_singleton.mp hmem
      exact ⟨signature, rfl⟩
  · cases hdeclared

theorem adds_of_useAll (h : d.useAll us = (d', .ok ())) : Adds us d d' := by
  induction us generalizing d with
  | nil =>
    cases h
    exact .nil _
  | cons u us ih =>
    rw [useAll] at h
    cases hu : d.use u with
    | error e =>
      rw [hu] at h
      cases h
    | ok d₁ =>
      rw [hu] at h
      have hadds : Adds [u] d d₁ := by
        cases u with
        | function f => exact adds_of_use_function hu
        | name name r => exact adds_of_use_name hu
      exact hadds.append (ih h)

end Declarations

/-! ## Conditions of a script -/

/-- When the assertions of a script have been rendered, all that they use was accepted. -/
theorem useAll_of_assertions? {conditions : List Expr} {d d' : Declarations} {ts : List Term}
    (h : assertions? d conditions = .ok (d', ts)) :
    d.useAll (conditions.flatMap Expr.uses) = (d', .ok ()) := by
  induction conditions generalizing d ts with
  | nil =>
    cases h
    rfl
  | cons e es ih =>
    unfold assertions? at h
    obtain ⟨_, huse, h⟩ := bind_eq_ok.mp h
    obtain ⟨t, ht, h⟩ := bind_eq_ok.mp h
    obtain ⟨⟨d'', ts'⟩, hts, h⟩ := bind_eq_ok.mp h
    cases h
    rw [List.flatMap_cons, Declarations.useAll_append huse]
    exact ih hts

end Script

end Regression
