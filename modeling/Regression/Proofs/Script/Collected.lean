import Regression.Proofs.Script.Symbols

/-!
# Declarations that are collected

Some expressions can be declared together unless an argument has no sort or a name has two
signatures, wherever in them. Which lines declare them does not depend on how often and in which
order they come.

* `Script.Declarations.collectAll_eq`: expressions are declared one after the other.
* `Script.Declarations.exists_useAll_iff`: which uses are accepted together.
* `Script.Declarations.declares_exactly`: which expressions can be declared, and by which lines.
-/

namespace Regression

open Script

/-! ## Signatures -/

namespace Expr

/-- A node gives its name a signature: a variable has no parameters, and those of an uninterpreted
function are the sorts of its arguments. -/
inductive GivesSignature : Expr → String → Signature → Prop
  | var (name : String) (sort : ValueSort) : GivesSignature (.var name sort) name ⟨[], sort⟩
  | uif {name : String} {sort : ValueSort} {args : List Expr} {params : List ValueSort}
    (sorts : List.Forall₂ (fun a s => a.sort? = .ok s) args params) :
    GivesSignature (.uif name sort args) name ⟨params, sort⟩

theorem ownUse?_eq_name_iff {x : Expr} {name : String} {signature : Signature} :
    x.ownUse? = some (.name name (.ok signature)) ↔ x.GivesSignature name signature := by
  constructor
  · intro h
    cases x with
    | const | math => cases h
    | var =>
      cases h
      exact .var _ _
    | binary op l r location =>
      rw [ownUse?] at h
      split at h <;> cases h
    | uif f s args =>
      injection h with h
      injection h with hname hsorts
      obtain ⟨params, hparams, rfl⟩ := exists_of_map_eq_ok hsorts
      subst hname
      exact .uif (forall₂_of_mapM_eq_ok hparams)
  · intro h
    cases h with
    | var => rfl
    | uif sorts =>
      have hsorts : sorts? _ = _ := mapM_eq_ok_of_forall₂ sorts
      rw [ownUse?, hsorts]
      rfl

end Expr

namespace Script

section

variable (conditions : List Expr)

/-- A name has a signature somewhere in some conditions. -/
def UsesName (name : String) (signature : Signature) : Prop :=
  ∃ x : Expr, x.OccursIn conditions ∧ x.GivesSignature name signature

/-- All arguments of uninterpreted functions have sorts. -/
def ArgumentsHaveSorts : Prop :=
  ∀ name sort args, (Expr.uif name sort args).OccursIn conditions →
    ∀ a ∈ args, ∃ s, a.sort? = .ok s

/-- No name has two signatures. -/
def SignaturesAgree : Prop :=
  ∀ name signature other, UsesName conditions name signature → UsesName conditions name other →
    signature = other

/-- A function is applied in some conditions, or it is the power and `**` occurs. -/
def Applies (f : MathFunction) : Prop :=
  (∃ args, (Expr.math f args).OccursIn conditions) ∨
    f = .pow ∧ ∃ l r location, (Expr.binary .pow l r location).OccursIn conditions

end

variable {conditions : List Expr}

theorem name_mem_uses_iff {name : String} {signature : Signature} :
    .name name (.ok signature) ∈ conditions.flatMap Expr.uses ↔
      UsesName conditions name signature := by
  rw [mem_flatMap_uses]
  simp only [Expr.ownUse?_eq_name_iff, UsesName]

theorem function_mem_uses_iff {f : MathFunction} :
    .function f ∈ conditions.flatMap Expr.uses ↔ Applies conditions f := by
  rw [mem_flatMap_uses]
  constructor
  · rintro ⟨x, hx, huse⟩
    cases x with
    | const | var | uif => cases huse
    | math =>
      cases huse
      exact .inl ⟨_, hx⟩
    | binary op l r location =>
      by_cases hpow : op = .pow
      · subst hpow
        cases huse
        exact .inr ⟨rfl, l, r, location, hx⟩
      · rw [Expr.ownUse?, if_neg hpow] at huse
        cases huse
  · rintro (⟨args, hx⟩ | ⟨rfl, l, r, location, hx⟩)
    · exact ⟨_, hx, rfl⟩
    · exact ⟨_, hx, rfl⟩

/-- Every name that is used has a signature exactly if all arguments have sorts. -/
theorem hasSignature_iff :
    (∀ name r, .name name r ∈ conditions.flatMap Expr.uses → ∃ signature, r = .ok signature) ↔
      ArgumentsHaveSorts conditions := by
  simp only [mem_flatMap_uses]
  constructor
  · intro h name sort args hx
    obtain ⟨signature, hsignature⟩ := h name _ ⟨_, hx, rfl⟩
    obtain ⟨params, hparams, -⟩ := exists_of_map_eq_ok hsignature
    exact exists_mapM_iff.mp ⟨params, hparams⟩
  · rintro h name r ⟨x, hx, huse⟩
    cases x with
    | const | math => cases huse
    | var =>
      cases huse
      exact ⟨_, rfl⟩
    | binary op l r location =>
      rw [Expr.ownUse?] at huse
      split at huse <;> cases huse
    | uif f s args =>
      obtain ⟨params, hparams⟩ := exists_mapM_iff.mpr (h f s args hx)
      have hparams : Expr.sorts? args = .ok params := hparams
      cases huse
      rw [hparams]
      exact ⟨_, rfl⟩

/-! ## Uses that are accepted -/

theorem exists_declareName {name : String} {signature : Signature}
    {names : List (String × Signature)}
    (h : ∀ known, (name, known) ∈ names → known = signature) :
    ∃ names', declareName name signature names = some names' := by
  induction names with
  | nil => exact ⟨_, rfl⟩
  | cons first rest ih =>
    obtain ⟨first, known⟩ := first
    rw [declareName]
    by_cases hless : name < first
    · rw [if_pos hless]
      exact ⟨_, rfl⟩
    rw [if_neg hless]
    by_cases hgreater : first < name
    · obtain ⟨rest', hrest⟩ := ih fun known hknown => h known (List.mem_cons_of_mem _ hknown)
      rw [if_pos hgreater, hrest]
      exact ⟨_, rfl⟩
    · have hfirst : first = name := NameSet.eq_of_not_lt hgreater hless
      rw [if_neg hgreater, if_pos (h known (hfirst ▸ List.mem_cons_self))]
      exact ⟨_, rfl⟩

namespace Declarations

/-- A use that fits what is declared is accepted. -/
theorem exists_use {d : Declarations} {u : Use}
    (h : ∀ name r, u = .name name r → ∃ signature, r = .ok signature ∧
      ∀ known, (name, known) ∈ d.names → known = signature) :
    ∃ d', d.use u = .ok d' := by
  cases u with
  | function f => exact ⟨_, rfl⟩
  | name name r =>
    obtain ⟨signature, rfl, hknown⟩ := h name r rfl
    obtain ⟨names, hnames⟩ := exists_declareName hknown
    refine ⟨{ d with names }, bind_eq_ok.mpr ⟨signature, rfl, ?_⟩⟩
    rw [hnames]

theorem adds_of_use {d d' : Declarations} {u : Use} (h : d.use u = .ok d') : Adds [u] d d' := by
  cases u with
  | function f => exact adds_of_use_function h
  | name name r => exact adds_of_use_name h

/-- Uses that have signatures and agree with each other and with what is declared are accepted one
after the other. -/
theorem exists_useAll {us : List Use} {d : Declarations}
    (hsignature : ∀ name r, .name name r ∈ us → ∃ signature, r = .ok signature)
    (hagree : ∀ name signature other, .name name (.ok signature) ∈ us →
      .name name (.ok other) ∈ us ∨ (name, other) ∈ d.names → other = signature) :
    ∃ d', d.useAll us = (d', .ok ()) := by
  induction us generalizing d with
  | nil => exact ⟨d, rfl⟩
  | cons u us ih =>
    obtain ⟨d₁, hu⟩ : ∃ d₁, d.use u = .ok d₁ := by
      refine exists_use fun name r hr => ?_
      subst hr
      obtain ⟨signature, rfl⟩ := hsignature name r List.mem_cons_self
      exact ⟨signature, rfl, fun known hknown =>
        hagree name signature known List.mem_cons_self (.inr hknown)⟩
    have hadds := adds_of_use hu
    rw [useAll, hu]
    refine ih (fun name r hr => hsignature name r (List.mem_cons_of_mem _ hr)) ?_
    intro name signature other hus hother
    refine hagree name signature other (List.mem_cons_of_mem _ hus) ?_
    rcases hother with hother | hother
    · exact .inl (List.mem_cons_of_mem _ hother)
    · rcases (hadds.names (name, other)).mp hother with hother | hother
      · exact .inl (List.mem_cons.mpr (.inl (List.mem_singleton.mp hother)))
      · exact .inr hother

/-- Uses are accepted exactly if names have signatures, and one signature each. -/
theorem exists_useAll_iff {us : List Use} :
    (∃ d, empty.useAll us = (d, .ok ())) ↔
      (∀ name r, .name name r ∈ us → ∃ signature, r = .ok signature) ∧
        ∀ name signature other, .name name (.ok signature) ∈ us → .name name (.ok other) ∈ us →
          signature = other := by
  constructor
  · rintro ⟨d, h⟩
    have hadds := adds_of_useAll h
    have hascending : IsAscending d.names := hadds.ascending .nil
    refine ⟨hadds.hasSignature, fun name signature other hfirst hother => ?_⟩
    exact hascending.signature_unique ((hadds.names (name, signature)).mpr (.inl hfirst))
      ((hadds.names (name, other)).mpr (.inl hother))
  · rintro ⟨hsignature, hagree⟩
    refine exists_useAll hsignature fun name signature other hfirst hother => ?_
    exact hagree name other signature (hother.resolve_right List.not_mem_nil) hfirst

/-! ## Expressions one after the other -/

/-- Declare everything that some expressions need, until something does not fit. -/
def collectAll (d : Declarations) : List Expr → Declarations × Except Malformed Unit
  | [] => (d, .ok ())
  | e :: es =>
    match d.collect e with
    | (d, .ok ()) => d.collectAll es
    | (d, .error fault) => (d, .error fault)

theorem useAll_append_of_error {d : Declarations} {us : List Use} {fault : Malformed}
    (h : (d.useAll us).2 = .error fault) (vs : List Use) : d.useAll (us ++ vs) = d.useAll us := by
  induction us generalizing d with
  | nil => cases h
  | cons u us ih =>
    rw [List.cons_append, useAll, useAll]
    rw [useAll] at h
    cases hu : d.use u with
    | ok d' =>
      rw [hu] at h
      exact ih h
    | error e => rfl

/-- Declaring expressions is using what occurs in them, in this order. -/
theorem collectAll_eq (d : Declarations) (es : List Expr) :
    d.collectAll es = d.useAll (es.flatMap Expr.uses) := by
  induction es generalizing d with
  | nil => rfl
  | cons e es ih =>
    rw [collectAll, collect, List.flatMap_cons]
    cases huse : d.useAll e.uses with
    | mk d' r =>
      cases r with
      | error fault =>
        have herror : (d.useAll e.uses).2 = .error fault := by rw [huse]
        rw [useAll_append_of_error herror, huse]
      | ok _ =>
        rw [useAll_append (by rw [huse]), huse]
        exact ih d'

/-! ## Lines -/

/-- The functions with a line of their own, in the order of these lines. -/
def fixedLines : List (MathFunction × String) :=
  [(.pow, "(define-fun pow ((a Real) (b Real)) Real (^ a b))"),
    (.sqrt, "(define-fun sqrt ((x Real)) Real (^ x 0.5))"),
    (.exp, "(define-fun exp ((x Real)) Real (^ 2.718281828459045 x))"),
    (.log, "(declare-fun log (Real) Real)")]

/-- The lines of some functions are those that belong to them. -/
theorem filterMap_declaration? (fs : List MathFunction) (isUsed : MathFunction → Bool) :
    (fs.filter isUsed).filterMap MathFunction.declaration? =
      ((fs.filterMap fun f => f.declaration?.map (f, ·)).filter (isUsed ·.1)).map (·.2) := by
  induction fs with
  | nil => rfl
  | cons f fs ih =>
    rw [List.filter_cons]
    cases hline : f.declaration? with
    | none =>
      rw [List.filterMap_cons_none (by rw [hline]; rfl), ← ih]
      split
      · rw [List.filterMap_cons_none hline]
      · rfl
    | some line =>
      rw [List.filterMap_cons_some (b := (f, line)) (by rw [hline]; rfl), List.filter_cons]
      split
      · rw [List.filterMap_cons_some hline, ih, List.map_cons]
      · exact ih

theorem functionLines_eq (d : Declarations) :
    d.functionLines = (fixedLines.filter (·.1 ∈ d.functions)).map (·.2) :=
  filterMap_declaration? MathFunction.all (· ∈ d.functions)

end Declarations

/-- A name has a form in scripts. -/
def IsWritable (name : String) : Prop := ∃ symbol, Symbol.ofName name = .ok symbol

/-- The form of a name. -/
def symbolText (name : String) : String := if isPlainSymbol name then name else "|" ++ name ++ "|"

/-- The line that declares a name: the command, the name, its parameters and its result. -/
def nameText (name : String) (signature : Signature) : String :=
  "(" ++ " ".intercalate ["declare-fun", symbolText name,
    "(" ++ " ".intercalate (signature.params.map ValueSort.scriptName) ++ ")",
    signature.result.scriptName] ++ ")"

theorem texts_words (sorts : List ValueSort) :
    Term.texts (sorts.map fun s => .word s.scriptName) = sorts.map ValueSort.scriptName := by
  induction sorts with
  | nil => rfl
  | cons s sorts ih => rw [List.map_cons, Term.texts, ih, List.map_cons, Term.text]

theorem text_declaration (symbol : Symbol) (signature : Signature) :
    (Term.apply "declare-fun" [.symbol symbol,
      .list (signature.params.map fun p => .word p.scriptName),
      .word signature.result.scriptName]).text = nameText symbol.name signature := by
  simp only [Term.apply, Term.text, Term.texts, texts_words, Symbol.text, nameText, symbolText]

theorem nameLine_eq_ok {name : String} (h : IsWritable name) (signature : Signature) :
    Declarations.nameLine name signature = .ok (nameText name signature) := by
  obtain ⟨symbol, hsymbol⟩ := h
  rw [← name_of_ofName hsymbol, ← text_declaration, Declarations.nameLine]
  rw [name_of_ofName hsymbol, hsymbol]
  rfl

theorem IsAscending.eq_of_mem_iff {names names' : List (String × Signature)}
    (h : IsAscending names) (h' : IsAscending names') (hmem : ∀ p, p ∈ names ↔ p ∈ names') :
    names = names' := by
  have hnodup : names.Nodup := h.nodup.of_map
  have hnodup' : names'.Nodup := h'.nodup.of_map
  have hperm : names.Perm names' := (List.perm_ext_iff_of_nodup hnodup hnodup').mpr hmem
  refine hperm.eq_of_pairwise (fun p q _ _ hpq hqp => ?_) h h'
  exact absurd (String.lt_trans hpq hqp) (String.lt_irrefl _)

namespace Declarations

/-- The lines of everything that is declared, if all names can be written. -/
theorem lines_eq_ok {d : Declarations} (h : ∀ p ∈ d.names, IsWritable p.1) :
    d.lines = .ok (d.functionLines ++ d.names.map fun p => nameText p.1 p.2) := by
  have hnames : d.names.mapM (fun p => nameLine p.1 p.2) =
      .ok (d.names.map fun p => nameText p.1 p.2) := by
    refine mapM_eq_ok_of_forall₂ ?_
    rw [List.forall₂_map_right_iff, List.forall₂_same]
    exact fun p hp => nameLine_eq_ok (h p hp) p.2
  rw [lines, hnames]
  rfl

/-- The lines only depend on what is declared. -/
theorem lines_eq_of_mem_iff {d d' : Declarations}
    (hfunctions : ∀ f, f ∈ d.functions ↔ f ∈ d'.functions) (hnames : d.names = d'.names) :
    d.lines = d'.lines := by
  have hlines : d.functionLines = d'.functionLines := by
    simp only [functionLines, hfunctions]
  rw [lines, lines, hnames, hlines]

end Declarations

/-! ## What is declared -/

/-- The lines that declare some conditions: first the fixed lines of the functions that are applied,
then one for each name with its signature, in ascending order of the names. -/
def IsDeclaredBy (conditions : List Expr) (lines : List String) : Prop :=
  ∃ (functions : List (MathFunction × String)) (names : List (String × Signature)),
    functions.Sublist Declarations.fixedLines ∧
      (∀ f ∈ Declarations.fixedLines, f ∈ functions ↔ Applies conditions f.1) ∧
      IsAscending names ∧ (∀ p, p ∈ names ↔ UsesName conditions p.1 p.2) ∧
      lines = functions.map (·.2) ++ names.map fun p => nameText p.1 p.2

namespace Declarations

theorem adds_of_collectAll {d : Declarations} (h : empty.collectAll conditions = (d, .ok ())) :
    Adds (conditions.flatMap Expr.uses) empty d :=
  adds_of_useAll (collectAll_eq empty conditions ▸ h)

theorem Adds.mem_functions_iff {d : Declarations} (h : Adds (conditions.flatMap Expr.uses) empty d)
    {f : MathFunction} : f ∈ d.functions ↔ Applies conditions f := by
  rw [h.functions, function_mem_uses_iff]
  exact or_iff_left List.not_mem_nil

theorem Adds.mem_names_iff {d : Declarations} (h : Adds (conditions.flatMap Expr.uses) empty d)
    {p : String × Signature} : p ∈ d.names ↔ UsesName conditions p.1 p.2 := by
  rw [h.names, name_mem_uses_iff]
  exact or_iff_left List.not_mem_nil

/-- Which conditions can be declared together. -/
theorem exists_collectAll_iff :
    (∃ d, empty.collectAll conditions = (d, .ok ())) ↔
      ArgumentsHaveSorts conditions ∧ SignaturesAgree conditions := by
  simp only [collectAll_eq, exists_useAll_iff, hasSignature_iff, name_mem_uses_iff]
  rfl

/-- The lines of everything that some conditions need. -/
theorem Adds.exists_lines {d : Declarations} (h : Adds (conditions.flatMap Expr.uses) empty d)
    (hnames : ∀ name, IsName conditions name → IsWritable name) :
    ∃ lines, d.lines = .ok lines ∧ IsDeclaredBy conditions lines := by
  have hwritable : ∀ p ∈ d.names, IsWritable p.1 := by
    intro p hp
    apply hnames
    exact (Script.mem_names_iff h).mp (List.mem_map_of_mem hp)
  refine ⟨_, lines_eq_ok hwritable, fixedLines.filter (·.1 ∈ d.functions), d.names,
    List.filter_sublist, ?_, h.ascending .nil, fun p => h.mem_names_iff, ?_⟩
  · intro f hf
    rw [List.mem_filter, and_iff_right hf, decide_eq_true_eq, h.mem_functions_iff]
  · rw [functionLines_eq]

/-- The same conditions need the same, whatever their order. -/
theorem Adds.lines_eq {others : List Expr} {d d' : Declarations}
    (h : Adds (conditions.flatMap Expr.uses) empty d)
    (h' : Adds (others.flatMap Expr.uses) empty d')
    (hsame : ∀ u, u ∈ others.flatMap Expr.uses ↔ u ∈ conditions.flatMap Expr.uses) :
    d'.lines = d.lines := by
  refine lines_eq_of_mem_iff (fun f => ?_) ?_
  · rw [h.functions, h'.functions, hsame]
  · refine (h'.ascending .nil).eq_of_mem_iff (h.ascending .nil) fun p => ?_
    rw [h.names, h'.names, hsame]

/-- Conditions can be declared together exactly if all arguments of uninterpreted functions have
sorts and no name has two signatures. They are declared by the lines of the functions that are
applied, and by one line for each name. Nothing depends on how often they come and in which
order. -/
theorem declares_exactly (conditions : List Expr) :
    ((∃ d, empty.collectAll conditions = (d, .ok ())) ↔
        ArgumentsHaveSorts conditions ∧ SignaturesAgree conditions) ∧
      (∀ d, empty.collectAll conditions = (d, .ok ()) →
        (∀ name, IsName conditions name → IsWritable name) →
          ∃ lines, d.lines = .ok lines ∧ IsDeclaredBy conditions lines) ∧
      ∀ others : List Expr, (∀ e, e ∈ others ↔ e ∈ conditions) →
        ((∃ d, empty.collectAll others = (d, .ok ())) ↔
            ∃ d, empty.collectAll conditions = (d, .ok ())) ∧
          ∀ d d', empty.collectAll conditions = (d, .ok ()) →
            empty.collectAll others = (d', .ok ()) → d'.lines = d.lines := by
  refine ⟨exists_collectAll_iff, fun d h hnames => (adds_of_collectAll h).exists_lines hnames, ?_⟩
  intro others hmem
  have hsame (u : Use) : u ∈ others.flatMap Expr.uses ↔ u ∈ conditions.flatMap Expr.uses := by
    simp only [List.mem_flatMap, hmem]
  refine ⟨?_, fun d d' h h' => (adds_of_collectAll h).lines_eq (adds_of_collectAll h') hsame⟩
  simp only [collectAll_eq, exists_useAll_iff, hsame]

/-- A power is declared before the names, and a name that is no word stands between bars. The same
name cannot be declared for a variable. -/
theorem declares_exactly_power :
    let power : Expr := .mk .pow (.var "x" .int) (.uif "f x" .real [.var "x" .int])
    (∃ d lines, empty.collectAll [power] = (d, .ok ()) ∧ d.lines = .ok lines ∧
        IsDeclaredBy [power] lines ∧ lines =
          ["(define-fun pow ((a Real) (b Real)) Real (^ a b))", "(declare-fun |f x| (Int) Real)",
            "(declare-fun x () Int)"]) ∧
      ¬∃ d, empty.collectAll [power, .var "f x" .real] = (d, .ok ()) := by
  intro power
  have hoccurs {x : Expr} {conditions : List Expr} (h : x.OccursIn conditions) :
      ∃ e ∈ conditions, x ∈ e.nodes := by
    obtain ⟨e, he, hx⟩ := h
    exact ⟨e, he, Expr.mem_nodes.mpr hx⟩
  constructor
  · have hcollected : empty.collectAll [power] = (_, .ok ()) := rfl
    obtain ⟨lines, hlines, hdeclared⟩ := (declares_exactly [power]).2.1 _ hcollected <| by
      rintro name ⟨x, hx, hname⟩
      have hx := hoccurs hx
      simp [power, Expr.mk, Expr.nodes, Expr.nodesOf] at hx
      rcases hx with rfl | rfl | rfl | rfl
      · cases hname
      · cases hname
        exact ⟨_, rfl⟩
      · cases hname
        exact ⟨_, rfl⟩
      · cases hname
        exact ⟨_, rfl⟩
    refine ⟨_, lines, hcollected, hlines, hdeclared, ?_⟩
    cases hlines
    decide
  · rw [(declares_exactly _).1]
    rintro ⟨-, hagree⟩
    have huif : UsesName [power, .var "f x" .real] "f x" ⟨[.int], .real⟩ :=
      ⟨_, ⟨power, by simp, .right .self⟩, .uif (.cons rfl .nil)⟩
    have hvar : UsesName [power, .var "f x" .real] "f x" ⟨[], .real⟩ :=
      ⟨_, ⟨_, by simp, .self⟩, .var _ _⟩
    cases hagree _ _ _ huif hvar

end Declarations

/-! ## Scripts -/

/-- Conditions are asserted if they can be declared together and each of them has a term. -/
theorem assertions?_eq_ok_iff {d d' : Declarations} {ts : List Term} :
    assertions? d conditions = .ok (d', ts) ↔ d.collectAll conditions = (d', .ok ()) ∧
      List.Forall₂ (fun e t => assertion e = .ok t) conditions ts := by
  constructor
  · intro h
    refine ⟨(d.collectAll_eq conditions).trans (useAll_of_assertions? h), ?_⟩
    induction conditions generalizing d ts with
    | nil =>
      cases h
      exact .nil
    | cons e es ih =>
      unfold assertions? at h
      obtain ⟨_, -, h⟩ := bind_eq_ok.mp h
      obtain ⟨t, ht, h⟩ := bind_eq_ok.mp h
      obtain ⟨⟨d'', ts'⟩, hts, h⟩ := bind_eq_ok.mp h
      cases h
      exact .cons ht (ih hts)
  · rintro ⟨hcollect, hterms⟩
    induction hterms generalizing d with
    | nil =>
      cases hcollect
      rfl
    | @cons e t es ts ht _ ih =>
      rw [Declarations.collectAll] at hcollect
      rw [assertions?]
      rcases hfirst : d.collect e with ⟨d₁, fault | _⟩
      · rw [hfirst] at hcollect
        cases hcollect
      · rw [hfirst] at hcollect
        refine bind_eq_ok.mpr ⟨(), rfl, bind_eq_ok.mpr ⟨t, ht, bind_eq_ok.mpr ⟨_, ih ?_, rfl⟩⟩⟩
        exact hcollect

/-- A script is made of conditions that can be declared together by lines, and have terms. -/
theorem exists_ofAssertions_iff {timeoutMs : UInt64} :
    (∃ script, ofAssertions conditions timeoutMs = .ok script) ↔
      (∃ d lines, Declarations.empty.collectAll conditions = (d, .ok ()) ∧ d.lines = .ok lines) ∧
        ∀ e ∈ conditions, ∃ t, assertion e = .ok t := by
  simp only [ofAssertions, ← exists_mapM_iff]
  constructor
  · rintro ⟨script, h⟩
    obtain ⟨⟨d, ts⟩, hts, h⟩ := bind_eq_ok.mp h
    obtain ⟨lines, hlines, -⟩ := bind_eq_ok.mp h
    obtain ⟨hcollect, hterms⟩ := assertions?_eq_ok_iff.mp hts
    exact ⟨⟨d, lines, hcollect, hlines⟩, ts, mapM_eq_ok_of_forall₂ hterms⟩
  · rintro ⟨⟨d, lines, hcollect, hlines⟩, ts, hterms⟩
    have hts := assertions?_eq_ok_iff.mpr ⟨hcollect, forall₂_of_mapM_eq_ok hterms⟩
    exact ⟨_, bind_eq_ok.mpr ⟨_, hts, bind_eq_ok.mpr ⟨lines, hlines, rfl⟩⟩⟩

/-- Conditions that need the same can be declared as well. -/
theorem exists_ofAssertions_of_uses {others : List Expr} {timeoutMs : UInt64}
    (h : ∃ script, ofAssertions conditions timeoutMs = .ok script)
    (hsame : ∀ u, u ∈ others.flatMap Expr.uses ↔ u ∈ conditions.flatMap Expr.uses)
    (hterms : ∀ e ∈ others, ∃ t, assertion e = .ok t) :
    ∃ script, ofAssertions others timeoutMs = .ok script := by
  obtain ⟨⟨d, lines, hcollect, hlines⟩, -⟩ := exists_ofAssertions_iff.mp h
  have huse := Declarations.collectAll_eq .empty conditions ▸ hcollect
  obtain ⟨d', hd'⟩ : ∃ d', Declarations.empty.useAll (others.flatMap Expr.uses) = (d', .ok ()) := by
    have hall := Declarations.exists_useAll_iff.mp ⟨d, huse⟩
    rw [Declarations.exists_useAll_iff]
    simpa only [hsame] using hall
  have hequal := (Declarations.adds_of_useAll huse).lines_eq (Declarations.adds_of_useAll hd') hsame
  refine exists_ofAssertions_iff.mpr ⟨⟨d', lines, ?_, hequal.trans hlines⟩, hterms⟩
  rw [Declarations.collectAll_eq]
  exact hd'

end Script

end Regression
