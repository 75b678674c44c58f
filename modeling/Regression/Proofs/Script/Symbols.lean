import Regression.Proofs.Script.Declarations
import Regression.Proofs.Sexpr.Escapes

/-!
# Symbols of scripts

What the symbols of a script stand for. A function with a definition of its own is introduced by a
line, and so is every name of a variable or of an uninterpreted function. Names are compared with
names only: nothing keeps them apart from the words that scripts use by themselves.

* `Script.introduced`: the symbols that the declaring lines introduce.
* `Script.fixedWords`: the words that terms are built with.
* `Script.nodup_introduced_iff`, `Script.eq_of_var_of_uif`: which symbols are introduced twice, and
  which stand for a variable and for an uninterpreted function.
* `Script.keepsApart_iff`: when every symbol stands for one thing.
-/

namespace Regression

open Script

/-! ## Introducing lines -/

namespace Sexpr

/-- The name that a token can be. -/
def Atom.name? : Atom → Option String
  | .symbol name | .reserved name => some name
  | _ => none

/-- The symbol that a command introduces. -/
def introduced? : Sexpr → Option String
  | .list (.atom (.reserved command) :: .atom name :: _) =>
    if command = "declare-fun" ∨ command = "define-fun" then name.name? else none
  | _ => none

theorem name?_wordAtom (w : String) : (wordAtom w).name? = some w := by
  unfold wordAtom
  split <;> rfl

end Sexpr

open Sexpr

namespace MathFunction

/-- A function that a script has to introduce. -/
def IsIntroduced (f : MathFunction) : Prop := f.declaration? ≠ none

instance (f : MathFunction) : Decidable f.IsIntroduced := inferInstanceAs (Decidable (_ ≠ _))

end MathFunction

namespace Script

/-- The symbol that a line of a script introduces. -/
def introducedBy? (line : String) : Option String :=
  match ofText? line with
  | some [x] => x.introduced?
  | _ => none

/-- The symbols that the declaring lines of a script introduce. -/
def introduced (s : Script) : List String := s.declarations.filterMap introducedBy?

theorem introducedBy?_of_readsAs {line : String} {x : Sexpr} (h : ReadsAs line x) :
    introducedBy? line = x.introduced? := by
  unfold introducedBy?
  rw [ofText?_of_readsAs h]

theorem filterMap_introducedBy? {lines : List String} {xs : List Sexpr} (h : AllRead lines xs) :
    lines.filterMap introducedBy? = xs.filterMap Sexpr.introduced? := by
  induction h with
  | nil => rfl
  | cons hline _ ih =>
    rw [List.filterMap_cons, List.filterMap_cons, introducedBy?_of_readsAs hline, ih]

theorem introduced?_declarationImage (name : String) (signature : Signature) :
    (declarationImage name signature).introduced? = some name := by
  unfold declarationImage nameImage
  split
  · exact name?_wordAtom name
  · rfl

theorem introduced?_declarationImage? (f : MathFunction) :
    f.declarationImage?.bind Sexpr.introduced? = if f.IsIntroduced then some f.name else none := by
  cases f <;> rfl

namespace Declarations

/-- The functions that are introduced by lines of their own. -/
def introducedFunctions (d : Declarations) : List MathFunction :=
  (MathFunction.all.filter (· ∈ d.functions)).filter fun f => f.IsIntroduced

theorem mem_introducedFunctions {d : Declarations} {f : MathFunction} :
    f ∈ d.introducedFunctions ↔ f ∈ d.functions ∧ f.IsIntroduced := by
  have hall : f ∈ MathFunction.all := by cases f <;> decide
  simp [introducedFunctions, hall, and_comm]

theorem nodup_introducedFunctions (d : Declarations) :
    (d.introducedFunctions.map MathFunction.name).Nodup := by
  have hall : (MathFunction.all.map MathFunction.name).Nodup := by decide
  exact hall.sublist (((List.filter_sublist).trans List.filter_sublist).map _)

theorem filterMap_declarationImage? (fs : List MathFunction) :
    (fs.filterMap MathFunction.declarationImage?).filterMap Sexpr.introduced? =
      (fs.filter fun f => f.IsIntroduced).map MathFunction.name := by
  rw [List.filterMap_filterMap]
  induction fs with
  | nil => rfl
  | cons f fs ih =>
    rw [List.filterMap_cons, introduced?_declarationImage?, ih, List.filter_cons]
    by_cases hf : f.IsIntroduced
    · rw [if_pos hf, if_pos (decide_eq_true hf)]
      rfl
    · rw [if_neg hf, if_neg (by simpa using hf)]

/-- The declaring lines introduce the functions first, and then the names. -/
theorem filterMap_images (d : Declarations) :
    d.images.filterMap Sexpr.introduced? =
      d.introducedFunctions.map MathFunction.name ++ d.names.map (·.1) := by
  have hnames : (d.names.map fun p => declarationImage p.1 p.2).filterMap Sexpr.introduced? =
      d.names.map (·.1) := by
    rw [List.filterMap_map, ← List.filterMap_eq_map]
    congr 1
    funext p
    exact introduced?_declarationImage p.1 p.2
  rw [images, List.filterMap_append, filterMap_declarationImage?]
  exact congrArg (_ ++ ·) hnames

end Declarations

/-! ## The symbols of a script -/

/-- The words that terms and the definitions of functions are built with. -/
def fixedWords : List String :=
  ["true", "false", "not", "to_real", "^"] ++ MathFunction.all.map MathFunction.name ++
    Operator.all.flatMap fun op => [(op.form false).word, (op.form true).word]

end Script

namespace Expr

/-- An expression is a node of some conditions. -/
def OccursIn (x : Expr) (conditions : List Expr) : Prop := ∃ e ∈ conditions, x.Occurs e

/-- The name that a node has by itself. -/
def ownName? : Expr → Option String
  | .var x _ => some x
  | .uif f _ _ => some f
  | _ => none

end Expr

namespace Script

section

variable (conditions : List Expr)

/-- A variable or an uninterpreted function of some conditions. -/
def IsName (name : String) : Prop := ∃ x : Expr, x.OccursIn conditions ∧ x.ownName? = some name

/-- A function that some conditions call; `**` calls `pow`. -/
def Calls (f : MathFunction) : Prop :=
  ∃ x : Expr, x.OccursIn conditions ∧ x.ownUse? = some (.function f)

end

variable {conditions : List Expr} {timeoutMs : UInt64} {script : Script}

theorem mem_flatMap_uses {u : Use} :
    u ∈ conditions.flatMap Expr.uses ↔
      ∃ x : Expr, x.OccursIn conditions ∧ x.ownUse? = some u := by
  simp only [List.mem_flatMap, Expr.mem_uses, Expr.OccursIn]
  constructor
  · rintro ⟨e, he, x, hx, hu⟩
    exact ⟨x, ⟨e, he, hx⟩, hu⟩
  · rintro ⟨x, ⟨e, he, hx⟩, hu⟩
    exact ⟨e, he, x, hx, hu⟩

theorem ownName?_eq_some_iff {x : Expr} {name : String} :
    x.ownName? = some name ↔ ∃ r, x.ownUse? = some (.name name r) := by
  cases x with
  | binary op l r location => by_cases hpow : op = .pow <;> simp [Expr.ownName?, Expr.ownUse?, hpow]
  | _ => simp [Expr.ownName?, Expr.ownUse?]

theorem isName_iff {name : String} :
    IsName conditions name ↔ ∃ r, .name name r ∈ conditions.flatMap Expr.uses := by
  simp only [IsName, ownName?_eq_some_iff, mem_flatMap_uses]
  constructor
  · rintro ⟨x, hx, r, hr⟩
    exact ⟨r, x, hx, hr⟩
  · rintro ⟨r, x, hx, hr⟩
    exact ⟨x, hx, r, hr⟩

/-- What a script declares, and which symbols its declaring lines introduce. -/
theorem exists_adds (h : ofAssertions conditions timeoutMs = .ok script) :
    ∃ d, Declarations.Adds (conditions.flatMap Expr.uses) .empty d ∧
      script.introduced = d.introducedFunctions.map MathFunction.name ++ d.names.map (·.1) := by
  unfold ofAssertions at h
  obtain ⟨⟨d, ts⟩, hts, h⟩ := bind_eq_ok.mp h
  obtain ⟨lines, hlines, h⟩ := bind_eq_ok.mp h
  cases h
  refine ⟨d, Declarations.adds_of_useAll (useAll_of_assertions? hts), ?_⟩
  rw [← d.filterMap_images]
  exact filterMap_introducedBy? (Declarations.allRead_lines hlines)

section

variable {d : Declarations}

theorem mem_names_iff (h : Declarations.Adds (conditions.flatMap Expr.uses) .empty d)
    {name : String} : name ∈ d.names.map (·.1) ↔ IsName conditions name := by
  rw [isName_iff, List.mem_map]
  constructor
  · rintro ⟨p, hp, rfl⟩
    exact ⟨_, ((h.names p).mp hp).resolve_right List.not_mem_nil⟩
  · rintro ⟨r, hr⟩
    obtain ⟨signature, rfl⟩ := h.hasSignature name r hr
    exact ⟨(name, signature), (h.names _).mpr (.inl hr), rfl⟩

theorem mem_introducedFunctions_iff (h : Declarations.Adds (conditions.flatMap Expr.uses) .empty d)
    {f : MathFunction} :
    f ∈ d.introducedFunctions ↔ Calls conditions f ∧ f.IsIntroduced := by
  rw [Declarations.mem_introducedFunctions, h.functions, mem_flatMap_uses]
  exact and_congr_left' (or_iff_left List.not_mem_nil)

/-- The uses of a name agree on its signature. -/
theorem signature_eq (h : Declarations.Adds (conditions.flatMap Expr.uses) .empty d)
    {name : String} {r r' : Except Malformed Signature}
    (hr : .name name r ∈ conditions.flatMap Expr.uses)
    (hr' : .name name r' ∈ conditions.flatMap Expr.uses) : r = r' := by
  obtain ⟨signature, rfl⟩ := h.hasSignature name r hr
  obtain ⟨signature', rfl⟩ := h.hasSignature name r' hr'
  have hascending : IsAscending d.names := h.ascending .nil
  rw [hascending.signature_unique ((h.names (name, signature)).mpr (.inl hr))
    ((h.names (name, signature')).mpr (.inl hr'))]

end

/-- A name is introduced a second time exactly if it is the name of a function that is
introduced. -/
theorem nodup_introduced_iff (h : ofAssertions conditions timeoutMs = .ok script) :
    script.introduced.Nodup ↔
      ∀ f, Calls conditions f → f.IsIntroduced → ¬IsName conditions f.name := by
  obtain ⟨d, hadds, hintroduced⟩ := exists_adds h
  have hascending : IsAscending d.names := hadds.ascending .nil
  rw [hintroduced, List.nodup_append']
  constructor
  · rintro ⟨-, -, hdisjoint⟩ f hf hint hname
    exact hdisjoint (List.mem_map_of_mem ((mem_introducedFunctions_iff hadds).mpr ⟨hf, hint⟩))
      ((mem_names_iff hadds).mpr hname)
  · intro hapart
    refine ⟨d.nodup_introducedFunctions, hascending.nodup, ?_⟩
    intro w hw hname
    obtain ⟨f, hf, rfl⟩ := List.mem_map.mp hw
    obtain ⟨hf, hint⟩ := (mem_introducedFunctions_iff hadds).mp hf
    exact hapart f hf hint ((mem_names_iff hadds).mp hname)

/-- The symbols that are introduced are the names and the functions with lines of their own. -/
theorem mem_introduced_iff (h : ofAssertions conditions timeoutMs = .ok script) {w : String} :
    w ∈ script.introduced ↔
      (∃ f, (Calls conditions f ∧ f.IsIntroduced) ∧ f.name = w) ∨ IsName conditions w := by
  obtain ⟨d, hadds, hintroduced⟩ := exists_adds h
  rw [hintroduced, List.mem_append, mem_names_iff hadds, List.mem_map]
  simp only [mem_introducedFunctions_iff hadds]

/-- A name stands for a variable and for an uninterpreted function at once only if this is a
constant of the same sort. -/
theorem eq_of_var_of_uif (h : ofAssertions conditions timeoutMs = .ok script) {name : String}
    {s s' : ValueSort} {args : List Expr} (hvar : (Expr.var name s).OccursIn conditions)
    (huif : (Expr.uif name s' args).OccursIn conditions) : s' = s ∧ args = [] := by
  obtain ⟨d, hadds, -⟩ := exists_adds h
  have heq := signature_eq hadds (mem_flatMap_uses.mpr ⟨_, hvar, rfl⟩)
    (mem_flatMap_uses.mpr ⟨_, huif, rfl⟩)
  obtain ⟨params, hparams, hsignature⟩ := exists_of_map_eq_ok heq.symm
  cases hsignature
  cases forall₂_of_mapM_eq_ok hparams
  exact ⟨rfl, rfl⟩

/-! ## The symbols of a term -/

end Script

/-- All symbols of an expression have a property. -/
inductive Sexpr.AllSymbols (P : String → Prop) : Sexpr → Prop
  | atom {a : Atom} (h : ∀ name ∈ a.name?, P name) : AllSymbols P (.atom a)
  | list {items : List Sexpr} (h : ∀ x ∈ items, AllSymbols P x) : AllSymbols P (.list items)

section

variable {P : String → Prop}

namespace Sexpr

theorem allSymbols_word {w : String} (h : P w) : (word w).AllSymbols P := by
  refine .atom fun name hname => ?_
  rw [name?_wordAtom] at hname
  cases hname
  exact h

theorem allSymbols_apply {head : String} {args : List Sexpr} (hhead : P head)
    (hargs : ∀ x ∈ args, x.AllSymbols P) : (apply head args).AllSymbols P :=
  .list (List.forall_mem_cons.mpr ⟨allSymbols_word hhead, hargs⟩)

end Sexpr

namespace Script

theorem allSymbols_nameImage {name : String} (h : P name) : (nameImage name).AllSymbols P := by
  unfold nameImage
  split
  · exact allSymbols_word h
  · refine .atom fun name' hname => ?_
    cases hname
    exact h

theorem form_word_mem_fixedWords (op : Operator) (isReal : Bool) :
    (op.form isReal).word ∈ fixedWords := by
  cases isReal <;> cases op <;> decide

theorem name_mem_fixedWords (f : MathFunction) : f.name ∈ fixedWords := by
  cases f <;> decide

end Script

theorem Constant.allSymbols_image (hfixed : ∀ w ∈ fixedWords, P w) (v : Constant) :
    v.image.AllSymbols P := by
  have hsigned (isNegative : Bool) {size : Atom} (hsize : size.name? = none) :
      (signedImage isNegative size).AllSymbols P := by
    have hatom : (Sexpr.atom size).AllSymbols P := .atom fun name hname => by
      rw [hsize] at hname
      cases hname
    unfold signedImage
    split
    · exact allSymbols_apply (hfixed "-" (by decide)) (List.forall_mem_singleton.mpr hatom)
    · exact hatom
  cases v with
  | int v => exact hsigned _ rfl
  | real v => exact hsigned _ rfl
  | bool v => cases v <;> exact allSymbols_word (hfixed _ (by decide))
  | string v => exact .atom fun name hname => by cases hname

theorem Operator.Form.allSymbols_image {f : Form} (hword : P f.word) (hnot : P "not") {l r : Sexpr}
    (hl : l.AllSymbols P) (hr : r.AllSymbols P) : (f.image l r).AllSymbols P := by
  have hnode : (Sexpr.apply f.word (if f.isSwapped then [r, l] else [l, r])).AllSymbols P := by
    refine allSymbols_apply hword ?_
    split <;> simp [hl, hr]
  unfold Form.image
  cases f.isNegated with
  | true => exact allSymbols_apply hnot (List.forall_mem_singleton.mpr hnode)
  | false => exact hnode

namespace Expr

theorem allSymbols_lifted (hlift : P "to_real") (e : Expr) (isReal : Bool) {x : Sexpr}
    (hx : x.AllSymbols P) : (e.lifted isReal x).AllSymbols P := by
  unfold lifted
  split
  · exact allSymbols_apply hlift (List.forall_mem_singleton.mpr hx)
  · exact hx

mutual

/-- A term has no symbols but fixed words and the names that occur. -/
theorem allSymbols_image (hfixed : ∀ w ∈ fixedWords, P w) : ∀ {e : Expr},
    (∀ x : Expr, x.Occurs e → ∀ name, x.ownName? = some name → P name) → e.image.AllSymbols P
  | .const v, _ => by
    rw [image]
    exact v.allSymbols_image hfixed
  | .var x s, h => by
    rw [image]
    exact allSymbols_nameImage (h _ .self x rfl)
  | .binary op l r location, h => by
    have hlift : P "to_real" := hfixed _ (by decide)
    have hl := allSymbols_image hfixed fun x hx => h x (.left hx)
    have hr := allSymbols_image hfixed fun x hx => h x (.right hx)
    rw [image]
    exact Operator.Form.allSymbols_image (hfixed _ (form_word_mem_fixedWords op _))
      (hfixed _ (by decide)) (allSymbols_lifted hlift l _ hl) (allSymbols_lifted hlift r _ hr)
  | .uif f s [], h => by
    rw [image]
    exact allSymbols_nameImage (h _ .self f rfl)
  | .uif f s (e :: es), h => by
    rw [image]
    refine .list (List.forall_mem_cons.mpr ⟨allSymbols_nameImage (h _ .self f rfl), ?_⟩)
    exact allSymbols_images hfixed fun e' he x hx => h x (.uifArg he hx)
  | .math f args, h => by
    rw [image]
    refine allSymbols_apply (hfixed _ (name_mem_fixedWords f)) ?_
    exact allSymbols_realImages hfixed fun e he x hx => h x (.mathArg he hx)

theorem allSymbols_images (hfixed : ∀ w ∈ fixedWords, P w) : ∀ {es : List Expr},
    (∀ e ∈ es, ∀ x : Expr, x.Occurs e → ∀ name, x.ownName? = some name → P name) →
      ∀ y ∈ images es, y.AllSymbols P
  | [], _ => fun _ hy => by cases hy
  | e :: es, h => by
    obtain ⟨he, hes⟩ := List.forall_mem_cons.mp h
    exact List.forall_mem_cons.mpr ⟨allSymbols_image hfixed he, allSymbols_images hfixed hes⟩

theorem allSymbols_realImages (hfixed : ∀ w ∈ fixedWords, P w) : ∀ {es : List Expr},
    (∀ e ∈ es, ∀ x : Expr, x.Occurs e → ∀ name, x.ownName? = some name → P name) →
      ∀ y ∈ realImages es, y.AllSymbols P
  | [], _ => fun _ hy => by cases hy
  | e :: es, h => by
    obtain ⟨he, hes⟩ := List.forall_mem_cons.mp h
    exact List.forall_mem_cons.mpr ⟨allSymbols_lifted (hfixed _ (by decide)) e true
      (allSymbols_image hfixed he), allSymbols_realImages hfixed hes⟩

end

end Expr

end

namespace Script

/-! ## Symbols that are kept apart -/

variable {conditions : List Expr} {timeoutMs : UInt64} {script : Script}

/-- Every symbol stands for one thing: none is introduced twice, fixed words are introduced as the
functions that they are, and no name is that of a variable and of an uninterpreted function. -/
structure KeepsApart (conditions : List Expr) (script : Script) : Prop where
  nodup : script.introduced.Nodup
  fixed : ∀ w ∈ script.introduced, w ∈ fixedWords →
    ∃ f, (Calls conditions f ∧ f.IsIntroduced) ∧ f.name = w
  single : ∀ name s s' args, (Expr.var name s).OccursIn conditions →
    ¬(Expr.uif name s' args).OccursIn conditions

/-- The symbols of the assertions are fixed words or introduced by a line. They are kept apart
exactly if no name is a fixed word, and no uninterpreted constant has the name and the sort of a
variable. -/
theorem keepsApart_iff (h : ofAssertions conditions timeoutMs = .ok script) :
    (∀ e ∈ conditions, e.image.AllSymbols fun w => w ∈ fixedWords ∨ w ∈ script.introduced) ∧
      (KeepsApart conditions script ↔
        (∀ name, IsName conditions name → name ∉ fixedWords) ∧
          ∀ name s, (Expr.var name s).OccursIn conditions →
            ¬(Expr.uif name s []).OccursIn conditions) := by
  refine ⟨fun e he => ?_, fun hapart => ⟨?_, ?_⟩, ?_⟩
  · refine Expr.allSymbols_image (fun w hw => .inl hw) fun x hx name hname => .inr ?_
    exact (mem_introduced_iff h).mpr (.inr ⟨x, ⟨e, he, hx⟩, hname⟩)
  · intro name hname hmem
    obtain ⟨f, ⟨hf, hint⟩, rfl⟩ :=
      hapart.fixed name ((mem_introduced_iff h).mpr (.inr hname)) hmem
    exact (nodup_introduced_iff h).mp hapart.nodup f hf hint hname
  · exact fun name s => hapart.single name s s []
  · rintro ⟨hfixed, hconstants⟩
    refine ⟨?_, ?_, ?_⟩
    · refine (nodup_introduced_iff h).mpr fun f _ _ hname => ?_
      exact hfixed f.name hname (name_mem_fixedWords f)
    · intro w hw hmem
      exact ((mem_introduced_iff h).mp hw).resolve_right fun hname => hfixed w hname hmem
    · intro name s s' args hvar huif
      obtain ⟨rfl, rfl⟩ := eq_of_var_of_uif h hvar huif
      exact hconstants name s' hvar huif

/-- A variable with the name of a function that is defined. -/
theorem not_keepsApart_pow :
    let condition : Expr := .mk .lt (.mk .pow (.var "pow" .int) (.int 2)) (.int 9)
    ∃ script, ofAssertions [condition] 1000 = .ok script ∧ script.introduced = ["pow", "pow"] ∧
      ¬∀ name, IsName [condition] name → name ∉ fixedWords := by
  intro condition
  have hscript : ofAssertions [condition] 1000 = .ok _ := rfl
  have hsingle : ∀ name s, (Expr.var name s).OccursIn [condition] →
      ¬(Expr.uif name s []).OccursIn [condition] := by
    rintro name s - ⟨e, he, huif⟩
    rw [List.mem_singleton.mp he] at huif
    have hmem := Expr.mem_nodes.mpr huif
    simp [condition, Expr.mk, Expr.int, Expr.nodes] at hmem
  refine ⟨_, hscript, rfl, fun hfixed => ?_⟩
  have hapart := (keepsApart_iff hscript).2.mpr ⟨hfixed, hsingle⟩
  exact absurd hapart.nodup (by decide)

end Script

end Regression
