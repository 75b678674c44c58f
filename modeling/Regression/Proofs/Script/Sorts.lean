import Regression.Proofs.Script.Declarations

/-!
# Sorts of terms

The sort of a term, told from its tree and the declarations alone: every operator of the script
language takes operands of certain sorts, and a declared function takes those of its signature.
Against it stand the two recursions over expressions, which infer sorts and render terms.

* `Sexpr.HasSort`: a tree has a sort.
* `Script.Term.Renders.hasRank`: the operands of a rendered node have the sorts that its word
  takes.
* `Expr.hasSort_image`: a term has the sort that is inferred for its expression.
* `Expr.exists_term_iff`: an expression has a term exactly if none of its nodes is refused.
* `Expr.sorted_and_accepted_iff`: both together, with the declarations that the expression needs.
-/

namespace Regression

open Script

/-! ## Sorts of trees -/

namespace Sexpr

/-- The operand sorts and the result sort of a word of the script language. -/
inductive Rank : String → List ValueSort → ValueSort → Prop
  | equality (s : ValueSort) : Rank "=" [s, s] .bool
  | order {w : String} {s : ValueSort} (word : w ∈ ["<", "<=", ">", ">="])
    (numeric : s.isNumeric = true) : Rank w [s, s] .bool
  | arithmetic {w : String} {s : ValueSort} (word : w ∈ ["+", "-", "*"])
    (numeric : s.isNumeric = true) : Rank w [s, s] s
  | minus {s : ValueSort} (numeric : s.isNumeric = true) : Rank "-" [s] s
  | onInts {w : String} (word : w ∈ ["div", "mod"]) : Rank w [.int, .int] .int
  | onReals : Rank "/" [.real, .real] .real
  | toReal : Rank "to_real" [.int] .real
  | connective {w : String} (word : w ∈ ["and", "or", "xor"]) : Rank w [.bool, .bool] .bool
  | negation : Rank "not" [.bool] .bool
  | onStrings {w : String} (word : w ∈ ["str.prefixof", "str.suffixof", "str.contains"]) :
    Rank w [.string, .string] .bool
  | function (f : MathFunction) : Rank f.name (List.replicate f.arity .real) .real

/-- A tree has a sort, where names have the given signatures. -/
inductive HasSort (Γ : String → Signature → Prop) : Sexpr → ValueSort → Prop
  | numeral (n : Nat) : HasSort Γ (.atom (.numeral n)) .int
  | decimal (whole fraction : List Char) : HasSort Γ (.atom (.decimal whole fraction)) .real
  | string (value : List Char) : HasSort Γ (.atom (.string value)) .string
  | truth (value : Bool) : HasSort Γ (.word (if value then "true" else "false")) .bool
  | name {x : String} {s : ValueSort} (declared : Γ x ⟨[], s⟩) : HasSort Γ (nameImage x) s
  | operation {w : String} {args : List Sexpr} {sorts : List ValueSort} {s : ValueSort}
    (rank : Rank w sorts s) (sorted : List.Forall₂ (HasSort Γ) args sorts) :
    HasSort Γ (.apply w args) s
  | call {f : String} {args : List Sexpr} {sorts : List ValueSort} {s : ValueSort}
    (declared : Γ f ⟨sorts, s⟩) (nonempty : args ≠ [])
    (sorted : List.Forall₂ (HasSort Γ) args sorts) : HasSort Γ (.list (nameImage f :: args)) s

end Sexpr

open Sexpr

variable {Γ : String → Signature → Prop}

/-! ## Constants -/

theorem Script.hasSort_signedImage {size : Atom} {s : ValueSort} (hs : s.isNumeric = true)
    (hsize : (Sexpr.atom size).HasSort Γ s) (isNegative : Bool) :
    (signedImage isNegative size).HasSort Γ s := by
  unfold signedImage
  cases isNegative with
  | true => exact .operation (.minus hs) (.cons hsize .nil)
  | false => exact hsize

theorem Constant.hasSort_image (v : Constant) : v.image.HasSort Γ v.sort := by
  cases v with
  | int v => exact hasSort_signedImage rfl (.numeral _) _
  | real v => exact hasSort_signedImage rfl (.decimal _ _) _
  | bool v => exact .truth v
  | string v => exact .string _

/-! ## Operators -/

namespace ValueSort

/-- The sort of an operand, lifted where operands are combined as reals. -/
def lifted (s : ValueSort) (isReal : Bool) : ValueSort :=
  if isReal && s = .int then .real else s

theorem lifted_of_ne_int {s : ValueSort} (h : s ≠ .int) (isReal : Bool) : s.lifted isReal = s := by
  unfold lifted
  rw [decide_eq_false h, Bool.and_false, if_neg Bool.false_ne_true]

theorem lifted_of_isNumeric {s : ValueSort} (h : s.isNumeric = true) : s.lifted true = .real := by
  cases s with
  | int | real => rfl
  | _ => cases h

end ValueSort

namespace Operator

/-- A form fits operands of some sorts, and the node has a sort. -/
def Form.HasRank (f : Form) (ls rs s : ValueSort) : Prop :=
  Rank f.word (if f.isSwapped then [rs, ls] else [ls, rs]) s ∧ (f.isNegated = true → s = .bool)

theorem Form.hasSort_image {f : Form} {ls rs s : ValueSort} (hrank : f.HasRank ls rs s)
    {l r : Sexpr} (hl : l.HasSort Γ ls) (hr : r.HasSort Γ rs) : (f.image l r).HasSort Γ s := by
  obtain ⟨hrank, hnegated⟩ := hrank
  have hnode : (Sexpr.apply f.word (if f.isSwapped then [r, l] else [l, r])).HasSort Γ s := by
    apply HasSort.operation hrank
    cases f.isSwapped with
    | true => exact .cons hr (.cons hl .nil)
    | false => exact .cons hl (.cons hr .nil)
  unfold Form.image
  cases hf : f.isNegated with
  | true =>
    obtain rfl := hnegated hf
    exact .operation .negation (.cons hnode .nil)
  | false => exact hnode

variable {op : Operator}

theorem hasRank_equality (hop : op = .eq ∨ op = .ne) (isReal : Bool) (s : ValueSort) :
    (op.form isReal).HasRank s s .bool := by
  rcases hop with rfl | rfl
  · exact ⟨.equality s, fun _ => rfl⟩
  · exact ⟨.equality s, fun _ => rfl⟩

theorem hasRank_comparison (hop : op.kind = .comparison) (isReal : Bool) {s : ValueSort}
    (hs : s.isNumeric = true) : (op.form isReal).HasRank s s .bool := by
  cases op with
  | eq => exact hasRank_equality (.inl rfl) isReal s
  | ne => exact hasRank_equality (.inr rfl) isReal s
  | lt | le | gt | ge => exact ⟨.order (by cases isReal <;> decide) hs, fun _ => rfl⟩
  | _ => cases hop

theorem hasRank_arithmetic {isReal : Bool} {head : String}
    (h : Term.arithmeticWord? op (if isReal then .real else .int) = some head) :
    (op.form isReal).HasRank (if isReal then .real else .int) (if isReal then .real else .int)
      (if isReal then .real else .int) := by
  cases isReal with
  | true =>
    cases op with
    | add | sub | mul => exact ⟨.arithmetic (by decide) rfl, nofun⟩
    | div => exact ⟨.onReals, nofun⟩
    | _ => cases h
  | false =>
    cases op with
    | add | sub | mul => exact ⟨.arithmetic (by decide) rfl, nofun⟩
    | div | mod => exact ⟨.onInts (by decide), nofun⟩
    | _ => cases h

theorem hasRank_boolean (hop : op.kind = .boolean) (isReal : Bool) :
    (op.form isReal).HasRank .bool .bool .bool := by
  cases op with
  | and | or | xor => exact ⟨.connective (by cases isReal <;> decide), nofun⟩
  | _ => cases hop

theorem hasRank_stringPredicate (hop : op.kind = .stringPredicate) (isReal : Bool) :
    (op.form isReal).HasRank .string .string .bool := by
  cases op with
  | equals | notEquals => exact ⟨.equality .string, fun _ => rfl⟩
  | startsWith | notStartsWith | endsWith | notEndsWith | contains | notContains =>
    exact ⟨.onStrings (by cases isReal <;> decide), fun _ => rfl⟩
  | _ => cases hop

end Operator

namespace Script.Term

theorem lifted_eq_widen {op : Operator} (hop : op ≠ .pow) {ls rs : ValueSort}
    (hl : ls.isNumeric = true) (hr : rs.isNumeric = true) :
    ls.lifted (isReal op ls rs) = ls.widen rs ∧ rs.lifted (isReal op ls rs) = ls.widen rs := by
  rw [widen_eq hop]
  unfold isReal ValueSort.lifted
  rw [decide_eq_false hop]
  cases ls with
  | int | real =>
    cases rs with
    | int | real => exact ⟨rfl, rfl⟩
    | _ => cases hr
  | _ => cases hl

/-- The operands of a rendered node have the sorts that its word takes. -/
theorem Renders.hasRank {op : Operator} {l r t : Term} {ls rs s : ValueSort}
    (h : Renders op l r ls rs t s) :
    (op.form (isReal op ls rs)).HasRank (ls.lifted (isReal op ls rs))
      (rs.lifted (isReal op ls rs)) s := by
  cases h with
  | numbers kind left right =>
    have hlifted := lifted_eq_widen (ne_pow_of_comparison kind) left right
    rw [hlifted.1, hlifted.2]
    exact Operator.hasRank_comparison kind _ (by unfold ValueSort.widen; split <;> rfl)
  | alike equality => exact Operator.hasRank_equality equality _ _
  | power power left right =>
    subst power
    show Operator.Form.HasRank _ (ls.lifted true) (rs.lifted true) .real
    rw [ValueSort.lifted_of_isNumeric left, ValueSort.lifted_of_isNumeric right]
    exact ⟨.function .pow, nofun⟩
  | arithmetic _ other left right word =>
    have hlifted := lifted_eq_widen other left right
    rw [hlifted.1, hlifted.2]
    rw [widen_eq other] at word ⊢
    exact Operator.hasRank_arithmetic word
  | boolean kind =>
    rw [ValueSort.lifted_of_ne_int (by decide : ValueSort.bool ≠ .int)]
    exact Operator.hasRank_boolean kind _
  | stringPredicate kind =>
    rw [ValueSort.lifted_of_ne_int (by decide : ValueSort.string ≠ .int)]
    exact Operator.hasRank_stringPredicate kind _

theorem exists_arithmeticWord {op : Operator} (hkind : op.kind = .arithmetic) (hpow : op ≠ .pow)
    {ls rs : ValueSort} (hmod : op = .mod → ls ≠ .real ∧ rs ≠ .real) :
    ∃ head, arithmeticWord? op (ls.widen rs) = some head := by
  cases op with
  | add | sub | mul => exact ⟨_, rfl⟩
  | div =>
    unfold ValueSort.widen
    split
    · exact ⟨"/", rfl⟩
    · exact ⟨"div", rfl⟩
  | pow => exact absurd rfl hpow
  | mod =>
    obtain ⟨hl, hr⟩ := hmod rfl
    have hwide : ls.widen rs = .int := if_neg fun h => h.elim hl hr
    rw [hwide]
    exact ⟨"mod", rfl⟩
  | _ => cases hkind

/-- A node is rendered whenever it has a sort, apart from bitwise operators on integers and from
remainders of reals. -/
theorem exists_renders {op : Operator} {ls rs s : ValueSort} (h : op.resultSort ls rs = .ok s)
    (hbitwise : ¬(op.kind = .boolean ∧ ls = .int ∧ rs = .int))
    (hmod : op = .mod → ls ≠ .real ∧ rs ≠ .real) (l r : Term) : ∃ t, Renders op l r ls rs t s := by
  unfold Operator.resultSort at h
  cases hkind : op.kind with
  | comparison =>
    simp only [hkind] at h
    obtain ⟨hsorts, rfl⟩ := of_ite_eq_ok h
    by_cases hnumeric : (ls.isNumeric && rs.isNumeric) = true
    · obtain ⟨hl, hr⟩ := Bool.and_eq_true_iff.mp hnumeric
      exact ⟨_, .numbers hkind hl hr⟩
    · obtain ⟨rfl, hequality⟩ : ls = rs ∧ (op = .eq ∨ op = .ne) := by
        simpa using (Bool.or_eq_true_iff.mp hsorts).resolve_left hnumeric
      exact ⟨_, .alike hequality (by simpa using hnumeric)⟩
  | arithmetic =>
    simp only [hkind] at h
    obtain ⟨hnumeric, rfl⟩ := of_ite_eq_ok h
    obtain ⟨hl, hr⟩ := Bool.and_eq_true_iff.mp hnumeric
    by_cases hpow : op = .pow
    · rw [if_pos hpow]
      exact ⟨_, .power hpow hl hr⟩
    · rw [if_neg hpow]
      obtain ⟨head, hhead⟩ := exists_arithmeticWord hkind hpow hmod
      exact ⟨_, .arithmetic hkind hpow hl hr hhead⟩
  | boolean =>
    simp only [hkind] at h
    split at h
    · cases h
      exact ⟨_, .boolean hkind⟩
    · exact absurd ⟨hkind, rfl, rfl⟩ hbitwise
    · cases h
  | stringPredicate =>
    simp only [hkind] at h
    obtain ⟨hstrings, rfl⟩ := of_ite_eq_ok h
    obtain ⟨rfl, rfl⟩ : ls = .string ∧ rs = .string := by simpa using hstrings
    exact ⟨_, .stringPredicate hkind⟩

theorem Renders.not_bitwise {op : Operator} {l r t : Term} {ls rs s : ValueSort}
    (h : Renders op l r ls rs t s) : ¬(op.kind = .boolean ∧ ls = .int ∧ rs = .int) := by
  rintro ⟨hkind, rfl, rfl⟩
  cases h with
  | numbers kind => cases kind.symm.trans hkind
  | alike _ other => cases other
  | power power =>
    subst power
    cases hkind
  | arithmetic kind => cases kind.symm.trans hkind

theorem Renders.not_real_of_mod {l r t : Term} {ls rs s : ValueSort}
    (h : Renders .mod l r ls rs t s) : ls ≠ .real ∧ rs ≠ .real := by
  cases h with
  | numbers kind | boolean kind | stringPredicate kind => cases kind
  | alike equality => rcases equality with h | h <;> cases h
  | power power => cases power
  | arithmetic _ _ _ _ word =>
    refine not_or.mp fun hreal => ?_
    rw [ValueSort.widen, if_pos hreal] at word
    cases word

end Script.Term

/-! ## Expressions -/

namespace Expr

/-- The signature of a node with a name is a known one. -/
def HasSignature (Γ : String → Signature → Prop) (x : Expr) : Prop :=
  ∀ name signature, x.ownUse? = some (.name name (.ok signature)) → Γ name signature

theorem hasSort_lifted {e : Expr} {s : ValueSort} (hs : e.sort? = .ok s) {x : Sexpr}
    (hx : x.HasSort Γ s) (isReal : Bool) : (e.lifted isReal x).HasSort Γ (s.lifted isReal) := by
  unfold lifted ValueSort.lifted
  rw [hasSort_of_sort? hs]
  split
  · next hint =>
    obtain ⟨-, rfl⟩ : isReal = true ∧ s = .int := by simpa using hint
    exact .operation .toReal (.cons hx .nil)
  · exact hx

theorem sorts?_of_terms {es : List Expr} {ts : List (Term × ValueSort)}
    (h : terms es = .ok ts) : sorts? es = .ok (ts.map (·.2)) := by
  induction es generalizing ts with
  | nil =>
    cases h
    rfl
  | cons e es ih =>
    rw [terms] at h
    obtain ⟨⟨t, s⟩, ht, h⟩ := bind_eq_ok.mp h
    obtain ⟨ts', hts, h⟩ := bind_eq_ok.mp h
    cases h
    have hrest := ih hts
    unfold sorts? at hrest ⊢
    rw [List.mapM_cons, sort?_of_term ht, hrest]
    rfl

/-- Arguments that are numbers are reals once they are lifted. -/
theorem lifted_of_numericArgs {f : MathFunction} : ∀ {es : List Expr}
    {ts : List (Term × ValueSort)}, numericArgs f es = .ok () → terms es = .ok ts →
      ts.map (fun t => t.2.lifted true) = List.replicate es.length .real
  | [], ts, _, h => by
    cases h
    rfl
  | e :: es, ts, hnumeric, h => by
    rw [terms] at h
    obtain ⟨⟨t, s⟩, ht, h⟩ := bind_eq_ok.mp h
    obtain ⟨ts', hts, h⟩ := bind_eq_ok.mp h
    cases h
    rw [numericArgs, sort?_of_term ht] at hnumeric
    obtain ⟨s', hs, hnumeric⟩ := bind_eq_ok.mp hnumeric
    cases hs
    split at hnumeric
    · next hs =>
      rw [List.map_cons, ValueSort.lifted_of_isNumeric hs, lifted_of_numericArgs hnumeric hts]
      rfl
    · cases hnumeric

theorem arity_of_sort? {f : MathFunction} {args : List Expr} {s : ValueSort}
    (h : (Expr.math f args).sort? = .ok s) :
    args.length = f.arity ∧ numericArgs f args = .ok () := by
  rw [sort?] at h
  split at h
  · cases h
  · next harity =>
    obtain ⟨_, hnumeric, -⟩ := bind_eq_ok.mp h
    exact ⟨not_not.mp harity, hnumeric⟩

mutual

/-- A term has the sort that is inferred for its expression. -/
theorem hasSort_image : ∀ {e : Expr} {t : Term} {s : ValueSort}, e.term = .ok (t, s) →
    (∀ x : Expr, x.Occurs e → x.HasSignature Γ) → e.image.HasSort Γ s
  | .const v, t, s, h, _ => by
    rw [term] at h
    obtain ⟨_, _, h⟩ := bind_eq_ok.mp h
    cases h
    rw [image]
    exact v.hasSort_image
  | .var x s', t, s, h, hΓ => by
    rw [term] at h
    obtain ⟨_, _, h⟩ := bind_eq_ok.mp h
    cases h
    rw [image]
    exact .name (hΓ _ .self x _ rfl)
  | .uif f s' args, t, s, h, hΓ => by
    rw [term] at h
    obtain ⟨ts, hts, h⟩ := bind_eq_ok.mp h
    obtain ⟨_, _, h⟩ := bind_eq_ok.mp h
    cases h
    have hdeclared : Γ f ⟨ts.map (·.2), s'⟩ := by
      refine hΓ _ .self f _ ?_
      rw [ownUse?, sorts?_of_terms hts]
      rfl
    have hargs := (hasSort_images hts fun e he x hx => hΓ x (.uifArg he hx)).1
    cases args with
    | nil =>
      cases hts
      rw [image]
      exact .name hdeclared
    | cons e es =>
      rw [image]
      exact .call hdeclared (List.cons_ne_nil _ _) hargs
  | .math f args, t, s, h, hΓ => by
    rw [term] at h
    obtain ⟨s', hs, h⟩ := bind_eq_ok.mp h
    obtain ⟨ts, hts, h⟩ := bind_eq_ok.mp h
    cases h
    obtain ⟨harity, hnumeric⟩ := arity_of_sort? hs
    have hargs := (hasSort_images hts fun e he x hx => hΓ x (.mathArg he hx)).2
    rw [lifted_of_numericArgs hnumeric hts, harity] at hargs
    rw [image]
    exact .operation (.function f) hargs
  | .binary op l r location, t, s, h, hΓ => by
    rw [term] at h
    obtain ⟨⟨tl, ls⟩, hl, h⟩ := bind_eq_ok.mp h
    obtain ⟨⟨tr, rs⟩, hr, h⟩ := bind_eq_ok.mp h
    have hls := sort?_of_term hl
    have hrs := sort?_of_term hr
    have hreal : isReal op l r = Term.isReal op ls rs := by
      unfold isReal Term.isReal
      rw [hasSort_of_sort? hls, hasSort_of_sort? hrs]
    have hxl := hasSort_image hl fun x hx => hΓ x (.left hx)
    have hxr := hasSort_image hr fun x hx => hΓ x (.right hx)
    rw [image, hreal]
    exact Operator.Form.hasSort_image (Term.renders_of_binary h).hasRank (hasSort_lifted hls hxl _)
      (hasSort_lifted hrs hxr _)

theorem hasSort_images : ∀ {es : List Expr} {ts : List (Term × ValueSort)}, terms es = .ok ts →
    (∀ e ∈ es, ∀ x : Expr, x.Occurs e → x.HasSignature Γ) →
      List.Forall₂ (HasSort Γ) (images es) (ts.map (·.2)) ∧
        List.Forall₂ (HasSort Γ) (realImages es) (ts.map fun t => t.2.lifted true)
  | [], ts, h, _ => by
    cases h
    exact ⟨.nil, .nil⟩
  | e :: es, ts, h, hΓ => by
    rw [terms] at h
    obtain ⟨⟨t, s⟩, ht, h⟩ := bind_eq_ok.mp h
    obtain ⟨ts', hts, h⟩ := bind_eq_ok.mp h
    cases h
    obtain ⟨he, hes⟩ := List.forall_mem_cons.mp hΓ
    have hx := hasSort_image ht he
    obtain ⟨himages, hreals⟩ := hasSort_images hts hes
    exact ⟨.cons hx himages, .cons (hasSort_lifted (sort?_of_term ht) hx true) hreals⟩

end

/-! ## What is refused -/

/-- A node that has no form in scripts, whatever surrounds it. -/
inductive IsRefused : Expr → Prop
  | noSort {x : Expr} (h : ∀ s, x.sort? ≠ .ok s) : IsRefused x
  | bitwise {op : Operator} {l r : Expr} {location : Option Location} (hop : op.kind = .boolean)
    (hl : l.sort? = .ok .int) (hr : r.sort? = .ok .int) : IsRefused (.binary op l r location)
  | remainder {l r : Expr} {location : Option Location}
    (h : l.sort? = .ok .real ∨ r.sort? = .ok .real) : IsRefused (.binary .mod l r location)
  | variable {x : String} {s : ValueSort} (h : ∀ symbol, Symbol.ofName x ≠ .ok symbol) :
    IsRefused (.var x s)
  | function {f : String} {s : ValueSort} {args : List Expr}
    (h : ∀ symbol, Symbol.ofName f ≠ .ok symbol) : IsRefused (.uif f s args)
  | constant {v : Binary64} (h : v.isFinite = false) : IsRefused (.const (.real v))

theorem not_isRefused_of_term {x : Expr} {r : Term × ValueSort} (h : x.term = .ok r) :
    ¬IsRefused x := by
  intro hrefused
  obtain ⟨t, s⟩ := r
  cases hrefused with
  | noSort hnone => exact hnone s (sort?_of_term h)
  | bitwise hop hl hr =>
    rw [term] at h
    obtain ⟨⟨tl, ls⟩, htl, h⟩ := bind_eq_ok.mp h
    obtain ⟨⟨tr, rs⟩, htr, h⟩ := bind_eq_ok.mp h
    rw [sort?_of_term htl] at hl
    rw [sort?_of_term htr] at hr
    cases hl
    cases hr
    exact (Term.renders_of_binary h).not_bitwise ⟨hop, rfl, rfl⟩
  | remainder hreal =>
    rw [term] at h
    obtain ⟨⟨tl, ls⟩, htl, h⟩ := bind_eq_ok.mp h
    obtain ⟨⟨tr, rs⟩, htr, h⟩ := bind_eq_ok.mp h
    obtain ⟨hl, hr⟩ := (Term.renders_of_binary h).not_real_of_mod
    rw [sort?_of_term htl, sort?_of_term htr] at hreal
    exact hreal.elim (fun heq => hl (Except.ok.inj heq)) fun heq => hr (Except.ok.inj heq)
  | «variable» hname =>
    rw [term] at h
    obtain ⟨symbol, hsymbol, -⟩ := bind_eq_ok.mp h
    exact hname symbol hsymbol
  | function hname =>
    rw [term] at h
    obtain ⟨_, _, h⟩ := bind_eq_ok.mp h
    obtain ⟨symbol, hsymbol, -⟩ := bind_eq_ok.mp h
    exact hname symbol hsymbol
  | @constant v hv =>
    rw [term] at h
    obtain ⟨t', ht, -⟩ := bind_eq_ok.mp h
    unfold Constant.term at ht
    dsimp only at ht
    rw [hv] at ht
    cases ht

theorem exists_constant_term {v : Constant} (h : ¬IsRefused (.const v)) :
    ∃ t, v.term = .ok t := by
  cases v with
  | real v =>
    have hfinite : v.isFinite = true := by
      by_contra hv
      exact h (.constant (Bool.eq_false_iff.mpr hv))
    unfold Constant.term
    dsimp only
    rw [hfinite, if_neg (by decide)]
    split <;> exact ⟨_, rfl⟩
  | _ => exact ⟨_, rfl⟩

mutual

/-- An expression of which no node is refused has a term. -/
theorem exists_term : ∀ {e : Expr}, (∀ x : Expr, x.Occurs e → ¬IsRefused x) →
    ∃ r, e.term = .ok r
  | .const v, h => by
    obtain ⟨t, ht⟩ := exists_constant_term (h _ .self)
    rw [term, ht]
    exact ⟨_, rfl⟩
  | .var x s, h => by
    obtain ⟨symbol, hsymbol⟩ := not_forall_not.mp fun hname => h _ .self (.variable hname)
    rw [term, hsymbol]
    exact ⟨_, rfl⟩
  | .uif f s args, h => by
    obtain ⟨symbol, hsymbol⟩ := not_forall_not.mp fun hname => h _ .self (.function hname)
    obtain ⟨ts, hts⟩ := exists_terms fun e he x hx => h x (.uifArg he hx)
    rw [term, hts, hsymbol]
    exact ⟨_, rfl⟩
  | .math f args, h => by
    obtain ⟨s, hs⟩ := not_forall_not.mp fun hnone => h _ .self (.noSort hnone)
    obtain ⟨ts, hts⟩ := exists_terms fun e he x hx => h x (.mathArg he hx)
    rw [term, hs, hts]
    exact ⟨_, rfl⟩
  | .binary op l r location, h => by
    obtain ⟨⟨tl, ls⟩, hl⟩ := exists_term fun x hx => h x (.left hx)
    obtain ⟨⟨tr, rs⟩, hr⟩ := exists_term fun x hx => h x (.right hx)
    have hls := sort?_of_term hl
    have hrs := sort?_of_term hr
    obtain ⟨s, hs⟩ := not_forall_not.mp fun hnone => h _ .self (.noSort hnone)
    rw [sort?, hls, hrs] at hs
    have hbitwise : ¬(op.kind = .boolean ∧ ls = .int ∧ rs = .int) := by
      rintro ⟨hop, rfl, rfl⟩
      exact h _ .self (.bitwise hop hls hrs)
    have hmod : op = .mod → ls ≠ .real ∧ rs ≠ .real := by
      rintro rfl
      refine ⟨?_, ?_⟩
      · rintro rfl
        exact h _ .self (.remainder (.inl hls))
      · rintro rfl
        exact h _ .self (.remainder (.inr hrs))
    obtain ⟨t, ht⟩ := Term.exists_renders hs hbitwise hmod tl tr
    rw [term, hl, hr]
    exact ⟨_, ht.binary_eq⟩

theorem exists_terms : ∀ {es : List Expr},
    (∀ e ∈ es, ∀ x : Expr, x.Occurs e → ¬IsRefused x) → ∃ ts, terms es = .ok ts
  | [], _ => ⟨[], rfl⟩
  | e :: es, h => by
    obtain ⟨he, hes⟩ := List.forall_mem_cons.mp h
    obtain ⟨r, hr⟩ := exists_term he
    obtain ⟨ts, hts⟩ := exists_terms hes
    rw [terms, hr, hts]
    exact ⟨_, rfl⟩

end

theorem exists_term_iff {e : Expr} :
    (∃ r, e.term = .ok r) ↔ ∀ x : Expr, x.Occurs e → ¬IsRefused x := by
  refine ⟨fun h x hx => ?_, exists_term⟩
  obtain ⟨r, hr⟩ := hx.exists_term h
  exact not_isRefused_of_term hr

/-- A term is read as a tree of the sort that is inferred for its expression, where names have the
signatures that the expression declares. And every expression has a term, unless a node of it is
refused. -/
theorem sorted_and_accepted_iff (e : Expr) :
    (∀ t s, e.term = .ok (t, s) → e.sort? = .ok s ∧ t.ReadsAs e.image ∧
      ∀ d d', Declarations.collect d e = (d', .ok ()) →
        e.image.HasSort (fun name signature => (name, signature) ∈ d'.names) s) ∧
      ((∃ r, e.term = .ok r) ↔ ∀ x : Expr, x.Occurs e → ¬IsRefused x) := by
  refine ⟨fun t s h => ⟨sort?_of_term h, readsAs_of_term h, fun d d' hcollect => ?_⟩,
    exists_term_iff⟩
  refine hasSort_image h fun x hx name signature huse => ?_
  exact ((Declarations.adds_of_useAll hcollect).names _).mpr (.inl (mem_uses.mpr ⟨x, hx, huse⟩))

end Expr

end Regression
