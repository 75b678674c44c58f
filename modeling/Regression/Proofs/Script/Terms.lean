import Regression.Proofs.Expr.Evaluation
import Regression.Proofs.Script.Image
import Regression.Proofs.Sexpr.Written

/-!
# Terms are read as they were meant

The text of a term is read as the image of its expression. Names and strings keep within their
tokens, whatever characters they have.

* `Script.readsAs_symbol`, `Script.readsAs_stringText`: names and strings.
* `Script.Term.Renders.eq_term`: the form of a binary node, and which operands are lifted.
* `Expr.readsAs_of_term`: terms are read as the images of their expressions.
* `Expr.keepsReals_of_term`: their decimals read back as the reals of the expressions.
-/

namespace Regression

open Sexpr

namespace Script

/-! ## Names and strings -/

theorem isWord_of_isPlainSymbol {name : String} (h : isPlainSymbol name = true) :
    isWord name = true := by
  unfold isPlainSymbol at h
  unfold isWord
  cases hlist : name.toList with
  | nil =>
    rw [hlist] at h
    cases h
  | cons c cs =>
    rw [hlist] at h
    exact (Bool.and_eq_true_iff.mp h).1

/-- A name that is written between bars contains none. -/
theorem bar_not_mem {s : Symbol} (h : ¬isPlainSymbol s.name = true) : '|' ∉ s.name.toList := by
  intro hbar
  have hquotable : isQuotable s.name = true :=
    (Bool.or_eq_true_iff.mp s.writable).resolve_left h
  have hall := List.all_eq_true.mp (Bool.and_eq_true_iff.mp hquotable).2 '|' hbar
  cases hall

/-- A name is one token. -/
theorem readsAs_symbol (s : Symbol) : ReadsAs s.text (nameImage s.name) := by
  unfold Symbol.text nameImage
  by_cases hplain : isPlainSymbol s.name = true
  · rw [if_pos hplain, if_pos hplain]
    exact readsAs_word (isWord_of_isPlainSymbol hplain)
  · rw [if_neg hplain, if_neg hplain]
    exact readsAs_barred (bar_not_mem hplain)

theorem name_of_ofName {name : String} {s : Symbol} (h : Symbol.ofName name = .ok s) :
    s.name = name := by
  unfold Symbol.ofName at h
  split at h
  · cases h
    rfl
  · cases h

theorem mem_toDigits_sixteen {c : Char} {n : Nat} (hc : c ∈ Nat.toDigits 16 n) :
    ∃ d < 16, c = Nat.digitChar d := by
  induction n using Nat.strongRecOn with
  | ind n ih =>
    by_cases hlt : n < 16
    · rw [Nat.toDigits_of_lt_base hlt] at hc
      exact ⟨n, hlt, List.mem_singleton.mp hc⟩
    · rw [Nat.toDigits_of_base_le (by omega) (by omega)] at hc
      rcases List.mem_append.mp hc with hc | hc
      · exact ih (n / 16) (by omega) hc
      · exact ⟨n % 16, Nat.mod_lt _ (by omega), List.mem_singleton.mp hc⟩

/-- There is no quotation mark in a code point. -/
theorem quote_not_mem_codePoint (c : Char) : '"' ∉ (Text.codePoint c).toList := by
  intro h
  have hdigits : (Text.hexadecimal c.toNat).toList = Nat.toDigits 16 c.toNat :=
    String.toList_ofList
  unfold Text.codePoint at h
  rw [String.toList_append, String.toList_append, hdigits] at h
  rcases List.mem_append.mp h with h | h
  · rcases List.mem_append.mp h with h | h
    · exact absurd h (by decide)
    · obtain ⟨d, hd, hquote⟩ := mem_toDigits_sixteen h
      have hno : ∀ d < 16, '"' ≠ Nat.digitChar d := by decide
      exact hno d hd hquote
  · exact absurd h (by decide)

theorem flatMap_doubled {cs : List Char} (h : '"' ∉ cs) : cs.flatMap doubled = cs := by
  induction cs with
  | nil => rfl
  | cons c cs ih =>
    have hc : doubled c = [c] := if_neg (List.ne_of_not_mem_cons h).symm
    rw [List.flatMap_cons, hc, ih (List.not_mem_of_not_mem_cons h)]
    rfl

theorem toList_stringChar (c : Char) :
    (Term.stringChar c).toList =
      (if ' ' ≤ c ∧ c ≤ '~' then [c] else (Text.codePoint c).toList).flatMap doubled := by
  unfold Term.stringChar
  by_cases hquote : c = '"'
  · subst hquote
    rfl
  · rw [if_neg hquote]
    by_cases hprintable : ' ' ≤ c ∧ c ≤ '~'
    · rw [if_pos hprintable, if_pos hprintable, String.toList_singleton, List.flatMap_singleton]
      exact (if_neg hquote).symm
    · rw [if_neg hprintable, if_neg hprintable, flatMap_doubled (quote_not_mem_codePoint c)]

/-- A string is one token. -/
theorem readsAs_stringText (s : String) : ReadsAs (Term.stringText s) (stringImage s) := by
  have hbody : String.join (s.toList.map Term.stringChar) =
      String.ofList ((s.toList.flatMap fun c =>
        if ' ' ≤ c ∧ c ≤ '~' then [c] else (Text.codePoint c).toList).flatMap doubled) := by
    rw [← String.toList_inj, String.toList_ofList, String.toList_join, List.flatMap_map,
      List.flatMap_assoc]
    simp only [toList_stringChar]
  unfold Term.stringText stringImage
  rw [hbody]
  exact readsAs_string _

/-! ## Terms -/

namespace Term

/-- A term stands for an expression. -/
def ReadsAs (t : Term) (x : Sexpr) : Prop := Sexpr.ReadsAs t.text x

theorem readsAs_apply {head : String} (hhead : isWord head = true) {args : List Term}
    {xs : List Sexpr} (hargs : AllRead (texts args) xs) :
    (Term.apply head args).ReadsAs (.apply head xs) := by
  have hall : AllRead (head :: texts args) (Sexpr.word head :: xs) :=
    .cons (readsAs_word hhead) hargs
  exact readsAs_list hall

theorem readsAs_apply_singleton {head : String} (hhead : isWord head = true) {t : Term} {x : Sexpr}
    (ht : t.ReadsAs x) : (Term.apply head [t]).ReadsAs (.apply head [x]) :=
  readsAs_apply hhead (.cons ht .nil)

end Term

open Term

/-- The image of a negative number is a negation. -/
theorem readsAs_minus {t : Term} {size : Atom} (ht : t.ReadsAs (.atom size)) :
    (Term.apply "-" [t]).ReadsAs (signedImage true size) :=
  readsAs_apply_singleton (by decide) ht

end Script

open Script Script.Term

theorem Constant.isFinite_of_term {v : Binary64} {t : Term} (h : (Constant.real v).term = .ok t) :
    v.isFinite = true := by
  unfold term at h
  dsimp only at h
  split at h
  · cases h
  · next hfinite => simpa using hfinite

/-- A constant is read as its image. -/
theorem Constant.readsAs_of_term {v : Constant} {t : Term} (h : v.term = .ok t) :
    t.ReadsAs v.image := by
  cases v with
  | int v =>
    cases h
    have hsize : (Term.numeral v.toInt.natAbs).ReadsAs (.atom (.numeral v.toInt.natAbs)) :=
      readsAs_numeral _
    rw [image]
    by_cases hnegative : v.toInt < 0
    · rw [if_pos hnegative, decide_eq_true hnegative]
      exact readsAs_minus hsize
    · rw [if_neg hnegative, decide_eq_false hnegative]
      exact hsize
  | real v =>
    have hfinite := isFinite_of_term h
    have hsize : (Term.decimal v.abs).ReadsAs
        (.atom (.decimal v.abs.decimalParts.1 v.abs.decimalParts.2)) :=
      readsAs_decimal v.abs.isWhole_decimalParts v.abs.isFraction_decimalParts
        (decimalText_eq (v.isFinite_abs hfinite) v.isNegative_abs)
    unfold term at h
    dsimp only at h
    rw [hfinite, Bool.not_true, if_neg Bool.false_ne_true] at h
    rw [image]
    split at h
    · next hnegative =>
      cases h
      rw [hnegative]
      exact readsAs_minus hsize
    · next hnegative =>
      cases h
      rw [Bool.eq_false_iff.mpr hnegative]
      exact hsize
  | bool v =>
    cases h
    cases v with
    | true => exact readsAs_word (by decide)
    | false => exact readsAs_word (by decide)
  | string v =>
    cases h
    exact readsAs_stringText v

/-! ## Operators -/

namespace Operator

/-- A node in a form over the terms of its operands. -/
def Form.term (f : Form) (l r : Term) : Term :=
  let node := Term.apply f.word (if f.isSwapped then [r, l] else [l, r])
  if f.isNegated then negation node else node

theorem isWord_form (op : Operator) (isReal : Bool) : isWord (op.form isReal).word = true := by
  cases isReal <;> cases op <;> decide

theorem Form.readsAs_term {f : Form} (hword : isWord f.word = true) {l r : Term} {xl xr : Sexpr}
    (hl : l.ReadsAs xl) (hr : r.ReadsAs xr) : (f.term l r).ReadsAs (f.image xl xr) := by
  have hnode : (Term.apply f.word (if f.isSwapped then [r, l] else [l, r])).ReadsAs
      (.apply f.word (if f.isSwapped then [xr, xl] else [xl, xr])) := by
    apply readsAs_apply hword
    cases f.isSwapped with
    | true => exact .cons hr (.cons hl .nil)
    | false => exact .cons hl (.cons hr .nil)
  unfold Form.term Form.image
  cases f.isNegated with
  | true => exact readsAs_apply_singleton (by decide) hnode
  | false => exact hnode

end Operator

namespace Script.Term

/-- An integer term where a real one is wanted, or not. -/
def lifted (t : Term) (s : ValueSort) (isReal : Bool) : Term :=
  t.lift s (if isReal then .real else .int)

/-- Whether the operands of a node are combined as reals. -/
def isReal (op : Operator) (ls rs : ValueSort) : Bool := op = .pow || ls = .real || rs = .real

theorem comparison_eq {op : Operator} (h : op.kind = .comparison) (isReal : Bool) (l r : Term) :
    comparison op l r = (op.form isReal).term l r := by
  cases op with
  | eq | ne | lt | le | gt | ge => rfl
  | _ => cases h

theorem stringPredicate_eq {op : Operator} (h : op.kind = .stringPredicate) (isReal : Bool)
    (l r : Term) : stringPredicate op l r = (op.form isReal).term l r := by
  cases op with
  | equals | notEquals | startsWith | notStartsWith | endsWith | notEndsWith => rfl
  | contains | notContains => rfl
  | _ => cases h

theorem boolean_eq {op : Operator} (h : op.kind = .boolean) (isReal : Bool) (l r : Term) :
    Term.apply (booleanWord op) [l, r] = (op.form isReal).term l r := by
  cases op with
  | and | or | xor => rfl
  | _ => cases h

theorem arithmetic_eq {op : Operator} {isReal : Bool} {head : String}
    (h : arithmeticWord? op (if isReal then .real else .int) = some head) (l r : Term) :
    Term.apply head [l, r] = (op.form isReal).term l r := by
  cases isReal with
  | true =>
    cases op with
    | add | sub | mul | div =>
      cases h
      rfl
    | _ => cases h
  | false =>
    cases op with
    | add | sub | mul | div | mod =>
      cases h
      rfl
    | _ => cases h

theorem lifted_of_ne_int {t : Term} {given : ValueSort} (h : given ≠ .int) (isReal : Bool) :
    t.lifted given isReal = t :=
  if_neg fun hlift => h hlift.1

theorem widen_eq {op : Operator} (hop : op ≠ .pow) (ls rs : ValueSort) :
    ls.widen rs = if isReal op ls rs then .real else .int := by
  unfold isReal ValueSort.widen
  rw [decide_eq_false hop, Bool.false_or]
  simp only [Bool.or_eq_true, decide_eq_true_eq]

theorem ne_pow_of_comparison {op : Operator} (h : op.kind = .comparison) : op ≠ .pow := by
  rintro rfl
  cases h

/-- A rendered node has the form of its operator, and its operands are lifted as reals. -/
theorem Renders.eq_term {op : Operator} {l r t : Term} {ls rs s : ValueSort}
    (h : Renders op l r ls rs t s) :
    t = (op.form (isReal op ls rs)).term (l.lifted ls (isReal op ls rs))
      (r.lifted rs (isReal op ls rs)) := by
  cases h with
  | numbers kind =>
    rw [widen_eq (ne_pow_of_comparison kind)]
    exact comparison_eq kind _ _ _
  | alike equality other =>
    have hint : ls ≠ .int := by
      rintro rfl
      cases other
    rw [lifted_of_ne_int hint, lifted_of_ne_int hint]
    exact comparison_eq (by rcases equality with rfl | rfl <;> rfl) _ _ _
  | power power =>
    subst power
    rfl
  | arithmetic _ other _ _ word =>
    rw [widen_eq other] at word ⊢
    exact arithmetic_eq word _ _
  | boolean kind =>
    have hbool : ValueSort.bool ≠ .int := nofun
    rw [lifted_of_ne_int hbool, lifted_of_ne_int hbool]
    exact boolean_eq kind _ _ _
  | stringPredicate kind =>
    have hstring : ValueSort.string ≠ .int := nofun
    rw [lifted_of_ne_int hstring, lifted_of_ne_int hstring]
    exact stringPredicate_eq kind _ _ _

end Script.Term

/-! ## Expressions -/

theorem MathFunction.isWord_name (f : MathFunction) : isWord f.name = true := by
  cases f <;> decide

namespace Expr

theorem hasSort_of_sort? {e : Expr} {s : ValueSort} (h : e.sort? = .ok s) (wanted : ValueSort) :
    e.hasSort wanted = decide (s = wanted) := by
  unfold hasSort
  rw [h]

/-- An integer is lifted in its term and in its image alike. -/
theorem readsAs_lifted {e : Expr} {t : Term} {s : ValueSort} (hs : e.sort? = .ok s)
    (ht : t.ReadsAs e.image) (isReal : Bool) :
    (t.lifted s isReal).ReadsAs (e.lifted isReal e.image) := by
  unfold Term.lifted Term.lift lifted
  rw [hasSort_of_sort? hs]
  cases isReal with
  | false =>
    rw [if_neg (by simp), if_neg (by simp)]
    exact ht
  | true =>
    by_cases hint : s = .int
    · rw [if_pos ⟨hint, rfl⟩, if_pos (by simpa using hint)]
      exact readsAs_apply_singleton (by decide) ht
    · rw [if_neg fun h => hint h.1, if_neg (by simpa using hint)]
      exact ht

/-- What is known of the terms of some expressions. -/
def AllTerms (es : List Expr) (ts : List (Term × ValueSort)) : Prop :=
  List.Forall₂ (fun e t => t.1.ReadsAs e.image ∧ e.sort? = .ok t.2) es ts

theorem AllTerms.images {es : List Expr} {ts : List (Term × ValueSort)} (h : AllTerms es ts) :
    AllRead (Term.texts (ts.map (·.1))) (images es) := by
  induction h with
  | nil => exact .nil
  | cons ht _ ih => exact .cons ht.1 ih

theorem AllTerms.realImages {es : List Expr} {ts : List (Term × ValueSort)} (h : AllTerms es ts) :
    AllRead (Term.texts (ts.map fun (t, s) => t.lift s .real)) (realImages es) := by
  induction h with
  | nil => exact .nil
  | cons ht _ ih => exact .cons (readsAs_lifted ht.2 ht.1 true) ih

mutual

/-- A term is read as the image of its expression. -/
theorem readsAs_of_term : ∀ {e : Expr} {t : Term} {s : ValueSort},
    e.term = .ok (t, s) → t.ReadsAs e.image
  | .const v, t, s, h => by
    rw [term] at h
    obtain ⟨t', ht, h⟩ := bind_eq_ok.mp h
    cases h
    rw [image]
    exact Constant.readsAs_of_term ht
  | .var x s', t, s, h => by
    rw [term] at h
    obtain ⟨symbol, hsymbol, h⟩ := bind_eq_ok.mp h
    cases h
    rw [image, ← name_of_ofName hsymbol]
    exact readsAs_symbol symbol
  | .uif f s' args, t, s, h => by
    rw [term] at h
    obtain ⟨ts, hts, h⟩ := bind_eq_ok.mp h
    obtain ⟨symbol, hsymbol, h⟩ := bind_eq_ok.mp h
    cases h
    have hterms := allTerms_of_terms hts
    cases args with
    | nil =>
      cases hterms
      rw [image, ← name_of_ofName hsymbol]
      exact readsAs_symbol symbol
    | cons e es =>
      have himages := hterms.images
      cases hterms with
      | cons ht hts =>
        rw [image, ← name_of_ofName hsymbol]
        exact readsAs_list (.cons (readsAs_symbol symbol) himages)
  | .math f args, t, s, h => by
    rw [term] at h
    obtain ⟨_, _, h⟩ := bind_eq_ok.mp h
    obtain ⟨ts, hts, h⟩ := bind_eq_ok.mp h
    cases h
    rw [image]
    exact readsAs_apply f.isWord_name (allTerms_of_terms hts).realImages
  | .binary op l r location, t, s, h => by
    rw [term] at h
    obtain ⟨⟨tl, ls⟩, hl, h⟩ := bind_eq_ok.mp h
    obtain ⟨⟨tr, rs⟩, hr, h⟩ := bind_eq_ok.mp h
    have hls := sort?_of_term hl
    have hrs := sort?_of_term hr
    have hreal : isReal op l r = Term.isReal op ls rs := by
      unfold isReal Term.isReal
      rw [hasSort_of_sort? hls, hasSort_of_sort? hrs]
    rw [image, hreal, (renders_of_binary h).eq_term]
    exact Operator.Form.readsAs_term (Operator.isWord_form _ _)
      (readsAs_lifted hls (readsAs_of_term hl) _) (readsAs_lifted hrs (readsAs_of_term hr) _)

theorem allTerms_of_terms : ∀ {es : List Expr} {ts : List (Term × ValueSort)},
    terms es = .ok ts → AllTerms es ts
  | [], ts, h => by
    rw [terms] at h
    cases h
    exact .nil
  | e :: es, ts, h => by
    rw [terms] at h
    obtain ⟨⟨t, s⟩, ht, h⟩ := bind_eq_ok.mp h
    obtain ⟨ts', hts, h⟩ := bind_eq_ok.mp h
    cases h
    exact .cons ⟨readsAs_of_term ht, sort?_of_term ht⟩ (allTerms_of_terms hts)

end

/-! ### Nodes -/

theorem exists_term_of_mem : ∀ {es : List Expr} {ts : List (Term × ValueSort)},
    terms es = .ok ts → ∀ e ∈ es, ∃ r, e.term = .ok r
  | [], _, _, e, he => by cases he
  | e :: es, ts, h, e', he => by
    rw [terms] at h
    obtain ⟨r, hr, h⟩ := bind_eq_ok.mp h
    obtain ⟨ts', hts, -⟩ := bind_eq_ok.mp h
    rcases List.mem_cons.mp he with rfl | he
    · exact ⟨r, hr⟩
    · exact exists_term_of_mem hts e' he

/-- Every node of an expression with a term has a term. -/
theorem Occurs.exists_term {x e : Expr} (hx : x.Occurs e) (h : ∃ r, e.term = .ok r) :
    ∃ r, x.term = .ok r := by
  induction hx with
  | self => exact h
  | left _ ih =>
    obtain ⟨r, hr⟩ := h
    rw [term] at hr
    obtain ⟨l, hl, -⟩ := bind_eq_ok.mp hr
    exact ih ⟨l, hl⟩
  | right _ ih =>
    obtain ⟨r, hr⟩ := h
    rw [term] at hr
    obtain ⟨l, hl, hr⟩ := bind_eq_ok.mp hr
    obtain ⟨r', hr', -⟩ := bind_eq_ok.mp hr
    exact ih ⟨r', hr'⟩
  | uifArg he _ ih =>
    obtain ⟨r, hr⟩ := h
    rw [term] at hr
    obtain ⟨ts, hts, -⟩ := bind_eq_ok.mp hr
    exact ih (exists_term_of_mem hts _ he)
  | mathArg he _ ih =>
    obtain ⟨r, hr⟩ := h
    rw [term] at hr
    obtain ⟨_, _, hr⟩ := bind_eq_ok.mp hr
    obtain ⟨ts, hts, -⟩ := bind_eq_ok.mp hr
    exact ih (exists_term_of_mem hts _ he)

/-- The reals of an expression with a term are finite, and are written as decimals that read back as
them. -/
theorem keepsReals_of_term {e : Expr} {r : Term × ValueSort} (h : e.term = .ok r) :
    e.KeepsReals := by
  intro v hv
  obtain ⟨r', hr⟩ := hv.exists_term ⟨r, h⟩
  rw [term] at hr
  obtain ⟨t, ht, -⟩ := bind_eq_ok.mp hr
  have hfinite := Constant.isFinite_of_term ht
  exact ⟨_, _, rfl, hfinite, Binary64.readsBack_decimalParts (v.isFinite_abs hfinite)⟩

end Expr

end Regression
