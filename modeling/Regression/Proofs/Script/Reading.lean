import Regression.Proofs.Script.Terms
import Regression.Solver.Query

/-!
# Scripts are read as they were meant

The text of a script is read to its end, and says just what its conditions are to say: no name and
no string can add a command or take one away, and no real becomes another one.

* `MathFunction.readsAs_declaration`, `Script.Declarations.allRead_lines`: declarations.
* `Script.allRead_assertions`: one assertion for each condition.
* `Script.ofText?_text`: scripts are read as the images of their conditions.
* `Query.says_of_build`: the script of a query.
-/

namespace Regression

open Sexpr Script Script.Term

/-! ## Declarations -/

theorem ValueSort.isWord_scriptName (s : ValueSort) : isWord s.scriptName = true := by
  cases s <;> decide

theorem readsAs_words {words : List String} (h : ∀ w ∈ words, isWord w = true) :
    AllRead words (words.map Sexpr.word) := by
  induction words with
  | nil => exact .nil
  | cons w words ih =>
    obtain ⟨hw, hwords⟩ := List.forall_mem_cons.mp h
    exact .cons (readsAs_word hw) (ih hwords)

/-- A list whose parts are known. -/
theorem readsAs_parts {line : String} (parts : List String) {xs : List Sexpr}
    (hline : line = "(" ++ " ".intercalate parts ++ ")") (h : AllRead parts xs) :
    ReadsAs line (.list xs) := by
  rw [hline]
  exact readsAs_list h

/-- Every function is defined as a power. -/
theorem readsAs_power {line base exponent : String} {xb xe : Sexpr}
    (hline : line = "(" ++ " ".intercalate ["^", base, exponent] ++ ")") (hb : ReadsAs base xb)
    (he : ReadsAs exponent xe) : ReadsAs line (.apply "^" [xb, xe]) :=
  readsAs_parts _ hline (.cons (readsAs_word (by decide)) (.cons hb (.cons he .nil)))

theorem readsAs_definition {line name parameters body : String} {xp xb : Sexpr}
    (hline : line = "(" ++ " ".intercalate ["define-fun", name, parameters, "Real", body] ++ ")")
    (hname : isWord name = true) (hp : ReadsAs parameters xp) (hb : ReadsAs body xb) :
    ReadsAs line (.apply "define-fun" [.word name, xp, .word "Real", xb]) :=
  readsAs_parts _ hline (.cons (readsAs_word (by decide)) (.cons (readsAs_word hname)
    (.cons hp (.cons (readsAs_word (by decide)) (.cons hb .nil)))))

/-- The command that introduces a function is read as its image. -/
theorem MathFunction.readsAs_declaration {f : MathFunction} {line : String}
    (h : f.declaration? = some line) :
    ∃ x, f.declarationImage? = some x ∧ ReadsAs line x := by
  have hx : ReadsAs "x" (.word "x") := readsAs_word (by decide)
  have hparameter : ReadsAs "((x Real))" (.list [.list [.word "x", .word "Real"]]) :=
    readsAs_parts ["(x Real)"] (by decide)
      (.cons (readsAs_parts ["x", "Real"] (by decide) (readsAs_words (by decide))) .nil)
  cases f with
  | pow =>
    cases h
    have ha : ReadsAs "(a Real)" (.list [.word "a", .word "Real"]) :=
      readsAs_parts ["a", "Real"] (by decide) (readsAs_words (by decide))
    have hb : ReadsAs "(b Real)" (.list [.word "b", .word "Real"]) :=
      readsAs_parts ["b", "Real"] (by decide) (readsAs_words (by decide))
    have hparameters : ReadsAs "((a Real) (b Real))"
        (.list [.list [.word "a", .word "Real"], .list [.word "b", .word "Real"]]) :=
      readsAs_parts ["(a Real)", "(b Real)"] (by decide) (.cons ha (.cons hb .nil))
    have hbody : ReadsAs "(^ a b)" (.apply "^" [.word "a", .word "b"]) :=
      readsAs_power (by decide) (readsAs_word (by decide)) (readsAs_word (by decide))
    exact ⟨_, rfl, readsAs_definition (by decide) (by decide) hparameters hbody⟩
  | sqrt =>
    cases h
    have hhalf : ReadsAs "0.5" (.atom (.decimal ['0'] ['5'])) :=
      readsAs_decimal Binary64.isWhole_zero ⟨List.all_eq_true.mp rfl, by decide⟩ (by decide)
    have hbody : ReadsAs "(^ x 0.5)" (.apply "^" [.word "x", .atom (.decimal ['0'] ['5'])]) :=
      readsAs_power (by decide) hx hhalf
    exact ⟨_, rfl, readsAs_definition (by decide) (by decide) hparameter hbody⟩
  | exp =>
    cases h
    have hbase : ReadsAs "2.718281828459045"
        (.atom (.decimal ['2'] "718281828459045".toList)) :=
      readsAs_decimal ⟨List.all_eq_true.mp rfl, by decide, by decide⟩
        ⟨List.all_eq_true.mp rfl, by decide⟩ (by decide)
    have hbody : ReadsAs "(^ 2.718281828459045 x)"
        (.apply "^" [.atom (.decimal ['2'] "718281828459045".toList), .word "x"]) :=
      readsAs_power (by decide) hbase hx
    exact ⟨_, rfl, readsAs_definition (by decide) (by decide) hparameter hbody⟩
  | log =>
    cases h
    have hparameters : ReadsAs "(Real)" (.list [.word "Real"]) :=
      readsAs_parts ["Real"] (by decide) (readsAs_words (by decide))
    refine ⟨_, rfl, readsAs_parts ["declare-fun", "log", "(Real)", "Real"] (by decide) ?_⟩
    exact .cons (readsAs_word (by decide)) (.cons (readsAs_word (by decide))
      (.cons hparameters (.cons (readsAs_word (by decide)) .nil)))
  | _ => cases h

theorem MathFunction.declarationImage?_eq_none {f : MathFunction} (h : f.declaration? = none) :
    f.declarationImage? = none := by
  cases f with
  | pow | sqrt | exp | log => cases h
  | _ => rfl

theorem MathFunction.allRead_declarations (fs : List MathFunction) :
    AllRead (fs.filterMap declaration?) (fs.filterMap declarationImage?) := by
  induction fs with
  | nil => exact .nil
  | cons f fs ih =>
    cases hf : f.declaration? with
    | none =>
      rw [List.filterMap_cons_none hf, List.filterMap_cons_none (declarationImage?_eq_none hf)]
      exact ih
    | some line =>
      obtain ⟨x, hx, hread⟩ := readsAs_declaration hf
      rw [List.filterMap_cons_some hf, List.filterMap_cons_some hx]
      exact .cons hread ih

namespace Script

namespace Declarations

theorem readsAs_nameLine {name : String} {signature : Signature} {line : String}
    (h : nameLine name signature = .ok line) :
    ReadsAs line (declarationImage name signature) := by
  unfold nameLine at h
  obtain ⟨s, hs, h⟩ := bind_eq_ok.mp h
  cases h
  unfold declarationImage
  rw [← name_of_ofName hs]
  have hparams : ReadsAs (Term.list (signature.params.map fun p => .word p.scriptName)).text
      (.list (signature.params.map fun p => .word p.scriptName)) := by
    apply readsAs_list
    induction signature.params with
    | nil => exact .nil
    | cons p ps ih => exact .cons (readsAs_word p.isWord_scriptName) ih
  exact readsAs_apply (by decide) (.cons (readsAs_symbol s)
    (.cons hparams (.cons (readsAs_word signature.result.isWord_scriptName) .nil)))

theorem allRead_nameLines {names : List (String × Signature)} {lines : List String}
    (h : List.Forall₂ (fun n line => nameLine n.1 n.2 = .ok line) names lines) :
    AllRead lines (names.map fun (name, signature) => declarationImage name signature) := by
  induction h with
  | nil => exact .nil
  | cons hline _ ih => exact .cons (readsAs_nameLine hline) ih

/-- The declaring commands are read as their images. -/
theorem allRead_lines {d : Declarations} {ls : List String} (h : d.lines = .ok ls) :
    AllRead ls d.images := by
  unfold lines at h
  obtain ⟨names, hnames, h⟩ := bind_eq_ok.mp h
  cases h
  have hnames : List.Forall₂ (fun n line => nameLine n.1 n.2 = .ok line) d.names names :=
    forall₂_of_mapM_eq_ok hnames
  exact List.rel_append (MathFunction.allRead_declarations _) (allRead_nameLines hnames)

theorem useAll_append {d : Declarations} {us : List Use} (h : (d.useAll us).2 = .ok ())
    (vs : List Use) : d.useAll (us ++ vs) = (d.useAll us).1.useAll vs := by
  induction us generalizing d with
  | nil => rfl
  | cons u us ih =>
    rw [List.cons_append, useAll, useAll]
    rw [useAll] at h
    cases hu : d.use u with
    | ok d' =>
      rw [hu] at h
      exact ih h
    | error e =>
      rw [hu] at h
      cases h

end Declarations

/-! ## Scripts -/

theorem readsAs_of_assertion {e : Expr} {t : Term} (h : assertion e = .ok t) :
    (Term.apply "assert" [t]).ReadsAs (.apply "assert" [e.image]) := by
  unfold assertion at h
  obtain ⟨⟨t', s⟩, ht, h⟩ := bind_eq_ok.mp h
  dsimp only at h
  split at h
  · cases h
    exact readsAs_apply_singleton (by decide) (Expr.readsAs_of_term ht)
  · cases h

/-- The declarations of the assertions are what they use, and each has its own command. -/
theorem allRead_assertions {conditions : List Expr} {d d' : Declarations} {ts : List Term}
    (h : assertions? d conditions = .ok (d', ts)) :
    d' = (d.useAll (conditions.flatMap Expr.uses)).1 ∧
      AllRead (ts.map fun t => (Term.apply "assert" [t]).text)
        (conditions.map fun e => .apply "assert" [e.image]) := by
  induction conditions generalizing d ts with
  | nil =>
    cases h
    exact ⟨rfl, .nil⟩
  | cons e es ih =>
    unfold assertions? at h
    obtain ⟨_, huse, h⟩ := bind_eq_ok.mp h
    obtain ⟨t, ht, h⟩ := bind_eq_ok.mp h
    obtain ⟨⟨d'', ts'⟩, hts, h⟩ := bind_eq_ok.mp h
    cases h
    obtain ⟨hd, hread⟩ := ih hts
    refine ⟨?_, .cons (readsAs_of_assertion ht) hread⟩
    rw [hd, List.flatMap_cons, Declarations.useAll_append huse]

/-- The reals of assertions are written as decimals that read back as them. -/
theorem keepsReals_of_assertions {conditions : List Expr} {d : Declarations}
    {r : Declarations × List Term} (h : assertions? d conditions = .ok r) :
    ∀ e ∈ conditions, e.KeepsReals := by
  induction conditions generalizing d r with
  | nil => simp
  | cons e es ih =>
    unfold assertions? at h
    obtain ⟨_, -, h⟩ := bind_eq_ok.mp h
    obtain ⟨t, ht, h⟩ := bind_eq_ok.mp h
    obtain ⟨r', hr', -⟩ := bind_eq_ok.mp h
    unfold assertion at ht
    obtain ⟨_, ht, -⟩ := bind_eq_ok.mp ht
    exact List.forall_mem_cons.mpr ⟨Expr.keepsReals_of_term ht, ih hr'⟩

theorem keepsReals_of_ofAssertions {conditions : List Expr} {timeoutMs : UInt64} {script : Script}
    (h : ofAssertions conditions timeoutMs = .ok script) : ∀ e ∈ conditions, e.KeepsReals := by
  unfold ofAssertions at h
  obtain ⟨_, h, -⟩ := bind_eq_ok.mp h
  exact keepsReals_of_assertions h

theorem readsAs_option {line name value : String} {x : Sexpr}
    (hline : line = "(set-option :" ++ name ++ " " ++ value ++ ")")
    (hname : name.toList.all isSymbolChar = true) (hvalue : ReadsAs value x) :
    ReadsAs line (.apply "set-option" [.atom (.keyword name), x]) := by
  refine readsAs_parts ["set-option", ":" ++ name, value] ?_ (.cons (readsAs_word (by decide))
    (.cons (readsAs_keyword hname) (.cons hvalue .nil)))
  have hstart : "(set-option :" = "(" ++ ("set-option" ++ (" " ++ ":")) := by decide
  rw [hline, hstart, String.intercalate_cons_cons, String.intercalate_cons_cons,
    String.intercalate_singleton]
  simp only [String.append_assoc]

/-- The commands in front of the declarations. -/
theorem allRead_header (timeoutMs : UInt64) :
    AllRead ["(set-option :produce-models true)",
        "(set-option :timeout " ++ toString timeoutMs.toNat ++ ")", "(set-logic ALL)"]
      [.apply "set-option" [.atom (.keyword "produce-models"), .word "true"],
        .apply "set-option" [.atom (.keyword "timeout"), .atom (.numeral timeoutMs.toNat)],
        .apply "set-logic" [.word "ALL"]] := by
  have htimeout : "(set-option :timeout " = "(set-option :" ++ "timeout" ++ " " := by decide
  refine .cons ?_ (.cons ?_ (.cons ?_ .nil))
  · exact readsAs_option (by decide) (by decide) (readsAs_word (by decide))
  · rw [htimeout]
    exact readsAs_option rfl (by decide) (readsAs_numeral _)
  · exact readsAs_parts ["set-logic", "ALL"] (by decide) (readsAs_words (by decide))

/-- The commands behind the assertions. -/
theorem allRead_footer :
    AllRead ["(check-sat)", "(get-model)", "(exit)"]
      [.apply "check-sat" [], .apply "get-model" [], .apply "exit" []] := by
  refine .cons ?_ (.cons ?_ (.cons ?_ .nil))
  · exact readsAs_parts ["check-sat"] (by decide) (readsAs_words (by decide))
  · exact readsAs_parts ["get-model"] (by decide) (readsAs_words (by decide))
  · exact readsAs_parts ["exit"] (by decide) (readsAs_words (by decide))

/-- The commands of a script are those that its conditions ask for. -/
theorem allRead_commands {conditions : List Expr} {timeoutMs : UInt64} {script : Script}
    (h : ofAssertions conditions timeoutMs = .ok script) :
    AllRead script.commands (images conditions timeoutMs) := by
  unfold ofAssertions at h
  obtain ⟨⟨d, ts⟩, hts, h⟩ := bind_eq_ok.mp h
  obtain ⟨ls, hlines, h⟩ := bind_eq_ok.mp h
  cases h
  obtain ⟨rfl, hassertions⟩ := allRead_assertions hts
  have hdeclarations : AllRead ls (Declarations.ofConditions conditions).images :=
    Declarations.allRead_lines hlines
  exact List.rel_append (List.rel_append (List.rel_append (allRead_header timeoutMs)
    hdeclarations) hassertions) allRead_footer

/-- A script is read to its end, and it consists of the commands that its conditions ask for. The
decimals in it read back as the reals of the conditions. -/
theorem ofText?_text {conditions : List Expr} {timeoutMs : UInt64} {script : Script}
    (h : ofAssertions conditions timeoutMs = .ok script) :
    ofText? script.text = some (images conditions timeoutMs) ∧ ∀ e ∈ conditions, e.KeepsReals :=
  ⟨ofText?_lines (allRead_commands h), keepsReals_of_ofAssertions h⟩

/-- A name with brackets and a string with marks stay within their tokens, only the integers next to
a real are lifted, and a quarter is written as a decimal. -/
theorem ofText?_text_marks :
    let marks : Expr := .mk .equals (.var "x) (exit" .string) (.string "\"; |\n")
    let mixed : Expr := .mk .lt (.int (-3)) (.mk .div (.var "r" .real) (.var "n" .int))
    let bounded : Expr := .mk .lt (.const (.real ⟨0x3FD0000000000000⟩)) (.var "r" .real)
    ∃ script, ofAssertions [marks, mixed, bounded] 1000 = .ok script ∧
      (ofText? script.text).map (·.drop 6) = some
        [.apply "assert" [.apply "=" [.atom (.symbol "x) (exit"),
            .atom (.string "\"; |\\u\x7ba\x7d".toList)]],
          .apply "assert" [.apply "<" [.apply "to_real" [.apply "-" [.atom (.numeral 3)]],
            .apply "/" [.word "r", .apply "to_real" [.word "n"]]]],
          .apply "assert" [.apply "<" [.atom (.decimal ['0'] ['2', '5']), .word "r"]],
          .apply "check-sat" [], .apply "get-model" [], .apply "exit" []] ∧
      bounded.KeepsReals := by
  intro marks mixed bounded
  refine ⟨_, rfl, ?_⟩
  obtain ⟨hread, hreals⟩ := ofText?_text (rfl : ofAssertions [marks, mixed, bounded] 1000 = .ok _)
  have hquarter : (Binary64.abs ⟨0x3FD0000000000000⟩).decimalParts = (['0'], ['2', '5']) := by
    decide +kernel
  have hbounded : bounded.image =
      .apply "<" [.atom (.decimal ['0'] ['2', '5']), .word "r"] := by
    show Sexpr.apply "<" [.atom (.decimal (Binary64.abs ⟨0x3FD0000000000000⟩).decimalParts.1
      (Binary64.abs ⟨0x3FD0000000000000⟩).decimalParts.2), .word "r"] = _
    rw [hquarter]
  refine ⟨?_, hreals bounded (by simp)⟩
  rw [hread, ← hbounded]
  rfl

end Script

/-! ## Queries -/

/-- What a query says: its script is read as the commands for its conditions, and the decimals in it
as the reals of these. -/
structure Query.Says (q : Query) (conditions : List Expr) (timeoutMs : UInt64) : Prop where
  script : ofText? q.script = some (Script.images conditions timeoutMs)
  reals : ∀ e ∈ conditions, e.KeepsReals

/-- A query says what it was built to say. -/
theorem Query.says_of_build {kind : QueryKind} {conditions : List Expr} {timeoutMs : UInt64}
    {q : Query} (h : Query.build kind conditions timeoutMs = .ok q) :
    q.Says conditions timeoutMs := by
  rw [build] at h
  obtain ⟨script, hscript, h⟩ := bind_eq_ok.mp h
  cases h
  exact ⟨ofText?_lines (allRead_commands hscript), keepsReals_of_ofAssertions hscript⟩

end Regression
