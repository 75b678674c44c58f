import Mathlib.Data.List.TakeWhile
import Regression.Proofs.Lines
import Regression.Proofs.Script.Terms
import Regression.Solver.Query

/-!
# Models are read as they were printed

A solver that gives an integer to a constant prints a definition of the constant's symbol. The
output is read line by line, each line trimmed, and the definition as a command. So a name comes
back with its value unless trimming the lines changes it, or its symbol is a reserved word of
commands.

* `Model.output`: what a solver prints for a constant.
* `Model.parse_block`: a block with one definition.
* `Model.map_trimmed_outputLines`: what is left of the lines.
* `Model.get?_of_output_iff`: which names come back.
-/

namespace Regression

open Sexpr Script Text

namespace Model

/-! ## A block with one definition -/

/-- The definition of a constant, on two lines. -/
def definition (symbol : List Char) (n : Nat) : List Char :=
  '(' :: ("define-fun".toList ++ ' ' :: (symbol ++ ' ' :: '(' :: ')' :: ' ' ::
    ("Int".toList ++ '\n' :: ((toString n).toList ++ [')']))))

/-- The definition as a tree. -/
def definitionImage (a : Atom) (n : Nat) : Sexpr :=
  .apply "define-fun" [.atom a, .list [], .word "Int", .atom (.numeral n)]

variable {symbol : List Char} {a : Atom}

theorem lexes_bracket {cs : List Char} {ts : List Token} (h : Lexes cs ts) :
    Lexes ('(' :: cs) (.opening :: ts) ∧ Lexes (')' :: cs) (.closing :: ts) :=
  ⟨.token rfl h, .token rfl h⟩

theorem lexes_definition (h : Writes symbol [.atom a]) (n : Nat) :
    Lexes (definition symbol n ++ ['\n']) (writtenAll [definitionImage a n]) := by
  have hspace : isSpace ' ' = true := by decide
  have hline : isSpace '\n' = true := by decide
  have hend : Lexes [')', '\n'] [.closing] := (lexes_bracket (.done rfl)).2
  have hvalue := readsAs_numeral n _ _ (.closing _) hend
  have hsort := readsAs_word (by decide : isWord "Int" = true) _ _ (.line _) (hvalue.skip hline)
  have hparams := (lexes_bracket (lexes_bracket (hsort.skip hspace)).2).1
  have hname := h _ _ (.blank _) (hparams.skip hspace)
  have hhead := readsAs_word (by decide : isWord "define-fun" = true) _ _ (.blank _)
    (hname.skip hspace)
  have hwhole := (lexes_bracket hhead).1
  simp only [definition, List.append_assoc, List.cons_append]
  exact hwhole

/-- The name that a token is, if it is no reserved word. -/
def symbolName? : Atom → Option String
  | .symbol name => some name
  | _ => none

theorem command?_definitionImage (a : Atom) (n : Nat) :
    (definitionImage a n).command? = (symbolName? a).map fun name => some (name, toString n) := by
  have hvalue : (Sexpr.atom (.numeral n)).isTerm = true := by simp [isTerm, isConstant]
  have hcommand : (definitionImage a n).command? =
      if (Sexpr.atom a).isSymbol && true && true && (Sexpr.atom (.numeral n)).isTerm then
        some (definition? "define-fun" [.atom a, .list [], .word "Int", .atom (.numeral n)])
      else none := rfl
  rw [hcommand, hvalue]
  cases a <;> rfl

theorem definitions?_definition (h : Writes symbol [.atom a]) (n : Nat) :
    definitions? (definition symbol n ++ ['\n']) =
      (symbolName? a).map fun name => [(name, toString n)] := by
  unfold definitions?
  rw [(lexes_definition h n).tokens, ofTokens?_writtenAll]
  show ([definitionImage a n].mapM Sexpr.command?).bind _ = _
  rw [List.mapM_cons, List.mapM_nil, command?_definitionImage]
  cases symbolName? a <;> rfl

/-- A block with one definition. -/
def block (symbol : List Char) (n : Nat) : List Char :=
  '(' :: '\n' :: (definition symbol n ++ ['\n', ')'])

theorem trimmed_block (symbol : List Char) (n : Nat) :
    trimmed (block symbol n) = block symbol n := by
  have hopening : isBlank '(' = false := by decide
  have hclosing : isBlank ')' = false := by decide
  have hend := dropBlankEnd_append_cons hclosing ('\n' :: (definition symbol n ++ ['\n'])) []
  have hblock : '\n' :: (definition symbol n ++ ['\n', ')']) =
      ('\n' :: (definition symbol n ++ ['\n'])) ++ ')' :: [] := by simp
  have htrimmed := trimmed_append_cons hopening [] ('\n' :: (definition symbol n ++ ['\n', ')']))
  rw [block]
  rw [List.nil_append] at htrimmed
  rw [htrimmed, hblock, hend]
  rfl

theorem body?_block (symbol : List Char) (n : Nat) :
    body? (block symbol n) = some ('\n' :: (definition symbol n ++ ['\n'])) := by
  have hreverse : ('\n' :: (definition symbol n ++ ['\n', ')'])).reverse =
      ')' :: ('\n' :: (definition symbol n ++ ['\n'])).reverse := by simp
  unfold body? block
  simp only [hreverse, List.reverse_reverse]

/-- A block with one definition is read as this definition, or not at all. -/
theorem parse_block (h : Writes symbol [.atom a]) (n : Nat) :
    Model.parse (String.ofList (block symbol n)) =
      match symbolName? a with
      | some name =>
        .ok { assignments := [(name, toString n)], raw := String.ofList (block symbol n) }
      | none => .error .unreadableModel := by
  have htrim : Text.trim (String.ofList (block symbol n)) = String.ofList (block symbol n) := by
    rw [trim_eq, String.toList_ofList, trimmed_block]
  have hheader : dropHeader ('\n' :: (definition symbol n ++ ['\n'])) =
      definition symbol n ++ ['\n'] := rfl
  unfold parse
  rw [htrim]
  dsimp only
  rw [String.toList_ofList, body?_block]
  dsimp only
  rw [hheader, definitions?_definition h]
  cases symbolName? a <;> rfl

/-! ## The lines of the output -/

/-- What a solver prints for a constant with an integer value. -/
def output (symbol : String) (n : Nat) : String :=
  "sat\n(\n  (define-fun " ++ symbol ++ " () Int\n    " ++ toString n ++ ")\n)"

/-- The lines of an output, where those of the symbol are given. -/
def outputLines (ls : List (List Char)) (n : Nat) : List (List Char) :=
  (["sat".toList, ['(']] ++ frame "  (define-fun ".toList " () Int".toList ls ++
    ["    ".toList ++ (toString n).toList ++ [')']]) ++ [[')']]

/-- What is left of them. -/
def tidyOutputLines (ls : List (List Char)) (n : Nat) : List (List Char) :=
  "sat".toList :: ['('] :: (frame "(define-fun ".toList " () Int".toList ls ++
    [(toString n).toList ++ [')'], [')']])

/-- The lines of a symbol, and what trimming leaves of them inside of the output. -/
structure Tidied (symbol : String) (ls ls' : List (List Char)) : Prop where
  nonempty : ls ≠ []
  nonempty' : ls' ≠ []
  not_mem : ∀ l ∈ ls, '\n' ∉ l
  text : symbol.toList = joined ls
  trimmed : (frame "  (define-fun ".toList " () Int".toList ls).map trimmed =
    frame "(define-fun ".toList " () Int".toList ls'

variable {text : String} {ls ls' : List (List Char)}

theorem toList_output (h : Tidied text ls ls') (n : Nat) :
    (output text n).toList = joined (outputLines ls n) := by
  have hne := frame_ne_nil h.nonempty "  (define-fun ".toList " () Int".toList
  unfold output outputLines
  rw [joined_append (by simp) (by simp), joined_append (by simp) (by simp),
    joined_append (by simp) hne, joined_frame h.nonempty]
  simp [joined_singleton, joined_cons, h.text]

theorem joined_tidyOutputLines (hls : ls ≠ []) (n : Nat) :
    joined (tidyOutputLines ls n).tail = block (joined ls) n := by
  have hne := frame_ne_nil hls "(define-fun ".toList " () Int".toList
  unfold tidyOutputLines block definition
  rw [List.tail_cons, joined_cons (by simp), joined_append hne (by simp), joined_frame hls]
  simp [joined_singleton, joined_cons]

theorem isBlank_of_mem_toString {c : Char} {n : Nat} (hc : c ∈ (toString n).toList) :
    isBlank c = false := by
  rw [Script.Term.toList_toString] at hc
  have hdigit : c.isDigit = true := Nat.isDigit_of_mem_toDigits (by omega) (by omega) hc
  have hrange : 48 ≤ c.toNat ∧ c.toNat ≤ 57 := by
    simpa [Char.isDigit, UInt32.le_iff_toNat_le] using hdigit
  unfold isBlank
  simp
  omega

theorem map_trimmed_outputLines (h : Tidied text ls ls') (n : Nat) :
    (outputLines ls n).map trimmed = tidyOutputLines ls' n := by
  have hvalue : trimmed ("    ".toList ++ (toString n).toList ++ [')']) =
      (toString n).toList ++ [')'] := by
    have hblank : ∀ c ∈ "    ".toList, isBlank c = true := List.all_eq_true.mp rfl
    have hclosing : isBlank ')' = false := by decide
    have hdigits : dropBlank (toString n).toList = (toString n).toList :=
      List.dropWhile_eq_self_iff.mpr fun hl => by
        rw [isBlank_of_mem_toString (List.getElem_mem hl)]
        exact Bool.false_ne_true
    rw [trimmed_append_cons hclosing, dropBlank_blank hblank, hdigits]
    rfl
  have hsat : trimmed "sat".toList = "sat".toList := by decide
  have hopening : trimmed ['('] = ['('] := by decide
  have hclosing : trimmed [')'] = [')'] := by decide
  unfold outputLines tidyOutputLines
  simp only [List.map_append, List.map_cons, List.map_nil, h.trimmed, hvalue, hsat, hopening,
    hclosing]
  rw [List.append_assoc, List.append_assoc]
  rfl

theorem not_mem_outputLines (h : Tidied text ls ls') (n : Nat) :
    ∀ l ∈ ["sat".toList, ['(']] ++ frame "  (define-fun ".toList " () Int".toList ls ++
      ["    ".toList ++ (toString n).toList ++ [')']], '\n' ∉ l := by
  have hframe : ∀ l ∈ frame "  (define-fun ".toList " () Int".toList ls, '\n' ∉ l :=
    not_mem_frame (by decide) (by decide) h.not_mem
  have hvalue : '\n' ∉ (toString n).toList := fun hmem =>
    absurd (isBlank_of_mem_toString hmem) (by decide)
  intro l hl
  simp only [List.mem_append, List.mem_cons, List.not_mem_nil, or_false] at hl
  rcases hl with ((rfl | rfl) | hl) | rfl
  · decide
  · decide
  · exact hframe l hl
  · simp only [List.mem_append, not_or]
    exact ⟨⟨by decide, hvalue⟩, by decide⟩

/-- The lines of the output, as they are read. -/
theorem lines_output (h : Tidied text ls ls') (n : Nat) :
    (Text.lines (output text n)).map Text.trim = (tidyOutputLines ls' n).map String.ofList := by
  have hlines := map_trimmed_linesOf (not_mem_outputLines h n) (by decide : '\n' ∉ [')'])
    (List.cons_ne_nil _ _)
  have hoperation : Text.trim ∘ String.ofList = String.ofList ∘ trimmed := by
    funext l
    rw [Function.comp, Function.comp, trim_eq, String.toList_ofList]
  rw [Text.lines, toList_output h, List.map_map, hoperation, ← List.map_map]
  exact congrArg (List.map String.ofList) (hlines.trans (map_trimmed_outputLines h n))

/-- The model of a text, which is kept as it is if it cannot be read. -/
def read (text : String) : Model :=
  match Model.parse text with
  | .ok model => model
  | .error _ => .unparsed text

/-- The answer in the output, whose model is what is left of the lines. -/
theorem parse_output (h : Tidied text ls ls') (n : Nat) (exit : Option Int) :
    Answer.parse (output text n) exit =
      .ok (.sat (some (read (String.ofList (block (joined ls') n))))) := by
  have htext : "\n".intercalate ((tidyOutputLines ls' n).tail.map String.ofList) =
      String.ofList (block (joined ls') n) := by
    have hid : String.toList ∘ String.ofList = id := funext fun l => String.toList_ofList
    rw [← String.toList_inj, String.toList_intercalate, List.map_map, hid, List.map_id,
      String.toList_ofList, String.toList_ofList]
    exact joined_tidyOutputLines h.nonempty' n
  have hmodel : Answer.modelOf ((tidyOutputLines ls' n).tail.map String.ofList) =
      some (read (String.ofList (block (joined ls') n))) := by
    have hhead : (Text.dropBlank (block (joined ls') n)).head? = some '(' := rfl
    unfold Answer.modelOf read
    dsimp only
    rw [htext, String.toList_ofList, hhead, if_pos (by decide)]
    cases Model.parse (String.ofList (block (joined ls') n)) <;> rfl
  have hcons : (tidyOutputLines ls' n).map String.ofList =
      "sat" :: (tidyOutputLines ls' n).tail.map String.ofList := rfl
  unfold Answer.parse
  rw [lines_output h, ← hmodel, hcons]
  generalize (tidyOutputLines ls' n).tail.map String.ofList = rest
  rfl

/-! ## Names that come back -/

/-- A plain symbol is on one line, where nothing is trimmed. -/
theorem tidied_plain (hplain : '\n' ∉ text.toList) : Tidied text [text.toList] [text.toList] where
  nonempty := List.cons_ne_nil _ _
  nonempty' := List.cons_ne_nil _ _
  not_mem := List.forall_mem_singleton.mpr hplain
  text := (joined_singleton _).symm
  trimmed := by
    have hframe := map_trimmed_frame (by decide : isBlank '(' = false)
      (by decide : isBlank 't' = false) "  ".toList []
      ["define-fun ".toList ++ (text.toList ++ " () In".toList)]
    have hblank : dropBlank "  ".toList = [] := by decide
    rw [hblank] at hframe
    simpa [frame, tidyLines, dropBlankEnd, dropBlank] using hframe

/-- Between bars a name keeps what does not stand next to a line feed. -/
theorem tidied_barred (name : String) :
    Tidied ("|" ++ name ++ "|") (frame ['|'] ['|'] (name.toList.splitOn '\n'))
      (frame ['|'] ['|'] (tidyLines (name.toList.splitOn '\n'))) where
  nonempty := frame_ne_nil (List.splitOn_ne_nil '\n' _) _ _
  nonempty' := frame_ne_nil (tidyLines_ne_nil (List.splitOn_ne_nil '\n' _)) _ _
  not_mem := not_mem_frame (by decide) (by decide) (not_mem_of_mem_splitOn _)
  text := by
    rw [joined_frame (List.splitOn_ne_nil '\n' _), joined_splitOn]
    simp
  trimmed := by
    have hbar : isBlank '|' = false := by decide
    rw [frame_frame, frame_frame]
    exact map_trimmed_frame hbar hbar "  (define-fun ".toList " () Int".toList _

/-- A name that a model gives back: between bars it keeps its lines, and without bars it is no
reserved word. -/
def ComesBack (name : String) : Prop :=
  ¬(isPlainSymbol name = true ∧ name ∈ Sexpr.reservedWords) ∧ KeepsBlanks name.toList

instance (name : String) : Decidable (ComesBack name) := inferInstanceAs (Decidable (_ ∧ _))

theorem not_mem_of_isPlainSymbol {name : String} (h : isPlainSymbol name = true) :
    '\n' ∉ name.toList := by
  have hword := isWord_of_isPlainSymbol h
  unfold isWord at hword
  split at hword
  · cases hword
  · next c cs hlist =>
    obtain ⟨hc, hcs⟩ := Bool.and_eq_true_iff.mp hword
    rw [hlist, List.mem_cons, not_or]
    refine ⟨?_, fun hmem => absurd (List.all_eq_true.mp hcs '\n' hmem) (by decide)⟩
    rintro rfl
    exact absurd hc (by decide)

/-- What is left of a symbol is read as a token, which is the name itself exactly if the name comes
back. -/
theorem exists_tidied (s : Symbol) :
    ∃ ls ls' a, Tidied s.text ls ls' ∧ Writes (joined ls') [.atom a] ∧
      (symbolName? a = some s.name ↔ ComesBack s.name) := by
  unfold Symbol.text ComesBack
  by_cases hplain : isPlainSymbol s.name = true
  · have hline := not_mem_of_isPlainSymbol hplain
    rw [if_pos hplain]
    refine ⟨_, _, wordAtom s.name, tidied_plain hline, ?_, ?_⟩
    · rw [joined_singleton]
      exact readsAs_word (isWord_of_isPlainSymbol hplain)
    · rw [and_iff_left (keepsBlanks_of_not_mem hline)]
      unfold wordAtom
      by_cases hreserved : s.name ∈ Sexpr.reservedWords
      · simp [symbolName?, hreserved, hplain]
      · simp [symbolName?, hreserved]
  · rw [if_neg hplain]
    refine ⟨_, _, .symbol (String.ofList (tidy s.name.toList)), tidied_barred s.name, ?_, ?_⟩
    · have hbar : '|' ∉ (String.ofList (tidy s.name.toList)).toList := by
        rw [String.toList_ofList]
        exact not_mem_tidy (by decide) (bar_not_mem hplain)
      have hread := readsAs_barred hbar
      unfold ReadsAs at hread
      rw [String.toList_append, String.toList_append, String.toList_ofList] at hread
      rw [joined_frame (tidyLines_ne_nil (List.splitOn_ne_nil '\n' _)), ← tidy]
      simpa [written] using hread
    · rw [← tidy_eq_self_iff, symbolName?, Option.some_inj, ← String.toList_inj,
        String.toList_ofList]
      exact (and_iff_right fun hreserved => hplain hreserved.1).symm

/-- A constant whose value a solver prints: the model of the answer has this value for the name
exactly if the name comes back, and else it has no value for it. -/
theorem get?_of_output_iff {name : String} {s : Symbol} (h : Symbol.ofName name = .ok s) (n : Nat)
    (exit : Option Int) :
    ∃ model, Answer.parse (output s.text n) exit = .ok (.sat (some model)) ∧
      model.get? name = if ComesBack name then some (toString n) else none := by
  obtain ⟨ls, ls', a, htidied, hwrites, hname⟩ := exists_tidied s
  obtain rfl := name_of_ofName h
  refine ⟨_, parse_output htidied n exit, ?_⟩
  unfold read
  rw [parse_block hwrites]
  cases ha : symbolName? a with
  | none =>
    have hback : ¬ComesBack s.name := by
      rw [← hname, ha]
      exact nofun
    rw [if_neg hback]
    rfl
  | some name =>
    rw [ha, Option.some_inj] at hname
    by_cases hback : ComesBack s.name
    · rw [if_pos hback, hname.mpr hback]
      simp [get?]
    · have hne : name ≠ s.name := fun heq => hback (hname.mp heq)
      rw [if_neg hback]
      simp [get?, hne]

/-- A name with blanks comes back; a blank in front of a line feed does not, and neither does the
name of a command. -/
theorem get?_of_output_names :
    (∃ s model, Symbol.ofName "a b" = .ok s ∧
      Answer.parse (output s.text 5) (some 0) = .ok (.sat (some model)) ∧
        model.get? "a b" = some "5") ∧
    (∃ s model, Symbol.ofName "a \nb" = .ok s ∧
      Answer.parse (output s.text 5) (some 0) = .ok (.sat (some model)) ∧
        model.get? "a \nb" = none) ∧
    ∃ s model, Symbol.ofName "assert" = .ok s ∧
      Answer.parse (output s.text 5) (some 0) = .ok (.sat (some model)) ∧
        model.get? "assert" = none := by
  refine ⟨?_, ?_, ?_⟩
  · have hname : Symbol.ofName "a b" = .ok _ := rfl
    obtain ⟨model, hparse, hget⟩ := get?_of_output_iff hname 5 (some 0)
    exact ⟨_, model, hname, hparse, hget.trans (if_pos (by decide))⟩
  · have hname : Symbol.ofName "a \nb" = .ok _ := rfl
    obtain ⟨model, hparse, hget⟩ := get?_of_output_iff hname 5 (some 0)
    exact ⟨_, model, hname, hparse, hget.trans (if_neg (by decide))⟩
  · have hname : Symbol.ofName "assert" = .ok _ := rfl
    obtain ⟨model, hparse, hget⟩ := get?_of_output_iff hname 5 (some 0)
    exact ⟨_, model, hname, hparse, hget.trans (if_neg (by decide))⟩

end Model

end Regression
