import Mathlib.Data.List.Forall2
import Regression.Proofs.Number.Plain
import Regression.Proofs.Sexpr.Tokens

/-!
# Texts that are read as they were meant

A text stands for tokens if it is read as these tokens wherever it is put in front of a blank, of a
closing bracket or of the end of a line. Such texts can be put together: lists of them, with blanks
between, stand for lists.

* `Writes`, `ReadsAs`: a text stands for some tokens, or for an expression.
* `readsAs_word`, `readsAs_barred`, `readsAs_string`, `readsAs_numeral`, `readsAs_decimal`: single
  tokens.
* `readsAs_list`: lists.
* `ofText?_lines`: a text of lines is read line by line.
-/

namespace Regression.Sexpr

/-! ## Expressions as tokens -/

mutual

/-- The tokens of an expression. -/
def written : Sexpr → List Token
  | .atom a => [.atom a]
  | .list items => .opening :: (writtenAll items ++ [Token.closing])

def writtenAll : List Sexpr → List Token
  | [] => []
  | x :: xs => written x ++ writtenAll xs

end

mutual

/-- Reading the tokens of an expression completes it in the innermost list. -/
theorem foldlM_written (x : Sexpr) (r : Reading) :
    (written x).foldlM Reading.step? r = some ⟨x :: r.current, r.outer⟩ := by
  cases x with
  | atom a => rfl
  | list items =>
    show (writtenAll items ++ [Token.closing]).foldlM Reading.step? ⟨[], r.current :: r.outer⟩ = _
    rw [List.foldlM_append, foldlM_writtenAll items, List.append_nil]
    show some (⟨.list items.reverse.reverse :: r.current, r.outer⟩ : Reading) = _
    rw [List.reverse_reverse]

theorem foldlM_writtenAll (xs : List Sexpr) (r : Reading) :
    (writtenAll xs).foldlM Reading.step? r = some ⟨xs.reverse ++ r.current, r.outer⟩ := by
  cases xs with
  | nil => rfl
  | cons x xs =>
    rw [writtenAll, List.foldlM_append, foldlM_written x]
    show (writtenAll xs).foldlM Reading.step? ⟨x :: r.current, r.outer⟩ = _
    rw [foldlM_writtenAll xs, List.reverse_cons, List.append_assoc]
    rfl

end

/-- The tokens of some expressions describe these expressions. -/
theorem ofTokens?_writtenAll (xs : List Sexpr) : ofTokens? (writtenAll xs) = some xs := by
  unfold ofTokens?
  rw [foldlM_writtenAll, List.append_nil]
  show some xs.reverse.reverse = some xs
  rw [List.reverse_reverse]

/-! ## Texts that stand for tokens -/

/-- What may follow a token so that it is not part of it. -/
def EndsToken (rest : List Char) : Prop := ∀ c ∈ rest.head?, c = ' ' ∨ c = ')' ∨ c = '\n'

/-- Wherever the characters are put in front of an end, they are read as the tokens. -/
def Writes (cs : List Char) (ts : List Token) : Prop :=
  ∀ (rest : List Char) (more : List Token), EndsToken rest → Lexes rest more →
    Lexes (cs ++ rest) (ts ++ more)

/-- A text stands for an expression. -/
def ReadsAs (text : String) (x : Sexpr) : Prop := Writes text.toList x.written

theorem Lexes.skip {c : Char} {rest : List Char} {ts : List Token} (hc : isSpace c = true)
    (h : Lexes rest ts) : Lexes (c :: rest) ts := by
  have hskip : skipSpace false (c :: rest) = skipSpace false rest := by
    rw [skipSpace, if_pos hc]
  cases h with
  | done hdone => exact .done (hskip.trans hdone)
  | token ht hrest => exact .token ((congrArg token? hskip).trans ht) hrest

/-- A single token that is cut off at every end. -/
theorem writes_of_token? {c : Char} {cs : List Char} {t : Token}
    (hspace : isSpace c = false) (hcomment : c ≠ ';')
    (ht : ∀ rest, EndsToken rest → token? (c :: (cs ++ rest)) = some (t, rest)) :
    Writes (c :: cs) [t] := by
  intro rest more hrest hmore
  refine .token ?_ hmore
  show token? (skipSpace false (c :: (cs ++ rest))) = some (t, rest)
  rw [skipSpace, hspace, if_neg Bool.false_ne_true, if_neg hcomment]
  exact ht rest hrest

theorem EndsToken.blank (rest : List Char) : EndsToken (' ' :: rest) := by
  rintro c hc
  exact .inl (Option.some.inj hc).symm

theorem EndsToken.closing (rest : List Char) : EndsToken (')' :: rest) := by
  rintro c hc
  exact .inr (.inl (Option.some.inj hc).symm)

theorem EndsToken.line (rest : List Char) : EndsToken ('\n' :: rest) := by
  rintro c hc
  exact .inr (.inr (Option.some.inj hc).symm)

/-- Characters of a kind are taken up to one of another kind. -/
theorem takeWhile_append {p : Char → Bool} {cs rest : List Char} (hcs : ∀ c ∈ cs, p c = true)
    (hrest : ∀ c ∈ rest.head?, p c = false) :
    (cs ++ rest).takeWhile p = cs ∧ (cs ++ rest).dropWhile p = rest := by
  have hends : rest.takeWhile p = [] ∧ rest.dropWhile p = rest := by
    cases rest with
    | nil => exact ⟨rfl, rfl⟩
    | cons c rest =>
      rw [List.takeWhile_cons, List.dropWhile_cons, hrest c rfl]
      exact ⟨rfl, rfl⟩
  rw [List.takeWhile_append_of_pos hcs, List.dropWhile_append_of_pos hcs, hends.1, hends.2,
    List.append_nil]
  exact ⟨rfl, rfl⟩

theorem EndsToken.head {p : Char → Bool} {rest : List Char} (h : EndsToken rest)
    (hblank : p ' ' = false) (hclosing : p ')' = false) (hline : p '\n' = false) :
    ∀ c ∈ rest.head?, p c = false := by
  intro c hc
  rcases h c hc with rfl | rfl | rfl
  · exact hblank
  · exact hclosing
  · exact hline

/-! ## Words, numbers and keywords -/

/-- What starts with no special mark is a number or a word. -/
theorem token?_cons {c : Char} (hc : c ∉ ['(', ')', '|', '"', '#', ':']) (cs : List Char) :
    token? (c :: cs) =
      if Binary64.isDigit c then (number? (c :: cs)).map fun (a, rest) => (.atom a, rest)
      else if Script.isSymbolStart c then
        some (.atom (wordAtom (String.ofList (c :: cs.takeWhile Script.isSymbolChar))),
          cs.dropWhile Script.isSymbolChar)
      else none := by
  simp only [List.mem_cons, List.not_mem_nil, or_false, not_or] at hc
  obtain ⟨hopening, hclosing, hbar, hquote, hhash, hcolon⟩ := hc
  rw [token?]
  · exact hopening
  · exact hclosing
  · exact hbar
  · exact hquote
  · exact fun _ heq => absurd heq hhash
  · exact fun _ heq => absurd heq hhash
  · exact hcolon

/-- A text that is a token as it stands. -/
def isWord (w : String) : Bool :=
  match w.toList with
  | [] => false
  | c :: cs => Script.isSymbolStart c && cs.all Script.isSymbolChar

/-- Neither mark nor blank is of a kind of characters. -/
theorem not_mem_of_any_eq_false {p : Char → Bool} {c : Char} (hc : p c = true)
    {marks : List Char} (hmarks : marks.any p = false) : c ∉ marks :=
  fun hmem => List.any_eq_false.mp hmarks c hmem hc

theorem isDigit_eq_false_of_isSymbolStart {c : Char} (h : Script.isSymbolStart c = true) :
    Binary64.isDigit c = false := by
  unfold Script.isSymbolStart at h
  rw [Bool.or_eq_true, List.contains_iff_mem] at h
  rcases h with h | h
  · have hletter : 'a' ≤ c ∧ c ≤ 'z' ∨ 'A' ≤ c ∧ c ≤ 'Z' := by simpa using h
    have hnot : ¬('0' ≤ c ∧ c ≤ '9') := by
      simp only [Char.le_def, UInt32.le_iff_toNat_le] at hletter ⊢
      simp at hletter ⊢
      omega
    unfold Binary64.isDigit Binary64.digit?
    rw [if_neg (by simpa using hnot)]
    rfl
  · have hmarks : "~!@$%^&*_+=<>.?/-".toList.any Binary64.isDigit = false := by decide
    exact Bool.eq_false_iff.mpr (List.any_eq_false.mp hmarks c h)

/-- A word stands for itself. -/
theorem readsAs_word {w : String} (hw : isWord w = true) : ReadsAs w (.atom (wordAtom w)) := by
  unfold isWord at hw
  unfold ReadsAs
  split at hw
  · cases hw
  · next c cs hlist =>
    obtain ⟨hc, hcs⟩ := Bool.and_eq_true_iff.mp hw
    have hcs : ∀ d ∈ cs, Script.isSymbolChar d = true := List.all_eq_true.mp hcs
    have hword : w = String.ofList (c :: cs) := by rw [← hlist, String.ofList_toList]
    rw [hlist]
    refine writes_of_token? ?_ ?_ ?_
    · have hmem : c ∉ [' ', '\t', '\n', '\r'] := not_mem_of_any_eq_false hc rfl
      simp only [List.mem_cons, List.not_mem_nil, or_false, not_or] at hmem
      simp [isSpace, hmem]
    · rintro rfl
      exact absurd hc (by decide)
    · intro rest hrest
      obtain ⟨htake, hdrop⟩ :=
        takeWhile_append hcs (hrest.head (by decide) (by decide) (by decide))
      rw [token?_cons (not_mem_of_any_eq_false hc rfl), isDigit_eq_false_of_isSymbolStart hc,
        if_neg Bool.false_ne_true, if_pos hc, htake, hdrop, hword]

/-- A keyword is a colon with a word. -/
theorem readsAs_keyword {name : String} (hname : name.toList.all Script.isSymbolChar = true) :
    ReadsAs (":" ++ name) (.atom (.keyword name)) := by
  have hname : ∀ d ∈ name.toList, Script.isSymbolChar d = true := List.all_eq_true.mp hname
  unfold ReadsAs
  rw [String.toList_append]
  refine writes_of_token? (by decide : isSpace ':' = false) (by decide) ?_
  intro rest hrest
  obtain ⟨htake, hdrop⟩ :=
    takeWhile_append hname (hrest.head (by decide) (by decide) (by decide))
  show some (Token.atom (.keyword (String.ofList ((name.toList ++ rest).takeWhile _))),
    (name.toList ++ rest).dropWhile _) = _
  rw [htake, hdrop, String.ofList_toList]

theorem digits?_append {isDigit : Char → Bool} {ds rest : List Char} (hne : ds ≠ [])
    (hds : ∀ c ∈ ds, isDigit c = true) (hrest : ∀ c ∈ rest.head?, isDigit c = false) :
    digits? isDigit (ds ++ rest) = some (ds, rest) := by
  obtain ⟨htake, hdrop⟩ := takeWhile_append hds hrest
  unfold digits?
  rw [htake, hdrop]
  exact if_neg (by simpa using hne)

/-- A number starts with a digit, and is read by its digits. -/
theorem writes_number {ds cs : List Char} {a : Atom} (hds : Binary64.IsWhole ds)
    (h : ∀ rest, EndsToken rest → number? (ds ++ (cs ++ rest)) = some (a, rest)) :
    Writes (ds ++ cs) [.atom a] := by
  obtain ⟨c, ds', rfl⟩ := List.exists_cons_of_ne_nil hds.ne_nil
  have hc : Binary64.isDigit c = true := hds.digits c List.mem_cons_self
  rw [List.cons_append]
  refine writes_of_token? ?_ ?_ ?_
  · have hmem : c ∉ [' ', '\t', '\n', '\r'] := not_mem_of_any_eq_false hc rfl
    simp only [List.mem_cons, List.not_mem_nil, or_false, not_or] at hmem
    simp [isSpace, hmem]
  · rintro rfl
    exact absurd hc (by decide)
  · intro rest hrest
    have hnumber := h rest hrest
    rw [token?_cons (not_mem_of_any_eq_false hc rfl), if_pos hc, List.append_assoc,
      ← List.cons_append, hnumber]
    rfl

theorem needlessZero_eq_false {ds : List Char} (hds : Binary64.IsWhole ds) :
    (ds.head? == some '0' && decide (1 < ds.length)) = false := by
  by_cases hhead : ds.head? = some '0'
  · rw [hds.zero hhead]
    rfl
  · rw [beq_eq_false_iff_ne.mpr hhead, Bool.false_and]

theorem number?_numeral {ds rest : List Char} (hds : Binary64.IsWhole ds) (hrest : EndsToken rest) :
    number? (ds ++ rest) = some (.numeral (Binary64.digitsValue ds), rest) := by
  unfold number?
  rw [digits?_append hds.ne_nil hds.digits (hrest.head (by decide) (by decide) (by decide))]
  dsimp only [Option.bind_eq_bind, Option.bind_some]
  rw [needlessZero_eq_false hds, if_neg Bool.false_ne_true]
  split
  · next rest' =>
    rcases hrest '.' rfl with h | h | h <;> cases h
  · rfl

theorem number?_decimal {whole fraction rest : List Char} (hwhole : Binary64.IsWhole whole)
    (hfraction : Binary64.IsFraction fraction) (hrest : EndsToken rest) :
    number? (whole ++ '.' :: (fraction ++ rest)) = some (.decimal whole fraction, rest) := by
  have hpoint : ∀ c ∈ ('.' :: (fraction ++ rest)).head?, Binary64.isDigit c = false := by
    intro c hc
    cases hc
    decide
  unfold number?
  rw [digits?_append hwhole.ne_nil hwhole.digits hpoint]
  dsimp only [Option.bind_eq_bind, Option.bind_some]
  rw [needlessZero_eq_false hwhole, if_neg Bool.false_ne_true]
  show (digits? Binary64.isDigit (fraction ++ rest)).bind _ = _
  rw [digits?_append hfraction.ne_nil hfraction.digits
    (hrest.head (by decide) (by decide) (by decide))]
  rfl

theorem readsAs_numeral (n : Nat) : ReadsAs (toString n) (.atom (.numeral n)) := by
  unfold ReadsAs
  rw [Script.Term.toList_toString, ← List.append_nil (Nat.toDigits 10 n)]
  refine writes_number (Binary64.isWhole_toDigits n) ?_
  intro rest hrest
  rw [List.nil_append, number?_numeral (Binary64.isWhole_toDigits n) hrest,
    Binary64.digitsValue_toDigits]

theorem readsAs_decimal {text : String} {whole fraction : List Char}
    (hwhole : Binary64.IsWhole whole) (hfraction : Binary64.IsFraction fraction)
    (htext : text.toList = whole ++ '.' :: fraction) :
    ReadsAs text (.atom (.decimal whole fraction)) := by
  unfold ReadsAs
  rw [htext]
  refine writes_number hwhole ?_
  intro rest hrest
  exact number?_decimal hwhole hfraction hrest

/-! ## Quoted names and strings -/

theorem barred?_append {name rest : List Char} (hname : '|' ∉ name) :
    barred? (name ++ '|' :: rest) = some (name, rest) := by
  induction name with
  | nil => rfl
  | cons c name ih =>
    have hc : c ≠ '|' := (List.ne_of_not_mem_cons hname).symm
    have hrest := ih (List.not_mem_of_not_mem_cons hname)
    rw [List.cons_append, barred?, hrest]
    · rfl
    · exact hc

/-- A name between bars is one symbol, whatever else it contains. -/
theorem readsAs_barred {name : String} (hname : '|' ∉ name.toList) :
    ReadsAs ("|" ++ name ++ "|") (.atom (.symbol name)) := by
  unfold ReadsAs
  rw [String.toList_append, String.toList_append]
  refine writes_of_token? (by decide : isSpace '|' = false) (by decide) ?_
  intro rest _
  show (barred? ((name.toList ++ ['|']) ++ rest)).map _ = _
  rw [List.append_assoc, List.singleton_append, barred?_append hname]
  show some (Token.atom (.symbol (String.ofList name.toList)), rest) = _
  rw [String.ofList_toList]

/-- How a character is written in a string. -/
def doubled (c : Char) : List Char := if c = '"' then ['"', '"'] else [c]

theorem stringBody?_append {rest : List Char} (hrest : ∀ c ∈ rest.head?, c ≠ '"')
    (value : List Char) :
    stringBody? (value.flatMap doubled ++ '"' :: rest) = some (value, rest) := by
  induction value with
  | nil =>
    show stringBody? ('"' :: rest) = some ([], rest)
    rw [stringBody?]
    rintro rest' rfl
    exact hrest '"' rfl rfl
  | cons c value ih =>
    rw [List.flatMap_cons, List.append_assoc]
    by_cases hc : c = '"'
    · subst hc
      show stringBody? ('"' :: '"' :: (value.flatMap doubled ++ '"' :: rest)) = _
      rw [stringBody?, ih]
      rfl
    · have hdoubled : doubled c = [c] := if_neg hc
      rw [hdoubled, List.singleton_append, stringBody?, ih]
      · rfl
      · exact fun _ heq => absurd heq hc
      · exact hc

/-- A string is one token, whatever it contains. -/
theorem readsAs_string (value : List Char) :
    ReadsAs ("\"" ++ String.ofList (value.flatMap doubled) ++ "\"") (.atom (.string value)) := by
  have hvalue : (String.ofList (value.flatMap doubled)).toList = value.flatMap doubled :=
    String.toList_ofList
  unfold ReadsAs
  rw [String.toList_append, String.toList_append, hvalue]
  refine writes_of_token? (by decide : isSpace '"' = false) (by decide) ?_
  intro rest hrest
  have hquote : ∀ c ∈ rest.head?, c ≠ '"' := by
    intro c hc
    rcases hrest c hc with rfl | rfl | rfl <;> decide
  show (stringBody? ((value.flatMap doubled ++ ['"']) ++ rest)).map _ = _
  rw [List.append_assoc, List.singleton_append, stringBody?_append hquote]
  rfl

/-! ## Lists and lines -/

/-- Some texts, each of which stands for an expression. -/
def AllRead (texts : List String) (xs : List Sexpr) : Prop := List.Forall₂ ReadsAs texts xs

theorem writes_intercalate {texts : List String} {xs : List Sexpr} (h : AllRead texts xs) :
    Writes (" ".intercalate texts).toList (writtenAll xs) := by
  induction h with
  | nil => exact fun _ _ _ hmore => hmore
  | @cons text x texts xs hx h ih =>
    cases h with
    | nil =>
      rw [String.intercalate_singleton, writtenAll, writtenAll, List.append_nil]
      exact hx
    | cons hy hys =>
      intro rest more hrest hmore
      have hrest := Lexes.skip (by decide : isSpace ' ' = true) (ih rest more hrest hmore)
      rw [String.intercalate_cons_cons, String.toList_append, String.toList_append, writtenAll,
        List.append_assoc, List.append_assoc, List.append_assoc]
      exact hx _ _ (.blank _) hrest

/-- A list of expressions stands for a list. -/
theorem readsAs_list {texts : List String} {xs : List Sexpr} (h : AllRead texts xs) :
    ReadsAs ("(" ++ " ".intercalate texts ++ ")") (.list xs) := by
  intro rest more hrest hmore
  rw [String.toList_append, String.toList_append, List.append_assoc, List.append_assoc]
  show Lexes ('(' :: ((" ".intercalate texts).toList ++ ')' :: rest))
    (.opening :: (writtenAll xs ++ [Token.closing] ++ more))
  rw [List.append_assoc]
  exact .token rfl (writes_intercalate h _ _ (.closing _) (.token rfl hmore))

theorem lexes_lines {lines : List String} {xs : List Sexpr} (h : AllRead lines xs) :
    Lexes (String.join (lines.map (· ++ "\n"))).toList (writtenAll xs) := by
  induction h with
  | nil => exact .done rfl
  | @cons line x lines xs hx _ ih =>
    rw [List.map_cons, String.join_cons, String.toList_append, String.toList_append,
      List.append_assoc]
    exact hx _ _ (.line _) (ih.skip (by decide : isSpace '\n' = true))

/-- A text of lines is read as the expressions of the lines, and to its end. -/
theorem ofText?_lines {lines : List String} {xs : List Sexpr} (h : AllRead lines xs) :
    ofText? (String.join (lines.map (· ++ "\n"))) = some xs := by
  rw [ofText?_of_lexes (lexes_lines h), ofTokens?_writtenAll]

end Regression.Sexpr
