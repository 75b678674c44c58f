import Regression.Sexpr.Basic

/-!
# Reading texts to their end

A text is read to its end if every character is part of a token, of a comment or of the white space
between them.

* `Lexes`: the tokens of a text that is read to its end.
* `Lexes.unread`, `Lexes.tokens`: the reader stops at the end then, and has found these tokens.
-/

namespace Regression.Sexpr

/-- What is left of a text behind at most `bound` tokens. -/
def restWithin : Nat → List Char → List Char
  | 0, cs => skipSpace false cs
  | bound + 1, cs =>
    match token? (skipSpace false cs) with
    | some (_, rest) => restWithin bound rest
    | none => skipSpace false cs

/-- What is not read of a text: it starts with a character that starts no token. -/
def unread (cs : List Char) : List Char := restWithin cs.length cs

/-- The bracketed expressions of a text that is read to its end. -/
def ofText? (text : String) : Option (List Sexpr) :=
  if unread text.toList = [] then ofTokens? (tokens text.toList) else none

/-- The tokens of a text that is read to its end. -/
inductive Lexes : List Char → List Token → Prop
  | done {cs : List Char} (h : skipSpace false cs = []) : Lexes cs []
  | token {cs rest : List Char} {t : Token} {ts : List Token}
    (h : token? (skipSpace false cs) = some (t, rest)) (hrest : Lexes rest ts) : Lexes cs (t :: ts)

/-! ## Every token takes a character -/

theorem length_skipSpace_le (inComment : Bool) (cs : List Char) :
    (skipSpace inComment cs).length ≤ cs.length := by
  induction cs generalizing inComment with
  | nil => cases inComment <;> exact Nat.le_refl _
  | cons c rest ih =>
    have hrest (b : Bool) : (skipSpace b rest).length ≤ (c :: rest).length :=
      Nat.le_succ_of_le (ih b)
    cases inComment with
    | true => exact hrest _
    | false =>
      unfold skipSpace
      split
      · exact hrest _
      · split
        · exact hrest _
        · exact Nat.le_refl _

theorem length_lt_of_barred? {cs name rest : List Char} (h : barred? cs = some (name, rest)) :
    rest.length < cs.length := by
  induction cs generalizing name with
  | nil => cases h
  | cons c cs ih =>
    unfold barred? at h
    split at h
    · next heq => cases heq
    · next heq =>
      cases heq
      cases h
      exact Nat.lt_succ_self _
    · next heq =>
      cases heq
      obtain ⟨⟨name', rest'⟩, hmore, heq⟩ := Option.map_eq_some_iff.mp h
      cases heq
      exact Nat.lt_succ_of_lt (ih hmore)

theorem length_lt_of_stringBody? {cs value rest : List Char}
    (h : stringBody? cs = some (value, rest)) : rest.length < cs.length := by
  induction cs using stringBody?.induct generalizing value with
  | case1 => cases h
  | case2 cs ih =>
    obtain ⟨⟨value', rest'⟩, hmore, heq⟩ := Option.map_eq_some_iff.mp h
    cases heq
    have hlt := ih hmore
    simp only [List.length_cons]
    omega
  | case3 cs hne =>
    rw [stringBody?.eq_3 _ hne] at h
    cases h
    exact Nat.lt_succ_self _
  | case4 c cs h1 h2 ih =>
    rw [stringBody?.eq_4 _ _ h1 h2] at h
    obtain ⟨⟨value', rest'⟩, hmore, heq⟩ := Option.map_eq_some_iff.mp h
    cases heq
    exact Nat.lt_succ_of_lt (ih hmore)

theorem length_dropWhile_le (p : Char → Bool) (cs : List Char) :
    (cs.dropWhile p).length ≤ cs.length :=
  (List.dropWhile_suffix p).length_le

theorem length_lt_of_digits? {isDigit : Char → Bool} {cs digits rest : List Char}
    (h : digits? isDigit cs = some (digits, rest)) : rest.length < cs.length := by
  have hwhole : (cs.takeWhile isDigit).length + (cs.dropWhile isDigit).length = cs.length := by
    rw [← List.length_append, List.takeWhile_append_dropWhile]
  unfold digits? at h
  obtain ⟨hsome, h⟩ := Option.ite_none_left_eq_some.mp h
  have hpos : 0 < (cs.takeWhile isDigit).length := by
    rw [List.length_pos_iff]
    simpa using hsome
  cases h
  omega

theorem length_lt_of_number? {cs rest : List Char} {a : Atom} (h : number? cs = some (a, rest)) :
    rest.length < cs.length := by
  unfold number? at h
  obtain ⟨⟨whole, more⟩, hwhole, h⟩ := Option.bind_eq_some_iff.mp h
  have hlt : more.length < cs.length := length_lt_of_digits? hwhole
  obtain ⟨-, h⟩ := Option.ite_none_left_eq_some.mp h
  split at h
  · obtain ⟨⟨fraction, rest'⟩, hfraction, h⟩ := Option.bind_eq_some_iff.mp h
    have hlt' := length_lt_of_digits? hfraction
    cases h
    simp only [List.length_cons] at hlt
    omega
  · cases h
    exact hlt

theorem length_lt_of_token? {cs rest : List Char} {t : Token} (h : token? cs = some (t, rest)) :
    rest.length < cs.length := by
  unfold token? at h
  split at h
  · cases h
  · cases h
    exact Nat.lt_succ_self _
  · cases h
    exact Nat.lt_succ_self _
  · obtain ⟨⟨name, rest'⟩, hname, heq⟩ := Option.map_eq_some_iff.mp h
    cases heq
    exact Nat.lt_succ_of_lt (length_lt_of_barred? hname)
  · obtain ⟨⟨value, rest'⟩, hvalue, heq⟩ := Option.map_eq_some_iff.mp h
    cases heq
    exact Nat.lt_succ_of_lt (length_lt_of_stringBody? hvalue)
  · obtain ⟨⟨digits, rest'⟩, hdigits, heq⟩ := Option.map_eq_some_iff.mp h
    cases heq
    exact Nat.lt_succ_of_lt (Nat.lt_succ_of_lt (length_lt_of_digits? hdigits))
  · obtain ⟨⟨digits, rest'⟩, hdigits, heq⟩ := Option.map_eq_some_iff.mp h
    cases heq
    exact Nat.lt_succ_of_lt (Nat.lt_succ_of_lt (length_lt_of_digits? hdigits))
  · cases h
    exact Nat.lt_succ_of_le (length_dropWhile_le _ _)
  · split at h
    · obtain ⟨⟨a, rest'⟩, hnumber, heq⟩ := Option.map_eq_some_iff.mp h
      cases heq
      exact length_lt_of_number? hnumber
    · obtain ⟨-, h⟩ := Option.ite_none_right_eq_some.mp h
      cases h
      exact Nat.lt_succ_of_le (length_dropWhile_le _ _)

/-! ## Texts that are read to their end -/

namespace Lexes

variable {cs : List Char} {ts : List Token}

theorem length_le (h : Lexes cs ts) : ts.length ≤ cs.length := by
  induction h with
  | done _ => exact Nat.zero_le _
  | @token cs rest t ts ht _ ih =>
    have hlt := length_lt_of_token? ht
    have hle := length_skipSpace_le false cs
    rw [List.length_cons]
    omega

theorem tokensWithin (h : Lexes cs ts) {bound : Nat} (hbound : ts.length ≤ bound) :
    tokensWithin bound cs = ts ∧ restWithin bound cs = [] := by
  induction h generalizing bound with
  | @done cs hdone =>
    cases bound with
    | zero => exact ⟨rfl, hdone⟩
    | succ bound =>
      rw [Sexpr.tokensWithin, restWithin, hdone]
      exact ⟨rfl, rfl⟩
  | @token cs rest t ts ht _ ih =>
    cases bound with
    | zero => cases hbound
    | succ bound =>
      obtain ⟨htokens, hrest⟩ := ih (Nat.le_of_succ_le_succ hbound)
      rw [Sexpr.tokensWithin, restWithin, ht]
      exact ⟨congrArg (t :: ·) htokens, hrest⟩

theorem tokens (h : Lexes cs ts) : tokens cs = ts := (h.tokensWithin h.length_le).1

theorem unread (h : Lexes cs ts) : unread cs = [] := (h.tokensWithin h.length_le).2

end Lexes

theorem ofText?_of_lexes {text : String} {ts : List Token} (h : Lexes text.toList ts) :
    ofText? text = ofTokens? ts := by
  unfold ofText?
  rw [h.tokens, if_pos h.unread]

end Regression.Sexpr
