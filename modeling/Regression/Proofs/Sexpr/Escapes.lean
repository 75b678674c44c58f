import Mathlib.Data.List.Infix
import Regression.Proofs.Sexpr.Written
import Regression.Proofs.Text
import Regression.Text.Digits

/-!
# The characters of a string constant

A string constant stands for a sequence of characters, which are numbers. Its text gives them as
they are, or by escapes: `\u` with four hexadecimal digits, or with up to five in braces.

* `Sexpr.codes`: the characters that a text between quotation marks stands for.
* `Sexpr.stringCodes?`: the characters of a text that is a string constant.
* `Sexpr.codes_eq_map_iff`: a text stands for itself exactly if no escape occurs in it.
* `Sexpr.le_lastCode_of_mem_codes`: escapes do not lead out of the characters that there are.
-/

namespace Regression.Sexpr

/-! ## Escapes -/

/-- The last of the characters that strings are made of. -/
def lastCode : Nat := 0x2FFFF

/-- The character that hexadecimal digits stand for. -/
def code? (digits : List Char) : Option Nat := (Text.natural? 16 digits).filter (· ≤ lastCode)

/-- Up to five digits in front of a closing brace, and what follows. -/
def braced? (cs : List Char) : Option (Nat × List Char) := do
  let rest ← Text.dropPattern? ['}'] (cs.dropWhile isHexDigit)
  let digits := cs.takeWhile isHexDigit
  if digits.length ≤ 5 then (code? digits).map fun code => (code, rest) else none

/-- Four digits, and what follows. -/
def unbraced? (cs : List Char) : Option (Nat × List Char) :=
  if 4 ≤ (cs.takeWhile isHexDigit).length then (code? (cs.take 4)).map fun code => (code, cs.drop 4)
  else none

/-- The character that an escape at the start of a text stands for, and what follows the escape. -/
def escape? : List Char → Option (Nat × List Char)
  | '\\' :: cs => do
    let cs ← Text.dropPattern? ['u'] cs
    match Text.dropPattern? ['{'] cs with
    | some cs => braced? cs
    | none => unbraced? cs
  | _ => none

/-- An escape occurs in a text. -/
def HasEscape (cs : List Char) : Prop := ∃ rest, rest <:+ cs ∧ escape? rest ≠ none

/-- The characters of a text whose first `skip` characters belong to an escape. -/
def codesFrom : Nat → List Char → List Nat
  | _, [] => []
  | skip + 1, _ :: cs => codesFrom skip cs
  | 0, c :: cs =>
    match escape? (c :: cs) with
    | some (code, rest) => code :: codesFrom (cs.length - rest.length) cs
    | none => c.toNat :: codesFrom 0 cs

/-- The characters that a text between quotation marks stands for. -/
def codes (cs : List Char) : List Nat := codesFrom 0 cs

/-- The characters of a text that is a string constant. -/
def stringCodes? (text : String) : Option (List Nat) :=
  match ofText? text with
  | some [.atom (.string cs)] => some (codes cs)
  | _ => none

example : stringCodes? "\"\\u\x7b1f600\x7d\\u0041\\u\x7b30000\x7d\"" =
    some (0x1F600 :: 0x41 :: "\\u\x7b30000\x7d".toList.map Char.toNat) := by decide

/-! ## Where an escape ends -/

variable {cs rest : List Char} {code : Nat}

theorem le_lastCode_of_code? (h : code? cs = some code) : code ≤ lastCode := by
  unfold code? at h
  have hfilter := (Option.filter_eq_some_iff.mp h).2
  simpa using hfilter

theorem braced?_eq_some (h : braced? cs = some (code, rest)) : code ≤ lastCode ∧ rest <:+ cs := by
  unfold braced? at h
  obtain ⟨rest', hrest, h⟩ := Option.bind_eq_some_iff.mp h
  obtain ⟨-, h⟩ := Option.ite_none_right_eq_some.mp h
  obtain ⟨code', hcode, heq⟩ := Option.map_eq_some_iff.mp h
  cases heq
  have hsuffix : rest <:+ cs.dropWhile isHexDigit :=
    ⟨['}'], (Text.eq_append_of_dropPattern? hrest).symm⟩
  exact ⟨le_lastCode_of_code? hcode, hsuffix.trans (List.dropWhile_suffix _)⟩

theorem unbraced?_eq_some (h : unbraced? cs = some (code, rest)) :
    code ≤ lastCode ∧ rest <:+ cs := by
  unfold unbraced? at h
  obtain ⟨-, h⟩ := Option.ite_none_right_eq_some.mp h
  obtain ⟨code', hcode, heq⟩ := Option.map_eq_some_iff.mp h
  cases heq
  exact ⟨le_lastCode_of_code? hcode, List.drop_suffix 4 cs⟩

/-- An escape is more than one character, and it stands for one of the characters that there
are. -/
theorem escape?_eq_some (h : escape? cs = some (code, rest)) :
    code ≤ lastCode ∧ ∃ inner, cs = '\\' :: 'u' :: inner ∧ rest <:+ inner := by
  unfold escape? at h
  split at h
  · next cs =>
    obtain ⟨inner, hinner, h⟩ := Option.bind_eq_some_iff.mp h
    have hcs : cs = 'u' :: inner := Text.eq_append_of_dropPattern? hinner
    rw [hcs]
    split at h
    · next braced hbraced =>
      obtain ⟨hcode, hrest⟩ := braced?_eq_some h
      have hsuffix : braced <:+ inner := ⟨['{'], (Text.eq_append_of_dropPattern? hbraced).symm⟩
      exact ⟨hcode, inner, rfl, hrest.trans hsuffix⟩
    · obtain ⟨hcode, hrest⟩ := unbraced?_eq_some h
      exact ⟨hcode, inner, rfl, hrest⟩
  · cases h

theorem escape?_backslash (cs : List Char) :
    escape? ('\\' :: cs) = (Text.dropPattern? ['u'] cs).bind fun cs =>
      match Text.dropPattern? ['{'] cs with
      | some cs => braced? cs
      | none => unbraced? cs := rfl

theorem escape?_cons_of_ne {c : Char} (hc : c ≠ '\\') (cs : List Char) :
    escape? (c :: cs) = none := by
  unfold escape?
  split
  · next heq =>
    cases heq
    exact absurd rfl hc
  · rfl

/-! ## Characters one by one -/

theorem codesFrom_eq (skip : Nat) (cs : List Char) : codesFrom skip cs = codes (cs.drop skip) := by
  induction skip generalizing cs with
  | zero => rfl
  | succ skip ih =>
    cases cs with
    | nil => rfl
    | cons c cs => exact ih cs

@[simp] theorem codes_nil : codes [] = [] := rfl

/-- A character that starts no escape stands for itself. -/
theorem codes_cons {c : Char} (h : escape? (c :: cs) = none) :
    codes (c :: cs) = c.toNat :: codes cs := by
  rw [codes, codesFrom, h]
  rfl

theorem codes_of_escape? (h : escape? cs = some (code, rest)) : codes cs = code :: codes rest := by
  obtain ⟨-, inner, rfl, hrest⟩ := escape?_eq_some h
  have hsuffix : rest <:+ 'u' :: inner := hrest.trans (List.suffix_cons 'u' inner)
  rw [codes, codesFrom, h]
  dsimp only
  rw [codesFrom_eq, ← List.suffix_iff_eq_drop.mp hsuffix]

/-- How a text is read: by an escape at its start, or by its first character. -/
theorem codes_induction {P : List Char → Prop} (nil : P [])
    (escape : ∀ {cs code rest}, escape? cs = some (code, rest) → P rest → P cs)
    (cons : ∀ {c cs}, escape? (c :: cs) = none → P cs → P (c :: cs)) (cs : List Char) : P cs := by
  -- An escape may be of any length, so that the induction is on the length of the text.
  generalize hlength : cs.length = n
  induction n using Nat.strongRecOn generalizing cs with
  | ind n ih =>
    cases hescape : escape? cs with
    | some r =>
      obtain ⟨-, inner, rfl, hrest⟩ := escape?_eq_some hescape
      have hle := hrest.length_le
      simp only [List.length_cons] at hlength
      exact escape hescape (ih r.2.length (by omega) r.2 rfl)
    | none =>
      cases cs with
      | nil => exact nil
      | cons c cs =>
        simp only [List.length_cons] at hlength
        exact cons hescape (ih cs.length (by omega) cs rfl)

theorem length_codes_le (cs : List Char) : (codes cs).length ≤ cs.length := by
  induction cs using codes_induction with
  | nil => exact Nat.le_refl _
  | @escape cs code rest h ih =>
    rw [codes_of_escape? h]
    obtain ⟨-, inner, rfl, hrest⟩ := escape?_eq_some h
    have hle := hrest.length_le
    simp only [List.length_cons]
    omega
  | @cons c cs h ih =>
    rw [codes_cons h]
    exact Nat.succ_le_succ ih

/-- Neither escapes nor other characters lead out of the characters that there are. -/
theorem le_lastCode_of_mem_codes (hcs : ∀ c ∈ cs, c.toNat ≤ lastCode) :
    ∀ code ∈ codes cs, code ≤ lastCode := by
  induction cs using codes_induction with
  | nil => exact fun _ hmem => by cases hmem
  | @escape cs code rest h ih =>
    obtain ⟨hcode, inner, rfl, hrest⟩ := escape?_eq_some h
    have hsubset : ∀ c ∈ rest, c.toNat ≤ lastCode := fun c hc =>
      hcs c (List.mem_cons_of_mem _ (List.mem_cons_of_mem _ (hrest.subset hc)))
    rw [codes_of_escape? h]
    exact List.forall_mem_cons.mpr ⟨hcode, ih hsubset⟩
  | @cons c cs h ih =>
    obtain ⟨hc, hcs⟩ := List.forall_mem_cons.mp hcs
    rw [codes_cons h]
    exact List.forall_mem_cons.mpr ⟨hc, ih hcs⟩

theorem hasEscape_cons {c : Char} (h : escape? (c :: cs) = none) :
    HasEscape (c :: cs) ↔ HasEscape cs := by
  constructor
  · rintro ⟨rest, hrest, hescape⟩
    rcases List.suffix_cons_iff.mp hrest with rfl | hrest
    · exact absurd h hescape
    · exact ⟨rest, hrest, hescape⟩
  · rintro ⟨rest, hrest, hescape⟩
    exact ⟨rest, hrest.trans (List.suffix_cons c cs), hescape⟩

/-- A text stands for itself exactly if no escape occurs in it: an escape makes it shorter. -/
theorem codes_eq_map_iff (cs : List Char) : codes cs = cs.map Char.toNat ↔ ¬HasEscape cs := by
  induction cs using codes_induction with
  | nil =>
    refine ⟨fun _ => ?_, fun _ => rfl⟩
    rintro ⟨rest, hrest, hescape⟩
    rw [List.suffix_nil.mp hrest] at hescape
    exact hescape rfl
  | @escape cs code rest h ih =>
    have hescape : HasEscape cs := ⟨cs, List.suffix_refl cs, by rw [h]; exact Option.some_ne_none _⟩
    refine ⟨fun heq => ?_, fun hnone => absurd hescape hnone⟩
    obtain ⟨-, inner, rfl, hrest⟩ := escape?_eq_some h
    have hlength := congrArg List.length heq
    have hle := hrest.length_le
    have hcodes := length_codes_le rest
    rw [codes_of_escape? h] at hlength
    simp only [List.length_cons, List.length_map] at hlength
    omega
  | @cons c cs h ih =>
    rw [codes_cons h, hasEscape_cons h, ← ih, List.map_cons, List.cons_inj_right]

/-! ## String constants -/

theorem ofText?_of_readsAs {text : String} {x : Sexpr} (h : ReadsAs text x) :
    ofText? text = some [x] := by
  have hlexes : Lexes (text.toList ++ []) (x.written ++ []) :=
    h [] [] (fun _ hc => by cases hc) (.done rfl)
  rw [List.append_nil] at hlexes
  rw [ofText?_of_lexes hlexes]
  exact ofTokens?_writtenAll [x]

theorem stringCodes?_of_readsAs {text : String} (h : ReadsAs text (.atom (.string cs))) :
    stringCodes? text = some (codes cs) := by
  unfold stringCodes?
  rw [ofText?_of_readsAs h]

end Regression.Sexpr
