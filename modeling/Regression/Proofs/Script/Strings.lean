import Regression.Oracle
import Regression.Proofs.Script.Terms
import Regression.Proofs.Sexpr.Escapes

/-!
# Strings in scripts

A string is written character by character: what is printable as it is, and the rest by its code
point. A backslash is printable, so that an escape that a string contains by itself is read as an
escape. A code point beyond the characters of the solver's strings is no escape for the solver.

* `Script.escape?_flatMap_spell`, `Script.escape?_spell`: which escapes a written string has.
* `Script.codes_flatMap_spell`: a written string is read as the string would be.
* `Script.stringCodes?_stringText_iff`: which strings are read back.
* `Script.strings_read_back_iff`: and when different strings are written differently.
-/

namespace Regression.Script

open Sexpr

/-! ## Characters -/

def IsPrintable (c : Char) : Prop := ' ' ≤ c ∧ c ≤ '~'

instance (c : Char) : Decidable (IsPrintable c) := inferInstanceAs (Decidable (_ ∧ _))

/-- What is written for a character, quotation marks aside. -/
def spell (c : Char) : List Char := if IsPrintable c then [c] else (Text.codePoint c).toList

theorem spell_of_isPrintable {c : Char} (h : IsPrintable c) : spell c = [c] := if_pos h

theorem spell_of_not_isPrintable {c : Char} (h : ¬IsPrintable c) :
    spell c = '\\' :: 'u' :: '{' :: (Nat.toDigits 16 c.toNat ++ ['}']) := by
  have hdigits : (Text.hexadecimal c.toNat).toList = Nat.toDigits 16 c.toNat :=
    String.toList_ofList
  unfold spell Text.codePoint
  rw [if_neg h, String.toList_append, String.toList_append, hdigits]
  rfl

theorem isPrintable_of_isHexDigit {c : Char} (h : isHexDigit c = true) : IsPrintable c := by
  unfold isHexDigit at h
  rw [Binary64.isDigit_eq] at h
  have hrange : '0' ≤ c ∧ c ≤ '9' ∨ 'a' ≤ c ∧ c ≤ 'f' ∨ 'A' ≤ c ∧ c ≤ 'F' := by
    simpa [Char.isDigit, or_assoc, Char.le_def] using h
  unfold IsPrintable
  simp only [Char.le_def, UInt32.le_iff_toNat_le] at hrange ⊢
  simp at hrange ⊢
  omega

theorem isHexDigit_of_mem_toDigits {c : Char} {n : Nat} (hc : c ∈ Nat.toDigits 16 n) :
    isHexDigit c = true := by
  obtain ⟨d, hd, rfl⟩ := mem_toDigits_sixteen hc
  have hall : ∀ d < 16, isHexDigit (Nat.digitChar d) = true := by decide
  exact hall d hd

theorem natural?_toDigits (n : Nat) : Text.natural? 16 (Nat.toDigits 16 n) = some n := by
  have hall : ∀ d < 16, Text.digit? 16 (Nat.digitChar d) = some d := by decide
  have hvalues : ∃ ds, (Nat.toDigits 16 n).mapM (Text.digit? 16) = some ds ∧ ds ≠ [] ∧
      ds.foldl (fun n d => 16 * n + d) 0 = n := by
    induction n using Nat.strongRecOn with
    | ind n ih =>
      by_cases hlt : n < 16
      · rw [Nat.toDigits_of_lt_base hlt]
        exact ⟨[n], by simp [hall n hlt], by simp, by simp⟩
      · obtain ⟨ds, hds, -, hvalue⟩ := ih (n / 16) (by omega)
        rw [Nat.toDigits_of_base_le (by omega) (by omega)]
        refine ⟨ds ++ [n % 16], ?_, by simp, ?_⟩
        · simp [List.mapM_append, hds, hall (n % 16) (by omega)]
        · rw [List.foldl_append, hvalue]
          exact Nat.div_add_mod n 16
  obtain ⟨ds, hds, hne, hvalue⟩ := hvalues
  unfold Text.natural?
  rw [hds]
  show (if ds.isEmpty then none else some (ds.foldl (fun n d => 16 * n + d) 0)) = some n
  rw [if_neg (by simpa using hne), hvalue]

/-! ## Escapes in a written string -/

variable {cs : List Char}

/-- A character that is not printable is an escape, if it is one of the solver's characters. -/
theorem escape?_spell {c : Char} (hc : ¬IsPrintable c) (hcode : c.toNat ≤ lastCode)
    (rest : List Char) : escape? (spell c ++ rest) = some (c.toNat, rest) := by
  obtain ⟨htake, hdrop⟩ : (Nat.toDigits 16 c.toNat ++ '}' :: rest).takeWhile isHexDigit =
        Nat.toDigits 16 c.toNat ∧
      (Nat.toDigits 16 c.toNat ++ '}' :: rest).dropWhile isHexDigit = '}' :: rest := by
    refine takeWhile_append (fun d hd => isHexDigit_of_mem_toDigits hd) ?_
    intro d hd
    cases hd
    decide
  have hlength : (Nat.toDigits 16 c.toNat).length ≤ 5 := by
    rw [Nat.length_toDigits_le_iff (by omega) (by omega)]
    unfold lastCode at hcode
    omega
  have hvalue : code? (Nat.toDigits 16 c.toNat) = some c.toNat := by
    unfold code?
    rw [natural?_toDigits, Option.filter_some, if_pos (by simpa using hcode)]
  rw [spell_of_not_isPrintable hc]
  show braced? ((Nat.toDigits 16 c.toNat ++ ['}']) ++ rest) = _
  rw [List.append_assoc, List.singleton_append]
  unfold braced?
  rw [htake, hdrop]
  show (if _ then (code? _).map _ else none) = _
  rw [if_pos hlength, hvalue]
  rfl

theorem flatMap_spell_cons {c : Char} (hc : IsPrintable c) :
    (c :: cs).flatMap spell = c :: cs.flatMap spell := by
  rw [List.flatMap_cons, spell_of_isPrintable hc]
  rfl

/-- What starts with a character that is not printable is written with a backslash in front. -/
theorem exists_flatMap_spell_cons {c : Char} (hc : ¬IsPrintable c) (cs : List Char) :
    ∃ rest, (c :: cs).flatMap spell = '\\' :: rest := by
  rw [List.flatMap_cons, spell_of_not_isPrintable hc]
  exact ⟨_, rfl⟩

/-- A written string goes on as the string does, backslashes aside. -/
theorem dropPattern?_flatMap_spell {p : Char} (hp : IsPrintable p) (hne : p ≠ '\\')
    (cs : List Char) :
    Text.dropPattern? [p] (cs.flatMap spell) =
      (Text.dropPattern? [p] cs).map (·.flatMap spell) := by
  have hsingle (c : Char) (rest : List Char) :
      Text.dropPattern? [p] (c :: rest) = if p = c then some rest else none := rfl
  cases cs with
  | nil => rfl
  | cons c cs =>
    by_cases hc : IsPrintable c
    · rw [flatMap_spell_cons hc, hsingle, hsingle]
      split <;> rfl
    · obtain ⟨rest, hrest⟩ := exists_flatMap_spell_cons hc cs
      have hpc : p ≠ c := by
        rintro rfl
        exact hc hp
      rw [hrest, hsingle, hsingle, if_neg hne, if_neg hpc]
      rfl

theorem takeWhile_flatMap_spell (cs : List Char) :
    (cs.flatMap spell).takeWhile isHexDigit = cs.takeWhile isHexDigit ∧
      (cs.flatMap spell).dropWhile isHexDigit = (cs.dropWhile isHexDigit).flatMap spell := by
  induction cs with
  | nil => exact ⟨rfl, rfl⟩
  | cons c cs ih =>
    by_cases hhex : isHexDigit c = true
    · rw [flatMap_spell_cons (isPrintable_of_isHexDigit hhex)]
      simp only [List.takeWhile_cons, List.dropWhile_cons, hhex, if_true, ih, and_self]
    · by_cases hc : IsPrintable c
      · rw [flatMap_spell_cons hc]
        simp only [List.takeWhile_cons, List.dropWhile_cons, hhex, if_false, Bool.false_eq_true,
          flatMap_spell_cons hc, and_self]
      · obtain ⟨rest, hrest⟩ := exists_flatMap_spell_cons hc cs
        have hbackslash : isHexDigit '\\' = false := by decide
        rw [hrest]
        simp only [List.takeWhile_cons, List.dropWhile_cons, hhex, hbackslash, if_false,
          Bool.false_eq_true, hrest, and_self]

theorem take_flatMap_spell {n : Nat} (h : n ≤ (cs.takeWhile isHexDigit).length) :
    (cs.flatMap spell).take n = cs.take n ∧
      (cs.flatMap spell).drop n = (cs.drop n).flatMap spell := by
  induction n generalizing cs with
  | zero => exact ⟨rfl, rfl⟩
  | succ n ih =>
    cases cs with
    | nil => cases h
    | cons c cs =>
      by_cases hhex : isHexDigit c = true
      · rw [List.takeWhile_cons, if_pos hhex] at h
        obtain ⟨htake, hdrop⟩ := ih (Nat.le_of_succ_le_succ h)
        rw [flatMap_spell_cons (isPrintable_of_isHexDigit hhex)]
        exact ⟨congrArg (c :: ·) htake, hdrop⟩
      · rw [List.takeWhile_cons, if_neg hhex] at h
        cases h

/-- Both kinds of escapes, which continue alike in a string and in what is written for it. -/
theorem braced?_flatMap_spell (cs : List Char) :
    braced? (cs.flatMap spell) = (braced? cs).map fun r => (r.1, r.2.flatMap spell) := by
  obtain ⟨htake, hdrop⟩ := takeWhile_flatMap_spell cs
  unfold braced?
  rw [htake, hdrop, dropPattern?_flatMap_spell (by decide) (by decide)]
  cases Text.dropPattern? ['}'] (cs.dropWhile isHexDigit) with
  | none => rfl
  | some rest =>
    show (if _ then (code? _).map _ else none) = Option.map _ (if _ then (code? _).map _ else none)
    split
    · rw [Option.map_map]
      rfl
    · rfl

theorem unbraced?_flatMap_spell (cs : List Char) :
    unbraced? (cs.flatMap spell) = (unbraced? cs).map fun r => (r.1, r.2.flatMap spell) := by
  unfold unbraced?
  rw [(takeWhile_flatMap_spell cs).1]
  split
  · next hlength =>
    obtain ⟨htake, hdrop⟩ := take_flatMap_spell hlength
    rw [htake, hdrop, Option.map_map]
    rfl
  · rfl

/-- An escape at a printable character is one of the string itself. -/
theorem escape?_flatMap_spell {c : Char} (hc : IsPrintable c) (cs : List Char) :
    escape? ((c :: cs).flatMap spell) =
      (escape? (c :: cs)).map fun r => (r.1, r.2.flatMap spell) := by
  rw [flatMap_spell_cons hc]
  -- What is not printable is written with a backslash in front, which no escape goes on with.
  by_cases hbackslash : c = '\\'
  · subst hbackslash
    rw [escape?_backslash, escape?_backslash, dropPattern?_flatMap_spell (by decide) (by decide)]
    cases Text.dropPattern? ['u'] cs with
    | none => rfl
    | some cs =>
      rw [Option.map_some, Option.bind_some, Option.bind_some,
        dropPattern?_flatMap_spell (by decide) (by decide)]
      cases Text.dropPattern? ['{'] cs with
      | none => exact unbraced?_flatMap_spell cs
      | some cs => exact braced?_flatMap_spell cs
  · rw [escape?_cons_of_ne hbackslash, escape?_cons_of_ne hbackslash]
    rfl

/-! ## What is read back -/

/-- A string of the solver's characters is read back with its own escapes taken for what they
stand for. -/
theorem codes_flatMap_spell (hcs : ∀ c ∈ cs, c.toNat ≤ lastCode) :
    codes (cs.flatMap spell) = codes cs := by
  induction cs using codes_induction with
  | nil => rfl
  | @escape cs code rest h ih =>
    obtain ⟨-, inner, rfl, hrest⟩ := escape?_eq_some h
    have hsubset : ∀ c ∈ rest, c.toNat ≤ lastCode := fun c hc =>
      hcs c (List.mem_cons_of_mem _ (List.mem_cons_of_mem _ (hrest.subset hc)))
    have hspelled := escape?_flatMap_spell (by decide : IsPrintable '\\') ('u' :: inner)
    rw [h] at hspelled
    rw [codes_of_escape? hspelled, codes_of_escape? h, ih hsubset]
  | @cons c cs h ih =>
    obtain ⟨hc, hcs⟩ := List.forall_mem_cons.mp hcs
    by_cases hprintable : IsPrintable c
    · have hspelled := escape?_flatMap_spell hprintable cs
      rw [h, flatMap_spell_cons hprintable] at hspelled
      rw [flatMap_spell_cons hprintable, codes_cons hspelled, codes_cons h, ih hcs]
    · rw [List.flatMap_cons, codes_of_escape? (escape?_spell hprintable hc _), codes_cons h,
        ih hcs]

theorem toNat_le_of_mem_spell {c d : Char} (hd : d ∈ spell c) : d.toNat ≤ lastCode := by
  have hprintable (d : Char) (hd : IsPrintable d) : d.toNat ≤ lastCode := by
    have hle : d.toNat ≤ '~'.toNat := hd.2
    exact hle.trans (by decide)
  by_cases hc : IsPrintable c
  · rw [spell_of_isPrintable hc, List.mem_singleton] at hd
    exact hd ▸ hprintable c hc
  · rw [spell_of_not_isPrintable hc, List.mem_cons, List.mem_cons, List.mem_cons, List.mem_append,
      List.mem_singleton] at hd
    rcases hd with rfl | rfl | rfl | hd | rfl
    · decide
    · decide
    · decide
    · exact hprintable d (isPrintable_of_isHexDigit (isHexDigit_of_mem_toDigits hd))
    · decide

/-- A string that scripts can express: its characters are the solver's, and it has no escape. -/
def IsExpressible (s : String) : Prop := (∀ c ∈ s.toList, c.toNat ≤ lastCode) ∧ ¬HasEscape s.toList

/-- The written string is read back exactly if scripts can express it. -/
theorem stringCodes?_stringText_iff (s : String) :
    stringCodes? (Term.stringText s) = some (s.toList.map Char.toNat) ↔ IsExpressible s := by
  have hcodes : stringCodes? (Term.stringText s) = some (codes (s.toList.flatMap spell)) :=
    stringCodes?_of_readsAs (readsAs_stringText s)
  rw [hcodes, Option.some_inj]
  constructor
  · intro heq
    have hbound : ∀ c ∈ s.toList, c.toNat ≤ lastCode := by
      intro c hc
      have hmem : c.toNat ∈ codes (s.toList.flatMap spell) := by
        rw [heq]
        exact List.mem_map_of_mem hc
      refine le_lastCode_of_mem_codes (fun d hd => ?_) _ hmem
      obtain ⟨c, -, hd⟩ := List.mem_flatMap.mp hd
      exact toNat_le_of_mem_spell hd
    rw [codes_flatMap_spell hbound] at heq
    exact ⟨hbound, (codes_eq_map_iff s.toList).mp heq⟩
  · rintro ⟨hbound, hescape⟩
    rw [codes_flatMap_spell hbound]
    exact (codes_eq_map_iff s.toList).mpr hescape

/-- A string is read back exactly if scripts can express it. Of such strings, different ones are
different terms, so that a query for their difference never denies that a term is equal to
itself. -/
theorem strings_read_back_iff (s t : String) :
    (stringCodes? (Term.stringText s) = some (s.toList.map Char.toNat) ↔ IsExpressible s) ∧
      ∃ difference, Oracle.relate (.string s) (.string t) false = .ok difference ∧
        difference.term = .ok (.negation (.apply "=" [.string s, .string t]), .bool) ∧
        (IsExpressible s → IsExpressible t →
          ((Term.string s).text = (Term.string t).text ↔ s = t)) := by
  refine ⟨stringCodes?_stringText_iff s, _, rfl, rfl, fun hs ht => ?_⟩
  refine ⟨fun htext => ?_, fun heq => heq ▸ rfl⟩
  have htext : Term.stringText s = Term.stringText t := htext
  have hread := (stringCodes?_stringText_iff s).mpr hs
  rw [htext, (stringCodes?_stringText_iff t).mpr ht] at hread
  have hchars : t.toList = s.toList :=
    List.map_injective_iff.mpr (fun _ _ => Char.toNat_inj.mp) (Option.some.inj hread)
  exact (String.toList_inj.mp hchars).symm

/-- A letter that is not printable and the escape for it are different strings, but one term. -/
example : Term.stringText "\u00e9" = Term.stringText "\\u\x7be9\x7d" := by decide

end Regression.Script
