import Regression.Proofs.Text

/-!
# Searching line by line

A pattern without line breaks occurs in a text just when it occurs in one of the lines. More
generally, a character that is not part of a pattern cuts a text in two parts that can be searched
one after the other.

* `splitFirst?_append_cons`: the first occurrence is in the first part, or else in the second one.
* `occurrences_append_cons`: the occurrences in both parts add up.
* `piecesFrom_eq`: the pieces of a text from its first occurrence on.
-/

namespace Regression.Text

variable {pattern a b : List Char} {c : Char}

/-! ## First occurrences -/

theorem dropPattern?_append_cons (hc : c ∉ pattern) :
    dropPattern? pattern (a ++ c :: b) = (dropPattern? pattern a).map (· ++ c :: b) := by
  induction pattern generalizing a with
  | nil => rfl
  | cons p pattern ih =>
    have hp : c ≠ p := List.ne_of_not_mem_cons hc
    have hpattern : c ∉ pattern := List.not_mem_of_not_mem_cons hc
    cases a with
    | nil =>
      show (if p = c then dropPattern? pattern b else none) = none
      rw [if_neg (Ne.symm hp)]
    | cons d a =>
      show (if p = d then dropPattern? pattern (a ++ c :: b) else none) =
        (if p = d then dropPattern? pattern a else none).map (· ++ c :: b)
      by_cases hd : p = d
      · rw [if_pos hd, if_pos hd]
        exact ih hpattern
      · rw [if_neg hd, if_neg hd]
        rfl

theorem splitFirst?_nil (hpattern : pattern ≠ []) : splitFirst? pattern [] = none := by
  show (if pattern.isEmpty then some ([], []) else none) = none
  rw [if_neg (by simpa using hpattern)]

/-- A text is searched up to a character that is not in the pattern, and then behind it. -/
theorem splitFirst?_append_cons (hpattern : pattern ≠ []) (hc : c ∉ pattern) :
    splitFirst? pattern (a ++ c :: b) =
      match splitFirst? pattern a with
      | some (before, after) => some (before, after ++ c :: b)
      | none => (splitFirst? pattern b).map fun (before, after) => (a ++ c :: before, after) := by
  induction a with
  | nil =>
    have hdrop : dropPattern? pattern (c :: b) = none := by
      have hcut := dropPattern?_append_cons (a := []) (b := b) hc
      cases pattern with
      | nil => exact absurd rfl hpattern
      | cons p pattern => exact hcut
    rw [splitFirst?_nil hpattern, List.nil_append, splitFirst?, hdrop]
    rfl
  | cons d a ih =>
    have hcut : dropPattern? pattern (d :: (a ++ c :: b)) =
        (dropPattern? pattern (d :: a)).map (· ++ c :: b) :=
      dropPattern?_append_cons (a := d :: a) hc
    rw [List.cons_append, splitFirst?, splitFirst?, hcut, ih]
    cases dropPattern? pattern (d :: a) with
    | some after => rfl
    | none =>
      cases splitFirst? pattern a with
      | some r => rfl
      | none => cases splitFirst? pattern b <;> rfl

/-- Whether a pattern occurs in some characters. -/
def Occurs (pattern cs : List Char) : Prop := splitFirst? pattern cs ≠ none

theorem occurs_append_cons (hpattern : pattern ≠ []) (hc : c ∉ pattern) :
    Occurs pattern (a ++ c :: b) ↔ Occurs pattern a ∨ Occurs pattern b := by
  unfold Occurs
  rw [splitFirst?_append_cons hpattern hc]
  cases splitFirst? pattern a with
  | some r => simp
  | none => cases splitFirst? pattern b <;> simp

theorem not_occurs_of_eq_none {cs : List Char} (h : splitFirst? pattern cs = none) :
    ¬Occurs pattern cs :=
  fun hoccurs => hoccurs h

theorem not_occurs_nil (hpattern : pattern ≠ []) : ¬Occurs pattern [] :=
  not_occurs_of_eq_none (splitFirst?_nil hpattern)

theorem occurs_cons (hpattern : pattern ≠ []) (hc : c ∉ pattern) :
    Occurs pattern (c :: b) ↔ Occurs pattern b := by
  have hcut := occurs_append_cons (a := []) (b := b) hpattern hc
  rw [List.nil_append] at hcut
  rw [hcut]
  exact or_iff_right (not_occurs_nil hpattern)

/-- No occurrence begins with another character than the pattern does. -/
theorem splitFirst?_cons_of_ne {p : Char} (hc : c ≠ p) :
    splitFirst? (p :: pattern) (c :: b) =
      (splitFirst? (p :: pattern) b).map fun (before, after) => (c :: before, after) := by
  have hdrop : dropPattern? (p :: pattern) (c :: b) = none := by
    show (if p = c then dropPattern? pattern b else none) = none
    rw [if_neg (Ne.symm hc)]
  rw [splitFirst?, hdrop]

theorem occurs_cons_of_ne {p : Char} (hc : c ≠ p) :
    Occurs (p :: pattern) (c :: b) ↔ Occurs (p :: pattern) b := by
  unfold Occurs
  rw [splitFirst?_cons_of_ne hc, Ne, Option.map_eq_none_iff]

theorem occursIn_eq_true {pattern text : String} :
    occursIn pattern text = true ↔ Occurs pattern.toList text.toList := by
  unfold occursIn Occurs
  rw [Option.isSome_iff_ne_none]

/-- Characters that are not in the pattern can be skipped. -/
theorem occurs_append_of_forall_not_mem (hpattern : pattern ≠ []) (ha : ∀ c ∈ a, c ∉ pattern) :
    Occurs pattern (a ++ b) ↔ Occurs pattern b := by
  induction a with
  | nil => rfl
  | cons c a ih =>
    obtain ⟨hc, ha⟩ := List.forall_mem_cons.mp ha
    rw [List.cons_append, occurs_cons hpattern hc]
    exact ih ha

theorem dropPattern?_append (pattern b : List Char) :
    dropPattern? pattern (pattern ++ b) = some b := by
  induction pattern with
  | nil => rfl
  | cons p pattern ih =>
    show (if p = p then dropPattern? pattern (pattern ++ b) else none) = some b
    rw [if_pos rfl]
    exact ih

theorem dropPattern?_append_append (pattern a b : List Char) :
    dropPattern? (pattern ++ a) (pattern ++ b) = dropPattern? a b := by
  induction pattern with
  | nil => rfl
  | cons p pattern ih =>
    show (if p = p then dropPattern? (pattern ++ a) (pattern ++ b) else none) = _
    rw [if_pos rfl]
    exact ih

theorem splitFirst?_append_self (pattern b : List Char) :
    splitFirst? pattern (pattern ++ b) = some ([], b) := by
  cases hwhole : pattern ++ b with
  | nil =>
    obtain ⟨rfl, rfl⟩ := List.append_eq_nil_iff.mp hwhole
    rfl
  | cons c cs => rw [splitFirst?, ← hwhole, dropPattern?_append]

theorem occurs_append (pattern a b : List Char) : Occurs pattern (a ++ (pattern ++ b)) := by
  unfold Occurs
  induction a with
  | nil =>
    rw [List.nil_append, splitFirst?_append_self]
    exact Option.some_ne_none _
  | cons c a ih =>
    rw [List.cons_append, splitFirst?]
    cases dropPattern? pattern (c :: (a ++ (pattern ++ b))) with
    | some after => exact Option.some_ne_none _
    | none =>
      intro hnone
      exact ih (Option.map_eq_none_iff.mp hnone)

/-! ## Lines -/

/-- The text consists of whole lines. -/
def IsLines (cs : List Char) : Prop := cs = [] ∨ ∃ line, cs = line ++ ['\n']

theorem IsLines.append (ha : IsLines a) (hb : IsLines b) : IsLines (a ++ b) := by
  rcases hb with rfl | ⟨line, rfl⟩
  · rw [List.append_nil]
    exact ha
  · exact .inr ⟨a ++ line, (List.append_assoc ..).symm⟩

theorem IsLines.flatMap {α : Type} {f : α → List Char} {as : List α} (h : ∀ x ∈ as, IsLines (f x)) :
    IsLines (as.flatMap f) := by
  induction as with
  | nil => exact .inl rfl
  | cons x as ih =>
    obtain ⟨hx, has⟩ := List.forall_mem_cons.mp h
    exact hx.append (ih has)

section

variable (hpattern : pattern ≠ []) (hline : '\n' ∉ pattern) (ha : IsLines a)

include hpattern hline ha

theorem IsLines.occurs_append : Occurs pattern (a ++ b) ↔ Occurs pattern a ∨ Occurs pattern b := by
  rcases ha with rfl | ⟨line, rfl⟩
  · exact (or_iff_right (not_occurs_nil hpattern)).symm
  · have hend := occurs_append_cons (a := line) (b := []) hpattern hline
    rw [or_iff_left (not_occurs_nil hpattern)] at hend
    rw [hend, List.append_assoc]
    exact occurs_append_cons hpattern hline

omit ha in
theorem IsLines.occurs_flatMap {α : Type} {f : α → List Char} {as : List α}
    (h : ∀ x ∈ as, IsLines (f x)) :
    Occurs pattern (as.flatMap f) ↔ ∃ x ∈ as, Occurs pattern (f x) := by
  induction as with
  | nil =>
    refine iff_of_false (not_occurs_nil hpattern) ?_
    rintro ⟨x, hx, -⟩
    cases hx
  | cons x as ih =>
    obtain ⟨hx, has⟩ := List.forall_mem_cons.mp h
    rw [List.flatMap_cons, hx.occurs_append hpattern hline, ih has]
    simp

/-- Lines without an occurrence are passed over. -/
theorem IsLines.splitFirst?_append (hnone : ¬Occurs pattern a) :
    splitFirst? pattern (a ++ b) =
      (splitFirst? pattern b).map fun (before, after) => (a ++ before, after) := by
  rcases ha with rfl | ⟨line, rfl⟩
  · rw [List.nil_append]
    cases splitFirst? pattern b <;> rfl
  · have hend := occurs_append_cons (a := line) (b := []) hpattern hline
    rw [or_iff_left (not_occurs_nil hpattern)] at hend
    have hline' : splitFirst? pattern line = none := Classical.not_not.mp (mt hend.mpr hnone)
    rw [List.append_assoc, List.singleton_append, splitFirst?_append_cons hpattern hline, hline']
    simp

end

/-! ## All occurrences -/

theorem piecesFrom_skip (skip : Nat) (cs : List Char) :
    piecesFrom pattern skip cs = piecesFrom pattern 0 (cs.drop skip) := by
  induction cs generalizing skip with
  | nil =>
    rw [List.drop_nil]
    cases skip <;> rfl
  | cons c cs ih =>
    cases skip with
    | zero => rfl
    | succ skip =>
      rw [List.drop_succ_cons]
      exact ih skip

theorem piecesFrom_ne_nil (skip : Nat) (cs : List Char) : piecesFrom pattern skip cs ≠ [] := by
  induction cs generalizing skip with
  | nil => cases skip <;> exact List.cons_ne_nil _ _
  | cons c cs ih =>
    cases skip with
    | succ skip => exact ih skip
    | zero =>
      rw [piecesFrom]
      split
      · exact List.cons_ne_nil _ _
      · split <;> exact List.cons_ne_nil _ _

/-- The first piece ends where the pattern occurs first. -/
theorem piecesFrom_eq (hpattern : pattern ≠ []) (cs : List Char) :
    piecesFrom pattern 0 cs =
      match splitFirst? pattern cs with
      | some (before, after) => before :: piecesFrom pattern 0 after
      | none => [cs] := by
  induction cs with
  | nil =>
    rw [splitFirst?_nil hpattern]
    rfl
  | cons c cs ih =>
    rw [piecesFrom, splitFirst?]
    cases hdrop : dropPattern? pattern (c :: cs) with
    | some after =>
      have hwhole : c :: cs = pattern ++ after := eq_append_of_dropPattern? hdrop
      have hafter : cs.drop (pattern.length - 1) = after := by
        cases pattern with
        | nil => exact absurd rfl hpattern
        | cons p pattern =>
          rw [List.cons_append] at hwhole
          injection hwhole with _ hrest
          rw [hrest]
          exact List.drop_left' rfl
      show [] :: piecesFrom pattern (pattern.length - 1) cs = [] :: piecesFrom pattern 0 after
      rw [piecesFrom_skip, hafter]
    | none =>
      dsimp only
      rw [ih]
      cases splitFirst? pattern cs <;> rfl

/-- The number of occurrences that do not overlap, counted from the left. -/
def occurrences (pattern cs : List Char) : Nat := (piecesFrom pattern 0 cs).length - 1

theorem length_piecesFrom (pattern cs : List Char) :
    (piecesFrom pattern 0 cs).length = occurrences pattern cs + 1 := by
  have hpos : 0 < (piecesFrom pattern 0 cs).length :=
    List.length_pos_iff.mpr (piecesFrom_ne_nil 0 cs)
  unfold occurrences
  omega

theorem occurrences_eq (hpattern : pattern ≠ []) (cs : List Char) :
    occurrences pattern cs =
      match splitFirst? pattern cs with
      | some (_, after) => occurrences pattern after + 1
      | none => 0 := by
  have hlength := length_piecesFrom pattern cs
  rw [piecesFrom_eq hpattern] at hlength
  cases hsplit : splitFirst? pattern cs with
  | none =>
    rw [hsplit] at hlength
    have hlength : 1 = occurrences pattern cs + 1 := hlength
    show occurrences pattern cs = 0
    omega
  | some r =>
    rw [hsplit] at hlength
    have hlength : (piecesFrom pattern 0 r.2).length + 1 = occurrences pattern cs + 1 := hlength
    have hafter := length_piecesFrom pattern r.2
    show occurrences pattern cs = occurrences pattern r.2 + 1
    omega

theorem occurrences_eq_zero (hpattern : pattern ≠ []) {cs : List Char} :
    occurrences pattern cs = 0 ↔ ¬Occurs pattern cs := by
  unfold Occurs
  rw [occurrences_eq hpattern]
  cases splitFirst? pattern cs with
  | none => simp
  | some r => simp

theorem length_after_lt (hpattern : pattern ≠ []) {cs before after : List Char}
    (h : splitFirst? pattern cs = some (before, after)) : after.length < cs.length := by
  have hwhole := congrArg List.length (eq_append_of_splitFirst? h)
  have hpos : 0 < pattern.length := List.length_pos_iff.mpr hpattern
  rw [List.length_append, List.length_append] at hwhole
  omega

/-- Occurrences are counted in both parts of a text. -/
theorem occurrences_append_cons (hpattern : pattern ≠ []) (hc : c ∉ pattern) (a b : List Char) :
    occurrences pattern (a ++ c :: b) = occurrences pattern a + occurrences pattern b := by
  -- Each occurrence in the first part leaves a shorter rest of it.
  induction hn : a.length using Nat.strongRecOn generalizing a with
  | ind n ih =>
    subst hn
    rw [occurrences_eq hpattern (a ++ c :: b), occurrences_eq hpattern a,
      splitFirst?_append_cons hpattern hc]
    cases hsplit : splitFirst? pattern a with
    | some r =>
      have hlt : r.2.length < a.length := length_after_lt hpattern hsplit
      have hrest := ih r.2.length hlt r.2 rfl
      show occurrences pattern (r.2 ++ c :: b) + 1 = occurrences pattern r.2 + 1 + _
      omega
    | none =>
      rw [occurrences_eq hpattern b]
      cases splitFirst? pattern b with
      | none => rfl
      | some r =>
        show occurrences pattern r.2 + 1 = 0 + (occurrences pattern r.2 + 1)
        omega

theorem IsLines.occurrences_append (hpattern : pattern ≠ []) (hline : '\n' ∉ pattern)
    (ha : IsLines a) (b : List Char) :
    occurrences pattern (a ++ b) = occurrences pattern a + occurrences pattern b := by
  have hnil : occurrences pattern [] = 0 :=
    (occurrences_eq_zero hpattern).mpr (not_occurs_nil hpattern)
  rcases ha with rfl | ⟨line, rfl⟩
  · rw [hnil, List.nil_append, Nat.zero_add]
  · have hend := occurrences_append_cons hpattern hline line []
    have hboth := occurrences_append_cons hpattern hline line b
    rw [List.append_assoc, List.singleton_append]
    omega

end Regression.Text
