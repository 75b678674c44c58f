import Mathlib.Data.List.Infix
import Regression.Text.Blank

/-!
# Trimmed lines

A text that is read line by line, each line trimmed, loses the blanks at the ends of its lines and
nothing else.

* `Text.map_trimmed_linesOf`: the trimmed lines of a text are those between its line feeds; a
  carriage return in front of a line feed is a blank.
* `Text.KeepsBlanks`: no blank stands next to a line feed.
* `Text.tidy_eq_self_iff`: what trimming the lines leaves as it is.
-/

namespace Regression.Text

variable {c : Char} {bs cs ds : List Char}

/-! ## Blanks at the ends -/

/-- The characters without the blank ones in front and at the end. -/
def trimmed (cs : List Char) : List Char := dropBlankEnd (dropBlank cs)

theorem trim_eq (s : String) : trim s = String.ofList (trimmed s.toList) := rfl

theorem dropBlank_blank (hbs : ∀ b ∈ bs, isBlank b = true) (cs : List Char) :
    dropBlank (bs ++ cs) = dropBlank cs :=
  List.dropWhile_append_of_pos hbs

theorem dropBlank_append_cons (hc : isBlank c = false) (cs ds : List Char) :
    dropBlank (cs ++ c :: ds) = dropBlank cs ++ c :: ds := by
  unfold dropBlank
  have hds : (c :: ds).dropWhile isBlank = c :: ds := by rw [List.dropWhile_cons, hc]; rfl
  rw [List.dropWhile_append, hds]
  split
  · next hnil => rw [List.isEmpty_iff.mp hnil, List.nil_append]
  · rfl

theorem dropBlankEnd_append_cons (hc : isBlank c = false) (cs ds : List Char) :
    dropBlankEnd (cs ++ c :: ds) = cs ++ c :: dropBlankEnd ds := by
  unfold dropBlankEnd
  rw [List.reverse_append, List.reverse_cons, List.append_assoc, List.singleton_append,
    dropBlank_append_cons hc, List.reverse_append, List.reverse_cons, List.reverse_reverse,
    List.append_assoc, List.singleton_append]

theorem dropBlankEnd_blank (hbs : ∀ b ∈ bs, isBlank b = true) (cs : List Char) :
    dropBlankEnd (cs ++ bs) = dropBlankEnd cs := by
  unfold dropBlankEnd
  rw [List.reverse_append, dropBlank_blank fun b hb => hbs b (List.mem_reverse.mp hb)]

/-- A character that is not blank holds what follows it and what stands in front of it apart. -/
theorem trimmed_append_cons (hc : isBlank c = false) (cs ds : List Char) :
    trimmed (cs ++ c :: ds) = dropBlank cs ++ c :: dropBlankEnd ds := by
  unfold trimmed
  rw [dropBlank_append_cons hc, dropBlankEnd_append_cons hc]

theorem trimmed_blank (hbs : ∀ b ∈ bs, isBlank b = true) (cs : List Char) :
    trimmed (cs ++ bs) = trimmed cs := by
  unfold trimmed dropBlank
  rw [List.dropWhile_append]
  split
  · next hnil =>
    rw [List.isEmpty_iff.mp hnil, ← List.append_nil bs]
    exact congrArg dropBlankEnd (dropBlank_blank hbs [])
  · exact dropBlankEnd_blank hbs _

theorem dropBlank_suffix (cs : List Char) : dropBlank cs <:+ cs := List.dropWhile_suffix isBlank

theorem length_dropBlankEnd_le (cs : List Char) : (dropBlankEnd cs).length ≤ cs.length := by
  unfold dropBlankEnd
  rw [List.length_reverse]
  exact (dropBlank_suffix cs.reverse).length_le.trans (Nat.le_of_eq List.length_reverse)

/-- Trimming leaves a text as it is if it does so at either end. -/
theorem trimmed_eq_self_iff (cs : List Char) :
    trimmed cs = cs ↔ dropBlank cs = cs ∧ dropBlankEnd cs = cs := by
  constructor
  · intro h
    have hle := (dropBlank_suffix cs).length_le
    have hge : cs.length ≤ (dropBlank cs).length := by
      have hend := length_dropBlankEnd_le (dropBlank cs)
      rwa [← trimmed, h] at hend
    have hfront : dropBlank cs = cs := (dropBlank_suffix cs).eq_of_length (by omega)
    refine ⟨hfront, ?_⟩
    rwa [trimmed, hfront] at h
  · rintro ⟨hfront, hend⟩
    rw [trimmed, hfront, hend]

/-! ## Lines -/

/-- A text of lines. -/
def joined (ls : List (List Char)) : List Char := ['\n'].intercalate ls

theorem joined_cons {ls : List (List Char)} (hls : ls ≠ []) (l : List Char) :
    joined (l :: ls) = l ++ '\n' :: joined ls := by
  unfold joined
  rw [List.intercalate_cons_of_ne_nil hls, List.append_assoc, List.singleton_append]

theorem joined_singleton (l : List Char) : joined [l] = l := List.intercalate_singleton

theorem joined_append {ls ms : List (List Char)} (hls : ls ≠ []) (hms : ms ≠ []) :
    joined (ls ++ ms) = joined ls ++ '\n' :: joined ms := by
  induction ls with
  | nil => exact absurd rfl hls
  | cons l ls ih =>
    cases ls with
    | nil => rw [List.singleton_append, joined_cons hms, joined_singleton]
    | cons l' ls =>
      have hne : l' :: ls ≠ [] := List.cons_ne_nil l' ls
      rw [List.cons_append, joined_cons (List.append_ne_nil_of_left_ne_nil hne ms), ih hne,
        joined_cons hne, List.append_assoc, List.cons_append]

theorem subset_joined {ls : List (List Char)} : ∀ l ∈ ls, l ⊆ joined ls := by
  induction ls with
  | nil => exact fun l hl => by cases hl
  | cons l ls ih =>
    cases ls with
    | nil =>
      rw [joined_singleton]
      exact List.forall_mem_singleton.mpr (List.Subset.refl l)
    | cons m more =>
      rw [joined_cons (List.cons_ne_nil m more)]
      refine List.forall_mem_cons.mpr ⟨List.subset_append_left l _, fun l' hl' c hc => ?_⟩
      exact List.mem_append_right l (List.mem_cons_of_mem _ (ih l' hl' hc))

theorem not_mem_joined {ls : List (List Char)} (hc : c ≠ '\n') (hls : ∀ l ∈ ls, c ∉ l) :
    c ∉ joined ls := by
  induction ls with
  | nil => exact List.not_mem_nil
  | cons l ls ih =>
    obtain ⟨hl, hls⟩ := List.forall_mem_cons.mp hls
    cases ls with
    | nil =>
      rw [joined_singleton]
      exact hl
    | cons m more =>
      rw [joined_cons (List.cons_ne_nil m more), List.mem_append, List.mem_cons, not_or, not_or]
      exact ⟨hl, hc, ih hls⟩

/-- A line up to its line feed; a carriage return in front of this belongs to the line end. -/
theorem linesOf_append (hcs : '\n' ∉ cs) (ds : List Char) :
    ∃ line, linesOf (cs ++ '\n' :: ds) = line :: linesOf ds ∧
      (cs = line ∨ cs = line ++ ['\r']) := by
  induction cs with
  | nil => exact ⟨[], rfl, .inl rfl⟩
  | cons c cs ih =>
    have hc : c ≠ '\n' := (List.ne_of_not_mem_cons hcs).symm
    have hrest := List.not_mem_of_not_mem_cons hcs
    obtain ⟨line, hline, hcs'⟩ := ih hrest
    by_cases hreturn : c = '\r' ∧ cs = []
    · obtain ⟨rfl, rfl⟩ := hreturn
      exact ⟨[], rfl, .inr rfl⟩
    · refine ⟨c :: line, ?_, ?_⟩
      · rw [List.cons_append, linesOf]
        · rw [hline]
        · exact hc
        · rintro rest hc heq
          cases cs with
          | nil => exact hreturn ⟨hc, rfl⟩
          | cons d cs =>
            cases heq
            exact hrest List.mem_cons_self
      · rcases hcs' with rfl | rfl
        · exact .inl rfl
        · exact .inr rfl

theorem linesOf_of_not_mem (hcs : '\n' ∉ cs) (hne : cs ≠ []) : linesOf cs = [cs] := by
  induction cs with
  | nil => exact absurd rfl hne
  | cons c cs ih =>
    have hc : c ≠ '\n' := (List.ne_of_not_mem_cons hcs).symm
    have hrest := List.not_mem_of_not_mem_cons hcs
    rw [linesOf]
    · cases cs with
      | nil => rfl
      | cons d cs => rw [ih hrest (List.cons_ne_nil d cs)]
    · exact hc
    · rintro rest - rfl
      exact hrest List.mem_cons_self

/-- The trimmed lines of a text are those between its line feeds. -/
theorem map_trimmed_linesOf {ls : List (List Char)} (hls : ∀ l ∈ ls, '\n' ∉ l) (hcs : '\n' ∉ cs)
    (hne : cs ≠ []) :
    (linesOf (joined (ls ++ [cs]))).map trimmed = (ls ++ [cs]).map trimmed := by
  induction ls with
  | nil => rw [List.nil_append, joined_singleton, linesOf_of_not_mem hcs hne]
  | cons l ls ih =>
    obtain ⟨hl, hls⟩ := List.forall_mem_cons.mp hls
    obtain ⟨line, hline, hl'⟩ := linesOf_append hl (joined (ls ++ [cs]))
    have htrimmed : trimmed line = trimmed l := by
      rcases hl' with rfl | rfl
      · rfl
      · exact (trimmed_blank (List.forall_mem_singleton.mpr (by decide)) line).symm
    rw [List.cons_append, joined_cons (List.append_ne_nil_of_right_ne_nil ls (by simp)), hline,
      List.map_cons, List.map_cons, ih hls, htrimmed]

/-! ## Lines between two marks -/

/-- The lines of a text between two others, which stand on its first and on its last line. -/
def frame (front back : List Char) : List (List Char) → List (List Char)
  | [] => []
  | [l] => [front ++ (l ++ back)]
  | l :: m :: more => (front ++ l) :: frame [] back (m :: more)

theorem frame_ne_nil {ls : List (List Char)} (hls : ls ≠ []) (front back : List Char) :
    frame front back ls ≠ [] := by
  cases ls with
  | nil => exact absurd rfl hls
  | cons l ls => cases ls <;> exact List.cons_ne_nil _ _

theorem joined_frame {ls : List (List Char)} (hls : ls ≠ []) (front back : List Char) :
    joined (frame front back ls) = front ++ (joined ls ++ back) := by
  induction ls generalizing front with
  | nil => exact absurd rfl hls
  | cons l ls ih =>
    cases ls with
    | nil => rw [frame, joined_singleton, joined_singleton]
    | cons m more =>
      have hne : m :: more ≠ [] := List.cons_ne_nil m more
      rw [frame, joined_cons (frame_ne_nil hne _ _), ih hne, joined_cons hne]
      simp only [List.append_assoc, List.cons_append, List.nil_append]

theorem frame_frame (front back front' back' : List Char) (ls : List (List Char)) :
    frame front back (frame front' back' ls) = frame (front ++ front') (back' ++ back) ls := by
  induction ls generalizing front front' with
  | nil => rfl
  | cons l ls ih =>
    cases ls with
    | nil => simp only [frame, List.append_assoc]
    | cons m more =>
      -- The outer frame goes on with the first of the framed lines, which there is.
      have hrest := ih [] []
      rw [frame, frame]
      obtain ⟨k, ks, hks⟩ := List.exists_cons_of_ne_nil
        (frame_ne_nil (List.cons_ne_nil m more) [] back')
      rw [hks] at hrest ⊢
      rw [frame, hrest, List.append_assoc]
      rfl

theorem not_mem_frame {front back : List Char} {ls : List (List Char)} (hfront : '\n' ∉ front)
    (hback : '\n' ∉ back) (hls : ∀ l ∈ ls, '\n' ∉ l) : ∀ l ∈ frame front back ls, '\n' ∉ l := by
  induction ls generalizing front with
  | nil => exact fun l hl => by cases hl
  | cons l ls ih =>
    obtain ⟨hl, hls⟩ := List.forall_mem_cons.mp hls
    cases ls with
    | nil =>
      refine List.forall_mem_singleton.mpr ?_
      simp only [List.mem_append, not_or]
      exact ⟨hfront, hl, hback⟩
    | cons m more =>
      refine List.forall_mem_cons.mpr ⟨?_, ih List.not_mem_nil hls⟩
      simp only [List.mem_append, not_or]
      exact ⟨hfront, hl⟩

/-- What trimming leaves of lines whose last one goes on. -/
def tidyRest : List (List Char) → List (List Char)
  | [] => []
  | [l] => [dropBlank l]
  | l :: m :: more => trimmed l :: tidyRest (m :: more)

/-- What trimming leaves of lines if something stands in front of the first one, and the last one
goes on. -/
def tidyLines : List (List Char) → List (List Char)
  | [] => []
  | [l] => [l]
  | l :: m :: more => dropBlankEnd l :: tidyRest (m :: more)

theorem map_trimmed_frame_rest (hc : isBlank c = false) (ds : List Char)
    (ls : List (List Char)) :
    (frame [] (c :: ds) ls).map trimmed = frame [] (c :: dropBlankEnd ds) (tidyRest ls) := by
  induction ls with
  | nil => rfl
  | cons l ls ih =>
    cases ls with
    | nil =>
      show [trimmed (l ++ c :: ds)] = [dropBlank l ++ c :: dropBlankEnd ds]
      rw [trimmed_append_cons hc]
    | cons m more =>
      rw [frame, List.map_cons, ih, tidyRest]
      cases more <;> rfl

/-- Trimming does not reach beyond characters that are not blank. -/
theorem map_trimmed_frame {d : Char} (hc : isBlank c = false) (hd : isBlank d = false)
    (cs ds : List Char) (ls : List (List Char)) :
    (frame (cs ++ [c]) (d :: ds) ls).map trimmed =
      frame (dropBlank cs ++ [c]) (d :: dropBlankEnd ds) (tidyLines ls) := by
  cases ls with
  | nil => rfl
  | cons l ls =>
    cases ls with
    | nil =>
      rw [tidyLines, frame, frame, List.map_singleton, List.append_assoc, List.singleton_append,
        trimmed_append_cons hc, dropBlankEnd_append_cons hd, List.append_assoc,
        List.singleton_append]
    | cons m more =>
      have hrest := map_trimmed_frame_rest hd ds (m :: more)
      rw [frame, List.map_cons, hrest, List.append_assoc, List.singleton_append,
        trimmed_append_cons hc, tidyLines]
      cases more <;> simp [tidyRest, frame]

/-! ## What is kept -/

theorem not_mem_of_mem_splitOn (cs : List Char) : ∀ l ∈ cs.splitOn '\n', '\n' ∉ l := by
  induction cs with
  | nil => exact List.forall_mem_singleton.mpr List.not_mem_nil
  | cons c cs ih =>
    rw [List.splitOn_cons_eq_if_modifyHead]
    split
    · exact List.forall_mem_cons.mpr ⟨List.not_mem_nil, ih⟩
    · next hc =>
      obtain ⟨l, ls, hls⟩ := List.exists_cons_of_ne_nil (List.splitOn_ne_nil '\n' cs)
      rw [hls] at ih ⊢
      obtain ⟨hl, hls⟩ := List.forall_mem_cons.mp ih
      rw [List.modifyHead_cons]
      refine List.forall_mem_cons.mpr ⟨?_, hls⟩
      rw [List.mem_cons, not_or]
      exact ⟨fun heq => hc (beq_iff_eq.mpr heq.symm), hl⟩

theorem joined_splitOn (cs : List Char) : joined (cs.splitOn '\n') = cs :=
  List.intercalate_splitOn '\n'

/-- What is left of a text between two others on its lines, when the lines are trimmed. -/
def tidy (cs : List Char) : List Char := joined (tidyLines (cs.splitOn '\n'))

/-- No line but the first starts with a blank, and no line but the last ends with one. -/
def KeepsBlanks (cs : List Char) : Prop :=
  (∀ l ∈ (cs.splitOn '\n').tail, dropBlank l = l) ∧
    ∀ l ∈ (cs.splitOn '\n').dropLast, dropBlankEnd l = l

instance (cs : List Char) : Decidable (KeepsBlanks cs) := inferInstanceAs (Decidable (_ ∧ _))

theorem keepsBlanks_of_not_mem (hcs : '\n' ∉ cs) : KeepsBlanks cs := by
  unfold KeepsBlanks
  rw [List.splitOn_eq_singleton hcs]
  exact ⟨fun _ hl => (List.not_mem_nil hl).elim, fun _ hl => (List.not_mem_nil hl).elim⟩

theorem tidyRest_eq_self_iff (ls : List (List Char)) :
    tidyRest ls = ls ↔
      (∀ l ∈ ls, dropBlank l = l) ∧ ∀ l ∈ ls.dropLast, dropBlankEnd l = l := by
  induction ls with
  | nil => simp [tidyRest]
  | cons l ls ih =>
    cases ls with
    | nil => simp [tidyRest]
    | cons m more =>
      rw [tidyRest, List.cons_eq_cons, ih, trimmed_eq_self_iff, List.dropLast_cons_cons]
      generalize m :: more = rest
      rw [List.forall_mem_cons, List.forall_mem_cons, and_and_and_comm]

theorem tidyLines_eq_self_iff (ls : List (List Char)) :
    tidyLines ls = ls ↔
      (∀ l ∈ ls.tail, dropBlank l = l) ∧ ∀ l ∈ ls.dropLast, dropBlankEnd l = l := by
  cases ls with
  | nil => simp [tidyLines]
  | cons l ls =>
    cases ls with
    | nil => simp [tidyLines]
    | cons m more =>
      rw [tidyLines, List.cons_eq_cons, tidyRest_eq_self_iff, List.dropLast_cons_cons,
        List.tail_cons]
      generalize m :: more = rest
      rw [List.forall_mem_cons, and_left_comm]

theorem dropBlankEnd_subset (cs : List Char) : dropBlankEnd cs ⊆ cs := by
  intro c hc
  have hmem : c ∈ dropBlank cs.reverse := List.mem_reverse.mp hc
  exact List.mem_reverse.mp ((dropBlank_suffix cs.reverse).subset hmem)

theorem not_mem_tidyRest {ls : List (List Char)} (hls : ∀ l ∈ ls, c ∉ l) :
    ∀ l ∈ tidyRest ls, c ∉ l := by
  induction ls with
  | nil => exact hls
  | cons l ls ih =>
    obtain ⟨hl, hls⟩ := List.forall_mem_cons.mp hls
    have hfront : c ∉ dropBlank l := fun hmem => hl ((dropBlank_suffix l).subset hmem)
    cases ls with
    | nil => exact List.forall_mem_singleton.mpr hfront
    | cons m more =>
      exact List.forall_mem_cons.mpr ⟨fun hmem => hfront (dropBlankEnd_subset _ hmem), ih hls⟩

/-- Trimming adds no character. -/
theorem not_mem_tidyLines {ls : List (List Char)} (hls : ∀ l ∈ ls, c ∉ l) :
    ∀ l ∈ tidyLines ls, c ∉ l := by
  cases ls with
  | nil => exact hls
  | cons l ls =>
    cases ls with
    | nil => exact hls
    | cons m more =>
      obtain ⟨hl, hls⟩ := List.forall_mem_cons.mp hls
      exact List.forall_mem_cons.mpr
        ⟨fun hmem => hl (dropBlankEnd_subset l hmem), not_mem_tidyRest hls⟩

theorem tidyLines_ne_nil {ls : List (List Char)} (hls : ls ≠ []) : tidyLines ls ≠ [] := by
  cases ls with
  | nil => exact absurd rfl hls
  | cons l ls => cases ls <;> exact List.cons_ne_nil _ _

/-- Between two others a text is left as it is exactly if no blank stands next to a line feed. -/
theorem tidy_eq_self_iff (cs : List Char) : tidy cs = cs ↔ KeepsBlanks cs := by
  have hls := not_mem_of_mem_splitOn cs
  unfold KeepsBlanks
  rw [← tidyLines_eq_self_iff]
  constructor
  · intro h
    have hsplit := List.splitOn_intercalate '\n' (not_mem_tidyLines hls)
      (tidyLines_ne_nil (List.splitOn_ne_nil '\n' cs))
    have htidy : ['\n'].intercalate (tidyLines (cs.splitOn '\n')) = cs := h
    rwa [htidy, eq_comm] at hsplit
  · intro h
    rw [tidy, h, joined_splitOn]

theorem not_mem_tidy (hc : c ≠ '\n') (hcs : c ∉ cs) : c ∉ tidy cs := by
  refine not_mem_joined hc (not_mem_tidyLines fun l hl hmem => hcs ?_)
  have hsubset := subset_joined l hl hmem
  rwa [joined_splitOn] at hsubset

end Regression.Text
