import Mathlib.Tactic.ByContra
import Regression.Proofs.Computation
import Regression.Proofs.Report.Blocks

/-!
# Results files that can be read back

An output is found by its prefix. A block is read back as it was written only if the prefix does
not show up in the names of its phases, and if its reason contains neither a marker nor the words
for too much abstraction (`ResultsBlock.IsReadable`). The words are taken out of a reason when it
is written, but what is left may contain them again.

* `ResultsBlock.classifyOutput_eq_ok_iff`: the blocks whose output is read as it was written.
* `parseResults_eq_ok_iff`: exactly the files of readable blocks are read back.
-/

namespace Regression

open Text

namespace ResultsBlock

/-! ## Outputs -/

theorem outputPrefix_eq : outputPrefix.toList = 'O' :: ['u', 't', 'p', 'u', 't', ' ', ':', ' '] :=
  toList_outputPrefix

theorem outputPrefix_ne_nil : outputPrefix.toList ≠ [] := by
  rw [outputPrefix_eq]
  exact List.cons_ne_nil _ _

theorem line_not_mem_outputPrefix : '\n' ∉ outputPrefix.toList := by
  rw [toList_outputPrefix]
  decide

/-- The line of a phase up to its time. -/
def stem (phase : String) : List Char := "  -".toList ++ (phase.toList ++ " : ".toList)

theorem toList_timingLine_eq (phase : String) (elapsed : Duration) :
    ∃ digit digits, digit.isDigit ∧ (∀ c ∈ digits, c.isDigit) ∧
      (timingLine phase elapsed).toList =
        stem phase ++ digit :: (digits ++ [' ', 'm', 's', '\n']) := by
  have hdigits : ∀ c ∈ Nat.toDigits 10 elapsed.milliseconds, c.isDigit :=
    fun c hc => Nat.isDigit_of_mem_toDigits (by omega) (by omega) hc
  have hline := toList_timingLine phase elapsed
  cases hnumber : Nat.toDigits 10 elapsed.milliseconds with
  | nil => exact absurd hnumber Nat.toDigits_ne_nil
  | cons digit digits =>
    rw [hnumber] at hdigits hline
    obtain ⟨hdigit, hdigits⟩ := List.forall_mem_cons.mp hdigits
    refine ⟨digit, digits, hdigit, hdigits, ?_⟩
    rw [hline, stem, List.append_assoc, List.append_assoc]
    rfl

/-- The dash before a phase is not the beginning of an output. -/
theorem occurs_outputPrefix_dash (cs : List Char) :
    Occurs outputPrefix.toList ("  -".toList ++ cs) ↔ Occurs outputPrefix.toList cs := by
  show Occurs _ (' ' :: ' ' :: '-' :: cs) ↔ _
  rw [outputPrefix_eq, occurs_cons_of_ne (by decide), occurs_cons_of_ne (by decide),
    occurs_cons_of_ne (by decide)]

theorem occurs_outputPrefix_stem (phase : String) :
    Occurs outputPrefix.toList (stem phase) ↔ occursIn outputPrefix (phase ++ " : ") = true := by
  rw [occursIn_eq_true, stem, occurs_outputPrefix_dash, String.toList_append]

theorem occurs_outputPrefix_timingLine (phase : String) (elapsed : Duration) :
    Occurs outputPrefix.toList (timingLine phase elapsed).toList ↔
      Occurs outputPrefix.toList (stem phase) := by
  obtain ⟨digit, digits, hdigit, hdigits, hline⟩ := toList_timingLine_eq phase elapsed
  have hend : ¬Occurs outputPrefix.toList (digits ++ [' ', 'm', 's', '\n']) := by
    rw [occurs_append_of_forall_not_mem outputPrefix_ne_nil
      fun c hc => (digit_not_mem (hdigits c hc)).2, toList_outputPrefix]
    exact not_occurs_of_eq_none rfl
  rw [hline, occurs_append_cons outputPrefix_ne_nil (digit_not_mem hdigit).2]
  exact or_iff_left hend

theorem occurs_outputPrefix_timingLines (b : ResultsBlock) :
    Occurs outputPrefix.toList b.timingLines ↔
      ∃ t ∈ b.timings, occursIn outputPrefix (t.1 ++ " : ") = true := by
  unfold timingLines
  rw [IsLines.occurs_flatMap outputPrefix_ne_nil line_not_mem_outputPrefix fun t _ =>
    isLines_timingLine t.1 t.2]
  simp only [occurs_outputPrefix_timingLine, occurs_outputPrefix_stem]

/-- If the name of a phase ends like an output begins, then no word follows but a colon, or the time
that the phase took. -/
theorem splitFirst?_timingLine {phase : String} (hphase : occursIn outputPrefix phase = false)
    (h : Occurs outputPrefix.toList (stem phase)) (elapsed : Duration) (rest : List Char) :
    ∃ before c after,
      splitFirst? outputPrefix.toList ((timingLine phase elapsed).toList ++ rest) =
        some (before, c :: after) ∧ c ∉ ['E', 'N', 'U'] := by
  obtain ⟨digit, digits, hdigit, hdigits, hline⟩ := toList_timingLine_eq phase elapsed
  have hnoLetter : ∀ c : Char, c.isDigit → c ∉ ['E', 'N', 'U'] := by
    intro c hc hmem
    have hletters : ∀ d ∈ ['E', 'N', 'U'], d.isDigit = false := by simp
    rw [hletters c hmem] at hc
    cases hc
  obtain ⟨⟨before, after⟩, hsplit⟩ := Option.ne_none_iff_exists'.mp h
  have hwhole : splitFirst? outputPrefix.toList ((timingLine phase elapsed).toList ++ rest) =
      some (before, after ++ digit :: (digits ++ [' ', 'm', 's', '\n'] ++ rest)) := by
    rw [hline, List.append_assoc, List.cons_append,
      splitFirst?_append_cons outputPrefix_ne_nil (digit_not_mem hdigit).2, hsplit]
  -- What is left of the line lies within the colon and its blanks, since the name is complete.
  have hparts : ("  -".toList ++ phase.toList) ++ " : ".toList =
      (before ++ outputPrefix.toList) ++ after := by
    rw [List.append_assoc, List.append_assoc]
    exact eq_append_of_splitFirst? hsplit
  have hafter : ∀ c ∈ after, c ∉ ['E', 'N', 'U'] := by
    rcases List.append_eq_append_iff.mp hparts with ⟨middle, -, hrest⟩ | ⟨middle, hname, -⟩
    · intro c hc
      have hcolon : ∀ d ∈ " : ".toList, d ∉ ['E', 'N', 'U'] := by simp
      exact hcolon c (by rw [hrest]; exact List.mem_append_right _ hc)
    · have hin : Occurs outputPrefix.toList ("  -".toList ++ phase.toList) := by
        rw [hname, List.append_assoc]
        exact occurs_append _ _ _
      rw [occurs_outputPrefix_dash, ← occursIn_eq_true, hphase] at hin
      cases hin
  cases after with
  | nil => exact ⟨before, digit, _, hwhole, hnoLetter digit hdigit⟩
  | cons c after => exact ⟨before, c, _, hwhole, hafter c List.mem_cons_self⟩

theorem splitFirst?_timingLines {timings : List (String × Duration)}
    (hphases : ∀ t ∈ timings, occursIn outputPrefix t.1 = false)
    (h : ∃ t ∈ timings, occursIn outputPrefix (t.1 ++ " : ") = true) (rest : List Char) :
    ∃ before c after,
      splitFirst? outputPrefix.toList
          ((timings.flatMap fun t => (timingLine t.1 t.2).toList) ++ rest) =
        some (before, c :: after) ∧ c ∉ ['E', 'N', 'U'] := by
  induction timings with
  | nil =>
    obtain ⟨t, ht, -⟩ := h
    cases ht
  | cons t timings ih =>
    obtain ⟨hphase, hphases⟩ := List.forall_mem_cons.mp hphases
    rw [List.flatMap_cons, List.append_assoc]
    by_cases hline : Occurs outputPrefix.toList (stem t.1)
    · exact splitFirst?_timingLine hphase hline t.2 _
    · have hnone : ¬Occurs outputPrefix.toList (timingLine t.1 t.2).toList := by
        rw [occurs_outputPrefix_timingLine]
        exact hline
      have hmore : ∃ t ∈ timings, occursIn outputPrefix (t.1 ++ " : ") = true := by
        obtain ⟨u, hu, hword⟩ := h
        rcases List.mem_cons.mp hu with rfl | hu
        · exact absurd ((occurs_outputPrefix_stem _).mpr hword) hline
        · exact ⟨u, hu, hword⟩
      obtain ⟨before, c, after, hsplit, hc⟩ := ih hphases hmore
      rw [(isLines_timingLine t.1 t.2).splitFirst?_append outputPrefix_ne_nil
        line_not_mem_outputPrefix hnone, hsplit]
      exact ⟨_, c, after, rfl, hc⟩

/-! ## Classified outputs -/

/-- An output is classified by what follows the first prefix. -/
theorem classifyOutput_of_splitFirst? {block : String} {before after : List Char}
    (h : splitFirst? outputPrefix.toList block.toList = some (before, after)) (d : Option Bool) :
    classifyOutput block d =
      if (dropPattern? "EQUIVALENT".toList after).isSome then
        .ok (if d = some false then .eq else .maybeEq)
      else if (dropPattern? "NOT EQUIVALENT".toList after).isSome then .ok .neq
      else if (dropPattern? "UNKNOWN".toList after).isSome then
        .ok (if occursIn tooMuchAbstraction (outputPrefix ++ String.ofList after) then .maybeNeq
          else .unknown)
      else .error (.unknownOutput
        (trim ((lines (outputPrefix ++ String.ofList after)).headD ""))) := by
  have houtput : outputOf? block = some (outputPrefix ++ String.ofList after) := by
    unfold outputOf? after?
    rw [h]
    rfl
  have hword (word : String) :
      (dropStart? (outputPrefix ++ word) (outputPrefix ++ String.ofList after)).isSome =
        (dropPattern? word.toList after).isSome := by
    unfold dropStart?
    rw [Option.isSome_map, String.toList_append, String.toList_append, dropPattern?_append_append,
      String.toList_ofList]
  unfold classifyOutput
  rw [houtput]
  simp only [hword]

theorem dropPattern?_of_not_mem {c : Char} (after : List Char) (hc : c ∉ ['E', 'N', 'U']) :
    dropPattern? "EQUIVALENT".toList (c :: after) = none ∧
      dropPattern? "NOT EQUIVALENT".toList (c :: after) = none ∧
      dropPattern? "UNKNOWN".toList (c :: after) = none := by
  have hE : c ≠ 'E' := List.ne_of_not_mem_cons hc
  have hN : c ≠ 'N' := List.ne_of_not_mem_cons (List.not_mem_of_not_mem_cons hc)
  have hU : c ≠ 'U' := by
    rintro rfl
    exact hc (by decide)
  exact ⟨if_neg hE.symm, if_neg hN.symm, if_neg hU.symm⟩

theorem exists_classifyOutput_error {block : String} {before after : List Char} {c : Char}
    (h : splitFirst? outputPrefix.toList block.toList = some (before, c :: after))
    (hc : c ∉ ['E', 'N', 'U']) (d : Option Bool) :
    ∃ fault, classifyOutput block d = .error fault := by
  obtain ⟨hE, hN, hU⟩ := dropPattern?_of_not_mem after hc
  rw [classifyOutput_of_splitFirst? h, hE, hN, hU]
  exact ⟨_, rfl⟩

/-- The words for too much abstraction are looked for up to the end of a block. -/
theorem occurs_tooMuchAbstraction {output tail : List Char} (houtput : IsLines output)
    (htail : ∀ c ∈ tail, c = '-') :
    Occurs tooMuchAbstraction.toList (output ++ (footer.toList ++ tail)) ↔
      Occurs tooMuchAbstraction.toList output := by
  have hne : tooMuchAbstraction.toList ≠ [] := by decide
  have hfooter : ∀ c ∈ footer.toList, c ∉ tooMuchAbstraction.toList := by
    simp [toList_footer, tooMuchAbstraction]
  have hdash : ∀ c ∈ tail, c ∉ tooMuchAbstraction.toList := by
    intro c hc
    rw [htail c hc]
    decide
  have hend : ¬Occurs tooMuchAbstraction.toList (footer.toList ++ tail) := by
    have hskip := occurs_append_of_forall_not_mem (b := []) hne hdash
    rw [List.append_nil] at hskip
    rw [occurs_append_of_forall_not_mem hne hfooter, hskip]
    exact not_occurs_nil hne
  rw [houtput.occurs_append hne (by decide), or_iff_left hend]

theorem not_occurs_outputPrefix_rule : ¬Occurs outputPrefix.toList rule := by
  rw [toList_outputPrefix]
  exact not_occurs_of_eq_none rfl

/-- A block begins with the end of its header. -/
theorem splitFirst?_rule (rest : List Char) :
    splitFirst? outputPrefix.toList (rule ++ rest) =
      (splitFirst? outputPrefix.toList rest).map fun (before, after) => (rule ++ before, after) :=
  isLines_rule.splitFirst?_append outputPrefix_ne_nil line_not_mem_outputPrefix
    not_occurs_outputPrefix_rule

/-- The output of a block is found behind the lines of its phases. -/
theorem splitFirst?_body {b : ResultsBlock} {output : List Char}
    (hphases : ¬Occurs outputPrefix.toList b.timingLines)
    (houtput : b.output.toList = outputPrefix.toList ++ output) (tail : List Char) :
    splitFirst? outputPrefix.toList (rule ++ (b.body ++ tail)) =
      some (rule ++ b.timingLines, output ++ (footer.toList ++ tail)) := by
  have hbody : b.body ++ tail =
      b.timingLines ++ (outputPrefix.toList ++ (output ++ (footer.toList ++ tail))) := by
    rw [body, houtput, List.append_assoc, List.append_assoc, List.append_assoc]
  rw [splitFirst?_rule, hbody, b.isLines_timingLines.splitFirst?_append outputPrefix_ne_nil
    line_not_mem_outputPrefix hphases, splitFirst?_append_self]
  simp

/-- What is read of a block whose phases do not hide its output. -/
theorem classifyOutput_eq {b : ResultsBlock} (hphases : ¬Occurs outputPrefix.toList b.timingLines)
    {tail : List Char} (htail : ∀ c ∈ tail, c = '-') (d : Option Bool) :
    classifyOutput (String.ofList (rule ++ (b.body ++ tail))) d =
      .ok (if ∃ r ∈ b.shownReason?, occursIn tooMuchAbstraction r = true then .maybeNeq
        else b.readAs d) := by
  have hfind {output : List Char} (houtput : b.output.toList = outputPrefix.toList ++ output) :
      splitFirst? outputPrefix.toList (String.ofList (rule ++ (b.body ++ tail))).toList =
        some (rule ++ b.timingLines, output ++ (footer.toList ++ tail)) := by
    rw [String.toList_ofList]
    exact splitFirst?_body hphases houtput tail
  have hunknown {reason : String} (houtput : b.output = unknownOutput reason) :
      classifyOutput (String.ofList (rule ++ (b.body ++ tail))) d =
        .ok (if occursIn tooMuchAbstraction reason then .maybeNeq else .unknown) := by
    have hlist := toList_unknownOutput reason
    rw [← houtput] at hlist
    have hwords : occursIn tooMuchAbstraction (outputPrefix ++ String.ofList
        ((['U', 'N', 'K', 'N', 'O', 'W', 'N'] ++ ([' ', '\n', 'R', 'e', 'a', 's', 'o', 'n'] ++
          ':' :: ' ' :: (reason.toList ++ ['\n']))) ++ (footer.toList ++ tail))) =
        occursIn tooMuchAbstraction reason := by
      rw [Bool.eq_iff_iff, occursIn_eq_true, occursIn_eq_true, String.toList_append,
        String.toList_ofList, ← List.append_assoc, ← hlist,
        occurs_tooMuchAbstraction b.isLines_output htail, houtput]
      exact occurs_unknownOutput (by decide) (by decide) (by decide) (not_occurs_of_eq_none rfl) _
    rw [classifyOutput_of_splitFirst? (hfind hlist), hwords]
    rfl
  rcases b.output_cases with ⟨hreason, heq, hread⟩ | ⟨hreason, heq, hread⟩ |
    ⟨hreason, heq, hread⟩ | ⟨r, hreason, heq, hread⟩
  · have hlist : b.output.toList = outputPrefix.toList ++ ("EQUIVALENT".toList ++ ['\n']) := by
      rw [heq]
      rfl
    rw [classifyOutput_of_splitFirst? (hfind hlist), hreason, hread, List.append_assoc,
      dropPattern?_append]
    simp
  · have hlist : b.output.toList = outputPrefix.toList ++ ("NOT EQUIVALENT".toList ++ ['\n']) := by
      rw [heq]
      rfl
    have hnot : ∀ rest, dropPattern? "EQUIVALENT".toList ("NOT EQUIVALENT".toList ++ rest) = none :=
      fun rest => rfl
    rw [classifyOutput_of_splitFirst? (hfind hlist), hreason, hread, List.append_assoc, hnot,
      dropPattern?_append]
    simp
  · have hwords : occursIn tooMuchAbstraction tooMuchAbstraction = true := by decide
    rw [hunknown heq, hwords, hreason, hread]
    simp
  · rw [hunknown heq, hreason, hread]
    simp

/-- A block with a phase that looks like an output cannot be read. -/
theorem exists_classifyOutput_error_of_timing {b : ResultsBlock}
    (hphases : ∀ t ∈ b.timings, occursIn outputPrefix t.1 = false)
    (houtput : ∃ t ∈ b.timings, occursIn outputPrefix (t.1 ++ " : ") = true) (tail : List Char)
    (d : Option Bool) :
    ∃ fault, classifyOutput (String.ofList (rule ++ (b.body ++ tail))) d = .error fault := by
  obtain ⟨before, c, after, hsplit, hc⟩ := splitFirst?_timingLines hphases houtput
    (b.output.toList ++ (footer.toList ++ tail))
  have hbody : b.body ++ tail =
      b.timingLines ++ (b.output.toList ++ (footer.toList ++ tail)) := by
    rw [body, List.append_assoc, List.append_assoc]
  have hfind : splitFirst? outputPrefix.toList
      (String.ofList (rule ++ (b.body ++ tail))).toList = some (rule ++ before, c :: after) := by
    have hsplit : splitFirst? outputPrefix.toList (b.timingLines ++ _) = _ := hsplit
    rw [String.toList_ofList, splitFirst?_rule, hbody, hsplit]
    rfl
  exact exists_classifyOutput_error hfind hc d

/-- Only a reason that is shown as such can contain the words for too much abstraction. -/
theorem readAs_of_mem_shownReason {b : ResultsBlock} {r : String} (hr : r ∈ b.shownReason?)
    (d : Option Bool) : b.readAs d = .unknown := by
  rcases b.output_cases with ⟨hnone, -⟩ | ⟨hnone, -⟩ | ⟨hnone, -⟩ | ⟨-, -, -, hread⟩
  · rw [hnone] at hr
    cases hr
  · rw [hnone] at hr
    cases hr
  · rw [hnone] at hr
    cases hr
  · exact hread d

/-- A block is read as it was written if nothing in it looks like an output, or like too much
abstraction. -/
theorem classifyOutput_eq_ok_iff {b : ResultsBlock}
    (hphases : ∀ t ∈ b.timings, occursIn outputPrefix t.1 = false) {tail : List Char}
    (htail : ∀ c ∈ tail, c = '-') (d : Option Bool) :
    classifyOutput (String.ofList (rule ++ (b.body ++ tail))) d = .ok (b.readAs d) ↔
      (∀ t ∈ b.timings, occursIn outputPrefix (t.1 ++ " : ") = false) ∧
        ∀ r ∈ b.shownReason?, occursIn tooMuchAbstraction r = false := by
  by_cases houtput : ∃ t ∈ b.timings, occursIn outputPrefix (t.1 ++ " : ") = true
  · obtain ⟨fault, hfault⟩ := exists_classifyOutput_error_of_timing hphases houtput tail d
    rw [hfault]
    refine iff_of_false nofun ?_
    rintro ⟨hnone, -⟩
    obtain ⟨t, ht, hword⟩ := houtput
    rw [hnone t ht] at hword
    cases hword
  · have hnone : ∀ t ∈ b.timings, occursIn outputPrefix (t.1 ++ " : ") = false := by
      intro t ht
      rw [← Bool.not_eq_true]
      exact fun hword => houtput ⟨t, ht, hword⟩
    rw [classifyOutput_eq (mt b.occurs_outputPrefix_timingLines.mp houtput) htail,
      and_iff_right hnone]
    by_cases hwords : ∃ r ∈ b.shownReason?, occursIn tooMuchAbstraction r = true
    · obtain ⟨r, hr, hword⟩ := hwords
      rw [if_pos ⟨r, hr, hword⟩, readAs_of_mem_shownReason hr]
      refine iff_of_false nofun ?_
      intro hclean
      rw [hclean r hr] at hword
      cases hword
    · rw [if_neg hwords]
      refine iff_of_true rfl ?_
      intro r hr
      rw [← Bool.not_eq_true]
      exact fun hword => hwords ⟨r, hr, hword⟩

/-- The same for all blocks of a file. -/
theorem mapM_classifyOutput_eq_ok_iff {blocks : List ResultsBlock}
    (hphases : ∀ b ∈ blocks, ∀ t ∈ b.timings, occursIn outputPrefix t.1 = false)
    (d : UInt32 → Option Bool) (start : Nat) :
    (((contents blocks).map String.ofList).zipIdx start).mapM
        (fun (block, i) => classifyOutput block (d (.ofNat (i + 1)))) =
          .ok ((blocks.zipIdx start).map fun (b, i) => b.readAs (d (.ofNat (i + 1)))) ↔
      ∀ b ∈ blocks, (∀ t ∈ b.timings, occursIn outputPrefix (t.1 ++ " : ") = false) ∧
        ∀ r ∈ b.shownReason?, occursIn tooMuchAbstraction r = false := by
  induction blocks generalizing start with
  | nil => exact iff_of_true rfl nofun
  | cons b blocks ih =>
    obtain ⟨hb, hblocks⟩ := List.forall_mem_cons.mp hphases
    have htail : ∀ c ∈ if blocks = [] then [] else dashes, c = '-' := by
      intro c hc
      split at hc
      · cases hc
      · exact (List.mem_replicate.mp hc).2
    rw [contents, List.map_cons, List.zipIdx_cons, List.mapM_cons, List.zipIdx_cons, List.map_cons,
      List.forall_mem_cons, ← ih hblocks (start + 1),
      ← classifyOutput_eq_ok_iff hb htail (d (.ofNat (start + 1)))]
    constructor
    · intro h
      obtain ⟨c, hc, h⟩ := bind_eq_ok.mp h
      obtain ⟨cs, hcs, h⟩ := bind_eq_ok.mp h
      cases h
      exact ⟨hc, hcs⟩
    · rintro ⟨hc, hcs⟩
      exact bind_eq_ok.mpr ⟨_, hc, bind_eq_ok.mpr ⟨_, hcs, rfl⟩⟩

end ResultsBlock

/-- If no name of a phase holds the prefix of outputs, then a file is read as it was written just
when all its blocks are readable. -/
theorem parseResults_eq_ok_iff {blocks : List ResultsBlock}
    (hphases : ∀ b ∈ blocks, ∀ t ∈ b.timings, occursIn ResultsBlock.outputPrefix t.1 = false)
    (d : UInt32 → Option Bool) :
    parseResults (String.join (blocks.map ResultsBlock.text)) d =
        .ok (blocks.zipIdx.map fun (b, i) => b.readAs (d (.ofNat (i + 1)))) ↔
      ∀ b ∈ blocks, b.IsReadable := by
  unfold parseResults
  by_cases hmarkers : ∀ b ∈ blocks, ¬Occurs ResultsBlock.marker.toList b.body
  · rw [blocksOf_eq hmarkers, ResultsBlock.mapM_classifyOutput_eq_ok_iff hphases d 0]
    refine forall₂_congr fun b hb => ?_
    have hclean := hmarkers b hb
    rw [b.occurs_marker_body] at hclean
    simp only [← occursIn_eq_true] at hclean
    constructor
    · rintro ⟨houtput, hreason⟩
      refine ⟨fun t ht => ?_, houtput, fun r hr => ⟨?_, hreason r hr⟩⟩
      · rw [← Bool.not_eq_true]
        exact fun hin => hclean (.inl ⟨t, ht, hin⟩)
      · rw [← Bool.not_eq_true]
        exact fun hin => hclean (.inr ⟨r, hr, hin⟩)
    · intro h
      exact ⟨h.output, fun r hr => (h.reason r hr).2⟩
  · obtain ⟨b, hb, hin⟩ : ∃ b ∈ blocks, Occurs ResultsBlock.marker.toList b.body := by
      by_contra hnone
      exact hmarkers fun b hb hin => hnone ⟨b, hb, hin⟩
    refine iff_of_false ?_ ?_
    · -- A further marker leaves more blocks than were written.
      intro h
      have hlength := (forall₂_of_mapM_eq_ok h).length_eq.symm
      rw [List.length_map, List.length_zipIdx, List.length_zipIdx, length_blocksOf] at hlength
      have hsum : (blocks.map fun b => occurrences ResultsBlock.marker.toList b.body).sum = 0 := by
        omega
      have hzero := List.sum_eq_zero_iff_forall_eq_nat.mp hsum _ (List.mem_map_of_mem hb)
      exact (occurrences_eq_zero ResultsBlock.marker_ne_nil).mp hzero hin
    · intro hreadable
      have hclean := hreadable b hb
      rcases b.occurs_marker_body.mp hin with ⟨t, ht, hin⟩ | ⟨r, hr, hin⟩
      · rw [← occursIn_eq_true, hclean.marker t ht] at hin
        cases hin
      · rw [← occursIn_eq_true, (hclean.reason r hr).1] at hin
        cases hin

/-- A phase that ends like an output begins hides the output. -/
example : ¬(⟨[("Output", .zero)], .neq, none⟩ : ResultsBlock).IsReadable := by decide

/-- Two blocks are read back. But taking words out of a reason can join the words around them. -/
theorem parseResults_eq_ok_iff_joined :
    let phase := ("symbolic-execution", Duration.ofMicroseconds 412345)
    let told : List ResultsBlock :=
      [⟨[phase], .error, some "too much abstraction in f"⟩, ⟨[], .eq, none⟩]
    let joined : List ResultsBlock :=
      [⟨[phase], .error, some "too much too much abstractionabstraction"⟩]
    parseResults (String.join (told.map ResultsBlock.text)) (fun _ => none) =
        .ok [.unknown, .maybeEq] ∧
      parseResults (String.join (joined.map ResultsBlock.text)) (fun _ => none) ≠
        .ok [.unknown] := by
  intro phase told joined
  have htold : ∀ b ∈ told, b.IsReadable := by decide
  have hjoined : ¬∀ b ∈ joined, b.IsReadable := by decide
  exact ⟨(parseResults_eq_ok_iff (by decide) _).mpr htold,
    mt (parseResults_eq_ok_iff (by decide) _).mp hjoined⟩

end Regression
