import Mathlib.Algebra.Ring.Nat
import Regression.Proofs.Search
import Regression.Report

/-!
# Finding the blocks of a results file

The blocks of a results file are found by the marker in their headers. A marker in the name of a
phase or in a reason makes further blocks.

* `ResultsBlock.IsReadable`: nothing in a block is taken for a marker or an output.
* `ResultsBlock.occurs_marker_body`: where a marker can show up behind a header.
* `length_blocksOf`: all markers of a file begin a block.
* `blocksOf_eq`: the texts of the blocks, if no marker shows up in them.
-/

namespace Regression

open Text

namespace ResultsBlock

/-! ## Readable blocks -/

/-- The reason that a block tells of itself. -/
def shownReason? (b : ResultsBlock) : Option String :=
  match b.classification with
  | .eq | .maybeEq | .neq | .maybeNeq => none
  | c => some (replace tooMuchAbstraction "" (b.reason.getD (defaultReason c)))

/-- What a block is to be read as, if the exploration is known to have been complete or not. -/
def readAs (b : ResultsBlock) (isDepthLimited : Option Bool) : Classification :=
  match b.classification with
  | .eq | .maybeEq => if isDepthLimited = some false then .eq else .maybeEq
  | .neq => .neq
  | .maybeNeq => .maybeNeq
  | _ => .unknown

/-- Nothing in the block looks like a marker, like an output, or like too much abstraction. -/
structure IsReadable (b : ResultsBlock) : Prop where
  marker : ∀ t ∈ b.timings, occursIn marker ("-" ++ t.1) = false
  output : ∀ t ∈ b.timings, occursIn outputPrefix (t.1 ++ " : ") = false
  reason : ∀ r ∈ b.shownReason?,
    occursIn ResultsBlock.marker r = false ∧ occursIn tooMuchAbstraction r = false

theorem isReadable_iff {b : ResultsBlock} :
    b.IsReadable ↔ (∀ t ∈ b.timings, occursIn marker ("-" ++ t.1) = false) ∧
      (∀ t ∈ b.timings, occursIn outputPrefix (t.1 ++ " : ") = false) ∧
      ∀ r ∈ b.shownReason?, occursIn marker r = false ∧ occursIn tooMuchAbstraction r = false :=
  ⟨fun h => ⟨h.marker, h.output, h.reason⟩, fun ⟨hmarker, houtput, hreason⟩ =>
    ⟨hmarker, houtput, hreason⟩⟩

instance : DecidablePred IsReadable := fun _ => decidable_of_iff _ isReadable_iff.symm

/-! ## The parts of a block -/

/-- The dashes before the marker. -/
def dashes : List Char := List.replicate 21 '-'

/-- The rest of the header. -/
def rule : List Char := List.replicate 41 '-' ++ ['\n']

theorem toList_marker :
    ResultsBlock.marker.toList = ['-', '-', 'R', 'e', 's', 'u', 'l', 't', 's', '-', '-'] :=
  String.toList_ofList

theorem toList_outputPrefix :
    outputPrefix.toList = ['O', 'u', 't', 'p', 'u', 't', ' ', ':', ' '] :=
  String.toList_ofList

theorem toList_header : header.toList =
    dashes ++ (['-', '-', 'R', 'e', 's', 'u', 'l', 't', 's', '-', '-'] ++ rule) :=
  String.toList_ofList

theorem toList_footer : footer.toList =
    List.replicate 23 '-' ++ ('E' :: 'N' :: 'D' :: (List.replicate 43 '-' ++ ['\n'])) :=
  String.toList_ofList

/-- The lines of the phases. -/
def timingLines (b : ResultsBlock) : List Char :=
  b.timings.flatMap fun t => (timingLine t.1 t.2).toList

/-- Everything behind the header. -/
def body (b : ResultsBlock) : List Char := b.timingLines ++ (b.output.toList ++ footer.toList)

theorem toList_text (b : ResultsBlock) : b.text.toList = header.toList ++ b.body := by
  unfold text body timingLines
  rw [String.toList_append, String.toList_append, String.toList_append, String.toList_join,
    List.flatMap_map, List.append_assoc, List.append_assoc]

theorem toList_timingLine (phase : String) (elapsed : Duration) :
    (timingLine phase elapsed).toList =
      ' ' :: ' ' :: '-' :: (phase.toList ++
        (" : ".toList ++ (Nat.toDigits 10 elapsed.milliseconds ++ " ms\n".toList))) := by
  unfold timingLine
  rw [Nat.toString_eq_repr, String.toList_append, String.toList_append, String.toList_append,
    String.toList_append, Nat.toList_repr, List.append_assoc, List.append_assoc, List.append_assoc]
  rfl

theorem isLines_timingLine (phase : String) (elapsed : Duration) :
    IsLines (timingLine phase elapsed).toList := by
  rw [toList_timingLine]
  exact .inr ⟨' ' :: ' ' :: '-' :: (phase.toList ++
    (" : ".toList ++ (Nat.toDigits 10 elapsed.milliseconds ++ " ms".toList))), by simp⟩

theorem isLines_timingLines (b : ResultsBlock) : IsLines b.timingLines :=
  IsLines.flatMap fun t _ => isLines_timingLine t.1 t.2

theorem isLines_output (b : ResultsBlock) : IsLines b.output.toList := by
  have hunknown (reason : String) : IsLines (unknownOutput reason).toList := by
    refine .inr ⟨("Output : UNKNOWN \nReason: " ++ reason).toList, ?_⟩
    unfold unknownOutput
    rw [String.toList_append]
    rfl
  unfold output
  split
  · exact .inr ⟨"Output : EQUIVALENT".toList, rfl⟩
  · exact .inr ⟨"Output : EQUIVALENT".toList, rfl⟩
  · exact .inr ⟨"Output : NOT EQUIVALENT".toList, rfl⟩
  · exact hunknown _
  · exact hunknown _

theorem isLines_rule : IsLines rule := .inr ⟨_, rfl⟩

theorem isLines_footer : IsLines footer.toList := by
  rw [toList_footer]
  exact .inr ⟨List.replicate 23 '-' ++ ('E' :: 'N' :: 'D' :: List.replicate 43 '-'), rfl⟩

theorem isLines_header : IsLines header.toList := by
  rw [toList_header, rule, ← List.append_assoc, ← List.append_assoc]
  exact .inr ⟨_, rfl⟩

theorem isLines_body (b : ResultsBlock) : IsLines b.body :=
  b.isLines_timingLines.append (b.isLines_output.append isLines_footer)

/-! ## Markers -/

theorem marker_ne_nil : ResultsBlock.marker.toList ≠ [] := by
  rw [toList_marker]
  exact List.cons_ne_nil _ _

theorem line_not_mem_marker : '\n' ∉ ResultsBlock.marker.toList := by
  rw [toList_marker]
  decide

/-- Digits are neither part of the marker nor of the prefix of outputs. -/
theorem digit_not_mem {c : Char} (hc : c.isDigit) :
    c ∉ ResultsBlock.marker.toList ∧ c ∉ outputPrefix.toList := by
  rw [toList_marker, toList_outputPrefix]
  constructor
  · rintro hmem
    have hnone : ∀ d ∈ ['-', '-', 'R', 'e', 's', 'u', 'l', 't', 's', '-', '-'],
        d.isDigit = false := by simp
    rw [hnone c hmem] at hc
    cases hc
  · rintro hmem
    have hnone : ∀ d ∈ ['O', 'u', 't', 'p', 'u', 't', ' ', ':', ' '], d.isDigit = false := by simp
    rw [hnone c hmem] at hc
    cases hc

/-- A marker in the line of a phase is one in its name, or begins with the dash before it. -/
theorem occurs_marker_timingLine (phase : String) (elapsed : Duration) :
    Occurs ResultsBlock.marker.toList (timingLine phase elapsed).toList ↔
      Occurs ResultsBlock.marker.toList ("-" ++ phase).toList := by
  have hphase : ("-" ++ phase).toList = '-' :: phase.toList := String.toList_append
  have hrest : ¬Occurs ResultsBlock.marker.toList
      (": ".toList ++ (Nat.toDigits 10 elapsed.milliseconds ++ " ms\n".toList)) := by
    rw [occurs_append_of_forall_not_mem marker_ne_nil (by simp [toList_marker]),
      occurs_append_of_forall_not_mem marker_ne_nil
        fun c hc => (digit_not_mem (Nat.isDigit_of_mem_toDigits (by omega) (by omega) hc)).1]
    exact Classical.not_not.mpr rfl
  rw [toList_timingLine, hphase, occurs_cons marker_ne_nil (by decide),
    occurs_cons marker_ne_nil (by decide)]
  show Occurs _ (('-' :: phase.toList) ++ ' ' :: (": ".toList ++ _)) ↔ _
  rw [occurs_append_cons marker_ne_nil (by decide)]
  exact or_iff_left hrest

theorem toList_unknownOutput (reason : String) :
    (unknownOutput reason).toList = outputPrefix.toList ++ (['U', 'N', 'K', 'N', 'O', 'W', 'N'] ++
      ([' ', '\n', 'R', 'e', 'a', 's', 'o', 'n'] ++ ':' :: ' ' :: (reason.toList ++ ['\n']))) := by
  have hstart : "Output : UNKNOWN \nReason: ".toList = ['O', 'u', 't', 'p', 'u', 't', ' ', ':', ' ',
      'U', 'N', 'K', 'N', 'O', 'W', 'N', ' ', '\n', 'R', 'e', 'a', 's', 'o', 'n', ':', ' '] :=
    String.toList_ofList
  have hend : "\n".toList = ['\n'] := String.toList_ofList
  unfold unknownOutput
  rw [String.toList_append, String.toList_append, hstart, hend, toList_outputPrefix,
    List.append_assoc]
  rfl

/-- A reason begins behind a colon, and is followed by the end of a line. -/
theorem occurs_unknownOutput {pattern : List Char} {first : Char} (hcolon : ':' ∉ first :: pattern)
    (hline : '\n' ∉ first :: pattern) (hspace : ' ' ≠ first)
    (hwords : ¬Occurs (first :: pattern) (['O', 'u', 't', 'p', 'u', 't', ' ', ':', ' '] ++
      (['U', 'N', 'K', 'N', 'O', 'W', 'N'] ++ [' ', '\n', 'R', 'e', 'a', 's', 'o', 'n'])))
    (reason : String) :
    Occurs (first :: pattern) (unknownOutput reason).toList ↔
      Occurs (first :: pattern) reason.toList := by
  have hne : first :: pattern ≠ [] := List.cons_ne_nil _ _
  rw [toList_unknownOutput, toList_outputPrefix, ← List.append_assoc, ← List.append_assoc,
    List.append_assoc _ ['U', 'N', 'K', 'N', 'O', 'W', 'N'], occurs_append_cons hne hcolon,
    occurs_cons_of_ne hspace, occurs_append_cons hne hline, or_iff_right hwords]
  exact or_iff_left (not_occurs_nil hne)

/-- The outputs that there are, what they tell, and what they are to be read as. -/
theorem output_cases (b : ResultsBlock) :
    (b.shownReason? = none ∧ b.output = "Output : EQUIVALENT\n" ∧
      ∀ d, b.readAs d = if d = some false then .eq else .maybeEq) ∨
    (b.shownReason? = none ∧ b.output = "Output : NOT EQUIVALENT\n" ∧ ∀ d, b.readAs d = .neq) ∨
    (b.shownReason? = none ∧ b.output = unknownOutput tooMuchAbstraction ∧
      ∀ d, b.readAs d = .maybeNeq) ∨
    ∃ r, b.shownReason? = some r ∧ b.output = unknownOutput r ∧ ∀ d, b.readAs d = .unknown := by
  unfold shownReason? output readAs
  cases b.classification with
  | eq | maybeEq => exact .inl ⟨rfl, rfl, fun _ => rfl⟩
  | neq => exact .inr (.inl ⟨rfl, rfl, fun _ => rfl⟩)
  | maybeNeq => exact .inr (.inr (.inl ⟨rfl, rfl, fun _ => rfl⟩))
  | _ => exact .inr (.inr (.inr ⟨_, rfl, rfl, fun _ => rfl⟩))

theorem occurs_marker_output (b : ResultsBlock) :
    Occurs ResultsBlock.marker.toList b.output.toList ↔
      ∃ r ∈ b.shownReason?, Occurs ResultsBlock.marker.toList r.toList := by
  have hunknown (reason : String) : Occurs ResultsBlock.marker.toList
      (unknownOutput reason).toList ↔ Occurs ResultsBlock.marker.toList reason.toList :=
    occurs_unknownOutput (by decide) (by decide) (by decide) (not_occurs_of_eq_none rfl) reason
  have hnone (h : b.shownReason? = none) :
      ¬∃ r ∈ b.shownReason?, Occurs ResultsBlock.marker.toList r.toList := by
    rw [h]
    rintro ⟨r, hr, -⟩
    cases hr
  rcases b.output_cases with ⟨h, heq, -⟩ | ⟨h, heq, -⟩ | ⟨h, heq, -⟩ | ⟨r, h, heq, -⟩
  · rw [heq]
    exact iff_of_false (not_occurs_of_eq_none rfl) (hnone h)
  · rw [heq]
    exact iff_of_false (not_occurs_of_eq_none rfl) (hnone h)
  · rw [heq, hunknown]
    exact iff_of_false (not_occurs_of_eq_none rfl) (hnone h)
  · rw [heq, hunknown, h]
    simp

/-- A marker behind the header is in the name of a phase or in the reason. -/
theorem occurs_marker_body (b : ResultsBlock) :
    Occurs ResultsBlock.marker.toList b.body ↔
      (∃ t ∈ b.timings, Occurs ResultsBlock.marker.toList ("-" ++ t.1).toList) ∨
        ∃ r ∈ b.shownReason?, Occurs ResultsBlock.marker.toList r.toList := by
  have htimings : Occurs ResultsBlock.marker.toList b.timingLines ↔
      ∃ t ∈ b.timings, Occurs ResultsBlock.marker.toList ("-" ++ t.1).toList := by
    unfold timingLines
    rw [IsLines.occurs_flatMap marker_ne_nil line_not_mem_marker fun t _ =>
      isLines_timingLine t.1 t.2]
    simp only [occurs_marker_timingLine]
  have hfooter : ¬Occurs ResultsBlock.marker.toList footer.toList := by
    rw [toList_footer, toList_marker]
    exact not_occurs_of_eq_none rfl
  unfold body
  rw [b.isLines_timingLines.occurs_append marker_ne_nil line_not_mem_marker,
    b.isLines_output.occurs_append marker_ne_nil line_not_mem_marker, htimings,
    b.occurs_marker_output, or_iff_left hfooter]

/-! ## Blocks in a file -/

/-- The characters of a file with some blocks. -/
def fileOf (blocks : List ResultsBlock) : List Char := blocks.flatMap (·.text.toList)

theorem toList_join (blocks : List ResultsBlock) :
    (String.join (blocks.map text)).toList = fileOf blocks := by
  rw [String.toList_join, List.flatMap_map]
  rfl

theorem isLines_text (b : ResultsBlock) : IsLines b.text.toList := by
  rw [toList_text]
  exact isLines_header.append b.isLines_body

theorem not_occurs_rule : ¬Occurs ResultsBlock.marker.toList rule := by
  rw [toList_marker]
  exact not_occurs_of_eq_none rfl

theorem header_split (rest : List Char) :
    splitFirst? ResultsBlock.marker.toList (header.toList ++ rest) =
      some (dashes, rule ++ rest) := by
  rw [toList_header, toList_marker]
  rfl

/-- Each block has one marker in its header, and maybe others. -/
theorem occurrences_fileOf (blocks : List ResultsBlock) :
    occurrences ResultsBlock.marker.toList (fileOf blocks) =
      blocks.length + (blocks.map fun b => occurrences ResultsBlock.marker.toList b.body).sum := by
  induction blocks with
  | nil => exact (occurrences_eq_zero marker_ne_nil).mpr (not_occurs_nil marker_ne_nil)
  | cons b blocks ih =>
    have hheader : occurrences ResultsBlock.marker.toList header.toList = 1 := by
      have hsplit := header_split []
      rw [List.append_nil, List.append_nil] at hsplit
      rw [occurrences_eq marker_ne_nil, hsplit]
      exact congrArg (· + 1) ((occurrences_eq_zero marker_ne_nil).mpr not_occurs_rule)
    have hcons : fileOf (b :: blocks) = b.text.toList ++ fileOf blocks := rfl
    rw [hcons, b.isLines_text.occurrences_append marker_ne_nil line_not_mem_marker, ih, toList_text,
      isLines_header.occurrences_append marker_ne_nil line_not_mem_marker, hheader,
      List.length_cons, List.map_cons, List.sum_cons]
    omega

/-- What is read of each block: the dashes of the next header belong to it. -/
def contents : List ResultsBlock → List (List Char)
  | [] => []
  | b :: blocks => (rule ++ (b.body ++ if blocks = [] then [] else dashes)) :: contents blocks

/-- The pieces of a file that begins with some lines. -/
theorem piecesFrom_fileOf {blocks : List ResultsBlock}
    (hblocks : ∀ b ∈ blocks, ¬Occurs ResultsBlock.marker.toList b.body) {lines : List Char}
    (hlines : IsLines lines) (hnone : ¬Occurs ResultsBlock.marker.toList lines) :
    piecesFrom ResultsBlock.marker.toList 0 (lines ++ fileOf blocks) =
      (lines ++ if blocks = [] then [] else dashes) :: contents blocks := by
  induction blocks generalizing lines with
  | nil =>
    show piecesFrom ResultsBlock.marker.toList 0 (lines ++ []) = [lines ++ []]
    have hsplit : splitFirst? ResultsBlock.marker.toList lines = none :=
      Classical.not_not.mp hnone
    rw [List.append_nil, piecesFrom_eq marker_ne_nil, hsplit]
  | cons b blocks ih =>
    obtain ⟨hb, hblocks⟩ := List.forall_mem_cons.mp hblocks
    have hfile : fileOf (b :: blocks) = header.toList ++ (b.body ++ fileOf blocks) := by
      show b.text.toList ++ fileOf blocks = _
      rw [toList_text, List.append_assoc]
    have hsplit : splitFirst? ResultsBlock.marker.toList (lines ++ fileOf (b :: blocks)) =
        some (lines ++ dashes, (rule ++ b.body) ++ fileOf blocks) := by
      rw [hlines.splitFirst?_append marker_ne_nil line_not_mem_marker hnone, hfile, header_split,
        List.append_assoc]
      rfl
    have hrule : ¬Occurs ResultsBlock.marker.toList (rule ++ b.body) := by
      rw [isLines_rule.occurs_append marker_ne_nil line_not_mem_marker,
        or_iff_right not_occurs_rule]
      exact hb
    rw [piecesFrom_eq marker_ne_nil, hsplit]
    show (lines ++ dashes) :: piecesFrom ResultsBlock.marker.toList 0 (_ ++ fileOf blocks) = _
    rw [ih hblocks (isLines_rule.append b.isLines_body) hrule, if_neg (List.cons_ne_nil _ _),
      contents, List.append_assoc]

end ResultsBlock

theorem length_blocksOf (blocks : List ResultsBlock) :
    (blocksOf (String.join (blocks.map ResultsBlock.text))).length = blocks.length +
      (blocks.map fun b => occurrences ResultsBlock.marker.toList b.body).sum := by
  unfold blocksOf pieces
  rw [List.length_drop, List.length_map, ResultsBlock.toList_join, length_piecesFrom,
    ResultsBlock.occurrences_fileOf]
  omega

/-- The blocks of a file, if no marker shows up in them. -/
theorem blocksOf_eq {blocks : List ResultsBlock}
    (h : ∀ b ∈ blocks, ¬Occurs ResultsBlock.marker.toList b.body) :
    blocksOf (String.join (blocks.map ResultsBlock.text)) =
      (ResultsBlock.contents blocks).map String.ofList := by
  have hpieces : piecesFrom _ 0 ([] ++ ResultsBlock.fileOf blocks) = _ :=
    ResultsBlock.piecesFrom_fileOf h (.inl rfl) (not_occurs_nil ResultsBlock.marker_ne_nil)
  rw [List.nil_append] at hpieces
  unfold blocksOf pieces
  rw [ResultsBlock.toList_join, hpieces]
  rfl

end Regression
