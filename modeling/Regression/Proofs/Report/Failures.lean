import Regression.Proofs.Report.Reading

/-!
# Results files of runs that failed

What is known about a whole run, that it failed or was stopped, is noted with the iterations that
its results file tells of. A file that is missing stands for one iteration. A file without blocks
stands for none, so that nothing is left of the failure, and a block that was cut off before its
output ends the reading.

* `exists_classifyOutput_iff`: the blocks that can be classified.
* `readIterations_endsFailing_iff`: the texts that tell of a failure, and what is read of the
  others.
* `readResults_endsFailing_iff`: the same for whatever is found at the path of the file.
-/

namespace Regression

open Text

/-! ## Blocks with an output -/

/-- The first output of a block is one of the three that there are. -/
def HasOutput (block : String) : Prop :=
  ∃ word ∈ ["EQUIVALENT", "NOT EQUIVALENT", "UNKNOWN"], ∃ before rest,
    splitFirst? ResultsBlock.outputPrefix.toList block.toList = some (before, word.toList ++ rest)

theorem classifyOutput_eq_error {block : String}
    (h : splitFirst? ResultsBlock.outputPrefix.toList block.toList = none) (d : Option Bool) :
    classifyOutput block d = .error (.noOutputLine (trim block)) := by
  have hnone : outputOf? block = none := by
    unfold outputOf? after?
    rw [h]
    rfl
  unfold classifyOutput
  rw [hnone]

/-- What follows the first output prefix begins with one of the three words. -/
theorem hasOutput_iff {block : String} {before after : List Char}
    (h : splitFirst? ResultsBlock.outputPrefix.toList block.toList = some (before, after)) :
    HasOutput block ↔ (dropPattern? "EQUIVALENT".toList after).isSome ∨
      (dropPattern? "NOT EQUIVALENT".toList after).isSome ∨
        (dropPattern? "UNKNOWN".toList after).isSome := by
  -- A word comes first just when it can be taken off.
  have hword (word : String) : (dropPattern? word.toList after).isSome ↔
      ∃ before' rest, some (before, after) = some (before', word.toList ++ rest) := by
    constructor
    · intro h
      obtain ⟨rest, hrest⟩ := Option.isSome_iff_exists.mp h
      exact ⟨before, rest, by rw [eq_append_of_dropPattern? hrest]⟩
    · rintro ⟨_, rest, h⟩
      cases h
      rw [dropPattern?_append]
      rfl
  rw [HasOutput, h]
  simp only [hword, List.exists_mem_cons_iff, List.not_mem_nil, false_and, exists_false, or_false]

/-- A block can be classified exactly if it has an output. -/
theorem exists_classifyOutput_iff {block : String} {d : Option Bool} :
    (∃ c, classifyOutput block d = .ok c) ↔ HasOutput block := by
  cases hsplit : splitFirst? ResultsBlock.outputPrefix.toList block.toList with
  | none =>
    rw [classifyOutput_eq_error hsplit]
    refine iff_of_false nofun ?_
    rintro ⟨word, -, before, rest, hword⟩
    rw [hsplit] at hword
    cases hword
  | some parts =>
    obtain ⟨before, after⟩ := parts
    rw [ResultsBlock.classifyOutput_of_splitFirst? hsplit, hasOutput_iff hsplit]
    by_cases hequal : (dropPattern? "EQUIVALENT".toList after).isSome
    · rw [if_pos hequal]
      exact iff_of_true ⟨_, rfl⟩ (.inl hequal)
    by_cases hdiffer : (dropPattern? "NOT EQUIVALENT".toList after).isSome
    · rw [if_neg hequal, if_pos hdiffer]
      exact iff_of_true ⟨_, rfl⟩ (.inr (.inl hdiffer))
    by_cases hunknown : (dropPattern? "UNKNOWN".toList after).isSome
    · rw [if_neg hequal, if_neg hdiffer, if_pos hunknown]
      exact iff_of_true ⟨_, rfl⟩ (.inr (.inr hunknown))
    · rw [if_neg hequal, if_neg hdiffer, if_neg hunknown]
      exact iff_of_false nofun fun h => h.elim hequal fun h => h.elim hdiffer hunknown

/-! ## Blocks of a file -/

theorem blocksOf_eq_nil_iff {text : String} :
    blocksOf text = [] ↔ occursIn ResultsBlock.marker text = false := by
  have hlength := length_piecesFrom ResultsBlock.marker.toList text.toList
  have hzero : occurrences ResultsBlock.marker.toList text.toList = 0 ↔
      ¬Occurs ResultsBlock.marker.toList text.toList :=
    occurrences_eq_zero ResultsBlock.marker_ne_nil
  rw [← occursIn_eq_true, Bool.not_eq_true] at hzero
  rw [← hzero, ← List.length_eq_zero_iff, blocksOf, List.length_drop, pieces, List.length_map,
    hlength]
  omega

theorem exists_parseResults_iff {text : String} {d : UInt32 → Option Bool} :
    (∃ classes, parseResults text d = .ok classes) ↔ ∀ block ∈ blocksOf text, HasOutput block := by
  unfold parseResults
  generalize blocksOf text = blocks
  rw [exists_mapM_iff]
  constructor
  · intro h block hblock
    obtain ⟨i, hi, rfl⟩ := List.getElem_of_mem hblock
    have hmem : (blocks[i], i) ∈ blocks.zipIdx :=
      List.mk_mem_zipIdx_iff_getElem?.mpr (List.getElem?_eq_getElem hi)
    obtain ⟨c, hc⟩ := h _ hmem
    exact exists_classifyOutput_iff.mp ⟨c, hc⟩
  · rintro h ⟨block, i⟩ hmem
    exact exists_classifyOutput_iff.mpr (h block (List.fst_mem_of_mem_zipIdx hmem))

theorem length_of_parseResults {text : String} {d : UInt32 → Option Bool}
    {classes : List Classification} (h : parseResults text d = .ok classes) :
    classes.length = (blocksOf text).length := by
  rw [← (forall₂_of_mapM_eq_ok h).length_eq, List.length_zipIdx]

/-! ## Iterations of a run that failed -/

namespace IterationRecord

/-- The iteration failed or was stopped. -/
def IsFailing (r : IterationRecord) : Prop := r.result = some .error ∨ r.result = some .timeout

end IterationRecord

/-- The last iteration failed or was stopped. -/
def EndsFailing (records : List IterationRecord) : Prop :=
  ∃ last ∈ records.getLast?, last.IsFailing

theorem endsFailing_of_forall {records : List IterationRecord} (hne : records ≠ [])
    (h : ∀ r ∈ records, r.IsFailing) : EndsFailing records :=
  ⟨records.getLast hne, List.getLast?_eq_some_getLast hne, h _ (List.getLast_mem hne)⟩

section

variable {errors : String} {timedOut : Bool}

/-- The run failed or was stopped. -/
def KnownToFail (errors : String) (timedOut : Bool) : Prop :=
  isBlankText errors = false ∨ timedOut = true

theorem isFailing_missingIteration (benchmark tool : String) :
    (missingIteration benchmark tool errors timedOut).IsFailing := by
  cases timedOut with
  | true => exact .inr rfl
  | false => exact .inl rfl

/-- What is known about the whole run overrides every output. -/
theorem classifyIteration_failing (failed : KnownToFail errors timedOut)
    (classes : List Classification) :
    classifyIteration classes ⟨!isBlankText errors, timedOut⟩ = .error ∨
      classifyIteration classes ⟨!isBlankText errors, timedOut⟩ = .timeout := by
  unfold classifyIteration
  rcases failed with herrors | rfl
  · rw [herrors]
    exact .inl rfl
  · cases isBlankText errors with
    | true => exact .inr rfl
    | false => exact .inl rfl

variable (path benchmark tool : String) (d : UInt32 → Option Bool)

theorem readIterations_missing (failed : KnownToFail errors timedOut) :
    readIterations path none benchmark tool errors timedOut d =
      .ok [missingIteration benchmark tool errors timedOut] := by
  have hknown : (!(!isBlankText errors) && !timedOut) = false := by
    rcases failed with herrors | rfl
    · rw [herrors]
      rfl
    · rw [Bool.not_true, Bool.and_false]
  unfold readIterations
  dsimp only
  rw [hknown]
  rfl

/-- Every block of a file is an iteration that failed or was stopped. -/
theorem readIterations_failing (failed : KnownToFail errors timedOut) {text : String}
    {classes : List Classification} (h : parseResults text d = .ok classes) :
    ∃ records, readIterations path (some text) benchmark tool errors timedOut d = .ok records ∧
      records.length = (blocksOf text).length ∧ ∀ r ∈ records, r.IsFailing := by
  unfold readIterations
  dsimp only
  rw [h]
  refine ⟨_, rfl, ?_, ?_⟩
  · rw [List.length_map, List.length_zipIdx]
    exact length_of_parseResults h
  · intro r hr
    obtain ⟨⟨output, i⟩, -, rfl⟩ := List.mem_map.mp hr
    rcases classifyIteration_failing failed [output] with hresult | hresult
    · exact .inl (congrArg some hresult)
    · exact .inr (congrArg some hresult)

theorem readIterations_unreadable {text : String} {fault : ParseFault}
    (h : parseResults text d = .error fault) :
    readIterations path (some text) benchmark tool errors timedOut d = .error (.parse fault) := by
  unfold readIterations
  dsimp only
  rw [h]

/-- A run that is known to have failed has a failing last iteration exactly if its results file is
missing, or has blocks that all have an output. A file without blocks leaves no iteration, and a
block without output is an error. -/
theorem readIterations_endsFailing_iff (file : Option String)
    (failed : KnownToFail errors timedOut) :
    ((∃ records, readIterations path file benchmark tool errors timedOut d = .ok records ∧
        EndsFailing records) ↔
      ∀ text ∈ file, occursIn ResultsBlock.marker text = true ∧
        ∀ block ∈ blocksOf text, HasOutput block) ∧
      (∀ text ∈ file, occursIn ResultsBlock.marker text = false →
        readIterations path file benchmark tool errors timedOut d = .ok []) ∧
      ∀ text ∈ file, (∃ block ∈ blocksOf text, ¬HasOutput block) →
        ∃ fault, readIterations path file benchmark tool errors timedOut d =
          .error (.parse fault) := by
  cases file with
  | none =>
    refine ⟨iff_of_true ?_ nofun, nofun, nofun⟩
    refine ⟨_, readIterations_missing path benchmark tool d failed, ?_⟩
    exact endsFailing_of_forall (List.cons_ne_nil _ _)
      (List.forall_mem_singleton.mpr (isFailing_missingIteration benchmark tool))
  | some text =>
    simp only [Option.mem_some_iff, forall_eq']
    cases hparse : parseResults text d with
    | error fault =>
      have hread : readIterations path (some text) benchmark tool errors timedOut d =
          .error (.parse fault) :=
        readIterations_unreadable path benchmark tool d hparse
      have houtputs : ¬∀ block ∈ blocksOf text, HasOutput block := by
        rw [← exists_parseResults_iff (d := d), hparse]
        exact nofun
      refine ⟨iff_of_false ?_ (houtputs ·.2), fun hmarker => absurd ?_ houtputs,
        fun _ => ⟨fault, hread⟩⟩
      · rw [hread]
        exact nofun
      · rw [blocksOf_eq_nil_iff.mpr hmarker]
        exact nofun
    | ok classes =>
      obtain ⟨records, hread, hlength, hfailing⟩ :=
        readIterations_failing path benchmark tool d failed hparse
      have houtputs := exists_parseResults_iff.mp ⟨classes, hparse⟩
      have hempty : records = [] ↔ occursIn ResultsBlock.marker text = false := by
        rw [← blocksOf_eq_nil_iff, ← List.length_eq_zero_iff, hlength, List.length_eq_zero_iff]
      rw [hread]
      refine ⟨?_, fun hmarker => by rw [hempty.mpr hmarker], ?_⟩
      · rw [and_iff_left houtputs, ← Bool.not_eq_false, ← hempty]
        constructor
        · rintro ⟨_, hrecords, last, hlast, -⟩ rfl
          cases hrecords
          cases hlast
        · intro hne
          exact ⟨records, rfl, endsFailing_of_forall hne hfailing⟩
      · rintro ⟨block, hblock, hnone⟩
        exact absurd (houtputs block hblock) hnone

/-! ## What is found at a path -/

/-- Bytes are read as the text that they encode. -/
theorem textOf_eq_ok_iff {bytes : ByteArray} {text : String} :
    textOf (.ok bytes) = .ok text ↔ text.toUTF8 = bytes := by
  have hdecode : String.fromUTF8? bytes = some text ↔ text.toUTF8 = bytes := by
    unfold String.fromUTF8?
    constructor
    · split
      · rintro ⟨⟩
        rfl
      · nofun
    · rintro rfl
      rw [String.toUTF8_eq_toByteArray, dif_pos text.isValidUTF8]
      rfl
  rw [← hdecode, textOf]
  cases String.fromUTF8? bytes <;> simp

theorem readResults_text (text : String) :
    readResults path (.ok text.toUTF8) benchmark tool errors timedOut d =
      readIterations path (some text) benchmark tool errors timedOut d := by
  rw [readResults, textOf_eq_ok_iff.mpr rfl]
  rfl

/-- Bytes that encode no text are not read. -/
theorem readResults_undecodable {bytes : ByteArray} (h : ∀ text : String, text.toUTF8 ≠ bytes) :
    readResults path (.ok bytes) benchmark tool errors timedOut d =
      .error (.io "stream did not contain valid UTF-8") := by
  have hnone : String.fromUTF8? bytes = none := by
    cases htext : String.fromUTF8? bytes with
    | none => rfl
    | some text =>
      refine absurd (textOf_eq_ok_iff.mp ?_) (h text)
      rw [textOf, htext]
  rw [readResults, textOf, hnone]
  rfl

theorem readResults_missing {e : FileError} (h : e.isMissing) :
    readResults path (.error e) benchmark tool errors timedOut d =
      readIterations path none benchmark tool errors timedOut d := by
  rw [readResults, if_pos h]

theorem readResults_unreadable {e : FileError} (h : e.isMissing = false) :
    readResults path (.error e) benchmark tool errors timedOut d = .error (.ofFile e) := by
  rw [readResults, h]
  rfl

/-- Where there is no text, there is a failing iteration exactly if there is nothing at all. -/
theorem readResults_endsFailing_of_no_text {content : Except FileError ByteArray}
    (hno : ∀ text : String, content ≠ .ok text.toUTF8) (failed : KnownToFail errors timedOut) :
    (∃ records, readResults path content benchmark tool errors timedOut d = .ok records ∧
        EndsFailing records) ↔ ∃ e, content = .error e ∧ e.isMissing := by
  cases content with
  | error e =>
    cases hmissing : e.isMissing with
    | true =>
      rw [readResults_missing path benchmark tool d hmissing]
      refine iff_of_true ?_ ⟨e, rfl, hmissing⟩
      exact (readIterations_endsFailing_iff path benchmark tool d none failed).1.mpr nofun
    | false =>
      rw [readResults_unreadable path benchmark tool d hmissing]
      refine iff_of_false nofun ?_
      rintro ⟨_, ⟨⟩, htrue⟩
      exact Bool.false_ne_true (hmissing.symm.trans htrue)
  | ok bytes =>
    have hbytes (text : String) : text.toUTF8 ≠ bytes := fun h => hno text (h ▸ rfl)
    rw [readResults_undecodable path benchmark tool d hbytes]
    exact iff_of_false nofun nofun

/-- A run that is known to have failed has a failing last iteration exactly if nothing is found
where its results should be, or a text with blocks that all have an output. Of a text without blocks
no iteration is read; a block without output is an error, and so is whatever is found but cannot be
read as text. -/
theorem readResults_endsFailing_iff (content : Except FileError ByteArray)
    (failed : KnownToFail errors timedOut) :
    let read := readResults path content benchmark tool errors timedOut d
    ((∃ records, read = .ok records ∧ EndsFailing records) ↔
      (∃ e, content = .error e ∧ e.isMissing) ∨
        ∃ text : String, content = .ok text.toUTF8 ∧ occursIn ResultsBlock.marker text ∧
          ∀ block ∈ blocksOf text, HasOutput block) ∧
      (∀ text : String, content = .ok text.toUTF8 → occursIn ResultsBlock.marker text = false →
        read = .ok []) ∧
      (∀ text : String, content = .ok text.toUTF8 → (∃ block ∈ blocksOf text, ¬HasOutput block) →
        ∃ fault, read = .error (.parse fault)) ∧
      (∀ e, content = .error e → e.isMissing = false → read = .error (.ofFile e)) ∧
      ∀ bytes, content = .ok bytes → (∀ text : String, text.toUTF8 ≠ bytes) →
        ∃ message, read = .error (.io message) := by
  intro read
  refine ⟨?_, ?_, ?_, ?_, ?_⟩
  · by_cases htext : ∃ text : String, content = .ok text.toUTF8
    · obtain ⟨text, rfl⟩ := htext
      have hread : read = readIterations path (some text) benchmark tool errors timedOut d :=
        readResults_text path benchmark tool d text
      rw [hread, (readIterations_endsFailing_iff path benchmark tool d (some text) failed).1]
      constructor
      · exact fun hblocks => .inr ⟨text, rfl, hblocks text rfl⟩
      · rintro (⟨_, ⟨⟩, -⟩ | ⟨text', hsame, hblocks⟩) text₀ htext₀
        cases htext₀
        obtain rfl : text = text' := String.toByteArray_inj.mp (Except.ok.inj hsame)
        exact hblocks
    · have hno : ∀ text : String, content ≠ .ok text.toUTF8 := not_exists.mp htext
      rw [readResults_endsFailing_of_no_text path benchmark tool d hno failed]
      refine (or_iff_left ?_).symm
      rintro ⟨text, hcontent, -⟩
      exact hno text hcontent
  · rintro text rfl hmarker
    exact (readResults_text path benchmark tool d text).trans
      ((readIterations_endsFailing_iff path benchmark tool d (some text) failed).2.1 text rfl
        hmarker)
  · rintro text rfl hcut
    obtain ⟨fault, hfault⟩ :=
      (readIterations_endsFailing_iff path benchmark tool d (some text) failed).2.2 text rfl hcut
    exact ⟨fault, (readResults_text path benchmark tool d text).trans hfault⟩
  · rintro e rfl hfound
    exact readResults_unreadable path benchmark tool d hfound
  · rintro bytes rfl hno
    exact ⟨_, readResults_undecodable path benchmark tool d hno⟩

end

/-- A run that was stopped: its file tells so if the last block is whole, but not if nothing was
written yet, or if the last block was cut off in the line of a phase. -/
theorem readResults_endsFailing_iff_stopped :
    let whole := "--Results--\nOutput : UNKNOWN"
    let cut := "--Results--\nOutput : UNKNOWN\n--Results--\n  -classification : 4"
    let read (text : String) :=
      readResults "results.txt" (.ok text.toUTF8) "f" "SE" "" true fun _ => none
    KnownToFail "" true ∧ (∃ records, read whole = .ok records ∧ EndsFailing records) ∧
      read "" = .ok [] ∧ ∃ fault, read cut = .error (.parse fault) := by
  intro whole cut read
  have failed : KnownToFail "" true := .inr rfl
  have hparsed : occursIn ResultsBlock.marker whole = true ∧
      parseResults whole (fun _ => none) = .ok [.unknown] ∧
      occursIn ResultsBlock.marker "" = false ∧
      (parseResults cut fun _ => none).isOk = false := by decide +kernel
  obtain ⟨hmarker, hwhole, hempty, hcut⟩ := hparsed
  have hread (text : String) := readResults_endsFailing_iff "results.txt" "f" "SE"
    (fun _ => none) (.ok text.toUTF8) failed
  refine ⟨failed, ?_, ?_, ?_⟩
  · exact (hread whole).1.mpr
      (.inr ⟨whole, rfl, hmarker, exists_parseResults_iff.mp ⟨_, hwhole⟩⟩)
  · exact (hread "").2.1 "" rfl hempty
  · refine (hread cut).2.2.1 cut rfl ?_
    by_contra hnone
    have hall : ∀ block ∈ blocksOf cut, HasOutput block := fun block hblock => by
      by_contra hoff
      exact hnone ⟨block, hblock, hoff⟩
    obtain ⟨classes, hclasses⟩ := exists_parseResults_iff.mpr hall
    rw [hclasses] at hcut
    cases hcut

end Regression
