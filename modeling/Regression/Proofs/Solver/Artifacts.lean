import Regression.Proofs.Files
import Regression.Proofs.Number.Plain
import Regression.Solver.Artifacts

/-!
# Artifacts and the answers they come from

The artifacts of several queries are written one after the other, and the same query may be among
them more than once, as when a program is analysed again. Script and answer are those of the last
query of the name. Nothing removes the model of an earlier answer, however, when a later one comes
without a model.

* `RecordedQuery.artifactPlace_inj`: no two artifacts share a file.
* `RecordedQuery.HasArtifacts`: what one expects to find of a query.
* `artifacts_match_iff`: when that is what is found.
-/

namespace Regression

/-- Write the artifacts of several queries, one after the other. -/
def FileWork.keepAll (root : String) (records : List RecordedQuery) : FileWork Unit :=
  records.forM (keep root)

/-! ## Names -/

theorem slash_not_mem_toString (n : Nat) : '/' ∉ (toString n).toList := fun h => by
  simpa using isDigit_of_mem_toString h

namespace QueryKey

variable {k k' : QueryKey} {ending ending' : String}

/-- The endings of the names of artifacts. -/
def endings : List String := ["-query.smt2", "-answer.txt", "-model.txt"]

/-- The name of the artifact with some ending. -/
def artifactName (k : QueryKey) (ending : String) : String := k.stem ++ ending

theorem kind_name_append_inj (kind kind' : QueryKind) (hending : ending ∈ endings)
    (hending' : ending' ∈ endings) (h : kind.name ++ ending = kind'.name ++ ending') :
    kind = kind' ∧ ending = ending' := by
  simp only [endings, List.mem_cons, List.not_mem_nil, or_false] at hending hending'
  rcases hending with rfl | rfl | rfl <;> rcases hending' with rfl | rfl | rfl <;>
    cases kind <;> cases kind' <;> revert h <;> decide

theorem toList_artifactName (k : QueryKey) (ending : String) :
    (k.artifactName ending).toList =
      'P' :: ((toString k.partition.toNat).toList ++ '-' :: (k.kind.name ++ ending).toList) := by
  have hP : "P".toList = ['P'] := rfl
  have hdash : "-".toList = ['-'] := rfl
  simp [artifactName, stem, String.toList_append, hP, hdash]

/-- The name of an artifact tells what partition and kind it is of, and what is in it. -/
theorem artifactName_inj (hending : ending ∈ endings) (hending' : ending' ∈ endings)
    (h : k.artifactName ending = k'.artifactName ending') :
    k.partition = k'.partition ∧ k.kind = k'.kind ∧ ending = ending' := by
  have hlists := congrArg String.toList h
  rw [toList_artifactName, toList_artifactName, List.cons.injEq] at hlists
  obtain ⟨hnumber, hrest⟩ := toString_append_dash_inj hlists.2
  obtain ⟨hkind, hsame⟩ := kind_name_append_inj k.kind k'.kind hending hending'
    (String.toList_injective hrest)
  exact ⟨UInt32.toNat_inj.mp hnumber, hkind, hsame⟩

theorem isName_artifactName (k : QueryKey) (hending : ending ∈ endings) :
    Place.IsName (k.artifactName ending) := by
  refine .of_head (c := 'P') (by decide) (by rw [toList_artifactName]; rfl) ?_
  have hkind : '/' ∉ (k.kind.name ++ ending).toList := by
    simp only [endings, List.mem_cons, List.not_mem_nil, or_false] at hending
    rcases hending with rfl | rfl | rfl <;> cases k.kind <;> decide
  rw [toList_artifactName, List.mem_cons, List.mem_append, List.mem_cons]
  rintro (h | h | h | h)
  · cases h
  · exact slash_not_mem_toString _ h
  · cases h
  · exact hkind h

end QueryKey

namespace RecordedQuery

variable {root : String} {k k' : QueryKey} {ending ending' : String}

/-- Where the artifact with some ending is. -/
def artifactPath (root : String) (k : QueryKey) (ending : String) : String :=
  joinPath (directory root k.iteration) (k.artifactName ending)

/-- The file in which the artifact with some ending is. -/
def artifactPlace (root : String) (k : QueryKey) (ending : String) : Place :=
  .ofPath (artifactPath root k ending)

theorem isName_directory (iteration : UInt32) :
    Place.IsName ("iteration-" ++ toString iteration.toNat) := by
  refine .of_head (c := 'i') (by decide) (by rw [String.toList_append]; rfl) ?_
  rw [String.toList_append, List.mem_append]
  rintro (h | h)
  · revert h
    decide
  · exact slash_not_mem_toString _ h

theorem artifactPlace_eq (root : String) (k : QueryKey) (hending : ending ∈ QueryKey.endings) :
    artifactPlace root k ending = Place.ofPath root ++
      ["iteration-" ++ toString k.iteration.toNat, k.artifactName ending] := by
  rw [artifactPlace, artifactPath, Place.ofPath_joinPath _ (k.isName_artifactName hending),
    directory, Place.ofPath_joinPath _ (isName_directory _), List.append_assoc]
  rfl

/-- Different artifacts are in different files. -/
theorem artifactPlace_inj (hending : ending ∈ QueryKey.endings)
    (hending' : ending' ∈ QueryKey.endings)
    (h : artifactPlace root k ending = artifactPlace root k' ending') :
    k = k' ∧ ending = ending' := by
  rw [artifactPlace_eq root k hending, artifactPlace_eq root k' hending',
    List.append_cancel_left_eq, List.cons.injEq, List.cons.injEq] at h
  obtain ⟨hiteration, hname, -⟩ := h
  obtain ⟨hpartition, hkind, hsame⟩ := QueryKey.artifactName_inj hending hending' hname
  have hlists := congrArg String.toList hiteration
  rw [String.toList_append, String.toList_append, List.append_cancel_left_eq] at hlists
  have hiteration' : k.iteration = k'.iteration := UInt32.toNat_inj.mp (toString_inj hlists)
  obtain ⟨i, p, kind⟩ := k
  obtain ⟨i', p', kind'⟩ := k'
  cases hpartition
  cases hkind
  cases hiteration'
  exact ⟨rfl, hsame⟩

/-! ## Contents -/

/-- What the artifact with some ending is to contain, if there is one. -/
def artifact? (r : RecordedQuery) (ending : String) : Option String :=
  if ending = "-query.smt2" then some r.query.script
  else if ending = "-answer.txt" then some r.answer.text
  else r.answer.model.map (·.raw)

/-- The artifacts of a query, with their paths. -/
def files (root : String) (r : RecordedQuery) : List (String × String) :=
  QueryKey.endings.filterMap fun ending =>
    (r.artifact? ending).map fun text => (artifactPath root r.key ending, text)

/-- The same by places. -/
def placed (root : String) (r : RecordedQuery) : List (Place × String) :=
  (r.files root).map fun file => (.ofPath file.1, file.2)

theorem keep_eq (root : String) (r : RecordedQuery) :
    FileWork.keep root r = (do
      FileWork.makeDirectories (directory root r.key.iteration)
      (r.files root).forM fun file => FileWork.write file.1 file.2) := by
  have hfiles : r.files root = r.artifacts.map fun file =>
      (joinPath (directory root r.key.iteration) file.1, file.2) := by
    rw [files, artifacts]
    cases hmodel : r.answer.model <;>
      simp [QueryKey.endings, artifact?, artifactPath, QueryKey.artifactName, hmodel]
  rw [hfiles, List.forM_eq_forM, List.forM_map]
  rfl

theorem placed_eq (root : String) (r : RecordedQuery) :
    r.placed root = QueryKey.endings.filterMap fun ending =>
      (r.artifact? ending).map fun text => (artifactPlace root r.key ending, text) := by
  rw [placed, files, List.map_filterMap]
  congr 1
  funext ending
  rw [Option.map_map]
  rfl

theorem place_of_mem_placed {r : RecordedQuery} {file : Place × String}
    (h : file ∈ r.placed root) :
    ∃ ending ∈ QueryKey.endings, file.1 = artifactPlace root r.key ending := by
  rw [placed_eq] at h
  obtain ⟨ending, hending, hmap⟩ := List.mem_filterMap.mp h
  obtain ⟨text, -, hfile⟩ := Option.map_eq_some_iff.mp hmap
  exact ⟨ending, hending, by rw [← hfile]⟩

theorem lastText_placed (r : RecordedQuery) (hending : ending ∈ QueryKey.endings) :
    Files.lastText (r.placed root) (artifactPlace root k ending) =
      if r.key = k then r.artifact? ending else none := by
  by_cases hkey : r.key = k
  · subst hkey
    rw [if_pos rfl, placed_eq]
    exact Files.lastText_filterMap (artifactPlace root r.key) r.artifact? hending
      fun e he h => (artifactPlace_inj he hending h).2
  · rw [if_neg hkey, Files.lastText_eq_none]
    intro file hfile hplace
    obtain ⟨e, he, hfileplace⟩ := place_of_mem_placed hfile
    exact hkey (artifactPlace_inj he hending (hfileplace.symm.trans hplace)).1

theorem mem_files {r : RecordedQuery} {text : String} (hending : ending ∈ QueryKey.endings)
    (h : r.artifact? ending = some text) : (artifactPath root r.key ending, text) ∈ r.files root :=
  List.mem_filterMap.mpr ⟨ending, hending, by rw [h]; rfl⟩

end RecordedQuery

/-! ## Several queries -/

open RecordedQuery Files

namespace FileWork

variable {root : String} {t t' : Files} {records : List RecordedQuery}

theorem writes_keep {r : RecordedQuery} (h : (keep root r).on t = (.ok (), t')) :
    Writes t t' (r.placed root) ∧ ∀ file ∈ r.files root, ∃ text, t'.read file.1 = .ok text := by
  rw [keep_eq] at h
  obtain ⟨_, t₁, hdirectory, hfiles⟩ := bind_on_eq_ok h
  obtain ⟨hwrites, hreads⟩ := writes_forM hfiles
  exact ⟨(writes_makeDirectories hdirectory).trans hwrites, hreads⟩

theorem writes_keepAll (h : (keepAll root records).on t = (.ok (), t')) :
    Writes t t' (records.flatMap (placed root)) ∧
      ∀ r ∈ records, ∀ file ∈ r.files root, ∃ text, t'.read file.1 = .ok text := by
  induction records generalizing t with
  | nil =>
    cases h
    exact ⟨.refl _, fun r hr => absurd hr List.not_mem_nil⟩
  | cons r records ih =>
    obtain ⟨_, t₁, hfirst, hrest⟩ := bind_on_eq_ok h
    obtain ⟨hwrites, hreads⟩ := writes_keep hfirst
    obtain ⟨hwrites', hreads'⟩ := ih hrest
    refine ⟨hwrites.trans hwrites', ?_⟩
    rintro r' hr' file hfile
    rcases List.mem_cons.mp hr' with rfl | hr'
    · obtain ⟨text, hread⟩ := hreads file hfile
      exact hwrites'.readable hread
    · exact hreads' r' hr' file hfile

end FileWork

namespace RecordedQuery

variable {root : String} {k : QueryKey} {ending : String} {records : List RecordedQuery}

/-- The last one of the queries with some name. -/
def last? (records : List RecordedQuery) (k : QueryKey) : Option RecordedQuery :=
  records.reverse.find? (·.key = k)

/-- The artifact with some ending that was written last for a name. -/
def lastArtifact? (records : List RecordedQuery) (k : QueryKey) (ending : String) :
    Option String :=
  records.reverse.findSome? fun r => if r.key = k then r.artifact? ending else none

theorem lastText_flatMap_placed (records : List RecordedQuery)
    (hending : ending ∈ QueryKey.endings) :
    lastText (records.flatMap (placed root)) (artifactPlace root k ending) =
      lastArtifact? records k ending := by
  induction records with
  | nil => rfl
  | cons r records ih =>
    rw [List.flatMap_cons, lastText_append, ih, lastText_placed r hending, lastArtifact?,
      lastArtifact?, List.reverse_cons, List.findSome?_append, List.findSome?_singleton]

theorem lastArtifact?_of_last? {r : RecordedQuery} {text : String} (hr : last? records k = some r)
    (htext : r.artifact? ending = some text) : lastArtifact? records k ending = some text := by
  obtain ⟨hkey, before, after, hrecords, hbefore⟩ := List.find?_eq_some_iff_append.mp hr
  have hnone : before.findSome? (fun r => if r.key = k then r.artifact? ending else none) = none :=
    List.findSome?_eq_none_iff.mpr fun r' hr' => if_neg (by simpa using hbefore r' hr')
  rw [lastArtifact?, hrecords, List.findSome?_append, hnone, List.findSome?_cons,
    if_pos (by simpa using hkey), htext]
  rfl

/-- What one expects to find of a query. -/
structure HasArtifacts (root : String) (t : Files) (r : RecordedQuery) : Prop where
  query : t.read (artifactPath root r.key "-query.smt2") = .ok r.query.script
  answer : t.read (artifactPath root r.key "-answer.txt") = .ok r.answer.text
  model : ∀ model, r.answer.model = some model →
    t.read (artifactPath root r.key "-model.txt") = .ok model.raw
  noModel : r.answer.model = none → t.textAt (artifactPlace root r.key "-model.txt") = none

end RecordedQuery

section

variable {root : String} {t t' : Files} {records : List RecordedQuery} {k : QueryKey}

/-- What is in an artifact's file: what was written there last, or else what was there before. -/
theorem textAt_artifactPlace (h : (FileWork.keepAll root records).on t = (.ok (), t'))
    (k : QueryKey) {ending : String} (hending : ending ∈ QueryKey.endings) :
    t'.textAt (artifactPlace root k ending) =
      (lastArtifact? records k ending).or (t.textAt (artifactPlace root k ending)) := by
  rw [(FileWork.writes_keepAll h).1.textAt_eq, lastText_flatMap_placed records hending]

/-- An artifact of the last query of a name is read back. -/
theorem read_artifactPath (h : (FileWork.keepAll root records).on t = (.ok (), t'))
    {r : RecordedQuery} (hr : last? records k = some r) {ending text : String}
    (hending : ending ∈ QueryKey.endings) (htext : r.artifact? ending = some text) :
    t'.read (artifactPath root k ending) = .ok text := by
  have hmem : r ∈ records := List.mem_reverse.mp (List.mem_of_find?_eq_some hr)
  have hkey : r.key = k := by simpa using List.find?_some hr
  subst hkey
  obtain ⟨text', hread⟩ := (FileWork.writes_keepAll h).2 r hmem _ (mem_files hending htext)
  have hplace := textAt_artifactPlace h r.key hending
  rw [lastArtifact?_of_last? hr htext, Option.some_or, artifactPlace,
    textAt_of_read hread] at hplace
  rw [hread, Option.some.inj hplace]

theorem lastArtifact?_model_eq_none :
    lastArtifact? records k "-model.txt" = none ↔
      ∀ r ∈ records, r.key = k → r.answer.model = none := by
  simp [lastArtifact?, List.findSome?_eq_none_iff, artifact?]

/-- After queries were written to files one after the other, the script and the answer of the last
one with some name are found under that name, and so is its model. If it has no model, then no model
is found exactly if none was there before and no query of that name had one. Artifacts with
different names or contents are in different files, and other files are as they were. -/
theorem artifacts_match_iff (h : (FileWork.keepAll root records).on t = (.ok (), t')) :
    (∀ k r, last? records k = some r →
      t'.read (artifactPath root k "-query.smt2") = .ok r.query.script ∧
      t'.read (artifactPath root k "-answer.txt") = .ok r.answer.text ∧
      (∀ model, r.answer.model = some model →
        t'.read (artifactPath root k "-model.txt") = .ok model.raw) ∧
      (HasArtifacts root t' r ↔ (r.answer.model = none →
        t.textAt (artifactPlace root k "-model.txt") = none ∧
          ∀ r' ∈ records, r'.key = k → r'.answer.model = none))) ∧
    (∀ k k' ending ending', ending ∈ QueryKey.endings → ending' ∈ QueryKey.endings →
      artifactPlace root k ending = artifactPlace root k' ending' → k = k' ∧ ending = ending') ∧
    ∀ place, (∀ r ∈ records, ∀ ending ∈ QueryKey.endings,
      place ≠ artifactPlace root r.key ending) → t'.textAt place = t.textAt place := by
  refine ⟨fun k r hr => ?_, fun k k' ending ending' => artifactPlace_inj, fun place hplace => ?_⟩
  · have hkey : r.key = k := by simpa using List.find?_some hr
    have hquery := read_artifactPath h hr (by decide) (show r.artifact? "-query.smt2" = _ from rfl)
    have hanswer := read_artifactPath h hr (by decide) (show r.artifact? "-answer.txt" = _ from rfl)
    have hmodel (model : Model) (hmodel : r.answer.model = some model) :
        t'.read (artifactPath root k "-model.txt") = .ok model.raw :=
      read_artifactPath h hr (by decide) (show r.answer.model.map (·.raw) = _ by rw [hmodel]; rfl)
    have hplace := textAt_artifactPlace h k (show "-model.txt" ∈ QueryKey.endings by decide)
    have hnoModel : t'.textAt (artifactPlace root k "-model.txt") = none ↔
        t.textAt (artifactPlace root k "-model.txt") = none ∧
          ∀ r' ∈ records, r'.key = k → r'.answer.model = none := by
      rw [hplace, Option.or_eq_none_iff, lastArtifact?_model_eq_none, and_comm]
    refine ⟨hquery, hanswer, hmodel, ?_⟩
    subst hkey
    exact ⟨fun hhas hnone => hnoModel.mp (hhas.noModel hnone),
      fun hnone => ⟨hquery, hanswer, hmodel, fun hmissing => hnoModel.mpr (hnone hmissing)⟩⟩
  · rw [(FileWork.writes_keepAll h).1.textAt_eq, lastText_eq_none.mpr ?_, Option.none_or]
    intro file hfile hsame
    obtain ⟨r, hr, hfile⟩ := List.mem_flatMap.mp hfile
    obtain ⟨ending, hending, hfileplace⟩ := place_of_mem_placed hfile
    exact hplace r hr ending hending (hsame.symm.trans hfileplace)

/-- A query that was answered with a model, and without one when it was asked again: the model of
the first answer stays. -/
theorem artifacts_match_iff_again :
    let key : QueryKey := { iteration := 1, partition := 1, kind := .pc }
    let query : Query := { kind := .pc, script := "(check-sat)" }
    let r : RecordedQuery := { key, query, answer := .sat (some (.unparsed "(x)")) }
    let r' : RecordedQuery := { key, query, answer := .unsat }
    ∃ t', (FileWork.keepAll "runs" [r, r']).on .empty = (.ok (), t') ∧
      t'.read (artifactPath "runs" key "-answer.txt") = .ok "unsat\n" ∧
      ¬ HasArtifacts "runs" t' r' := by
  intro key query r r'
  obtain ⟨t', h⟩ := FileWork.exists_on_eq_ok
    (show ((FileWork.keepAll "runs" [r, r']).on .empty).1.isOk = true by decide +kernel)
  obtain ⟨-, hanswer, -, hhas⟩ := (artifacts_match_iff h).1 key r' (by decide)
  refine ⟨t', h, hanswer, fun hr' => ?_⟩
  have hnone := (hhas.mp hr' rfl).2 r (by decide) rfl
  cases hnone

end

end Regression
