import Regression.Files
import Regression.Proofs.Search

/-!
# Files that were written

Directories stay where they are, and nothing but a write changes a plain file. What was written to a
path is read back from it, whatever else is written to other places afterwards.

* `Place.ofPath_joinPath`: a path that is continued by a name leads below where it led.
* `Files.Writes`: what has become of a tree by some writes, the last one to a place being the one
  that counts.
* `FileWork.writes_makeDirectories`, `FileWork.writes_write`, `FileWork.writes_forM`: the work that
  was done without an error.
-/

namespace Regression

/-! ## Paths -/

namespace Text

variable {c : Char} {a b : List Char}

/-- A text is cut at every occurrence of a single character. -/
theorem piecesFrom_append_cons (c : Char) (a b : List Char) :
    piecesFrom [c] 0 (a ++ c :: b) = piecesFrom [c] 0 a ++ piecesFrom [c] 0 b := by
  induction a with
  | nil => simp [piecesFrom, dropPattern?]
  | cons d a ih =>
    have hne : piecesFrom [c] 0 a ≠ [] := piecesFrom_ne_nil 0 a
    by_cases hd : c = d
    · subst hd
      simp [piecesFrom, dropPattern?, ih]
    · obtain ⟨piece, more, hpieces⟩ := List.exists_cons_of_ne_nil hne
      simp [piecesFrom, dropPattern?, hd, ih, hpieces]

theorem piecesFrom_of_not_mem (hc : c ∉ a) : piecesFrom [c] 0 a = [a] := by
  induction a with
  | nil => rfl
  | cons d a ih =>
    have hd : c ≠ d := List.ne_of_not_mem_cons hc
    simp [piecesFrom, dropPattern?, hd, ih (List.not_mem_of_not_mem_cons hc)]

end Text

theorem pathPieces_append_slash (path : String) {name : String} (hname : '/' ∉ name.toList) :
    pathPieces (path ++ "/" ++ name) = pathPieces path ++ [name] := by
  have hslash : "/".toList = ['/'] := rfl
  have htext : (path ++ "/" ++ name).toList = path.toList ++ '/' :: name.toList := by
    simp [String.toList_append, hslash]
  rw [pathPieces, Text.pieces, htext, hslash, Text.piecesFrom_append_cons,
    Text.piecesFrom_of_not_mem hname, List.map_append, pathPieces, Text.pieces, hslash]
  simp

theorem pathPieces_of_not_mem {name : String} (hname : '/' ∉ name.toList) :
    pathPieces name = [name] := by
  have hslash : "/".toList = ['/'] := rfl
  rw [pathPieces, Text.pieces, hslash, Text.piecesFrom_of_not_mem hname]
  simp

theorem pathPieces_ne_nil (path : String) : pathPieces path ≠ [] := by
  rw [pathPieces, Text.pieces, Ne, List.map_eq_nil_iff]
  exact Text.piecesFrom_ne_nil 0 _

namespace Place

/-- Where a path leads. -/
def ofPath (path : String) : Place := (pathPieces path).foldl step (startOf path)

/-- A piece of a path that neither stays at a place nor goes up from it. -/
def IsName (name : String) : Prop :=
  '/' ∉ name.toList ∧ name ≠ "" ∧ name ≠ "." ∧ name ≠ ".."

theorem IsName.of_head {name : String} {c : Char} (hc : c ≠ '.')
    (hhead : name.toList.head? = some c) (hslash : '/' ∉ name.toList) : IsName name := by
  refine ⟨hslash, ?_, ?_, ?_⟩
  · rintro rfl
    cases hhead
  all_goals
    rintro rfl
    exact hc (Option.some.inj hhead).symm

theorem step_of_isName {name : String} (h : IsName name) (place : Place) :
    place.step name = place ++ [name] := by
  obtain ⟨-, hempty, hdot, hup⟩ := h
  simp [step, hempty, hdot, hup]

theorem startOf_append {path : String} (hpath : path ≠ "") (text : String) :
    startOf (path ++ text) = startOf path := by
  have hne : path.toList ≠ [] := by simpa using hpath
  obtain ⟨d, rest, hcons⟩ := List.exists_cons_of_ne_nil hne
  rw [startOf, startOf, String.toList_append, hcons, List.cons_append, List.head?_cons,
    List.head?_cons]

theorem ofPath_append_slash (path : String) :
    ofPath (path ++ "/") = (pathPieces path).foldl step (startOf (path ++ "/")) := by
  have hpieces := pathPieces_append_slash path (show '/' ∉ "".toList by simp)
  rw [String.append_empty] at hpieces
  rw [ofPath, hpieces, List.foldl_append]
  rfl

theorem ofPath_append_slash_append (path : String) {piece : String}
    (hpiece : '/' ∉ piece.toList) :
    ofPath (path ++ "/" ++ piece) = (ofPath (path ++ "/")).step piece := by
  have hne : path ++ "/" ≠ "" := fun h => by simpa using congrArg String.toList h
  rw [ofPath_append_slash, ofPath, pathPieces_append_slash path hpiece, startOf_append hne,
    List.foldl_append]
  rfl

/-- A path that is continued by a name leads to that name below where it led. -/
theorem ofPath_joinPath (path : String) {name : String} (hname : IsName name) :
    ofPath (joinPath path name) = ofPath path ++ [name] := by
  have hplain : (name.toList.head? == some '/') = false := by
    cases hhead : name.toList with
    | nil => rfl
    | cons d rest =>
      have hslash := hname.1
      rw [hhead] at hslash
      simpa using (List.ne_of_not_mem_cons hslash).symm
  rw [← step_of_isName hname]
  by_cases hempty : path = ""
  · rw [joinPath, hplain, hempty]
    show (pathPieces name).foldl step (startOf name) = _
    rw [pathPieces_of_not_mem hname.1, startOf, hplain]
    rfl
  · have hisEmpty : path.isEmpty = false := by simpa using hempty
    cases hlast : path.toList.getLast? == some '/' with
    | false =>
      have hjoin : joinPath path name = path ++ "/" ++ name := by
        simp [joinPath, hplain, hisEmpty, hlast]
      rw [hjoin, ofPath_append_slash_append path hname.1, ofPath_append_slash,
        startOf_append hempty, ofPath]
    | true =>
      have hjoin : joinPath path name = path ++ name := by simp [joinPath, hplain, hlast]
      obtain ⟨init, hinit⟩ := List.getLast?_eq_some_iff.mp (by simpa using hlast)
      obtain ⟨directory, rfl⟩ : ∃ directory : String, path = directory ++ "/" :=
        ⟨String.ofList init, String.toList_injective (by simpa using hinit)⟩
      rw [hjoin, ofPath_append_slash_append directory hname.1]

end Place

/-! ## Trees -/

namespace Files

variable {t t' t'' : Files} {place q : Place} {entry : FileEntry} {pieces : List String}

/-- The text of the plain file at a place. -/
def textAt (t : Files) (place : Place) : Option String :=
  match t.entry? place with
  | some (.file text) => some text
  | _ => none

theorem textAt_eq_some {text : String} :
    t.textAt place = some text ↔ t.entry? place = some (.file text) := by
  unfold textAt
  cases t.entry? place with
  | none => simp
  | some entry => cases entry <;> simp

theorem isOnTop_of_ne_directory (h : t.entry? place ≠ some .directory) :
    place.isOnTop = false := by
  cases hplace : place.isOnTop with
  | false => rfl
  | true => exact absurd (by simp [ entry?, hplace]) h

theorem entry?_set (t : Files) (entry : FileEntry) (hplace : place.isOnTop = false) (q : Place) :
    Files.entry? (t.set place entry) q = if q = place then some entry else t.entry? q := by
  by_cases hq : q = place
  · rw [if_pos hq, hq]
    simp [ entry?, set, hplace]
  · have hpredicate : (fun e : Place × FileEntry => !decide (e.1 = place) && decide (e.1 = q)) =
        fun e => decide (e.1 = q) := by
      funext e
      by_cases he : e.1 = q
      · simp [he, hq]
      · simp [he]
    rw [if_neg hq, entry?, entry?]
    cases q.isOnTop with
    | true => rfl
    | false => simp [set, Ne.symm hq, List.find?_filter, hpredicate]

theorem follow_eq_ok (h : t.follow place pieces = .ok (q, entry)) :
    q = pieces.foldl Place.step place ∧ t.entry? q = some entry := by
  fun_induction follow t place pieces with
  | case1 place e he =>
    cases h
    exact ⟨rfl, he⟩
  | case4 place piece rest hdirectory hlong ih => exact ih h
  | _ => cases h

/-- Where a path leads to something, it still does so as long as directories stay. -/
theorem follow_mono {entry' : FileEntry}
    (hdirectory : ∀ q, t.entry? q = some .directory → t'.entry? q = some .directory)
    (h : t.follow place pieces = .ok (q, entry)) (hq : t'.entry? q = some entry') :
    t'.follow place pieces = .ok (q, entry') := by
  fun_induction follow t place pieces with
  | case1 place e he =>
    cases h
    rw [follow, hq]
  | case4 place piece rest hd hlong ih =>
    rw [follow, hdirectory _ hd]
    simp only [hlong]
    exact ih h
  | _ => cases h

theorem follow_append_singleton {directory : Place} {name : String}
    (h : t.follow place pieces = .ok (directory, .directory)) (hname : isLongName name = false)
    (hentry : t.entry? (directory.step name) = some entry) :
    t.follow place (pieces ++ [name]) = .ok (directory.step name, entry) := by
  fun_induction follow t place pieces with
  | case1 place e he =>
    cases h
    rw [List.nil_append, follow, he]
    simp only [hname]
    rw [if_neg Bool.false_ne_true, follow, hentry]
  | case4 place piece rest hd hlong ih =>
    rw [List.cons_append, follow, hd]
    simp only [hlong]
    exact ih h
  | _ => cases h

theorem read_eq_ok {path text : String} :
    t.read path = .ok text ↔ ∃ place, t.lookup path = .ok (place, .file text) := by
  unfold read
  cases t.lookup path with
  | error e => simp [bind, Except.bind]
  | ok r =>
    obtain ⟨place, entry⟩ := r
    cases entry <;> simp [bind, Except.bind, pure, Except.pure, throw, throwThe,
      MonadExceptOf.throw]

theorem lookup_eq_ok {path : String} :
    t.lookup path = .ok (place, entry) ↔ pathFault? path = none ∧
      t.follow (Place.startOf path) (pathPieces path) = .ok (place, entry) := by
  unfold lookup
  cases pathFault? path <;> simp

/-- What is read from a path is the text at the place to which it leads. -/
theorem textAt_of_read {path text : String} (h : t.read path = .ok text) :
    t.textAt (.ofPath path) = some text := by
  obtain ⟨place, hlookup⟩ := read_eq_ok.mp h
  obtain ⟨rfl, hentry⟩ := follow_eq_ok (lookup_eq_ok.mp hlookup).2
  exact textAt_eq_some.mpr hentry

/-! ## Writes -/

/-- The text of the last write to a place. -/
def lastText (files : List (Place × String)) (place : Place) : Option String :=
  (files.reverse.find? (·.1 = place)).map (·.2)

theorem lastText_append (files files' : List (Place × String)) (place : Place) :
    lastText (files ++ files') place = (lastText files' place).or (lastText files place) := by
  rw [lastText, List.reverse_append, List.find?_append, lastText, lastText]
  cases files'.reverse.find? (·.1 = place) <;> simp

theorem lastText_singleton (file : Place × String) (place : Place) :
    lastText [file] place = if file.1 = place then some file.2 else none := by
  unfold lastText
  split <;> simp [*]

theorem lastText_eq_none {files : List (Place × String)} :
    lastText files place = none ↔ ∀ file ∈ files, file.1 ≠ place := by
  simp [lastText, List.find?_eq_none]

theorem mem_of_lastText {files : List (Place × String)} {text : String}
    (h : lastText files place = some text) : (place, text) ∈ files := by
  obtain ⟨file, hfile, rfl⟩ := Option.map_eq_some_iff.mp h
  have hplace : file.1 = place := by simpa using List.find?_some hfile
  have hmem := List.mem_of_find?_eq_some hfile
  rw [List.mem_reverse] at hmem
  rw [← hplace]
  exact hmem

/-- Where files have places of their own, the text of each is the one that was written to it. -/
theorem lastText_filterMap {α : Type} {l : List α} {a : α} (placeOf : α → Place)
    (text? : α → Option String) (ha : a ∈ l) (hplace : ∀ b ∈ l, placeOf b = placeOf a → b = a) :
    lastText (l.filterMap fun b => (text? b).map fun text => (placeOf b, text)) (placeOf a) =
      text? a := by
  have hmem {file : Place × String}
      (h : file ∈ l.filterMap fun b => (text? b).map fun text => (placeOf b, text))
      (hfile : file.1 = placeOf a) : text? a = some file.2 := by
    obtain ⟨b, hb, hmap⟩ := List.mem_filterMap.mp h
    obtain ⟨text, htext, rfl⟩ := Option.map_eq_some_iff.mp hmap
    rw [← hplace b hb hfile, htext]
  cases htext : text? a with
  | none =>
    refine lastText_eq_none.mpr fun file hfile hsame => ?_
    rw [hmem hfile hsame] at htext
    cases htext
  | some text =>
    cases hlast : lastText (l.filterMap fun b => (text? b).map fun text => (placeOf b, text))
      (placeOf a) with
    | none =>
      refine absurd rfl (lastText_eq_none.mp hlast (placeOf a, text) ?_)
      exact List.mem_filterMap.mpr ⟨a, ha, by rw [htext]; rfl⟩
    | some text' =>
      rw [← htext, hmem (mem_of_lastText hlast) rfl]

/-- A tree after some writes: plain files differ only where something was written, and there they
are as the last write left them. Directories may have been made. -/
structure Writes (t t' : Files) (files : List (Place × String)) : Prop where
  written : ∀ place text, lastText files place = some text → t'.entry? place = some (.file text)
  others : ∀ place, lastText files place = none →
    t'.entry? place = t.entry? place ∨
      t.entry? place = none ∧ t'.entry? place = some .directory
  directories : ∀ place, t.entry? place = some .directory → t'.entry? place = some .directory

namespace Writes

variable {files files' : List (Place × String)}

theorem refl (t : Files) : Writes t t [] := by
  refine ⟨?_, fun _ _ => .inl rfl, fun _ h => h⟩
  rintro place text ⟨⟩

theorem trans (h : Writes t t' files) (h' : Writes t' t'' files') :
    Writes t t'' (files ++ files') := by
  refine ⟨?_, ?_, fun place hplace => h'.directories _ (h.directories _ hplace)⟩
  · intro place text htext
    rw [lastText_append] at htext
    cases hlast : lastText files' place with
    | some text' =>
      rw [hlast] at htext
      cases htext
      exact h'.written place _ hlast
    | none =>
      rw [hlast] at htext
      have hfirst := h.written place text htext
      rcases h'.others place hlast with hsame | ⟨hnone, -⟩
      · rw [hsame, hfirst]
      · rw [hfirst] at hnone
        cases hnone
  · intro place hnone
    rw [lastText_append, Option.or_eq_none_iff] at hnone
    rcases h.others place hnone.2 with hsame | ⟨hbefore, hmade⟩
    · rcases h'.others place hnone.1 with hsame' | ⟨hbefore', hmade'⟩
      · exact .inl (hsame'.trans hsame)
      · exact .inr ⟨hsame ▸ hbefore', hmade'⟩
    · exact .inr ⟨hbefore, h'.directories _ hmade⟩

/-- The text at a place is that of the last write to it, or what there was before. -/
theorem textAt_eq (h : Writes t t' files) (place : Place) :
    t'.textAt place = (lastText files place).or (t.textAt place) := by
  cases hlast : lastText files place with
  | some text =>
    rw [Option.some_or]
    exact textAt_eq_some.mpr (h.written place text hlast)
  | none =>
    rw [Option.none_or]
    rcases h.others place hlast with hsame | ⟨hnone, hmade⟩
    · rw [textAt, hsame, ← textAt]
    · rw [textAt, hmade, textAt, hnone]

/-- What was read from a path is still read, until something is written to its place. -/
theorem read_eq (h : Writes t t' files) {path text text' : String} (hread : t.read path = .ok text)
    (htext : t'.textAt (.ofPath path) = some text') : t'.read path = .ok text' := by
  obtain ⟨place, hlookup⟩ := read_eq_ok.mp hread
  obtain ⟨hfault, hfollow⟩ := lookup_eq_ok.mp hlookup
  obtain ⟨rfl, -⟩ := follow_eq_ok hfollow
  have hentry : t'.entry? (.ofPath path) = some (.file text') := textAt_eq_some.mp htext
  have hfollow' := follow_mono h.directories hfollow hentry
  exact read_eq_ok.mpr ⟨_, lookup_eq_ok.mpr ⟨hfault, hfollow'⟩⟩

/-- A file that could be read can still be read. -/
theorem readable (h : Writes t t' files) {path text : String} (hread : t.read path = .ok text) :
    ∃ text', t'.read path = .ok text' := by
  have htext : t'.textAt (.ofPath path) =
      some ((lastText files (.ofPath path)).getD text) := by
    rw [h.textAt_eq, textAt_of_read hread]
    cases lastText files (.ofPath path) <;> rfl
  exact ⟨_, h.read_eq hread htext⟩

end Writes

end Files

/-! ## Work -/

namespace FileWork

open Files

variable {t t' : Files}

@[simp] theorem bind_on {α β : Type} (x : FileWork α) (f : α → FileWork β) (t : Files) :
    (x >>= f).on t = match x.on t with
      | (.ok a, t') => (f a).on t'
      | (.error e, t') => (.error e, t') := by
  show (ExceptT.bind x f).run.run t = _
  simp only [ExceptT.bind, ExceptT.run, ExceptT.mk, on, StateT.run]
  show StateT.bind x (ExceptT.bindCont f) t = _
  simp only [StateT.bind, bind]
  rcases x t with ⟨e | a, t'⟩ <;> rfl

@[simp] theorem pure_on {α : Type} (a : α) (t : Files) :
    (pure a : FileWork α).on t = (.ok a, t) := rfl

@[simp] theorem get_on (t : Files) : (get : FileWork Files).on t = (.ok t, t) := rfl

@[simp] theorem set_on (t t' : Files) : (set t' : FileWork PUnit).on t = (.ok (), t') := rfl

@[simp] theorem modify_on (f : Files → Files) (t : Files) :
    (modify f : FileWork PUnit).on t = (.ok (), f t) := rfl

@[simp] theorem throw_on {α : Type} (e : FileError) (t : Files) :
    (throw e : FileWork α).on t = (.error e, t) := rfl

@[simp] theorem lift_on {α : Type} (x : Except FileError α) (t : Files) :
    (liftM x : FileWork α).on t = (x, t) := by
  cases x <;> rfl

theorem bind_on_eq_ok {α β : Type} {x : FileWork α} {f : α → FileWork β} {b : β}
    (h : (x >>= f).on t = (.ok b, t')) :
    ∃ a t₁, x.on t = (.ok a, t₁) ∧ (f a).on t₁ = (.ok b, t') := by
  rw [bind_on] at h
  rcases hx : x.on t with ⟨e | a, t₁⟩
  · rw [hx] at h
    cases h
  · rw [hx] at h
    exact ⟨a, t₁, rfl, h⟩

theorem exists_on_eq_ok {work : FileWork Unit} (h : (work.on t).1.isOk = true) :
    ∃ t', work.on t = (.ok (), t') := by
  rcases hwork : work.on t with ⟨e | a, t'⟩
  · rw [hwork] at h
    cases h
  · exact ⟨t', rfl⟩

theorem makeFrom_cons (place : Place) (piece : String) (rest : List String) (t : Files) :
    (makeFrom place (piece :: rest)).on t =
      if isLongName piece then (.error .nameTooLong, t)
      else match t.entry? (place.step piece) with
        | none => (makeFrom (place.step piece) rest).on (t.set (place.step piece) .directory)
        | some .directory => (makeFrom (place.step piece) rest).on t
        | some (.file _) => (.error (if rest.isEmpty then .exists else .notDirectory), t) := by
  rw [makeFrom]
  cases isLongName piece with
  | true => rfl
  | false =>
    cases hentry : t.entry? (place.step piece) with
    | none => simp [hentry]
    | some entry => cases entry <;> simp [hentry]

theorem writes_set_directory {place : Place} (h : t.entry? place = none) :
    Writes t (t.set place .directory) [] := by
  have hplace : t.entry? place ≠ some .directory := by simp [h]
  have hset := entry?_set t .directory (isOnTop_of_ne_directory hplace)
  refine ⟨?_, fun q _ => ?_, fun q hq => ?_⟩
  · rintro q text ⟨⟩
  · by_cases hq : q = place
    · exact .inr ⟨hq ▸ h, by rw [hset, if_pos hq]⟩
    · exact .inl (by rw [hset, if_neg hq])
  · rw [hset]
    split
    · rfl
    · exact hq

/-- Making directories changes no file. -/
theorem writes_makeFrom {place : Place} {pieces : List String}
    (h : (makeFrom place pieces).on t = (.ok (), t')) : Writes t t' [] := by
  induction pieces generalizing place t with
  | nil =>
    cases h
    exact .refl _
  | cons piece rest ih =>
    rw [makeFrom_cons] at h
    split at h
    · cases h
    · cases hentry : t.entry? (place.step piece) with
      | none =>
        rw [hentry] at h
        exact (writes_set_directory hentry).trans (ih h)
      | some entry =>
        rw [hentry] at h
        cases entry with
        | directory => exact ih h
        | file text => cases h

theorem writes_makeDirectories {path : String}
    (h : (makeDirectories path).on t = (.ok (), t')) : Writes t t' [] := by
  unfold makeDirectories at h
  split at h
  · cases h
    exact .refl t
  · cases h
  · exact writes_makeFrom h

/-- The name of the file at a path. -/
def lastPiece (path : String) : String := (pathPieces path).getLast?.getD ""

theorem pathPieces_eq_append_lastPiece (path : String) :
    pathPieces path = (pathPieces path).dropLast ++ [lastPiece path] := by
  have hne := pathPieces_ne_nil path
  rw [lastPiece, List.getLast?_eq_some_getLast hne, Option.getD_some]
  exact (List.dropLast_concat_getLast hne).symm

theorem write_on (path text : String) (t : Files) :
    (write path text).on t =
      match pathFault? path with
      | some e => (.error e, t)
      | none =>
        match t.follow (Place.startOf path) (pathPieces path).dropLast with
        | .error e => (.error e, t)
        | .ok (_, .file _) => (.error .notDirectory, t)
        | .ok (directory, .directory) =>
          if isLongName (lastPiece path) then (.error .nameTooLong, t)
          else match t.entry? (directory.step (lastPiece path)) with
            | some .directory => (.error .isDirectory, t)
            | _ => (.ok (), t.set (directory.step (lastPiece path)) (.file text)) := by
  rw [write, lastPiece]
  cases pathFault? path with
  | some e => rfl
  | none =>
    rcases hfollow : t.follow (Place.startOf path) (pathPieces path).dropLast with
      e | ⟨directory, text | _⟩
    · simp [hfollow]
    · simp [hfollow]
    · cases hlong : isLongName ((pathPieces path).getLast?.getD "") with
      | true => simp [hfollow, hlong]
      | false =>
        rcases hentry : t.entry? (directory.step ((pathPieces path).getLast?.getD "")) with
          _ | text' | _
        all_goals simp [hfollow, hlong, hentry]

theorem write_on_eq_ok {path text : String} (h : (write path text).on t = (.ok (), t')) :
    ∃ directory name, pathFault? path = none ∧ isLongName name = false ∧
      pathPieces path = (pathPieces path).dropLast ++ [name] ∧
      t.follow (Place.startOf path) (pathPieces path).dropLast = .ok (directory, .directory) ∧
      t.entry? (directory.step name) ≠ some .directory ∧
      t' = t.set (directory.step name) (.file text) := by
  rw [write_on] at h
  cases hfault : pathFault? path with
  | some e =>
    rw [hfault] at h
    cases h
  | none =>
    rcases hfollow : t.follow (Place.startOf path) (pathPieces path).dropLast with
      e | ⟨directory, text' | _⟩
    all_goals simp only [hfault, hfollow] at h
    · cases h
    · cases h
    · split at h
      · cases h
      · next hname =>
        split at h
        · cases h
        · next hentry =>
          cases h
          exact ⟨directory, lastPiece path, rfl, by simpa using hname,
            pathPieces_eq_append_lastPiece path, rfl, hentry, rfl⟩

/-- A write sets the file to which the path leads, and the text is read back from there. -/
theorem writes_write {path text : String} (h : (write path text).on t = (.ok (), t')) :
    Writes t t' [(.ofPath path, text)] ∧ t'.read path = .ok text := by
  obtain ⟨directory, name, hfault, hname, hpieces, hfollow, hentry, rfl⟩ := write_on_eq_ok h
  have hplace : Place.ofPath path = directory.step name := by
    rw [Place.ofPath, hpieces, List.foldl_append, ← (follow_eq_ok hfollow).1]
    rfl
  have hset := entry?_set t (.file text) (isOnTop_of_ne_directory hentry)
  have hdirectory (q : Place) (hq : t.entry? q = some .directory) :
      Files.entry? (t.set (directory.step name) (.file text)) q = some .directory := by
    rw [hset, if_neg ?_, hq]
    rintro rfl
    exact hentry hq
  refine ⟨⟨fun q text' htext => ?_, fun q hnone => ?_, hdirectory⟩, ?_⟩
  · rw [lastText_singleton] at htext
    split at htext
    · cases htext
      rw [hset, if_pos (by rw [← hplace]; exact Eq.symm ‹_›)]
    · cases htext
  · rw [lastText_eq_none] at hnone
    have hq : Place.ofPath path ≠ q := hnone _ (List.mem_singleton.mpr rfl)
    exact .inl (by rw [hset, if_neg (hplace ▸ hq.symm)])
  · refine read_eq_ok.mpr ⟨directory.step name, lookup_eq_ok.mpr ⟨hfault, ?_⟩⟩
    rw [hpieces]
    refine follow_append_singleton (follow_mono hdirectory hfollow ?_) hname ?_
    · exact hdirectory _ (follow_eq_ok hfollow).2
    · rw [hset, if_pos rfl]

/-- Several writes: the files are where they were written, with the texts of the last writes. -/
theorem writes_forM {files : List (String × String)}
    (h : (files.forM fun file => write file.1 file.2).on t = (.ok (), t')) :
    Writes t t' (files.map fun file => (.ofPath file.1, file.2)) ∧
      ∀ file ∈ files, ∃ text, t'.read file.1 = .ok text := by
  induction files generalizing t with
  | nil =>
    cases h
    exact ⟨.refl _, fun file hfile => absurd hfile List.not_mem_nil⟩
  | cons file files ih =>
    obtain ⟨_, t₁, hfile, hfiles⟩ := bind_on_eq_ok h
    obtain ⟨hwrites, hread⟩ := writes_write hfile
    obtain ⟨hrest, hreads⟩ := ih hfiles
    refine ⟨hwrites.trans hrest, ?_⟩
    rintro other hother
    rcases List.mem_cons.mp hother with rfl | hother
    · exact hrest.readable hread
    · exact hreads other hother

end FileWork

end Regression
