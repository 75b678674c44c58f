import Regression.Text.Blank
import Regression.Text.Search

/-!
# Joined texts

A joined text begins with the first of its parts, and it is blank only if all parts are. The same
goes for a text in which a pattern occurs.
-/

namespace Regression.Text

variable {s t : String}

theorem isBlankText_append (s t : String) :
    isBlankText (s ++ t) = (isBlankText s && isBlankText t) := by
  rw [isBlankText, String.toList_append, List.all_append]
  rfl

theorem isBlankText_append_left (hs : isBlankText s = false) (t : String) :
    isBlankText (s ++ t) = false := by
  rw [isBlankText_append, hs, Bool.false_and]

theorem isBlankText_append_right (s : String) (ht : isBlankText t = false) :
    isBlankText (s ++ t) = false := by
  rw [isBlankText_append, ht, Bool.and_false]

/-! ## Lists of texts -/

theorem exists_intercalate_cons (separator t : String) (texts : List String) :
    ∃ rest, separator.intercalate (t :: texts) = t ++ rest := by
  cases texts with
  | nil => exact ⟨"", by rw [String.intercalate_singleton, String.append_empty]⟩
  | cons u rest =>
    refine ⟨separator ++ separator.intercalate (u :: rest), ?_⟩
    rw [String.intercalate_cons_cons, String.append_assoc]

theorem isBlankText_intercalate (separator : String) {texts : List String} (ht : t ∈ texts)
    (hblank : isBlankText t = false) : isBlankText (separator.intercalate texts) = false := by
  induction texts with
  | nil => cases ht
  | cons u rest ih =>
    rcases List.mem_cons.mp ht with rfl | ht
    · obtain ⟨more, hjoined⟩ := exists_intercalate_cons separator t rest
      rw [hjoined]
      exact isBlankText_append_left hblank more
    · rw [String.intercalate_cons_of_ne_nil (List.ne_nil_of_mem ht)]
      exact isBlankText_append_right _ (ih ht)

/-! ## Patterns -/

theorem eq_append_of_dropPattern? {pattern cs rest : List Char}
    (h : dropPattern? pattern cs = some rest) : cs = pattern ++ rest := by
  induction pattern generalizing cs with
  | nil =>
    rw [dropPattern?] at h
    exact Option.some.inj h
  | cons p pattern ih =>
    cases cs with
    | nil => cases h
    | cons c cs =>
      rw [dropPattern?, Option.ite_none_right_eq_some] at h
      obtain ⟨rfl, h⟩ := h
      rw [ih h, List.cons_append]

theorem eq_append_of_splitFirst? {pattern cs before after : List Char}
    (h : splitFirst? pattern cs = some (before, after)) : cs = before ++ (pattern ++ after) := by
  induction cs generalizing before with
  | nil =>
    rw [splitFirst?, Option.ite_none_right_eq_some, List.isEmpty_iff] at h
    obtain ⟨rfl, h⟩ := h
    cases h
    rfl
  | cons c cs ih =>
    rw [splitFirst?] at h
    split at h
    · next hdrop =>
      cases h
      have hwhole : c :: cs = pattern ++ after := eq_append_of_dropPattern? hdrop
      exact hwhole
    · obtain ⟨⟨before', after'⟩, hsplit, heq⟩ := Option.map_eq_some_iff.mp h
      cases heq
      rw [ih hsplit, List.cons_append]

/-- A text in which something occurs that is not blank is not blank either. -/
theorem isBlankText_of_occursIn {pattern : String} (hpattern : isBlankText pattern = false)
    (h : occursIn pattern t) : isBlankText t = false := by
  obtain ⟨⟨before, after⟩, hsplit⟩ := Option.isSome_iff_exists.mp h
  rw [isBlankText, eq_append_of_splitFirst? hsplit, List.all_append, List.all_append,
    ← isBlankText, hpattern, Bool.false_and, Bool.and_false]

end Regression.Text
