import Regression.Proofs.Number.Shortest
import Regression.Script.Term

/-!
# Decimals of scripts

A decimal of a script has digits on both sides of its point, and no needless zero in front.

* `Binary64.decimalParts`: the digits in front of the point and behind it.
* `Script.Term.decimalText_eq`: how a number that is not negative is written.
* `Binary64.isWhole_decimalParts`, `Binary64.isFraction_decimalParts`: the form of both sides.
* `toString_inj`, `toString_append_dash_inj`: whole numbers in names.
-/

namespace Regression

namespace Binary64

/-- Digits without a needless zero in front. -/
structure IsWhole (ds : List Char) : Prop where
  digits : ∀ c ∈ ds, isDigit c = true
  ne_nil : ds ≠ []
  zero : ds.head? = some '0' → ds = ['0']

/-- At least one digit. -/
structure IsFraction (ds : List Char) : Prop where
  digits : ∀ c ∈ ds, isDigit c = true
  ne_nil : ds ≠ []

/-- The shortest digits of a number that is not negative, in front of the point and behind it. -/
def decimalParts (x : Binary64) : List Char × List Char :=
  if x.isZero then (['0'], ['0'])
  else
    let digits := Nat.toDigits 10 (x.shortest .up).1
    let point := (x.shortest .up).2
    if point ≤ 0 then (['0'], List.replicate (-point).toNat '0' ++ digits)
    else if (digits.length : Int) ≤ point then
      (digits ++ List.replicate (point - digits.length).toNat '0', ['0'])
    else (digits.take point.toNat, digits.drop point.toNat)

theorem isNaN_eq_false_of_isFinite {x : Binary64} (h : x.isFinite) : x.isNaN = false := by
  unfold isFinite at h
  have hlt : x.magnitude < infiniteMagnitude := of_decide_eq_true h
  unfold isNaN
  exact decide_eq_false (by omega)

theorem toNat_bits_abs (x : Binary64) : x.abs.bits.toNat = x.magnitude := by
  have hlt : x.magnitude < Nat.pow 2 63 := Nat.mod_lt _ (by decide)
  have hpow : Nat.pow 2 63 < 2 ^ 64 := by decide
  show (UInt64.ofNat (x.magnitude + 0)).toNat = x.magnitude
  rw [Nat.add_zero, UInt64.toNat_ofNat', Nat.mod_eq_of_lt (by omega)]

theorem isNegative_abs (x : Binary64) : x.abs.isNegative = false := by
  have hlt : x.magnitude < Nat.pow 2 63 := Nat.mod_lt _ (by decide)
  unfold isNegative
  rw [toNat_bits_abs]
  exact decide_eq_false (by omega)

theorem isFinite_abs (x : Binary64) (h : x.isFinite = true) : x.abs.isFinite = true := by
  have hlt : x.magnitude < Nat.pow 2 63 := Nat.mod_lt _ (by decide)
  have hmagnitude : x.abs.magnitude = x.magnitude := by
    show x.abs.bits.toNat % Nat.pow 2 63 = x.magnitude
    rw [toNat_bits_abs, Nat.mod_eq_of_lt hlt]
  unfold isFinite
  rw [hmagnitude]
  exact h

theorem isWhole_zero : IsWhole ['0'] where
  digits := List.all_eq_true.mp rfl
  ne_nil := List.cons_ne_nil _ _
  zero := fun _ => rfl

theorem isFraction_zero : IsFraction ['0'] where
  digits := List.all_eq_true.mp rfl
  ne_nil := List.cons_ne_nil _ _

theorem isWhole_toDigits (n : Nat) : IsWhole (Nat.toDigits 10 n) where
  digits _ hc := isDigit_of_mem_toDigits hc
  ne_nil := Nat.toDigits_ne_nil
  zero h := by
    by_cases hn : n = 0
    · subst hn
      rfl
    · exact absurd h (head?_toDigits hn)

theorem isDigit_of_mem_replicate {c : Char} {n : Nat} (hc : c ∈ List.replicate n '0') :
    isDigit c = true := by
  rw [(List.mem_replicate.mp hc).2]
  decide

theorem isWhole_decimalParts (x : Binary64) : IsWhole x.decimalParts.1 := by
  unfold decimalParts
  by_cases hx : x.isZero = true
  · rw [if_pos hx]
    exact isWhole_zero
  · rw [if_neg hx]
    have hdigits := shortest_ne_zero (Bool.eq_false_iff.mpr hx) .up
    generalize (x.shortest .up).1 = n at hdigits ⊢
    generalize (x.shortest .up).2 = point
    have hhead := head?_toDigits hdigits
    have hdigit (c : Char) (hc : c ∈ Nat.toDigits 10 n) := isDigit_of_mem_toDigits hc
    obtain ⟨first, digits, hlist⟩ : ∃ first digits, Nat.toDigits 10 n = first :: digits :=
      List.exists_cons_of_ne_nil Nat.toDigits_ne_nil
    rw [hlist] at hhead hdigit
    dsimp only
    rw [hlist]
    split
    · exact isWhole_zero
    · split
      · refine ⟨?_, List.cons_ne_nil _ _, fun h => absurd h hhead⟩
        intro c hc
        rcases List.mem_append.mp hc with hc | hc
        · exact hdigit c hc
        · exact isDigit_of_mem_replicate hc
      · next hpoint _ =>
        obtain ⟨k, hk⟩ : ∃ k, point.toNat = k + 1 := ⟨point.toNat - 1, by omega⟩
        rw [hk, List.take_succ_cons]
        refine ⟨?_, List.cons_ne_nil _ _, fun h => absurd h hhead⟩
        intro c hc
        have hc : c ∈ first :: digits.take k := hc
        rw [← List.take_succ_cons] at hc
        exact hdigit c (List.mem_of_mem_take hc)

theorem isFraction_decimalParts (x : Binary64) : IsFraction x.decimalParts.2 := by
  unfold decimalParts
  by_cases hx : x.isZero = true
  · rw [if_pos hx]
    exact isFraction_zero
  · rw [if_neg hx]
    dsimp only
    split
    · refine ⟨?_, ?_⟩
      · intro c hc
        rcases List.mem_append.mp hc with hc | hc
        · exact isDigit_of_mem_replicate hc
        · exact isDigit_of_mem_toDigits hc
      · exact fun h => Nat.toDigits_ne_nil (List.append_eq_nil_iff.mp h).2
    · split
      · exact isFraction_zero
      · next hlength =>
        refine ⟨fun c hc => isDigit_of_mem_toDigits (List.mem_of_mem_drop hc), ?_⟩
        intro h
        have hle := List.drop_eq_nil_iff.mp h
        omega

end Binary64

namespace Script.Term

open Binary64

theorem toList_toString (n : Nat) : (toString n).toList = Nat.toDigits 10 n := by
  rw [Nat.toString_eq_repr, Nat.toList_repr]

theorem toList_zeros (n : Nat) : (zeros n).toList = List.replicate n '0' := String.toList_ofList

theorem not_mem_of_digits {ds : List Char} (h : ∀ c ∈ ds, isDigit c = true) : '.' ∉ ds := by
  intro hmem
  have hpoint : isDigit '.' = false := by decide
  rw [h '.' hmem] at hpoint
  cases hpoint

theorem decimalText_of_point {x : Binary64} {whole fraction : List Char}
    (h : (x.format .plain).toList = whole ++ '.' :: fraction) :
    (decimalText x).toList = whole ++ '.' :: fraction := by
  have hpoint : (x.format .plain).toList.contains '.' = true := by
    rw [h, List.contains_iff_mem]
    exact List.mem_append_right _ List.mem_cons_self
  unfold decimalText
  rw [if_pos hpoint, h]

theorem decimalText_of_whole {x : Binary64} {whole : List Char}
    (h : (x.format .plain).toList = whole) (hwhole : ∀ c ∈ whole, isDigit c = true) :
    (decimalText x).toList = whole ++ '.' :: ['0'] := by
  have hpoint : ¬(x.format .plain).toList.contains '.' = true := by
    rw [h, List.contains_iff_mem]
    exact not_mem_of_digits hwhole
  unfold decimalText
  rw [if_neg hpoint, String.toList_append, h]
  rfl

theorem format_plain {x : Binary64} (hfinite : x.isFinite = true) (hsign : x.isNegative = false) :
    x.format .plain = formatAbs .plain x := by
  have hsize : x.isInfinite = false := by
    have hlt : x.magnitude < infiniteMagnitude := of_decide_eq_true hfinite
    rw [isInfinite, beq_eq_false_iff_ne]
    omega
  unfold format
  rw [isNaN_eq_false_of_isFinite hfinite, hsize, hsign]
  exact String.empty_append

/-- A number is written with both sides of its point. -/
theorem decimalText_eq {x : Binary64} (hfinite : x.isFinite = true)
    (hsign : x.isNegative = false) :
    (decimalText x).toList = x.decimalParts.1 ++ '.' :: x.decimalParts.2 := by
  have hformat := format_plain hfinite hsign
  unfold formatAbs at hformat
  have hwhole := x.isWhole_decimalParts
  unfold decimalParts at hwhole ⊢
  by_cases hzero : x.isZero = true
  · rw [if_pos hzero] at hformat hwhole ⊢
    exact decimalText_of_whole (congrArg String.toList hformat) hwhole.digits
  · rw [if_neg hzero] at hformat hwhole ⊢
    have hstyle : ∀ point : Int, (Notation.plain.largePoint.any (· ≤ point) ||
        Notation.plain.smallPoint.any (point ≤ ·)) = false := fun _ => rfl
    have htie : Notation.plain.tie = .up := rfl
    dsimp only at hformat hwhole ⊢
    rw [hstyle, if_neg Bool.false_ne_true, htie, positional] at hformat
    have hlist := congrArg String.toList hformat
    have hlength : (toString (x.shortest .up).1).length =
        (Nat.toDigits 10 (x.shortest .up).1).length := by
      rw [← String.length_toList, toList_toString]
    rw [hlength] at hlist
    generalize (x.shortest .up).2 = point at hlist hwhole ⊢
    split
    · next hpoint =>
      rw [if_pos hpoint, String.toList_append, String.toList_append, toList_zeros,
        toList_toString] at hlist
      exact decimalText_of_point hlist
    · next hpoint =>
      rw [if_neg hpoint] at hlist hwhole
      split
      · next hcount =>
        rw [if_pos hcount] at hlist hwhole
        rw [String.toList_append, String.toList_append, toList_zeros, toList_toString] at hlist
        refine decimalText_of_whole ?_ hwhole.digits
        rw [hlist]
        exact List.append_nil _
      · next hcount =>
        rw [if_neg hcount, List.splitAt_eq, toList_toString] at hlist
        dsimp only at hlist
        have hpoint : ".".toList = ['.'] := rfl
        rw [String.toList_append, String.toList_append, String.toList_ofList, hpoint,
          String.toList_ofList, List.append_assoc] at hlist
        exact decimalText_of_point hlist

end Script.Term

/-! ## Numbers in names -/

theorem isDigit_of_mem_toString {c : Char} {n : Nat} (hc : c ∈ (toString n).toList) :
    c.isDigit = true := by
  rw [Script.Term.toList_toString] at hc
  exact Nat.isDigit_of_mem_toDigits (by omega) (by omega) hc

theorem toString_inj {m n : Nat} (h : (toString m).toList = (toString n).toList) : m = n := by
  rw [Script.Term.toList_toString, Script.Term.toList_toString] at h
  rw [← Binary64.digitsValue_toDigits m, h, Binary64.digitsValue_toDigits]

/-- The number in front of a dash is known from the text. -/
theorem toString_append_dash_inj {m n : Nat} {a b : List Char}
    (h : (toString m).toList ++ '-' :: a = (toString n).toList ++ '-' :: b) : m = n ∧ a = b := by
  have htake (n : Nat) (a : List Char) :
      ((toString n).toList ++ '-' :: a).takeWhile Char.isDigit = (toString n).toList := by
    rw [List.takeWhile_append_of_pos fun c hc => isDigit_of_mem_toString hc]
    exact List.append_nil _
  have hnumber : (toString m).toList = (toString n).toList := by rw [← htake m a, h, htake]
  rw [hnumber, List.append_cancel_left_eq, List.cons.injEq] at h
  exact ⟨toString_inj hnumber, h.2⟩

end Regression
