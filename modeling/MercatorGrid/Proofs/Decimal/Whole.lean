import MercatorGrid.Decimal.Whole
import MercatorGrid.Proofs.Decimal.Grammar
import Mathlib.Data.List.Induction

namespace MercatorGrid.Whole
open Numeral Binary64

inductive Spells : List Char → ℤ → Prop
  | mk {s ds : List Char} {negative : Bool} (sign : Sign s negative) (digits : Digits ds)
    (some : ds ≠ []) : Spells (s ++ ds) (signed negative (Nat.ofDigitChars 10 ds 0))

def Fits (n : ℤ) : Prop := -9223372036854775808 ≤ n ∧ n ≤ 9223372036854775807

section Digits
variable {negative : Bool}

theorem push_eq_ok_iff {n m : ℤ} {c : Char} : push negative n c = .ok m ↔
    c.isDigit = true ∧ m = 10 * n + signed negative (c.toNat - '0'.toNat) ∧ Fits m := by
  have next : (if negative then 10 * n - ((c.toNat - '0'.toNat : ℕ) : ℤ)
      else 10 * n + ((c.toNat - '0'.toNat : ℕ) : ℤ)) =
        10 * n + signed negative (c.toNat - '0'.toNat) := by
    cases negative <;> rfl
  unfold push
  by_cases digit : c.isDigit = true
  · simp only [digit, if_true, next, true_and]
    cases fits : Checked.int64 (10 * n + signed negative (c.toNat - '0'.toNat)) with
    | ok k =>
      obtain ⟨rfl, range⟩ := Checked.int64_eq_ok_iff.mp fits
      simp only [Except.ok.injEq]
      constructor
      · rintro rfl
        exact ⟨rfl, range⟩
      · rintro ⟨rfl, -⟩
        rfl
    | error f =>
      simp only [reduceCtorEq, false_iff]
      rintro ⟨rfl, range⟩
      rw [Checked.int64_eq_ok_iff.mpr ⟨rfl, range⟩] at fits
      cases fits
  · simp [digit]

theorem signed_concat (ds : List Char) (c : Char) :
    signed negative (Nat.ofDigitChars 10 (ds ++ [c]) 0) =
      10 * signed negative (Nat.ofDigitChars 10 ds 0) +
        signed negative (c.toNat - '0'.toNat) := by
  rw [Nat.ofDigitChars_append, Nat.ofDigitChars_cons, Nat.ofDigitChars_nil]
  cases negative <;> simp only [signed, Bool.false_eq_true, if_false, if_true] <;> omega

/-- Values only grow in magnitude, so all are in range if the last one is. -/
theorem foldlM_push_eq_ok_iff {ds : List Char} {n : ℤ} : ds.foldlM (push negative) 0 = .ok n ↔
    Digits ds ∧ n = signed negative (Nat.ofDigitChars 10 ds 0) ∧ Fits n := by
  induction ds using List.reverseRecOn generalizing n with
  | nil =>
    have zero : signed negative (Nat.ofDigitChars 10 [] 0) = 0 := by cases negative <;> rfl
    rw [zero]
    constructor
    · rintro ⟨⟩
      exact ⟨fun _ none => absurd none List.not_mem_nil, rfl, by decide, by decide⟩
    · rintro ⟨-, rfl, -⟩
      rfl
  | append_singleton ds c ih =>
    have all : Digits (ds ++ [c]) ↔ Digits ds ∧ c.isDigit = true := by
      simp only [Digits, List.forall_mem_append, List.forall_mem_singleton]
    have last (k : ℤ) : [c].foldlM (push negative) k = push negative k c := by
      rw [List.foldlM_cons]
      exact bind_pure _
    simp only [List.foldlM_append, bind_eq_ok_iff, ih, last, all, signed_concat]
    constructor
    · rintro ⟨k, ⟨digits, rfl, -⟩, pushed⟩
      obtain ⟨digit, rfl, range⟩ := push_eq_ok_iff.mp pushed
      exact ⟨⟨digits, digit⟩, rfl, range⟩
    · rintro ⟨⟨digits, digit⟩, rfl, range⟩
      refine ⟨_, ⟨digits, rfl, ?_⟩, push_eq_ok_iff.mpr ⟨digit, rfl, range⟩⟩
      revert range
      cases negative <;> simp only [Fits, signed, Bool.false_eq_true, if_false, if_true] <;> omega

theorem magnitude_eq_ok_iff {ds : List Char} {n : ℤ} : magnitude negative ds = .ok n ↔
    (Digits ds ∧ ds ≠ []) ∧ n = signed negative (Nat.ofDigitChars 10 ds 0) ∧ Fits n := by
  by_cases none : ds = []
  · simp [magnitude, none]
  · rw [magnitude, if_neg (by simpa using none), foldlM_push_eq_ok_iff]
    simp only [ne_eq, none, not_false_eq_true, and_true]

end Digits

theorem parse_eq_magnitude {s ds : List Char} {negative : Bool} (sign : Sign s negative)
    (digits : Digits ds) (some : ds ≠ []) : parse (s ++ ds) = magnitude negative ds := by
  cases sign with
  | none =>
    obtain ⟨c, rest, rfl⟩ := List.exists_cons_of_ne_nil some
    have head := noHead_isSign_of_digits digits c rest rfl
    simp only [isSign, Bool.or_eq_false_iff, decide_eq_false_iff_not] at head
    simp only [List.nil_append, parse, if_neg head.1, if_neg head.2]
  | plus => rfl
  | minus => rfl

theorem exists_magnitude {cs : List Char} {n : ℤ} (read : parse cs = .ok n) :
    ∃ s ds negative, Sign s negative ∧ cs = s ++ ds ∧ magnitude negative ds = .ok n := by
  cases cs with
  | nil => cases read
  | cons c cs =>
    simp only [parse] at read
    split at read
    · rename_i minus
      exact ⟨['-'], cs, true, .minus, by rw [minus]; rfl, read⟩
    · split at read
      · rename_i plus
        exact ⟨['+'], cs, false, .plus, by rw [plus]; rfl, read⟩
      · exact ⟨[], c :: cs, false, .none, rfl, read⟩

theorem parse_eq_ok_iff {cs : List Char} {n : ℤ} :
    parse cs = .ok n ↔ Spells cs n ∧ Fits n := by
  constructor
  · intro read
    obtain ⟨s, ds, negative, sign, rfl, value⟩ := exists_magnitude read
    obtain ⟨⟨digits, some⟩, rfl, range⟩ := magnitude_eq_ok_iff.mp value
    exact ⟨.mk sign digits some, range⟩
  · rintro ⟨⟨sign, digits, some⟩, range⟩
    rw [parse_eq_magnitude sign digits some]
    exact magnitude_eq_ok_iff.mpr ⟨⟨digits, some⟩, rfl, range⟩

end MercatorGrid.Whole
