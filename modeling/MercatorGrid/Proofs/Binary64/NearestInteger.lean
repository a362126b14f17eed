import MercatorGrid.Proofs.Binary64.Line
import Mathlib.Algebra.Order.Round

namespace MercatorGrid.Binary64
open Float.Model.UnpackedFloat (Sign)

/-- The nearest integer; a half goes away from zero. -/
def nearestAway (q : ℚ) : ℤ := if q < 0 then -round (-q) else round q

theorem nearestAway_of_close {q : ℚ} {k : ℤ} (close : |q - k| < 1 / 2) : nearestAway q = k := by
  have sides := abs_lt.mp close
  unfold nearestAway
  split
  · rw [round_eq, neg_eq_iff_eq_neg, Int.floor_eq_iff]
    push_cast
    constructor <;> linarith
  · rw [round_eq, Int.floor_eq_iff]
    constructor <;> linarith

@[simp] theorem nearestAway_intCast (k : ℤ) : nearestAway (k : ℚ) = k :=
  nearestAway_of_close (by norm_num)

@[simp] theorem nearestAway_zero : nearestAway 0 = 0 :=
  nearestAway_of_close (by norm_num)

theorem nearestAway_error (q : ℚ) : |(nearestAway q : ℚ) - q| ≤ 1 / 2 := by
  unfold nearestAway
  split
  · push_cast
    rw [neg_sub_left, abs_neg, add_comm, ← sub_neg_eq_add, abs_sub_comm]
    exact abs_sub_round (-q)
  · rw [abs_sub_comm]
    exact abs_sub_round q

theorem nearestAway_mono {a b : ℚ} (h : a ≤ b) : nearestAway a ≤ nearestAway b := by
  rcases h.eq_or_lt with rfl | less
  · exact le_refl _
  -- two integers out of order would both be a half away from one number
  · have below := (abs_le.mp (nearestAway_error a)).2
    have above := (abs_le.mp (nearestAway_error b)).1
    have close : (nearestAway a : ℚ) < nearestAway b + 1 := by linarith
    exact Int.lt_add_one_iff.mp (by exact_mod_cast close)

theorem nearestOf_positive (m : ℕ) (e : ℤ) :
    nearestOf false m e = round ((m : ℚ) * (2 : ℚ) ^ e) := by
  unfold nearestOf
  split
  · rename_i whole
    obtain ⟨n, rfl⟩ := Int.eq_ofNat_of_zero_le whole
    have value : (m : ℚ) * 2 ^ (n : ℤ) = ((m <<< n : ℕ) : ℤ) := by
      rw [Nat.shiftLeft_eq, zpow_natCast]
      push_cast
      rfl
    rw [value, round_intCast]
    rfl
  · rename_i part
    obtain ⟨n, rfl⟩ : ∃ n : ℕ, e = -n := ⟨(-e).toNat, by omega⟩
    have value : (m : ℚ) * (2 : ℚ) ^ (-n : ℤ) + (1 / 2 : ℚ) =
        (((2 * m + 1 <<< n : ℕ) : ℤ) : ℚ) / ((2 * 1 <<< n : ℕ) : ℚ) := by
      rw [Nat.shiftLeft_eq, one_mul, zpow_neg, zpow_natCast]
      push_cast
      field_simp
    rw [round_eq, value, Rat.floor_intCast_div_natCast, Int.neg_neg, Int.toNat_natCast]
    rfl

theorem nearestOf_negative (m : ℕ) (e : ℤ) : nearestOf true m e = -nearestOf false m e := by
  unfold nearestOf
  split <;> rfl

theorem nearestOf_eq (s : Sign) (m : ℕ) (e : ℤ) :
    nearestOf (s == .negative) m e = nearestAway (ofSign s (m * 2 ^ e)) := by
  have nonneg : (0 : ℚ) ≤ m * 2 ^ e := mul_nonneg (Nat.cast_nonneg m) (two_zpow_pos e).le
  cases s with
  | positive =>
    rw [nearestAway, ofSign, if_neg (not_lt.mpr nonneg)]
    exact nearestOf_positive m e
  | negative =>
    change nearestOf true m e = _
    rw [nearestOf_negative, nearestOf_positive, nearestAway, ofSign, neg_neg]
    rcases nonneg.eq_or_lt with zero | positive
    · rw [← zero, neg_zero, if_neg (lt_irrefl 0), round_zero, neg_zero]
    · rw [if_pos (neg_neg_of_pos positive)]

theorem nearest?_eq {x : Float} {q : ℚ} (h : Denotes x q) : nearest? x = some (nearestAway q) := by
  have holds := (holds_unpack h).1
  unfold nearest? read
  generalize x.toModel.unpack = u at holds
  cases holds with
  | zero s =>
    rw [nearestAway_zero]
    cases s <;> rfl
  | finite s positive _ _ _ => simp only [nearestOf_eq]

theorem isFinite_of_nearest? {x : Float} {k : ℤ} (found : nearest? x = some k) :
    x.isFinite = true := by
  change x.toModel.unpack.isFinite = true
  unfold nearest? read at found
  generalize x.toModel.unpack = u at found ⊢
  cases u with
  | notANumber => cases found
  | infinity s => cases found
  | zero s => rfl
  | finite s m e positive => rfl

theorem nearest?_eq_some_iff {x : Float} {k : ℤ} :
    nearest? x = some k ↔ ∃ q : ℚ, Denotes x q ∧ nearestAway q = k := by
  constructor
  · intro found
    obtain ⟨q, denotes⟩ := isFinite_iff.mp (isFinite_of_nearest? found)
    exact ⟨q, denotes, Option.some.inj ((nearest?_eq denotes).symm.trans found)⟩
  · rintro ⟨q, denotes, rfl⟩
    exact nearest?_eq denotes

end MercatorGrid.Binary64
