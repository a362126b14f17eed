import MercatorGrid.Proofs.FixedPoint
import MercatorGrid.Proofs.Decimal.Shortest
import MercatorGrid.Proofs.Decimal.Text

namespace MercatorGrid
open Binary64 Numeral

namespace Binary64

theorem isNaN_of_read {x : Float} (nan : read x = .nan) : x.isNaN = true := by
  change x.toModel.unpack.isNaN = true
  unfold read at nan
  cases shape : x.toModel.unpack with
  | notANumber => rfl
  | infinity s => rw [shape] at nan; cases nan
  | zero s => rw [shape] at nan; cases nan
  | finite s m e positive => rw [shape] at nan; cases nan

theorem denotes_of_read_infinite {x : Float} {negative : Bool}
    (infinite : read x = .infinite negative) : Denotes x (if negative then ⊥ else ⊤) := by
  unfold read at infinite
  unfold Denotes
  cases shape : x.toModel.unpack with
  | notANumber => rw [shape] at infinite; cases infinite
  | infinity s =>
    rw [shape] at infinite
    cases infinite
    cases s <;> rfl
  | zero s => rw [shape] at infinite; cases infinite
  | finite s m e positive => rw [shape] at infinite; cases infinite

theorem read_of_denotes {x : Float} {q : ℚ} (h : Denotes x q) :
    (∃ negative, read x = .finite negative 0 0 ∧ q = 0) ∨
      ∃ m e, Canonical m e ∧ read x = .finite (q < 0) m e ∧ |q| = m * 2 ^ e := by
  obtain ⟨holds, -⟩ := holds_unpack h
  unfold read
  generalize x.toModel.unpack = u at holds
  cases holds with
  | zero s => exact .inl ⟨_, rfl, rfl⟩
  | finite s positive few low form =>
    rename_i m e
    have c : Canonical m e := ⟨positive, few, low, form⟩
    refine .inr ⟨m, e, c, ?_, abs_ofSign s c.value_pos.le⟩
    have value := c.value_pos
    cases s with
    | negative =>
      have below : ofSign .negative ((m : ℚ) * 2 ^ e) < 0 := neg_neg_of_pos value
      simp [below]
    | positive =>
      have above : ¬ ofSign .positive ((m : ℚ) * 2 ^ e) < 0 := not_lt.mpr value.le
      simp [above]

end Binary64

namespace Decimal

theorem amount_congr {d d' : Decimal} (same : d.value = d'.value) (negative : Bool) :
    amount negative d = amount negative d' := by
  rw [amount, amount, same]

section Layouts
variable (l : Layout)

theorem write_of_zero {x : Float} {negative : Bool} (zero : read x = .finite negative 0 0) :
    l.write x = String.ofList (withSign negative (l.magnitude ⟨0, 0⟩)) := by
  rw [Layout.write, zero]
  rfl

theorem write_of_finite {x : Float} {negative : Bool} {m : ℕ} {e : ℤ} (positive : 0 < m)
    (finite : read x = .finite negative m e) :
    l.write x = String.ofList (withSign negative (l.magnitude (shortest m e))) := by
  rw [Layout.write, finite]
  simp only [if_neg positive.ne']

/-- What is written for a number rounds to it, and nothing coarser does. -/
theorem exists_written {x : Float} {q : ℚ} (h : Denotes x q) : ∃ negative d,
    l.write x = String.ofList (withSign negative (l.magnitude d)) ∧
      nearest (amount negative d) = q ∧ (q = 0 → d = ⟨0, 0⟩) ∧
      (q ≠ 0 → ∀ k > d.exponent, ∀ n : ℕ, nearest (n * 10 ^ k) ≠ |q|) := by
  rcases read_of_denotes h with ⟨negative, zero, rfl⟩ | ⟨m, e, c, finite, magnitude⟩
  · refine ⟨negative, ⟨0, 0⟩, write_of_zero l zero, ?_, fun _ => rfl, fun some => absurd rfl some⟩
    cases negative <;> simp [amount, value]
  · obtain ⟨near, coarsest⟩ := shortest_spec c
    rw [← magnitude] at near coarsest
    refine ⟨_, _, write_of_finite l c.positive finite, ?_, ?_, fun _ => coarsest⟩
    · by_cases below : q < 0
      · rw [amount, if_pos (decide_eq_true below), nearest_neg, near, abs_of_neg below, neg_neg]
      · rw [amount, if_neg (by simpa using below), near, abs_of_nonneg (not_lt.mp below)]
    · intro zero
      rw [zero, abs_zero] at magnitude
      exact absurd magnitude c.value_pos.ne

/-- The text of a double: of a number, a numeral with the value of a decimal that rounds to it, and
no coarser decimal does. -/
inductive Shows (x : Float) : String → Prop
  | nan (nan : x.isNaN = true) : Shows x "NaN"
  | below (infinite : Denotes x ⊥) : Shows x "-inf"
  | above (infinite : Denotes x ⊤) : Shows x "inf"
  | number {q : ℚ} {d d' : Decimal} {negative : Bool} (number : Denotes x q)
    (rounds : nearest (amount negative d) = q) (zero : q = 0 → d = ⟨0, 0⟩)
    (coarsest : q ≠ 0 → ∀ k > d.exponent, ∀ n : ℕ, nearest (n * 10 ^ k) ≠ |q|)
    (spelled : Spells (withSign negative (l.magnitude d)) (.decimal negative d'))
    (same : d'.value = d.value) : Shows x (String.ofList (withSign negative (l.magnitude d)))

theorem write_shows (x : Float) : Shows l x (l.write x) := by
  cases reading : read x with
  | nan =>
    rw [Layout.write, reading]
    exact .nan (isNaN_of_read reading)
  | infinite negative =>
    have infinite := denotes_of_read_infinite reading
    rw [Layout.write, reading]
    cases negative with
    | true => exact .below infinite
    | false => exact .above infinite
  | finite negative m e =>
    have number := denotes_of_read reading
    obtain ⟨sign, d, text, rounds, zero, coarsest⟩ := exists_written l number
    obtain ⟨d', spelled, same⟩ := spells_magnitude l sign d
    rw [text]
    exact .number number rounds zero coarsest spelled same

end Layouts

theorem reads_back {x : Float} {q : ℚ} (h : Denotes x q) : ∃ negative d,
    Spells (Layout.plain.write x).toList (.decimal negative d) ∧
      Denotes (Numeral.decimal negative d).toFloat q := by
  obtain ⟨negative, d, text, near, -⟩ := exists_written .plain h
  obtain ⟨d', spelled, same⟩ := spells_magnitude .plain negative d
  refine ⟨negative, d', by rwa [text, String.toList_ofList], ?_⟩
  have denotes := denotes_decimal negative d'
  rwa [amount_congr same, near, clip_of_small (holds_unpack h).2] at denotes

section Apart

theorem value_eq_mul_pow (d : Decimal) (j : ℕ) {k : ℤ} (exponent : d.exponent = k + j) :
    d.value = (d.digits * 10 ^ j : ℕ) * 10 ^ k := by
  rw [value, exponent, zpow_add₀ (by norm_num), zpow_natCast]
  push_cast
  ring

theorem eq_of_value {d t : Decimal} (same : d.value = t.value) (coarser : t.exponent ≤ d.exponent)
    (last : t.digits % 10 ≠ 0) : d = t := by
  obtain ⟨j, exponent⟩ : ∃ j : ℕ, d.exponent = t.exponent + j :=
    ⟨(d.exponent - t.exponent).toNat, by omega⟩
  rw [value_eq_mul_pow d j exponent, value] at same
  have digits : d.digits * 10 ^ j = t.digits := by
    exact_mod_cast mul_right_cancel₀ (ten_zpow_pos t.exponent).ne' same
  cases j with
  | zero =>
    obtain ⟨c, k⟩ := t
    obtain ⟨c', k'⟩ := d
    dsimp only at digits exponent
    rw [pow_zero, mul_one] at digits
    rw [digits, exponent, Nat.cast_zero, add_zero]
  | succ j =>
    rw [← digits, pow_succ, ← mul_assoc, Nat.mul_mod_left] at last
    exact absurd rfl last

theorem shortest_of_apart {m : ℕ} {e : ℤ} (c : Canonical m e) {p u : ℕ} (some : u ≠ 0)
    (near : nearest (u / 10 ^ p) = m * 2 ^ e)
    (apart : ∀ b : ℕ, nearest (b / 10 ^ p) = nearest (u / 10 ^ p) → b = u) :
    shortest m e = trim ⟨u, -p⟩ := by
  obtain ⟨inside, only⟩ := shortest_spec c
  have last : (trim ⟨u, -p⟩).digits % 10 ≠ 0 := trim_last some
  have places : -(p : ℤ) ≤ (trim ⟨u, -p⟩).exponent := le_exponent_trim ⟨u, -p⟩
  have coarser : (trim ⟨u, -p⟩).exponent ≤ (shortest m e).exponent := by
    by_contra finer
    have other := only _ (not_le.mp finer) (trim ⟨u, -p⟩).digits
    rw [← value, value_trim_places, near] at other
    exact other rfl
  have written := value_eq_mul_pow (shortest m e) (k := -p) ((shortest m e).exponent + p).toNat
    (by omega)
  rw [zpow_neg, zpow_natCast, ← div_eq_mul_inv] at written
  rw [written, ← near] at inside
  refine eq_of_value ?_ coarser last
  rw [written, apart _ inside, value_trim_places]

theorem write_of_apart {x : Float} {q : ℚ} (h : Denotes x q) {p u : ℕ} (some : u ≠ 0)
    (near : |q| = nearest (u / 10 ^ p)) (nonzero : q ≠ 0)
    (apart : ∀ b : ℕ, nearest (b / 10 ^ p) = nearest (u / 10 ^ p) → b = u) :
    Layout.plain.write x = String.ofList (withSign (q < 0) (expansion p u)) := by
  rcases read_of_denotes h with ⟨negative, zero, rfl⟩ | ⟨m, e, c, finite, magnitude⟩
  · exact absurd rfl nonzero
  · rw [near] at magnitude
    rw [write_of_finite _ c.positive finite, shortest_of_apart c some magnitude apart,
      ← positional_trim_places some]
    rfl

end Apart

section Fixed

theorem near_divideToEven (a : ℕ) {b : ℕ} (positive : 0 < b) :
    Near ((a : ℚ) / b) (divideToEven a b : ℕ) := by
  have cast : (0 : ℚ) < b := by exact_mod_cast positive
  have inside := Nat.mod_lt a positive
  have parts : ((b * (a / b) + a % b : ℕ) : ℚ) = a := by rw [Nat.div_add_mod]
  push_cast at parts
  have below : |((a / b : ℕ) : ℚ) - a / b| = (a % b : ℕ) / b := by
    rw [abs_sub_comm, abs_of_nonneg]
    · field_simp
      linarith
    · exact sub_nonneg.mpr Nat.cast_div_le
  have above : |((a / b + 1 : ℕ) : ℚ) - a / b| = (b - a % b : ℕ) / b := by
    have next : ((a / b + 1 : ℕ) : ℚ) - a / b = (b - a % b : ℕ) / b := by
      push_cast [inside.le]
      field_simp
      linarith
    rw [next, abs_of_nonneg (by positivity)]
  unfold Near divideToEven
  dsimp only
  split
  · rename_i lower
    rw [Int.cast_natCast, below, div_lt_div_iff₀ cast two_pos, div_eq_div_iff cast.ne' two_ne_zero]
    norm_cast
    omega
  · rename_i upper
    rw [Int.cast_natCast, above, div_lt_div_iff₀ cast two_pos, div_eq_div_iff cast.ne' two_ne_zero]
    norm_cast
    omega

theorem toPlaces_near (places m : ℕ) (e : ℤ) : ∃ c : ℕ, toPlaces places m e = ⟨c, -places⟩ ∧
    Near (m * 2 ^ e * 10 ^ places) c := by
  have near := near_divideToEven ((m * 10 ^ places) <<< e.toNat) (b := 1 <<< (-e).toNat)
    (by rw [Nat.shiftLeft_eq]; positivity)
  refine ⟨_, rfl, ?_⟩
  have value : (((m * 10 ^ places) <<< e.toNat : ℕ) : ℚ) / (1 <<< (-e).toNat : ℕ) =
      m * 2 ^ e * 10 ^ places := by
    simp only [Nat.shiftLeft_eq, Nat.cast_mul, Nat.cast_pow, Nat.cast_ofNat, one_mul,
      Interval.pow_toNat (show (2 : ℚ) ≠ 0 by norm_num) e]
    field_simp
  rwa [value] at near

/-- The text of a double with some places: of a number, those of the nearest multiple of the last
place, and of two that are equally near, the even one. -/
inductive ShowsPlaces (places : ℕ) (x : Float) : String → Prop
  | nan (nan : x.isNaN = true) : ShowsPlaces places x "NaN"
  | below (infinite : Denotes x ⊥) : ShowsPlaces places x "-inf"
  | above (infinite : Denotes x ⊤) : ShowsPlaces places x "inf"
  | number {q : ℚ} {c : ℕ} {negative : Bool} (number : Denotes x q)
    (near : Near (|q| * 10 ^ places) c) (sign : q ≠ 0 → negative = decide (q < 0)) :
    ShowsPlaces places x (String.ofList (withSign negative
      (Nat.toDigits 10 (c / 10 ^ places) ++ '.' :: lastDigits places c)))

theorem writeFixed_shows {places : ℕ} (some : 0 < places) (x : Float) :
    ShowsPlaces places x (writeFixed places x) := by
  unfold writeFixed
  cases reading : read x with
  | nan => exact .nan (isNaN_of_read reading)
  | infinite negative =>
    have infinite := denotes_of_read_infinite reading
    cases negative with
    | true => exact .below infinite
    | false => exact .above infinite
  | finite negative m e =>
    obtain ⟨c, text, near⟩ := toPlaces_near places m e
    dsimp only
    rw [text, positional_of_places some]
    have magnitude : (0 : ℚ) ≤ m * 2 ^ e := by positivity
    refine .number (denotes_of_read reading) ?_ ?_
    · cases negative <;> simpa [signed, abs_of_nonneg magnitude] using near
    · intro nonzero
      cases negative with
      | false => simp [signed, magnitude]
      | true =>
        have some : (m : ℚ) * 2 ^ e ≠ 0 := by simpa [signed] using nonzero
        simp [signed, lt_of_le_of_ne magnitude some.symm]

end Fixed

end Decimal

namespace FixedPoint
open Decimal

/-- A whole number of units as the decimal expansion of its degrees. -/
def expand (n : Int32) : String :=
  String.ofList (withSign (n.toInt < 0) (expansion 7 n.toInt.natAbs))

theorem write_toDegrees (n : Int32) : Layout.plain.write (toDegrees n) = expand n := by
  by_cases zero : n.toInt = 0
  · obtain rfl : n = 0 := Int32.toInt_inj.mp zero
    decide +kernel
  · have magnitude := abs_nearest (n.toInt / 10 ^ 7)
    rw [abs_units] at magnitude
    rw [write_of_apart (denotes_toDegrees n) (Int.natAbs_ne_zero.mpr zero) magnitude
      (nearest_degrees_ne_zero n zero) (units_apart n), expand]
    simp only [nearest_degrees_neg_iff]

end FixedPoint
end MercatorGrid
