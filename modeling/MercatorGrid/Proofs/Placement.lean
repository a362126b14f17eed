import MercatorGrid.Proofs.Attempt
import MercatorGrid.Placement
import Mathlib.Tactic.Linarith
import Mathlib.Algebra.Order.Ring.Int

namespace MercatorGrid.Placement

def columns (p : Placement) : ℕ := p.width.toInt.toNat

def rows (p : Placement) : ℕ := p.height.toInt.toNat

def points (p : Placement) : ℕ := p.columns * p.rows

theorem points_eq {p : Placement} (wide : 0 < p.width.toInt) (tall : 0 < p.height.toInt) :
    (p.points : ℤ) = p.width.toInt * p.height.toInt := by
  simp only [points, columns, rows]
  push_cast
  simp only [Int.toNat_of_nonneg wide.le, Int.toNat_of_nonneg tall.le]

theorem pointCount_of_pos {p : Placement} (wide : 0 < p.width.toInt)
    (tall : 0 < p.height.toInt) : p.pointCount = .ok p.points := by
  have width := Checked.toInt_range p.width
  have height := Checked.toInt_range p.height
  rw [pointCount, wrap64_of_nonneg wide.le (by omega), wrap64_of_nonneg tall.le (by omega)]
  apply Checked.word_of_lt
  have product : p.width.toInt.toNat * p.height.toInt.toNat ≤ 2147483647 * 2147483647 :=
    Nat.mul_le_mul (by omega) (by omega)
  omega

theorem level_of_le {p : Placement} (depth : p.zoom ≤ 63) : p.level = .ok p.zoom :=
  Checked.shiftAmount_of_lt (Nat.lt_succ_of_le depth)

section Counted
variable {p : Placement} {count : ℕ} (counted : p.pointCount = .ok count)
include counted

theorem wrap_width_pos {i : ℕ} (inside : i < count) : 0 < wrap64 p.width.toInt := by
  obtain ⟨product, -⟩ := Checked.word_eq_ok_iff.mp counted
  apply Nat.pos_of_ne_zero
  intro zero
  rw [product, zero, Nat.zero_mul] at inside
  exact absurd inside (Nat.not_lt_zero i)

theorem cell?_of_counted (i : ℕ) : p.cell? i = .ok (if i < count then
    some (wrap32 (i % wrap64 p.width.toInt), wrap32 (i / wrap64 p.width.toInt)) else none) := by
  simp only [cell?, counted, ok_bind, pure_ok]
  by_cases inside : i < count
  · have positive := wrap_width_pos counted inside
    rw [if_neg (Nat.not_le.mpr inside), if_pos inside, Checked.remainder_of_pos positive,
      Checked.quotient_of_pos positive]
    rfl
  · rw [if_pos (Nat.not_lt.mp inside), if_neg inside]

end Counted

namespace Accepted
variable {p : Placement} (accepted : p.Accepted)
include accepted

theorem shallow : p.zoom ≤ Mercator.deepestZoom := accepted.1

theorem width_eq : p.width.toInt = p.columns := by
  have positive := accepted.2.1
  simp only [columns]
  omega

theorem height_eq : p.height.toInt = p.rows := by
  have positive := accepted.2.2.1
  simp only [rows]
  omega

theorem columns_pos : 0 < p.columns := by
  have positive := accepted.2.1
  have width := width_eq accepted
  omega

theorem rows_pos : 0 < p.rows := by
  have positive := accepted.2.2.1
  have height := height_eq accepted
  omega

theorem columns_le : p.columns ≤ 2147483647 := by
  have range := Checked.toInt_range p.width
  have width := width_eq accepted
  omega

theorem rows_le : p.rows ≤ 2147483647 := by
  have range := Checked.toInt_range p.height
  have height := height_eq accepted
  omega

theorem points_le : p.points ≤ 2147483647 := by
  have few := accepted.2.2.2.2.2
  rw [← points_eq accepted.2.1 accepted.2.2.1] at few
  exact_mod_cast few

theorem wrap_width : wrap64 p.width.toInt = p.columns := by
  have few := columns_le accepted
  have width := width_eq accepted
  rw [wrap64_of_nonneg (by omega) (by omega), columns]

theorem pointCount_eq : p.pointCount = .ok p.points :=
  pointCount_of_pos accepted.2.1 accepted.2.2.1

theorem level_eq : p.level = .ok p.zoom :=
  level_of_le (le_trans (shallow accepted) (by decide))

theorem lt_columns {i : ℕ} : i % p.columns < p.columns :=
  Nat.mod_lt i (columns_pos accepted)

omit accepted in
theorem lt_rows {i : ℕ} (inside : i < p.points) : i / p.columns < p.rows :=
  Nat.div_lt_of_lt_mul inside

theorem cell?_eq (i : ℕ) : p.cell? i = .ok (if i < p.points then
    some (wrap32 (i % p.columns), wrap32 (i / p.columns)) else none) := by
  rw [cell?_of_counted (pointCount_eq accepted), wrap_width accepted]

theorem cell?_eq_some_iff {i : ℕ} {column row : Int32} :
    p.cell? i = .ok (some (column, row)) ↔ i < p.points ∧
      column.toInt = (i % p.columns : ℕ) ∧ row.toInt = (i / p.columns : ℕ) := by
  simp only [cell?_eq accepted]
  by_cases inside : i < p.points
  · have last := lt_columns accepted (i := i)
    have below := lt_rows inside
    have few := columns_le accepted
    have tall := rows_le accepted
    rw [if_pos inside, ← wrap32_toInt (n := i % p.columns) (by omega),
      ← wrap32_toInt (n := i / p.columns) (by omega), Int32.toInt_inj, Int32.toInt_inj]
    simp only [Except.ok.injEq, Option.some.injEq, Prod.mk.injEq, inside, true_and, eq_comm]
  · simp [inside]

theorem exists_cell {i : ℕ} (inside : i < p.points) : ∃ column row,
    p.cell? i = .ok (some (column, row)) ∧
      column.toInt = (i % p.columns : ℕ) ∧ row.toInt = (i / p.columns : ℕ) := by
  have cell := cell?_eq accepted i
  rw [if_pos inside] at cell
  exact ⟨_, _, cell, ((cell?_eq_some_iff accepted).mp cell).2⟩

end Accepted

theorem checkZoom_eq_ok_iff {zoom : Int32} {level : ℕ} :
    checkZoom zoom = .ok level ↔
      zoom.toInt = level ∧ level ≤ Mercator.deepestZoom := by
  simp only [checkZoom]
  by_cases shallow : 0 ≤ zoom.toInt ∧ zoom.toInt ≤ Mercator.deepestZoom
  · rw [if_pos shallow, Except.ok.injEq]
    omega
  · rw [if_neg shallow]
    simp only [reduceCtorEq, false_iff]
    omega

theorem int32_sum {x side : Int32} (positive : 0 < side.toInt) :
    Checked.int32 (x.toInt + side.toInt) = if 2147483647 < x.toInt + side.toInt then
      .error .overflow else .ok (Int32.ofInt (x.toInt + side.toInt)) := by
  have range := Checked.toInt_range x
  simp only [Checked.int32]
  by_cases far : 2147483647 < x.toInt + side.toInt
  · rw [if_neg (by omega), if_pos far]
  · rw [if_pos (by omega), if_neg far]

theorem make_eq {zoom : Int32} {level : ℕ} (hz : checkZoom zoom = .ok level)
    (west north width height : Int32) : make zoom west north width height =
      if width.toInt ≤ 0 ∨ height.toInt ≤ 0 then
        Attempt.refuse (.sidesNotPositive width.toInt height.toInt)
      else if 2147483647 < west.toInt + width.toInt ∨ 2147483647 < north.toInt + height.toInt then
        Attempt.refuse (.leavesPlane (.farEdge width height west north))
      else if maxPoints < points ⟨level, west, north, width, height⟩ then
        Attempt.refuse (.tooManyPoints (points ⟨level, west, north, width, height⟩))
      else .ok ⟨level, west, north, width, height⟩ := by
  simp only [make, hz, Attempt.guarded_ok, ok_bind, Int32.le_iff_toInt_le, Int32.toInt_zero]
  by_cases sides : width.toInt ≤ 0 ∨ height.toInt ≤ 0
  · rw [if_pos sides, if_pos sides]
  · rw [if_neg sides, if_neg sides]
    have wide : 0 < width.toInt := by omega
    have tall : 0 < height.toInt := by omega
    simp only [int32_sum wide, int32_sum tall]
    by_cases east : 2147483647 < west.toInt + width.toInt
    · rw [if_pos east, if_pos (Or.inl east)]
    · by_cases south : 2147483647 < north.toInt + height.toInt
      · rw [if_neg east, if_pos south, if_pos (Or.inr south)]
      · rw [if_neg east, if_neg south, if_neg (by omega)]
        simp only [pointCount_of_pos (p := ⟨level, west, north, width, height⟩) wide tall,
          Attempt.checked_ok, ok_bind, pure_ok]

theorem make_eq_ok_iff {zoom west north width height : Int32} {p : Placement} :
    make zoom west north width height = .ok p ↔ zoom.toInt = p.zoom ∧ p.west = west ∧
      p.north = north ∧ p.width = width ∧ p.height = height ∧ p.Accepted := by
  cases hz : checkZoom zoom with
  | error r =>
    simp only [make, hz, Attempt.guarded_error, Attempt.refuse, error_bind, reduceCtorEq,
      false_iff]
    rintro ⟨same, -, -, -, -, accepted⟩
    simp only [checkZoom_eq_ok_iff.mpr ⟨same, accepted.shallow⟩] at hz
    cases hz
  | ok level =>
    obtain ⟨same, shallow⟩ := checkZoom_eq_ok_iff.mp hz
    simp only [make_eq hz]
    constructor
    · intro made
      split at made
      · exact absurd made (Attempt.refuse_ne_ok _ _)
      · rename_i sides
        have wide : 0 < width.toInt := by omega
        have tall : 0 < height.toInt := by omega
        have count := points_eq (p := ⟨level, west, north, width, height⟩) wide tall
        split at made
        · exact absurd made (Attempt.refuse_ne_ok _ _)
        · split at made
          · exact absurd made (Attempt.refuse_ne_ok _ _)
          · cases made
            refine ⟨same, rfl, rfl, rfl, rfl, shallow, ?_⟩
            dsimp only at count ⊢
            omega
    · rintro ⟨again, rfl, rfl, rfl, rfl, accepted⟩
      obtain rfl : level = p.zoom := by omega
      have few := accepted.points_le
      obtain ⟨-, wide, tall, east, south, -⟩ := accepted
      rw [if_neg (by omega), if_neg (by omega)]
      exact if_neg (Nat.not_lt.mpr few)

end MercatorGrid.Placement
