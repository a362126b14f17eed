import MercatorGrid.Proofs.Attempt
import MercatorGrid.Grid.Query
import Mathlib.Data.List.Sort
import Mathlib.Algebra.Order.Ring.Int

namespace MercatorGrid.Window

def Holds (w : Window) (column row : ℤ) : Prop :=
  w.minCol ≤ column ∧ column ≤ w.maxCol ∧ w.minRow ≤ row ∧ row ≤ w.maxRow

structure Within (w : Window) (width height : ℕ) : Prop where
  west : 0 ≤ w.minCol
  east : w.maxCol < width
  north : 0 ≤ w.minRow
  south : w.maxRow < height

def numbersInRow (w : Window) (width row : ℕ) : List ℕ :=
  (List.range' w.minCol.toNat w.columns).map (row * width + ·)

/-- What `indices` returns when nothing overflows. -/
def numbers (w : Window) (width : ℕ) : List ℕ :=
  ((List.range' w.minRow.toNat w.rows).map (w.numbersInRow width)).flatten

theorem isEmpty_eq_false_iff {w : Window} :
    w.isEmpty = false ↔ w.minCol ≤ w.maxCol ∧ w.minRow ≤ w.maxRow := by
  simp [isEmpty]

theorem not_holds_of_isEmpty {w : Window} (nothing : w.isEmpty = true) (column row : ℤ) :
    ¬ w.Holds column row := by
  rintro ⟨west, east, north, south⟩
  have inhabited : w.isEmpty = false := isEmpty_eq_false_iff.mpr ⟨by omega, by omega⟩
  simp only [nothing] at inhabited
  cases inhabited

theorem numbers_length (w : Window) (width : ℕ) :
    (w.numbers width).length = w.columns * w.rows := by
  have each : ∀ row, (w.numbersInRow width row).length = w.columns := by simp [numbersInRow]
  simp [numbers, Function.comp_def, each, Nat.mul_comm]

section Within
variable {w : Window} {width height : ℕ} (within : w.Within width height)
include within

theorem columns_le : w.columns ≤ width := by
  have west := within.west
  have east := within.east
  simp only [columns]
  omega

theorem rows_le : w.rows ≤ height := by
  have north := within.north
  have south := within.south
  simp only [rows]
  omega

theorem mem_numbersInRow_iff {row i : ℕ} : i ∈ w.numbersInRow width row ↔
    i / width = row ∧ w.minCol ≤ (i % width : ℕ) ∧ (i % width : ℕ) ≤ w.maxCol := by
  have west := within.west
  have east := within.east
  simp only [numbersInRow, List.mem_map, List.mem_range'_1, columns]
  constructor
  · rintro ⟨column, inside, rfl⟩
    have narrow : column < width := by omega
    rw [Nat.mul_add_mod_of_lt narrow, Nat.mul_comm, Nat.mul_add_div (by omega),
      Nat.div_eq_of_lt narrow]
    omega
  · rintro ⟨rfl, first, last⟩
    exact ⟨i % width, by omega, Nat.div_add_mod' i width⟩

theorem mem_numbers_iff {i : ℕ} : i ∈ w.numbers width ↔
    i < width * height ∧ w.Holds (i % width : ℕ) (i / width : ℕ) := by
  have north := within.north
  have south := within.south
  have east := within.east
  simp only [numbers, List.mem_flatten, List.mem_map, List.mem_range'_1, rows, Holds]
  constructor
  · rintro ⟨_, ⟨row, inside, rfl⟩, member⟩
    obtain ⟨rfl, first, last⟩ := (mem_numbersInRow_iff within).mp member
    refine ⟨?_, first, last, by omega, by omega⟩
    rw [Nat.mul_comm, ← Nat.div_lt_iff_lt_mul (by omega)]
    omega
  · rintro ⟨-, first, last, above, below⟩
    refine ⟨_, ⟨i / width, by omega, rfl⟩, ?_⟩
    exact (mem_numbersInRow_iff within).mpr ⟨rfl, first, last⟩

omit within in
theorem numbersInRow_sorted (row : ℕ) : (w.numbersInRow width row).Pairwise (· < ·) := by
  simp only [numbersInRow, List.pairwise_map]
  refine List.Pairwise.imp ?_ List.pairwise_lt_range'
  intro a b less
  omega

theorem numbers_sorted : (w.numbers width).Pairwise (· < ·) := by
  simp only [numbers, List.pairwise_flatten, List.pairwise_map]
  constructor
  · intro row member
    obtain ⟨number, -, rfl⟩ := List.mem_map.mp member
    exact numbersInRow_sorted number
  · refine List.Pairwise.imp ?_ List.pairwise_lt_range'
    intro a b less i hi j hj
    have first := (mem_numbersInRow_iff within).mp hi
    have second := (mem_numbersInRow_iff within).mp hj
    apply Nat.lt_of_div_lt_div (c := width)
    omega

section Checks
variable (few : width * height ≤ 2147483647)
include few

theorem capacity_eq : w.capacity = .ok (w.columns * w.rows) := by
  have product := Nat.mul_le_mul (columns_le within) (rows_le within)
  rw [capacity, Checked.word_of_lt (by omega), ok_bind]
  exact Checked.reserve_of_le (by omega)

theorem rowIndices_eq {row : ℕ} (south : row < height) (inhabited : w.minCol ≤ w.maxCol) :
    w.rowIndices width row = .ok (w.numbersInRow width row) := by
  have east := within.east
  have west := within.west
  have last : row * width + width ≤ width * height := by
    calc row * width + width = width * (row + 1) := by rw [Nat.mul_succ, Nat.mul_comm]
      _ ≤ width * height := Nat.mul_le_mul_left width south
  rw [rowIndices, Checked.word_of_lt (by omega), ok_bind, Checked.word_of_lt (by omega), ok_bind]
  rfl

theorem indices_eq (inhabited : w.isEmpty = false) :
    w.indices width = .ok (w.numbers width) := by
  obtain ⟨across, down⟩ := isEmpty_eq_false_iff.mp inhabited
  have north := within.north
  have south := within.south
  have each : ∀ row ∈ List.range' w.minRow.toNat w.rows,
      w.rowIndices width row = .ok (w.numbersInRow width row) := by
    intro row member
    simp only [List.mem_range'_1, rows] at member
    exact rowIndices_eq within few (by omega) across
  simp only [indices, capacity_eq within few, ok_bind, mapM_ok each]
  rfl

end Checks
end Within
end MercatorGrid.Window
