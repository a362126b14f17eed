import MercatorGrid.Proofs.Placement
import Mathlib.Data.Prod.Lex
import Mathlib.Logic.Equiv.Defs

namespace MercatorGrid.Placement

instance (p : Placement) (x y : ℤ) : Decidable (p.Covers x y) :=
  inferInstanceAs (Decidable (_ ∧ _))

/-- The number of a pixel of the rectangle when its rows are read one after another. -/
def number (p : Placement) (x y : ℤ) : ℕ :=
  (y - p.north.toInt).toNat * p.columns + (x - p.west.toInt).toNat

def Pixel (p : Placement) : Type := {q : Int32 × Int32 // p.Covers q.1.toInt q.2.toInt}

theorem lt_iff_row_lt_or (width : ℕ) {i j : ℕ} :
    i < j ↔ i / width < j / width ∨ i / width = j / width ∧ i % width < j % width := by
  have first := Nat.div_add_mod i width
  have second := Nat.div_add_mod j width
  constructor
  · intro less
    rcases Nat.lt_or_eq_of_le (Nat.div_le_div_right less.le) with above | same
    · exact .inl above
    · rw [same] at first
      exact .inr ⟨same, by omega⟩
  · rintro (above | ⟨same, left⟩)
    · exact Nat.lt_of_div_lt_div above
    · rw [same] at first
      omega

theorem pointAt_of_outside {p : Placement} {x y : Int32} (outside : ¬ p.Covers x.toInt y.toInt) :
    p.pointAt x y = .ok none := by
  simp only [Covers] at outside
  simp only [pointAt, Checked.int64_difference, ok_bind]
  rw [if_pos (by omega), pure_ok]

namespace Accepted
variable {p : Placement} (accepted : p.Accepted)
include accepted

theorem number_lt {x y : ℤ} (covers : p.Covers x y) : p.number x y < p.points := by
  have width := width_eq accepted
  have height := height_eq accepted
  simp only [Covers] at covers
  have column : (x - p.west.toInt).toNat < p.columns := by omega
  have row : (y - p.north.toInt).toNat + 1 ≤ p.rows := by omega
  calc p.number x y < (y - p.north.toInt).toNat * p.columns + p.columns :=
        Nat.add_lt_add_left column _
    _ = ((y - p.north.toInt).toNat + 1) * p.columns := (Nat.succ_mul _ _).symm
    _ ≤ p.rows * p.columns := Nat.mul_le_mul_right _ row
    _ = p.points := Nat.mul_comm _ _

theorem numberOf_eq {column row : ℕ} (inside : row * p.columns + column < p.points) :
    p.numberOf column row = .ok (row * p.columns + column) := by
  have few := points_le accepted
  rw [numberOf, wrap_width accepted, Checked.word_of_lt (by omega), ok_bind]
  exact Checked.word_of_lt (by omega)

theorem pointAt_eq (x y : Int32) : p.pointAt x y = .ok (if p.Covers x.toInt y.toInt then
    some (p.number x.toInt y.toInt) else none) := by
  by_cases covers : p.Covers x.toInt y.toInt
  · have inside := number_lt accepted covers
    rw [if_pos covers]
    simp only [Covers] at covers
    simp only [pointAt, Checked.int64_difference, ok_bind]
    rw [if_neg (by omega), numberOf_eq accepted inside, ok_bind, pure_ok, number]
  · rw [if_neg covers, pointAt_of_outside covers]

theorem pointAt_eq_none_iff {x y : Int32} :
    p.pointAt x y = .ok none ↔ ¬ p.Covers x.toInt y.toInt := by
  rw [pointAt_eq accepted]
  by_cases covers : p.Covers x.toInt y.toInt
  · simp [covers]
  · simp [covers]

theorem exists_pointAt_iff {x y : Int32} :
    (∃ i < p.points, p.pointAt x y = .ok (some i)) ↔ p.Covers x.toInt y.toInt := by
  rw [pointAt_eq accepted]
  by_cases covers : p.Covers x.toInt y.toInt
  · simp [covers, number_lt accepted covers]
  · simp [covers]

theorem covers_cell {i : ℕ} (inside : i < p.points) :
    p.Covers (p.west.toInt + (i % p.columns : ℕ)) (p.north.toInt + (i / p.columns : ℕ)) := by
  have column := lt_columns accepted (i := i)
  have row := lt_rows inside
  have width := width_eq accepted
  have height := height_eq accepted
  generalize i % p.columns = across at column ⊢
  generalize i / p.columns = down at row ⊢
  simp only [Covers]
  omega

omit accepted in
theorem number_cell (i : ℕ) :
    p.number (p.west.toInt + (i % p.columns : ℕ)) (p.north.toInt + (i / p.columns : ℕ)) = i := by
  rw [number, add_sub_cancel_left, add_sub_cancel_left, Int.toNat_natCast, Int.toNat_natCast]
  exact Nat.div_add_mod' i p.columns

theorem cell_number {x y : ℤ} (covers : p.Covers x y) :
    p.west.toInt + (p.number x y % p.columns : ℕ) = x ∧
      p.north.toInt + (p.number x y / p.columns : ℕ) = y := by
  have width := width_eq accepted
  simp only [Covers] at covers
  have column : (x - p.west.toInt).toNat < p.columns := by omega
  have across : p.number x y % p.columns = (x - p.west.toInt).toNat :=
    Nat.mul_add_mod_of_lt column
  have down : p.number x y / p.columns = (y - p.north.toInt).toNat := by
    rw [number, Nat.mul_comm, Nat.mul_add_div (columns_pos accepted), Nat.div_eq_of_lt column,
      Nat.add_zero]
  rw [across, down]
  omega

theorem pointAt_eq_some_iff {x y : Int32} {i : ℕ} :
    p.pointAt x y = .ok (some i) ↔ i < p.points ∧
      x.toInt = p.west.toInt + (i % p.columns : ℕ) ∧
      y.toInt = p.north.toInt + (i / p.columns : ℕ) := by
  rw [pointAt_eq accepted]
  constructor
  · intro found
    split at found
    · rename_i covers
      cases found
      have cell := cell_number accepted covers
      exact ⟨number_lt accepted covers, cell.1.symm, cell.2.symm⟩
    · cases found
  · rintro ⟨inside, column, row⟩
    rw [column, row, if_pos (covers_cell accepted inside), number_cell]

theorem fits {x y : ℤ} (covers : p.Covers x y) :
    (-2147483648 ≤ x ∧ x ≤ 2147483647) ∧ -2147483648 ≤ y ∧ y ≤ 2147483647 := by
  have west := Checked.toInt_range p.west
  have north := Checked.toInt_range p.north
  obtain ⟨-, -, -, east, south, -⟩ := accepted
  simp only [Covers] at covers
  omega

theorem toInt_pixel {i : ℕ} (inside : i < p.points) :
    (Int32.ofInt (p.west.toInt + (i % p.columns : ℕ))).toInt =
        p.west.toInt + (i % p.columns : ℕ) ∧
      (Int32.ofInt (p.north.toInt + (i / p.columns : ℕ))).toInt =
        p.north.toInt + (i / p.columns : ℕ) := by
  obtain ⟨across, down⟩ := fits accepted (covers_cell accepted inside)
  exact ⟨Checked.toInt_ofInt_of_range across.1 across.2,
    Checked.toInt_ofInt_of_range down.1 down.2⟩

/-- The numbers below the count and the pixels of the rectangle, one for one. -/
def numbering : Fin p.points ≃ p.Pixel where
  toFun i := ⟨(Int32.ofInt (p.west.toInt + (i % p.columns : ℕ)),
    Int32.ofInt (p.north.toInt + (i / p.columns : ℕ))), by
      have cell := toInt_pixel accepted i.isLt
      rw [cell.1, cell.2]
      exact covers_cell accepted i.isLt⟩
  invFun q := ⟨p.number q.1.1.toInt q.1.2.toInt, number_lt accepted q.2⟩
  left_inv i := by
    have cell := toInt_pixel accepted i.isLt
    apply Fin.ext
    simp only [cell.1, cell.2, number_cell]
  right_inv q := by
    have cell := cell_number accepted q.2
    apply Subtype.ext
    simp only [cell.1, cell.2, Int32.ofInt_toInt]

theorem pointAt_numbering (i : Fin p.points) :
    p.pointAt (accepted.numbering i).1.1 (accepted.numbering i).1.2 = .ok (some i) := by
  rw [pointAt_eq_some_iff accepted]
  exact ⟨i.isLt, toInt_pixel accepted i.isLt⟩

theorem pointAt_eq_some_iff_cell {x y : Int32} {i : ℕ} :
    p.pointAt x y = .ok (some i) ↔ ∃ column row, p.cell? i = .ok (some (column, row)) ∧
      column.toInt = x.toInt - p.west.toInt ∧ row.toInt = y.toInt - p.north.toInt := by
  simp only [pointAt_eq_some_iff accepted]
  constructor
  · rintro ⟨inside, across, down⟩
    obtain ⟨_, _, cell, column, row⟩ := exists_cell accepted inside
    exact ⟨_, _, cell, by omega, by omega⟩
  · rintro ⟨column, row, cell, across, down⟩
    obtain ⟨inside, hcolumn, hrow⟩ := (cell?_eq_some_iff accepted).mp cell
    exact ⟨inside, by omega, by omega⟩

theorem cell?_eq_none_iff {i : ℕ} : p.cell? i = .ok none ↔ p.points ≤ i := by
  rw [cell?_eq accepted]
  by_cases inside : i < p.points
  · simp [inside]
  · simp [inside, Nat.not_lt.mp inside]

theorem lt_iff_cell_lt {i j : ℕ} {column row column' row' : Int32}
    (hi : p.cell? i = .ok (some (column, row))) (hj : p.cell? j = .ok (some (column', row'))) :
    i < j ↔ toLex (row, column) < toLex (row', column') := by
  obtain ⟨-, across, down⟩ := (cell?_eq_some_iff accepted).mp hi
  obtain ⟨-, across', down'⟩ := (cell?_eq_some_iff accepted).mp hj
  rw [Prod.Lex.toLex_lt_toLex, lt_iff_row_lt_or p.columns]
  simp only [Int32.lt_iff_toInt_lt, ← Int32.toInt_inj, across, down, across', down',
    Nat.cast_lt, Nat.cast_inj]

end Accepted

/-- The cells of an accepted placement and the pixels of its rectangle are numbered alike, row by
row, wherever the rectangle lies in the plane of 32-bit pixels. -/
theorem cells_number_pixels {zoom west north width height : Int32} {p : Placement}
    (made : make zoom west north width height = .ok p) :
    ∃ count, p.pointCount = .ok count ∧ (count : ℤ) = width.toInt * height.toInt ∧
      (∃ numbering : Fin count ≃ p.Pixel, ∀ i,
        p.pointAt (numbering i).1.1 (numbering i).1.2 = .ok (some i)) ∧
      (∀ (i : ℕ) (x y : Int32), p.pointAt x y = .ok (some i) ↔
        ∃ column row, p.cell? i = .ok (some (column, row)) ∧
          column.toInt = x.toInt - west.toInt ∧ row.toInt = y.toInt - north.toInt) ∧
      (∀ i, p.cell? i = .ok none ↔ count ≤ i) ∧
      (∀ x y : Int32, p.pointAt x y = .ok none ↔ ¬ p.Covers x.toInt y.toInt) ∧
      (∀ (i j : ℕ) (column row column' row' : Int32), p.cell? i = .ok (some (column, row)) →
        p.cell? j = .ok (some (column', row')) →
        (i < j ↔ toLex (row, column) < toLex (row', column'))) := by
  obtain ⟨-, rfl, rfl, rfl, rfl, accepted⟩ := make_eq_ok_iff.mp made
  exact ⟨p.points, accepted.pointCount_eq, points_eq accepted.2.1 accepted.2.2.1,
    ⟨accepted.numbering, accepted.pointAt_numbering⟩,
    fun i x y => accepted.pointAt_eq_some_iff_cell, fun i => accepted.cell?_eq_none_iff,
    fun x y => accepted.pointAt_eq_none_iff, fun i j _ _ _ _ => accepted.lt_iff_cell_lt⟩

theorem cells_number_pixels_at_far_corner :
    make 0 (-2147483648) 2147483640 3 7 = .ok ⟨0, -2147483648, 2147483640, 3, 7⟩ ∧
      pointAt ⟨0, -2147483648, 2147483640, 3, 7⟩ (-2147483646) 2147483646 = .ok (some 20) ∧
      pointAt ⟨0, -2147483648, 2147483640, 3, 7⟩ 2147483647 2147483646 = .ok none ∧
      cell? ⟨0, -2147483648, 2147483640, 3, 7⟩ 21 = .ok none := by
  have made : make 0 (-2147483648) 2147483640 3 7 = .ok ⟨0, -2147483648, 2147483640, 3, 7⟩ := rfl
  obtain ⟨count, counted, -, -, number, beyond, outside, -⟩ := cells_number_pixels made
  obtain rfl : 21 = count := Except.ok.inj counted
  refine ⟨made, (number _ _ _).mpr ⟨2, 6, rfl, by decide, by decide⟩,
    (outside _ _).mpr (by decide), (beyond 21).mpr (le_refl 21)⟩

end MercatorGrid.Placement
