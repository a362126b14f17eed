namespace MercatorGrid

inductive Fault where
  | overflow
  | shift
  | divisionByZero
  | outOfRange
  | capacity
deriving DecidableEq

abbrev Checked := Except Fault

namespace Checked

def int32 (n : Int) : Checked Int32 :=
  if -2147483648 ≤ n ∧ n ≤ 2147483647 then .ok (Int32.ofInt n) else .error .overflow

def int64 (n : Int) : Checked Int :=
  if -9223372036854775808 ≤ n ∧ n ≤ 9223372036854775807 then .ok n else .error .overflow

def word (n : Nat) : Checked Nat :=
  if n < 18446744073709551616 then .ok n else .error .overflow

def remainder (a b : Nat) : Checked Nat :=
  if b = 0 then .error .divisionByZero else .ok (a % b)

def quotient (a b : Nat) : Checked Nat :=
  if b = 0 then .error .divisionByZero else .ok (a / b)

def shiftAmount (n : Nat) : Checked Nat :=
  if n < 64 then .ok n else .error .shift

def item {α : Type} (xs : List α) (i : Nat) : Checked α :=
  match xs[i]? with
  | some x => .ok x
  | none => .error .outOfRange

/-- Room for this many words; their bytes must fit the signed address range. -/
def reserve (count : Nat) : Checked Nat :=
  if 8 * count ≤ 9223372036854775807 then .ok count else .error .capacity

theorem toInt_range (x : Int32) : -2147483648 ≤ x.toInt ∧ x.toInt ≤ 2147483647 := by
  have low := Int32.minValue_le_toInt x
  have high := Int32.toInt_le x
  have least : Int32.minValue.toInt = -2147483648 := by decide
  have greatest : Int32.maxValue.toInt = 2147483647 := by decide
  omega

theorem toInt_ofInt_of_range {n : Int} (low : -2147483648 ≤ n) (high : n ≤ 2147483647) :
    (Int32.ofInt n).toInt = n := by
  rw [Int32.toInt_ofInt, Int.bmod_eq_of_le_mul_two] <;> simp only [Int32.size] <;> omega

theorem int32_eq_ok_iff {n : Int} {x : Int32} : int32 n = .ok x ↔ x.toInt = n := by
  unfold int32
  have range := toInt_range x
  constructor
  · intro h
    split at h
    · rename_i fits
      cases h
      exact toInt_ofInt_of_range fits.1 fits.2
    · cases h
  · rintro rfl
    rw [if_pos range, Int32.ofInt_toInt]

theorem int64_eq_ok_iff {n m : Int} :
    int64 n = .ok m ↔ m = n ∧ -9223372036854775808 ≤ n ∧ n ≤ 9223372036854775807 := by
  unfold int64
  constructor
  · intro h
    split at h
    · rename_i fits
      cases h
      exact ⟨rfl, fits⟩
    · cases h
  · rintro ⟨rfl, fits⟩
    rw [if_pos fits]

theorem word_eq_ok_iff {n m : Nat} : word n = .ok m ↔ m = n ∧ n < 18446744073709551616 := by
  unfold word
  constructor
  · intro h
    split at h
    · rename_i fits
      cases h
      exact ⟨rfl, fits⟩
    · cases h
  · rintro ⟨rfl, fits⟩
    rw [if_pos fits]

end Checked

/-- A signed integer reinterpreted as an unsigned 64-bit word; negatives wrap. -/
def wrap64 (n : Int) : Nat := (n % 18446744073709551616).toNat

theorem wrap64_of_nonneg {n : Int} (low : 0 ≤ n) (high : n < 18446744073709551616) :
    wrap64 n = n.toNat := by
  rw [wrap64, Int.emod_eq_of_lt low high]

def wrap32 (n : Nat) : Int32 := Int32.ofNat n

end MercatorGrid
