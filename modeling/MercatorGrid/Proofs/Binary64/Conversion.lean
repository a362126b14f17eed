import MercatorGrid.Proofs.Binary64.Arithmetic
import Mathlib.Data.Rat.Floor

namespace MercatorGrid.Binary64
open Float.Model Float.Model.UnpackedFloat

theorem abs_nearest_le {q : ℚ} {k : ℤ} (low : -1074 ≤ k) (small : |q| ≤ 2 ^ k) :
    |nearest q| ≤ 2 ^ k := by
  simp only [abs_le'] at small ⊢
  rw [← nearest_neg]
  exact ⟨nearest_le low small.1, nearest_le low small.2⟩

theorem clip_nearest {q : ℚ} (small : |q| ≤ 2 ^ (64 : ℤ)) :
    clip (nearest q) = ((nearest q : ℚ) : Line) := by
  apply clip_of_small
  calc |nearest q| ≤ 2 ^ (64 : ℤ) := abs_nearest_le (by norm_num) small
    _ < firstOverflow := zpow_lt_zpow_right₀ (by norm_num) (by norm_num)

theorem denotes_of_unpack {x : Float} {s : Sign} {m : ℕ} {e : ℤ} {positive : 0 < m}
    (shape : x.toModel.unpack = .finite s m e positive) :
    Denotes x ((ofSign s (m * 2 ^ e) : ℚ) : Line) := by
  simp only [Denotes, shape, pointOf]

theorem denotes_constant {x : Float} {m : ℕ} {e : ℤ} {q : ℚ} (positive : 0 < m)
    (shape : x.toModel.unpack = .finite .positive m e positive) (value : (m : ℚ) * 2 ^ e = q) :
    Denotes x (q : Line) := by
  rw [← value]
  exact denotes_of_unpack shape

theorem denotes_zero : Denotes 0.0 ((0 : ℚ) : Line) := rfl

theorem representable_natCast {n : ℕ} (digits : n < 2 ^ 53) : Representable n := by
  have h := representable_intCast (k := n) (by rw [abs_of_nonneg (by omega)]; omega)
  exact_mod_cast h

theorem natCast_small {n : ℕ} (digits : n < 2 ^ 53) : |(n : ℚ)| ≤ 2 ^ (64 : ℤ) := by
  rw [abs_of_nonneg (Nat.cast_nonneg n)]
  exact_mod_cast (by omega : n ≤ 2 ^ 64)

theorem denotes_toUInt64 {n : ℕ} (digits : n < 2 ^ 53) :
    Denotes n.toUInt64.toFloat ((n : ℚ) : Line) := by
  have word : n.toUInt64.toNat = n := by
    change n % 2 ^ 64 = n
    omega
  have h := pointOf_unpack_pack (holds_normalize n 0 .positive)
  rw [zpow_zero, mul_one, Int.cast_natCast, clip_nearest (natCast_small digits),
    nearest_of_representable (representable_natCast digits)] at h
  change pointOf (Float.Model.pack (UnpackedFloat.ofNat _ n.toUInt64.toNat)).unpack = _
  simp only [word]
  exact h

theorem denotes_ofScientific {n : ℕ} (digits : n < 2 ^ 53) :
    Denotes (OfScientific.ofScientific n false 0) ((n : ℚ) : Line) := by
  have one : Denotes (Float.ofBits 0x3FF0000000000000) ((1 : ℚ) : Line) :=
    denotes_constant (m := 2 ^ 52) (e := -52) (by norm_num) rfl (by norm_num)
  have product := denotes_mul (denotes_toUInt64 digits) one
  rw [mul_one, clip_nearest (natCast_small digits),
    nearest_of_representable (representable_natCast digits)] at product
  have fast : n < 2 ^ 53 ∧ 0 ≤ 22 := ⟨digits, by norm_num⟩
  change Denotes (Float.ofScientific n false 0) _
  rw [Float.ofScientific, dif_pos fast]
  exact product

theorem denotes_ofInt32 (n : Int32) : Denotes (ofInt32 n) ((n.toInt : ℚ) : Line) := by
  have range := Checked.toInt_range n
  unfold ofInt32
  generalize n.toInt = k at range
  cases k with
  | ofNat m =>
    have word : (Int.ofNat m : ℤ) = m := rfl
    exact denotes_ofScientific (n := m) (by omega)
  | negSucc m =>
    have h := denotes_neg (denotes_ofScientific (n := m + 1) (by omega))
    simp only [Int.cast_negSucc]
    exact h

theorem finite_lt_of_exponent {m₁ m₂ : ℕ} {e₁ e₂ : ℤ} (digits : m₁ < 2 ^ 53)
    (form : 2 ^ 52 ≤ m₂ ∨ e₂ = -1074) (low : -1074 ≤ e₁) (less : e₁ < e₂) :
    (m₁ : ℚ) * 2 ^ e₁ < m₂ * 2 ^ e₂ := by
  have few : (m₁ : ℚ) < 2 ^ 53 := by exact_mod_cast digits
  have many : (2 : ℚ) ^ 52 ≤ m₂ := by exact_mod_cast form.resolve_right (by omega)
  calc (m₁ : ℚ) * 2 ^ e₁ < 2 ^ 53 * 2 ^ e₁ := mul_lt_mul_of_pos_right few (two_zpow_pos e₁)
    _ = 2 ^ 52 * 2 ^ (e₁ + 1) := by
        rw [zpow_add_one₀ (by norm_num)]
        ring
    _ ≤ 2 ^ 52 * 2 ^ e₂ :=
        mul_le_mul_of_nonneg_left (zpow_le_zpow_right₀ (by norm_num) (by omega)) (by norm_num)
    _ ≤ m₂ * 2 ^ e₂ := mul_le_mul_of_nonneg_right many (two_zpow_pos e₂).le

theorem compare_finite {m₁ m₂ : ℕ} {e₁ e₂ : ℤ} (digits₁ : m₁ < 2 ^ 53) (low₁ : -1074 ≤ e₁)
    (form₁ : 2 ^ 52 ≤ m₁ ∨ e₁ = -1074) (digits₂ : m₂ < 2 ^ 53) (low₂ : -1074 ≤ e₂)
    (form₂ : 2 ^ 52 ≤ m₂ ∨ e₂ = -1074) :
    (compare e₁ e₂).then (compare m₁ m₂) = compare ((m₁ : ℚ) * 2 ^ e₁) (m₂ * 2 ^ e₂) := by
  rcases lt_trichotomy e₁ e₂ with less | rfl | more
  · rw [Int.compare_eq_lt.mpr less,
      compare_lt_iff_lt.mpr (finite_lt_of_exponent digits₁ form₂ low₁ less)]
    rfl
  · simp only [compare_eq_iff_eq.mpr rfl]
    have unit := two_zpow_pos e₁
    rcases lt_trichotomy m₁ m₂ with less | rfl | more
    · have cast : (m₁ : ℚ) < m₂ := by exact_mod_cast less
      rw [compare_lt_iff_lt.mpr less, compare_lt_iff_lt.mpr (mul_lt_mul_of_pos_right cast unit)]
      rfl
    · simp only [compare_eq_iff_eq.mpr rfl]
      rfl
    · have cast : (m₂ : ℚ) < m₁ := by exact_mod_cast more
      rw [compare_gt_iff_gt.mpr more, compare_gt_iff_gt.mpr (mul_lt_mul_of_pos_right cast unit)]
      rfl
  · rw [Int.compare_eq_gt.mpr more,
      compare_gt_iff_gt.mpr (finite_lt_of_exponent digits₂ form₁ low₂ more)]
    rfl

theorem compare_neg (p q : ℚ) : compare (-p) (-q) = (compare p q).swap := by
  rcases lt_trichotomy p q with less | rfl | more
  · simp only [compare_lt_iff_lt.mpr less, compare_gt_iff_gt.mpr (neg_lt_neg less)]
    rfl
  · simp only [compare_eq_iff_eq.mpr rfl]
    rfl
  · simp only [compare_gt_iff_gt.mpr more, compare_lt_iff_lt.mpr (neg_lt_neg more)]
    rfl

theorem compare_holds {a b : UnpackedFloat} {p q : ℚ} (ha : Holds a p) (hb : Holds b q) :
    a.compare b = some (compare p q) := by
  cases ha with
  | zero s =>
    cases hb with
    | zero t => rw [compare_eq_iff_eq.mpr rfl]; rfl
    | finite t positive digits low form =>
      rename_i m e
      have value : (0 : ℚ) < m * 2 ^ e := mul_pos (by exact_mod_cast positive) (two_zpow_pos e)
      cases t with
      | negative => rw [ofSign, compare_gt_iff_gt.mpr (neg_neg_of_pos value)]; rfl
      | positive => rw [ofSign, compare_lt_iff_lt.mpr value]; rfl
  | finite s positive₁ digits₁ low₁ form₁ =>
    rename_i m₁ e₁
    have value₁ : (0 : ℚ) < m₁ * 2 ^ e₁ := mul_pos (by exact_mod_cast positive₁) (two_zpow_pos e₁)
    cases hb with
    | zero t =>
      cases s with
      | negative => rw [ofSign, compare_lt_iff_lt.mpr (neg_neg_of_pos value₁)]; rfl
      | positive => rw [ofSign, compare_gt_iff_gt.mpr value₁]; rfl
    | finite t positive₂ digits₂ low₂ form₂ =>
      rename_i m₂ e₂
      have value₂ : (0 : ℚ) < m₂ * 2 ^ e₂ :=
        mul_pos (by exact_mod_cast positive₂) (two_zpow_pos e₂)
      have order := compare_finite digits₁ low₁ form₁ digits₂ low₂ form₂
      cases s with
      | negative =>
        cases t with
        | negative =>
          simp only [UnpackedFloat.compare, ofSign, order, compare_neg]
        | positive =>
          rw [ofSign, ofSign, compare_lt_iff_lt.mpr (by linarith)]
          rfl
      | positive =>
        cases t with
        | negative =>
          rw [ofSign, ofSign, compare_gt_iff_gt.mpr (by linarith)]
          rfl
        | positive =>
          simp only [UnpackedFloat.compare, ofSign, order]

theorem compare_infinite {u : UnpackedFloat} {q : ℚ} (h : Holds u q) :
    (UnpackedFloat.infinity .negative).compare u = some .lt ∧
      u.compare (.infinity .positive) = some .lt := by
  cases h <;> exact ⟨rfl, rfl⟩

theorem lt_iff_compare {x y : Float} :
    x < y ↔ x.toModel.unpack.compare y.toModel.unpack = some .lt := by
  change (decide (x.toModel < y.toModel)) = true ↔ _
  simp only [decide_eq_true_iff]
  change (x.toModel.unpack.compare y.toModel.unpack == some .lt) = true ↔ _
  simp only [beq_iff_eq]

theorem denotes_lt {x y : Float} {p q : ℚ} (hx : Denotes x p) (hy : Denotes y q) :
    x < y ↔ p < q := by
  rw [lt_iff_compare, compare_holds (holds_unpack hx).1 (holds_unpack hy).1, Option.some.injEq,
    compare_lt_iff_lt]

theorem nan_or_between {low high x : Float} {p q : ℚ} (hl : Denotes low p) (hh : Denotes high q)
    (above : ¬ x < low) (below : ¬ high < x) :
    x.toModel.unpack = .notANumber ∨ ∃ r : ℚ, Denotes x r ∧ p ≤ r ∧ r ≤ q := by
  have number : ∀ r : ℚ, Denotes x r → p ≤ r ∧ r ≤ q := by
    intro r hr
    simp only [denotes_lt hr hl, not_lt] at above
    simp only [denotes_lt hh hr, not_lt] at below
    exact ⟨above, below⟩
  simp only [lt_iff_compare] at above below
  cases shape : x.toModel.unpack with
  | notANumber => exact Or.inl rfl
  | infinity s =>
    simp only [shape] at above below
    cases s with
    | negative => exact absurd (compare_infinite (holds_unpack hl).1).1 above
    | positive => exact absurd (compare_infinite (holds_unpack hh).1).2 below
  | zero s =>
    have zero : Denotes x ((0 : ℚ) : Line) := by rw [Denotes, shape, pointOf]
    exact Or.inr ⟨0, zero, number 0 zero⟩
  | finite s m e positive =>
    have value := denotes_of_unpack shape
    exact Or.inr ⟨_, value, number _ value⟩

theorem signed_eq (s : Sign) (m : ℕ) : (signed (s == .negative) m : ℚ) = ofSign s m := by
  cases s with
  | negative => simp only [signed, ofSign]; norm_cast
  | positive => rfl

theorem denotes_of_read {x : Float} {negative : Bool} {m : ℕ} {e : ℤ}
    (h : read x = .finite negative m e) :
    Denotes x ((signed negative m * 2 ^ e : ℚ) : Line) := by
  unfold read at h
  unfold Denotes
  cases shape : x.toModel.unpack with
  | notANumber => rw [shape] at h; cases h
  | infinity s => rw [shape] at h; cases h
  | zero s =>
    rw [shape] at h
    cases h
    cases s <;> simp [pointOf, signed]
  | finite s m e positive =>
    rw [shape] at h
    cases h
    cases s <;> simp [pointOf, signed, ofSign]

theorem floorOf_eq (s : Sign) (m : ℕ) (e : ℤ) :
    floorOf (s == .negative) m e = ⌊ofSign s (m * 2 ^ e)⌋ := by
  unfold floorOf
  split
  · rename_i whole
    obtain ⟨n, rfl⟩ := Int.eq_ofNat_of_zero_le whole
    have value : ofSign s ((m : ℚ) * 2 ^ (n : ℤ)) = (signed (s == .negative) (m <<< n) : ℤ) := by
      rw [signed_eq, Nat.shiftLeft_eq, zpow_natCast]
      push_cast
      rfl
    simp only [value, Int.floor_intCast]
    rfl
  · rename_i part
    obtain ⟨n, rfl⟩ : ∃ n : ℕ, e = -n := ⟨(-e).toNat, by omega⟩
    have value : ofSign s ((m : ℚ) * 2 ^ (-n : ℤ)) =
        (signed (s == .negative) m : ℤ) / ((1 <<< n : ℕ) : ℚ) := by
      rw [signed_eq, Nat.shiftLeft_eq, one_mul, zpow_neg, zpow_natCast]
      push_cast
      cases s with
      | negative => simp only [ofSign, neg_mul, div_eq_mul_inv]
      | positive => simp only [ofSign, div_eq_mul_inv]
    rw [value, Rat.floor_intCast_div_natCast, Int.neg_neg, Int.toNat_natCast,
      Int.fdiv_eq_ediv_of_nonneg _ (Int.natCast_nonneg _)]

theorem saturate32_toInt (n : ℤ) :
    (saturate32 n).toInt = max (-2147483648) (min 2147483647 n) := by
  have least : Int32.minValue.toInt = -2147483648 := by decide
  have greatest : Int32.maxValue.toInt = 2147483647 := by decide
  simp only [saturate32, least, greatest]
  exact Checked.toInt_ofInt_of_range (by omega) (by omega)

/-- The floor is exact, and it saturates at the ends of 32 bits. -/
theorem floor32_toInt {x : Float} {q : ℚ} (h : Denotes x q) :
    (floor32 x).toInt = max (-2147483648) (min 2147483647 ⌊q⌋) := by
  obtain ⟨holds, -⟩ := holds_unpack h
  unfold floor32 read
  generalize x.toModel.unpack = u at holds
  cases holds with
  | zero s =>
    simp only [Int.floor_zero]
    cases s <;> rfl
  | finite s positive _ _ _ => simp only [saturate32_toInt, floorOf_eq]

theorem floor32_nan {x : Float} (nan : x.toModel.unpack = .notANumber) : floor32 x = 0 := by
  simp only [floor32, read, nan]

end MercatorGrid.Binary64
