import MercatorGrid.Proofs.Binary64.Rounding
import Mathlib

namespace MercatorGrid.Binary64
open Float.Model Float.Model.UnpackedFloat

/-- Where doubles lie: the rationals between two infinities. -/
abbrev Line := WithBotTop ℚ

/-- The point of an unpacked number; what is not a number has none. -/
def pointOf : UnpackedFloat → Option Line
  | .notANumber => none
  | .infinity .negative => some ⊥
  | .infinity .positive => some ⊤
  | .zero _ => some ((0 : ℚ) : Line)
  | .finite s m e _ => some ((ofSign s (m * 2 ^ e) : ℚ) : Line)

def firstOverflow : ℚ := 2 ^ (1024 : ℤ)

def clip (q : ℚ) : Line :=
  if firstOverflow ≤ q then ⊤ else if q ≤ -firstOverflow then ⊥ else ((q : ℚ) : Line)

theorem firstOverflow_pos : 0 < firstOverflow := two_zpow_pos 1024

theorem clip_of_small {q : ℚ} (small : |q| < firstOverflow) : clip q = ((q : ℚ) : Line) := by
  have h := abs_lt.mp small
  rw [clip, if_neg (not_le.mpr h.2), if_neg (not_le.mpr h.1)]

theorem clip_of_large {q : ℚ} (large : firstOverflow ≤ q) : clip q = ⊤ := if_pos large

theorem clip_neg_of_large {q : ℚ} (large : firstOverflow ≤ q) : clip (-q) = ⊥ := by
  have positive := firstOverflow_pos
  rw [clip, if_neg (by linarith), if_pos (neg_le_neg large)]

theorem leading_one (m : BitVec 52) : (1#1 ++ m).toNat = 2 ^ 52 + m.toNat := by
  rw [BitVec.toNat_append, ← Nat.shiftLeft_add_eq_or_of_lt m.isLt]
  rfl

theorem unpack_packComponents (s : Sign) (e : BitVec 11) (m : BitVec 52) :
    UnpackedFloat.unpack Format.binary64 (packComponents Format.binary64 s e m) =
      if e = -1#11 then if m = 0#52 then .infinity s else .notANumber
      else if e = 0#11 then
        if h : m = 0#52 then .zero s
        else .finite s m.toNat (-1074) (by simpa [BitVec.toNat_pos, BitVec.pos_iff_ne_zero])
      else .finite s (2 ^ 52 + m.toNat) (e.toNat - 1075) (by omega) := by
  unfold UnpackedFloat.unpack
  simp only [unpackMantissa_packComponents, unpackExponent_packComponents,
    unpackSign_packComponents, Sign.ofBitVec_toBitVec, leading_one]
  split
  · rfl
  · split
    · rename_i zero
      subst zero
      rfl
    · rfl

theorem pack_finite (s : Sign) {m : ℕ} {e : ℤ} (positive : 0 < m) :
    UnpackedFloat.pack Format.binary64 (.finite s m e positive) =
      if 2048 ≤ (e + 1023 + 52).toNat + 1 then
        packComponents Format.binary64 s (-1#11) 0#52
      else if m.log2 + 1 = 53 then
        packComponents Format.binary64 s (BitVec.ofNat 11 (e + 1023 + 52).toNat) (BitVec.ofNat 52 m)
      else packComponents Format.binary64 s 0#11 (BitVec.ofNat 52 m) := rfl

theorem pack_infinite (s : Sign) {m : ℕ} {e : ℤ} (positive : 0 < m) (large : 972 ≤ e) :
    UnpackedFloat.pack Format.binary64 (.finite s m e positive) =
      packComponents Format.binary64 s (-1#11) 0#52 := by
  rw [pack_finite, if_pos (by omega)]

theorem pack_normal (s : Sign) {m : ℕ} {e : ℤ} (positive : 0 < m) (low : 2 ^ 52 ≤ m)
    (digits : m < 2 ^ 53) (small : e < 972) :
    UnpackedFloat.pack Format.binary64 (.finite s m e positive) =
      packComponents Format.binary64 s (BitVec.ofNat 11 (e + 1075).toNat) (BitVec.ofNat 52 m) := by
  have log : m.log2 = 52 := (Nat.log2_eq_iff (by omega)).mpr ⟨low, digits⟩
  rw [pack_finite, if_neg (by omega), if_pos (by omega), show e + 1075 = e + 1023 + 52 by ring]

theorem pack_subnormal (s : Sign) {m : ℕ} (positive : 0 < m) (digits : m < 2 ^ 52) :
    UnpackedFloat.pack Format.binary64 (.finite s m (-1074) positive) =
      packComponents Format.binary64 s 0#11 (BitVec.ofNat 52 m) := by
  have log : m.log2 < 52 := (Nat.log2_lt (by omega)).mpr digits
  rw [pack_finite, if_neg (by omega), if_neg (by omega)]

theorem unpack_pack_finite (s : Sign) {m : ℕ} {e : ℤ} (positive : 0 < m) (digits : m < 2 ^ 53)
    (low : -1074 ≤ e) (form : 2 ^ 52 ≤ m ∨ e = -1074) :
    UnpackedFloat.unpack Format.binary64
      (UnpackedFloat.pack Format.binary64 (.finite s m e positive)) =
      if 972 ≤ e then .infinity s else .finite s m e positive := by
  by_cases large : 972 ≤ e
  · rw [pack_infinite s positive large, unpack_packComponents, if_pos large]
    rfl
  rw [if_neg large]
  by_cases normal : 2 ^ 52 ≤ m
  · rw [pack_normal s positive normal digits (by omega), unpack_packComponents]
    have field : (BitVec.ofNat 11 (e + 1075).toNat).toNat = (e + 1075).toNat := by
      rw [BitVec.toNat_ofNat, Nat.mod_eq_of_lt (by omega)]
    have notLast : BitVec.ofNat 11 (e + 1075).toNat ≠ -1#11 := by
      intro h
      have := congrArg BitVec.toNat h
      simp only [field] at this
      change (e + 1075).toNat = 2047 at this
      omega
    have notFirst : BitVec.ofNat 11 (e + 1075).toNat ≠ 0#11 := by
      intro h
      have := congrArg BitVec.toNat h
      simp only [field] at this
      change (e + 1075).toNat = 0 at this
      omega
    have mantissa : 2 ^ 52 + (BitVec.ofNat 52 m).toNat = m := by
      simp only [BitVec.toNat_ofNat]
      omega
    simp only [if_neg notLast, if_neg notFirst, field, mantissa]
    congr 1
    omega
  · obtain rfl : e = -1074 := form.resolve_left normal
    rw [pack_subnormal s positive (by omega), unpack_packComponents]
    have mantissa : (BitVec.ofNat 52 m).toNat = m := by
      rw [BitVec.toNat_ofNat, Nat.mod_eq_of_lt (by omega)]
    have nonzero : BitVec.ofNat 52 m ≠ 0#52 := by
      intro h
      have := congrArg BitVec.toNat h
      simp only [mantissa] at this
      change m = 0 at this
      omega
    rw [if_neg (by decide), if_pos rfl, dif_neg nonzero]
    simp only [mantissa]

theorem abs_ofSign (s : Sign) {q : ℚ} (nonneg : 0 ≤ q) : |ofSign s q| = q := by
  cases s with
  | negative => rw [ofSign, abs_neg, abs_of_nonneg nonneg]
  | positive => rw [ofSign, abs_of_nonneg nonneg]

theorem finite_lt {m : ℕ} {e : ℤ} (digits : m < 2 ^ 53) (small : e < 972) :
    (m : ℚ) * 2 ^ e < firstOverflow := by
  have unit := two_zpow_pos e
  have few : (m : ℚ) < 2 ^ 53 := by exact_mod_cast digits
  calc (m : ℚ) * 2 ^ e < 2 ^ 53 * 2 ^ e := mul_lt_mul_of_pos_right few unit
    _ = 2 ^ (53 + e) := by
        rw [zpow_add₀ (by norm_num)]
        norm_num
    _ ≤ firstOverflow := zpow_le_zpow_right₀ (by norm_num) (by omega)

theorem le_infinite {m : ℕ} {e : ℤ} (low : 2 ^ 52 ≤ m) (large : 972 ≤ e) :
    firstOverflow ≤ m * 2 ^ e := by
  have unit := two_zpow_pos e
  have many : (2 : ℚ) ^ 52 ≤ m := by exact_mod_cast low
  calc firstOverflow ≤ 2 ^ (52 + e) := zpow_le_zpow_right₀ (by norm_num) (by omega)
    _ = 2 ^ 52 * 2 ^ e := by
        rw [zpow_add₀ (by norm_num)]
        norm_num
    _ ≤ m * 2 ^ e := mul_le_mul_of_nonneg_right many unit.le

theorem pointOf_unpack_pack {u : UnpackedFloat} {q : ℚ} (h : Holds u q) :
    pointOf (Float.Model.pack u).unpack = some (clip q) := by
  cases h with
  | zero s =>
    have back : (Float.Model.pack (.zero s)).unpack = .zero s := by cases s <;> rfl
    rw [back, clip_of_small (by rw [abs_zero]; exact firstOverflow_pos)]
    rfl
  | finite s positive digits low form =>
    rename_i m e
    change pointOf (UnpackedFloat.unpack _ (UnpackedFloat.pack _ _)) = _
    simp only [unpack_pack_finite s positive digits low form]
    have nonneg : (0 : ℚ) ≤ m * 2 ^ e := mul_nonneg (Nat.cast_nonneg m) (two_zpow_pos e).le
    by_cases large : 972 ≤ e
    · have beyond := le_infinite (form.resolve_right (by omega)) large
      rw [if_pos large]
      cases s with
      | negative => rw [ofSign, clip_neg_of_large beyond, pointOf]
      | positive => rw [ofSign, clip_of_large beyond, pointOf]
    · have small : |ofSign s (m * 2 ^ e)| < firstOverflow := by
        simp only [abs_ofSign s nonneg]
        exact finite_lt digits (by omega)
      rw [if_neg large, clip_of_small small]
      rfl

theorem unpack_form {f : Float.Model} {s : Sign} {m : ℕ} {e : ℤ} {positive : 0 < m}
    (h : f.unpack = .finite s m e positive) :
    m < 2 ^ 53 ∧ -1074 ≤ e ∧ e < 972 ∧ (2 ^ 52 ≤ m ∨ e = -1074) := by
  unfold Float.Model.unpack UnpackedFloat.unpack at h
  have field := (@unpackExponent Format.binary64 f.toBits.toBitVec).isLt
  have fraction := (@unpackMantissa Format.binary64 f.toBits.toBitVec).isLt
  change (@unpackExponent Format.binary64 f.toBits.toBitVec).toNat < 2 ^ 11 at field
  change (@unpackMantissa Format.binary64 f.toBits.toBitVec).toNat < 2 ^ 52 at fraction
  dsimp only at h
  split at h
  · split at h <;> cases h
  · rename_i notLast
    have high : (@unpackExponent Format.binary64 f.toBits.toBitVec).toNat ≠ 2047 :=
      fun same => notLast (BitVec.eq_of_toNat_eq same)
    split at h
    · rename_i first
      simp only [first] at h
      split at h
      · cases h
      · cases h
        exact ⟨by omega, by decide, by decide, .inr (by decide)⟩
    · rename_i notFirst
      have low : (@unpackExponent Format.binary64 f.toBits.toBitVec).toNat ≠ 0 :=
        fun same => notFirst (BitVec.eq_of_toNat_eq same)
      cases h
      simp only [leading_one]
      change _ ∧ -1074 ≤ (_ : ℤ) - (1023 + 52) ∧ (_ : ℤ) - (1023 + 52) < 972 ∧
        (_ ∨ (_ : ℤ) - (1023 + 52) = -1074)
      omega

theorem holds_unpack {f : Float.Model} {q : ℚ} (h : pointOf f.unpack = some ((q : ℚ) : Line)) :
    Holds f.unpack q ∧ |q| < firstOverflow := by
  cases shape : f.unpack with
  | notANumber =>
    simp only [shape] at h
    cases h
  | infinity s =>
    simp only [shape] at h
    cases s <;> cases h
  | zero s =>
    simp only [shape] at h
    obtain rfl := WithBotTop.coe_injective (Option.some.inj h)
    exact ⟨.zero s, by rw [abs_zero]; exact firstOverflow_pos⟩
  | finite s m e positive =>
    simp only [shape] at h
    obtain rfl := WithBotTop.coe_injective (Option.some.inj h)
    obtain ⟨digits, low, small, form⟩ := unpack_form shape
    refine ⟨.finite s positive digits low form, ?_⟩
    rw [abs_ofSign s (mul_nonneg (Nat.cast_nonneg m) (two_zpow_pos e).le)]
    exact finite_lt digits small

end MercatorGrid.Binary64
