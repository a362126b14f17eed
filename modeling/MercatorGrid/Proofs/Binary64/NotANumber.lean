import MercatorGrid.Proofs.Binary64.Line
import MercatorGrid.Mercator

namespace MercatorGrid.Binary64
open Float.Model Float.Model.UnpackedFloat

theorem unpack_of_isNaN {x : Float} (nan : x.isNaN = true) : x.toModel.unpack = .notANumber := by
  change x.toModel.unpack.isNaN = true at nan
  cases shape : x.toModel.unpack with
  | notANumber => rfl
  | infinity s => rw [shape] at nan; cases nan
  | zero s => rw [shape] at nan; cases nan
  | finite s m e positive => rw [shape] at nan; cases nan

theorem isNaN_pack {u : UnpackedFloat} (nan : u = .notANumber) :
    (Float.Model.pack u).isNaN = true := by
  subst nan
  rfl

section Operations
variable {x : Float} (nan : x.isNaN = true) (y : Float)
include nan

theorem isNaN_add : (x + y).isNaN = true := by
  apply isNaN_pack (u := UnpackedFloat.add Format.binary64 x.toModel.unpack y.toModel.unpack)
  rw [unpack_of_isNaN nan]
  rfl

theorem isNaN_mul : (x * y).isNaN = true := by
  apply isNaN_pack (u := UnpackedFloat.mul Format.binary64 x.toModel.unpack y.toModel.unpack)
  rw [unpack_of_isNaN nan]
  rfl

theorem isNaN_div : (x / y).isNaN = true := by
  apply isNaN_pack (u := UnpackedFloat.div Format.binary64 x.toModel.unpack y.toModel.unpack)
  rw [unpack_of_isNaN nan]
  rfl

theorem isNaN_sub : (y - x).isNaN = true := by
  apply isNaN_pack (u := UnpackedFloat.sub Format.binary64 y.toModel.unpack x.toModel.unpack)
  rw [unpack_of_isNaN nan]
  cases y.toModel.unpack <;> rfl

theorem not_lt_of_isNaN : ¬ x < y ∧ ¬ y < x := by
  simp only [lt_iff_compare, unpack_of_isNaN nan, compare_nan, reduceCtorEq, not_false_eq_true,
    and_true]
  exact nofun

theorem clamp_of_isNaN (z : Float) : Mercator.clamp y z x = x := by
  rw [Mercator.clamp, if_neg (not_lt_of_isNaN nan y).1, if_neg (not_lt_of_isNaN nan z).2]

omit y in
theorem floor32_of_isNaN : floor32 x = 0 := floor32_nan (unpack_of_isNaN nan)

end Operations
end MercatorGrid.Binary64
