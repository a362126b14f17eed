import MercatorGrid.Proofs.FixedPoint
import MercatorGrid.Proofs.DegreeBox

/-! Boxes of degrees as envelopes.
Degrees are multiplied as doubles and the product goes to its nearest integer. Both steps keep the
order, so a box whose coordinates convert has its bounds in order afterwards, and what is refused
is a coordinate and never the order of two. -/
namespace MercatorGrid
open Binary64

def DegreeBox.coordinates (b : DegreeBox) : List Float := [b.minLon, b.maxLon, b.minLat, b.maxLat]

namespace Envelope
open FixedPoint

def unfit (degrees : Float) : Bool := (ofDegrees? degrees).isNone

theorem coordinate_eq_ok_iff {degrees : Float} {n : Int32} :
    coordinate degrees = .ok n ↔ ofDegrees? degrees = some n := by
  unfold coordinate
  cases ofDegrees? degrees <;> simp

theorem unfit_eq_false_iff {degrees : Float} :
    unfit degrees = false ↔ ∃ n, coordinate degrees = .ok n := by
  simp only [coordinate_eq_ok_iff, unfit, Option.isNone_eq_false_iff, Option.isSome_iff_exists]

theorem coordinate_of_unfit {degrees : Float} (bad : unfit degrees = true) :
    coordinate degrees = .error (.envelopeInvalid (.unrepresentable degrees)) := by
  rw [coordinate, Option.isNone_iff_eq_none.mp bad]

/-- A step of the conversion reports its own coordinate or leaves the report to the later ones. -/
theorem error_of_first {α : Type} {d first : Float} {rest : List Float}
    {next : Int32 → Except Refusal α} (found : (d :: rest).find? unfit = some first)
    (later : rest.find? unfit = some first → ∀ n,
      next n = .error (.envelopeInvalid (.unrepresentable first))) :
    (coordinate d >>= next) = .error (.envelopeInvalid (.unrepresentable first)) := by
  cases bad : unfit d with
  | true =>
    rw [List.find?_cons_of_pos bad] at found
    cases found
    rw [coordinate_of_unfit bad, error_bind]
  | false =>
    obtain ⟨n, converted⟩ := unfit_eq_false_iff.mp bad
    rw [List.find?_cons_of_neg (by simp [bad])] at found
    rw [converted, ok_bind]
    exact later found n

theorem ofBox_of_first {b : DegreeBox} {d : Float} (found : b.coordinates.find? unfit = some d) :
    ofBox b = .error (.envelopeInvalid (.unrepresentable d)) :=
  error_of_first found fun found _ => error_of_first found fun found _ =>
    error_of_first found fun found _ => error_of_first found fun found _ => by cases found

theorem ofBox_eq_ok_iff {b : DegreeBox} {e : Envelope} : ofBox b = .ok e ↔
    coordinate b.minLon = .ok e.minLon ∧ coordinate b.maxLon = .ok e.maxLon ∧
      coordinate b.minLat = .ok e.minLat ∧ coordinate b.maxLat = .ok e.maxLat ∧ e.Valid := by
  simp only [ofBox, ofDegrees, bind_eq_ok_iff, make_eq_ok_iff]
  constructor
  · rintro ⟨west, hwest, east, heast, south, hsouth, north, hnorth, rfl, valid⟩
    exact ⟨hwest, heast, hsouth, hnorth, valid⟩
  · rintro ⟨hwest, heast, hsouth, hnorth, valid⟩
    exact ⟨_, hwest, _, heast, _, hsouth, _, hnorth, rfl, valid⟩

theorem coordinate_mono {a b : Float} {m n : Int32} (order : a ≤ b)
    (ha : coordinate a = .ok m) (hb : coordinate b = .ok n) : m ≤ n := by
  rw [coordinate_eq_ok_iff, ofDegrees?_eq_some_iff] at ha hb
  exact Int32.le_iff_toInt_le.mpr (ha.mono hb order)

section Corners
variable {lon₁ lat₁ lon₂ lat₂ : Float} {b : DegreeBox}
  (corners : DegreeBox.ofCorners lon₁ lat₁ lon₂ lat₂ = b)
include corners

theorem valid_of_coordinates {e : Envelope}
    (west : coordinate b.minLon = .ok e.minLon) (east : coordinate b.maxLon = .ok e.maxLon)
    (south : coordinate b.minLat = .ok e.minLat) (north : coordinate b.maxLat = .ok e.maxLat) :
    e.Valid := by
  have finite : ∀ {d n}, coordinate d = .ok n → d.isFinite = true := fun converted =>
    isFinite_of_ofDegrees? (coordinate_eq_ok_iff.mp converted)
  have numbers : b.isFinite = true := by
    simp only [DegreeBox.isFinite, finite west, finite east, finite south, finite north,
      Bool.and_self]
  subst corners
  obtain ⟨lons, lats⟩ := DegreeBox.ofCorners_le numbers
  exact ⟨coordinate_mono lons west east, coordinate_mono lats south north⟩

theorem exists_ofBox_iff :
    (∃ e, ofBox b = .ok e) ↔ ∀ d ∈ b.coordinates, ∃ n, coordinate d = .ok n := by
  simp only [DegreeBox.coordinates, List.forall_mem_cons, List.not_mem_nil, IsEmpty.forall_iff,
    implies_true, and_true]
  constructor
  · rintro ⟨e, converted⟩
    obtain ⟨west, east, south, north, -⟩ := ofBox_eq_ok_iff.mp converted
    exact ⟨⟨_, west⟩, ⟨_, east⟩, ⟨_, south⟩, ⟨_, north⟩⟩
  · rintro ⟨⟨m, west⟩, ⟨n, east⟩, ⟨k, south⟩, ⟨l, north⟩⟩
    refine ⟨⟨m, n, k, l⟩, ofBox_eq_ok_iff.mpr ⟨west, east, south, north, ?_⟩⟩
    exact valid_of_coordinates corners west east south north

theorem first_of_error {r : Refusal} (failed : ofBox b = .error r) :
    ∃ d, b.coordinates.find? unfit = some d ∧ r = .envelopeInvalid (.unrepresentable d) := by
  cases found : b.coordinates.find? unfit with
  | some d =>
    rw [ofBox_of_first found] at failed
    exact ⟨d, rfl, (Except.error.inj failed).symm⟩
  | none =>
    have fit : ∀ d ∈ b.coordinates, ∃ n, coordinate d = .ok n := fun d member =>
      unfit_eq_false_iff.mp (Bool.eq_false_iff.mpr (List.find?_eq_none.mp found d member))
    obtain ⟨e, converted⟩ := (exists_ofBox_iff corners).mpr fit
    rw [converted] at failed
    cases failed

end Corners

/-- A coordinate converts exactly when its product has a nearest integer of 32 bits, which is close
to the exact multiple and rises with the coordinate. So the box of any two corners converts exactly
when its coordinates do and is valid then. Otherwise the first that does not convert is named;
that a minimum exceeds a maximum is not reported of a box. -/
theorem ofBox_ofCorners :
    (∀ d, (∃ n, coordinate d = .ok n) ↔
      ∃ k, Scaled d k ∧ -2147483648 ≤ k ∧ k ≤ 2147483647) ∧
    (∀ d n, coordinate d = .ok n ↔ Scaled d n.toInt) ∧
    (∀ d n, coordinate d = .ok n →
      ∃ q : ℚ, Denotes d q ∧ |(n.toInt : ℚ) - 10 ^ 7 * q| ≤ 1 / 2 + 2 ^ (-22 : ℤ)) ∧
    (∀ a b m n, a ≤ b → coordinate a = .ok m → coordinate b = .ok n → m ≤ n) ∧
    ∀ lon₁ lat₁ lon₂ lat₂ b, DegreeBox.ofCorners lon₁ lat₁ lon₂ lat₂ = b →
      ((∃ e, ofBox b = .ok e) ↔ ∀ d ∈ b.coordinates, ∃ n, coordinate d = .ok n) ∧
      (∀ e, ofBox b = .ok e → e.check = .ok () ∧
        coordinate b.minLon = .ok e.minLon ∧ coordinate b.maxLon = .ok e.maxLon ∧
        coordinate b.minLat = .ok e.minLat ∧ coordinate b.maxLat = .ok e.maxLat) ∧
      ∀ r, ofBox b = .error r → ∃ d, b.coordinates.find? unfit = some d ∧
        r = .envelopeInvalid (.unrepresentable d) ∧
        r.message = "Invalid envelope: " ++ ("coordinate " ++ Decimal.Layout.plain.write d ++
          " cannot be represented in fixed-point degrees") := by
  have scaled : ∀ d n, coordinate d = .ok n ↔ Scaled d n.toInt := fun d n =>
    coordinate_eq_ok_iff.trans ofDegrees?_eq_some_iff
  refine ⟨?_, scaled, ?_, ?_, ?_⟩
  · intro d
    simp only [coordinate_eq_ok_iff]
    exact exists_ofDegrees?_iff
  · intro d n converted
    exact ((scaled d n).mp converted).close
  · intro a b m n
    exact coordinate_mono
  · intro lon₁ lat₁ lon₂ lat₂ b corners
    refine ⟨exists_ofBox_iff corners, ?_, ?_⟩
    · intro e converted
      obtain ⟨west, east, south, north, valid⟩ := ofBox_eq_ok_iff.mp converted
      exact ⟨(check_eq_ok_iff e).mpr valid, west, east, south, north⟩
    · intro r failed
      obtain ⟨d, first, rfl⟩ := first_of_error corners failed
      exact ⟨d, first, rfl, rfl⟩

/-- The smallest double goes to 0. What is not a number becomes the second of two longitudes, and
is reported although a latitude does not convert either. -/
theorem ofBox_ofCorners_not_a_number :
    (5e-324 : Float) ≤ 1e-7 ∧ coordinate 5e-324 = .ok 0 ∧ coordinate 1e-7 = .ok 1 ∧
      (0 : Int32) ≤ 1 ∧
      DegreeBox.ofCorners notANumber (-215.0) 1.0 (-44.0) = ⟨1.0, -215.0, notANumber, -44.0⟩ ∧
      ofBox ⟨1.0, -215.0, notANumber, -44.0⟩ =
        .error (.envelopeInvalid (.unrepresentable notANumber)) := by
  have order : (5e-324 : Float) ≤ 1e-7 := by decide +kernel
  have tiny : coordinate 5e-324 = .ok 0 := eq_ok_of_toOption (by decide +kernel)
  have unit : coordinate 1e-7 = .ok 1 := eq_ok_of_toOption (by decide +kernel)
  have corners : DegreeBox.ofCorners notANumber (-215.0) 1.0 (-44.0) =
      ⟨1.0, -215.0, notANumber, -44.0⟩ := by
    have unordered : ¬ notANumber < 1.0 := by decide +kernel
    have ordered : (-215.0 : Float) < -44.0 := by decide +kernel
    simp only [DegreeBox.ofCorners, DegreeBox.order, if_neg unordered, if_pos ordered]
  have found : [1.0, notANumber, -215.0, -44.0].find? unfit = some notANumber := by
    rw [List.find?_cons_of_neg (by decide +kernel), List.find?_cons_of_pos (by decide +kernel)]
  obtain ⟨-, -, -, mono, boxes⟩ := ofBox_ofCorners
  obtain ⟨-, converts, refused⟩ := boxes _ _ _ _ _ corners
  refine ⟨order, tiny, unit, mono _ _ _ _ order tiny unit, corners, ?_⟩
  cases outcome : ofBox ⟨1.0, -215.0, notANumber, -44.0⟩ with
  | ok e =>
    obtain ⟨-, -, east, -⟩ := converts e outcome
    rw [coordinate_of_unfit (by decide +kernel)] at east
    cases east
  | error r =>
    obtain ⟨d, first, rfl, -⟩ := refused r outcome
    obtain rfl : notANumber = d := Option.some.inj (found.symm.trans first)
    rfl

end Envelope
end MercatorGrid
