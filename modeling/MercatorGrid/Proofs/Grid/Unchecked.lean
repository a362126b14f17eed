import MercatorGrid.Proofs.Grid.Locate
import MercatorGrid.Document

/-! Grids on placements that were not checked.
A placement read from a document may have sides that are zero or negative, at any zoom and with any
corner. Where a side has no pixel nothing is touched and nothing is found, and no word overflows on
the way to that answer. A negative width is a huge word in the numbering, but never a zero divisor:
a width of zero leaves no number below the count. -/
namespace MercatorGrid

def Placement.Degenerate (p : Placement) : Prop := p.width ≤ 0 ∨ p.height ≤ 0

namespace Placement

theorem Degenerate.toInt {p : Placement} (flat : p.Degenerate) :
    p.width.toInt ≤ 0 ∨ p.height.toInt ≤ 0 := by
  simpa only [Degenerate, Int32.le_iff_toInt_le, Int32.toInt_zero] using flat

theorem Degenerate.pointAt_eq {p : Placement} (flat : p.Degenerate) (x y : Int32) :
    p.pointAt x y = .ok none := by
  apply pointAt_of_outside
  rintro ⟨west, east, north, south⟩
  have side := flat.toInt
  omega

theorem cell?_of_width_zero {p : Placement} (flat : p.width = 0) (i : ℕ) :
    p.pointCount = .ok 0 ∧ p.cell? i = .ok none := by
  have counted : p.pointCount = .ok 0 := by
    simp only [pointCount, flat, Int32.toInt_zero, wrap64, Int.zero_emod, Int.toNat_zero,
      Nat.zero_mul]
    rfl
  refine ⟨counted, ?_⟩
  rw [cell?_of_counted counted, if_neg (Nat.not_lt_zero i)]

end Placement

namespace Grid
variable {fns : Elementary Float} {g : Grid}

theorem pointsIn_of_inverted {e : Envelope} (inverted : ¬ e.Valid) :
    ∃ fault, g.pointsIn fns e = .error (.refused (.envelopeInvalid fault)) := by
  cases outcome : e.check with
  | ok u => exact absurd ((Envelope.check_eq_ok_iff e).mp outcome) inverted
  | error r =>
    obtain ⟨fault, rfl⟩ := check_error outcome
    exact ⟨fault, pointsIn_of_refused fns g outcome⟩

theorem pointsIn_of_degenerate (leveled : g.placement.level = .ok g.placement.zoom)
    (flat : g.placement.Degenerate) {e : Envelope} (valid : e.Valid) :
    g.pointsIn fns e = .ok [] := by
  -- whatever the ends before the cut, the last column or row is before the first
  have nothing : ∀ west east north south : ℤ, Window.isEmpty ⟨max west 0,
      min east (g.placement.width.toInt - 1), max north 0,
      min south (g.placement.height.toInt - 1)⟩ = true := by
    intro west east north south
    have side := flat.toInt
    simp only [Window.isEmpty, Bool.or_eq_true, decide_eq_true_iff]
    omega
  rw [pointsIn, (Envelope.check_eq_ok_iff e).mpr valid, window_of_level leveled]
  simp only [Attempt.guarded_ok, Attempt.checked_ok, ok_bind, nothing, if_true, pure_ok]

/-- A placement without pixels answers every request with nothing, and an inverted envelope is
refused as anywhere. On any placement whose count fits its word the division of a number by the
width is never one by zero, because the count is tested first. -/
theorem requests_of_degenerate (fns : Elementary Float) (p : Placement) :
    (p.zoom ≤ 63 → p.Degenerate →
      (∀ e : Envelope, e.Valid → (ofPlacement p).pointsIn fns e = .ok []) ∧
      (∀ e : Envelope, ¬ e.Valid → ∃ fault,
        (ofPlacement p).pointsIn fns e = .error (.refused (.envelopeInvalid fault))) ∧
      (∀ x y : Int32, p.pointAt x y = .ok none) ∧
      (∀ lon lat : Float, (ofPlacement p).locate fns lon lat = .ok none)) ∧
    (∀ count, p.pointCount = .ok count → ∀ i,
      p.cell? i = .ok (if i < count then
        some (wrap32 (i % wrap64 p.width.toInt), wrap32 (i / wrap64 p.width.toInt)) else none) ∧
      (i < count → 0 < wrap64 p.width.toInt)) ∧
    (p.width = 0 → ∀ i, p.pointCount = .ok 0 ∧ p.cell? i = .ok none) := by
  refine ⟨fun depth flat => ?_, fun count counted i => ?_, Placement.cell?_of_width_zero⟩
  · have leveled : (ofPlacement p).placement.level = .ok p.zoom := Placement.level_of_le depth
    refine ⟨fun e => pointsIn_of_degenerate leveled flat, fun e => pointsIn_of_inverted,
      flat.pointAt_eq, fun lon lat => ?_⟩
    rw [locate_of_level leveled]
    exact flat.pointAt_eq _ _
  · exact ⟨Placement.cell?_of_counted counted i, Placement.wrap_width_pos counted⟩

theorem requests_of_degenerate_from_document :
    Placement.ofDocument? (.list [.ofInt 63, .ofInt 2147483647, .ofInt (-2147483648), .ofInt (-1),
      .ofInt 1]) = some ⟨63, 2147483647, -2147483648, -1, 1⟩ ∧
    Grid.pointsIn Elementary.native (.ofPlacement ⟨63, 2147483647, -2147483648, -1, 1⟩)
      ⟨-2147483648, 2147483647, -2147483648, 2147483647⟩ = .ok [] ∧
    Placement.pointAt ⟨63, 2147483647, -2147483648, -1, 1⟩ 2147483647 (-2147483648) = .ok none ∧
    Placement.pointCount ⟨63, 2147483647, -2147483648, -1, 1⟩ = .ok 18446744073709551615 ∧
    Placement.cell? ⟨63, 2147483647, -2147483648, -1, 1⟩ 7 = .ok (some (7, 0)) := by
  obtain ⟨harmless, numbered, -⟩ :=
    requests_of_degenerate Elementary.native ⟨63, 2147483647, -2147483648, -1, 1⟩
  obtain ⟨nothing, -, unnumbered, -⟩ := harmless (by decide) (.inl (by decide))
  have counted : Placement.pointCount ⟨63, 2147483647, -2147483648, -1, 1⟩ =
      .ok 18446744073709551615 := rfl
  obtain ⟨cell, -⟩ := numbered _ counted 7
  exact ⟨rfl, nothing _ (by decide), unnumbered _ _, counted, cell.trans rfl⟩

end Grid
end MercatorGrid
