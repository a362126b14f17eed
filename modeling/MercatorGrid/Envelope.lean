import MercatorGrid.Refusal

/-! Query envelopes: closed boxes of fixed-point longitudes and latitudes.
Nothing in the type orders the bounds, because an envelope that was read from a document may
be inverted; `Valid` says when it is not, and every query checks it again. -/
namespace MercatorGrid

structure Envelope where
  minLon : Int32
  maxLon : Int32
  minLat : Int32
  maxLat : Int32
deriving DecidableEq

namespace Envelope

def Valid (e : Envelope) : Prop := e.minLon ≤ e.maxLon ∧ e.minLat ≤ e.maxLat

instance (e : Envelope) : Decidable e.Valid := inferInstanceAs (Decidable (_ ∧ _))

def Mem (lon lat : Int32) (e : Envelope) : Prop :=
  e.minLon ≤ lon ∧ lon ≤ e.maxLon ∧ e.minLat ≤ lat ∧ lat ≤ e.maxLat

instance (lon lat : Int32) (e : Envelope) : Decidable (e.Mem lon lat) :=
  inferInstanceAs (Decidable (_ ∧ _))

/-- An inverted longitude is reported before an inverted latitude. -/
def check (e : Envelope) : Except Refusal Unit :=
  if e.maxLon < e.minLon then
    .error (.envelopeInvalid (.invertedLongitude e.minLon e.maxLon))
  else if e.maxLat < e.minLat then
    .error (.envelopeInvalid (.invertedLatitude e.minLat e.maxLat))
  else .ok ()

def make (minLon maxLon minLat maxLat : Int32) : Except Refusal Envelope := do
  let e : Envelope := ⟨minLon, maxLon, minLat, maxLat⟩
  e.check
  return e

theorem check_eq_ok_iff (e : Envelope) : e.check = .ok () ↔ e.Valid := by
  simp only [check, Valid, ← Int32.not_lt]
  split
  · simp_all
  · split <;> simp_all

theorem make_eq_ok_iff {a b c d : Int32} {e : Envelope} :
    make a b c d = .ok e ↔ e = ⟨a, b, c, d⟩ ∧ e.Valid := by
  simp only [make]
  cases h : (Envelope.mk a b c d).check with
  | error r =>
    have bad : ¬ (Envelope.mk a b c d).Valid := fun v => by simp [(check_eq_ok_iff _).2 v] at h
    constructor
    · intro h
      cases h
    · rintro ⟨rfl, v⟩
      exact absurd v bad
  | ok u =>
    have good := (check_eq_ok_iff _).1 h
    constructor
    · intro h
      cases h
      exact ⟨rfl, good⟩
    · rintro ⟨rfl, _⟩
      rfl

def coordinate (degrees : Float) : Except Refusal Int32 :=
  match FixedPoint.ofDegrees? degrees with
  | some n => .ok n
  | none => .error (.envelopeInvalid (.unrepresentable degrees))

def ofDegrees (minLon maxLon minLat maxLat : Float) : Except Refusal Envelope := do
  let minLon ← coordinate minLon
  let maxLon ← coordinate maxLon
  let minLat ← coordinate minLat
  let maxLat ← coordinate maxLat
  make minLon maxLon minLat maxLat

def ofBox (b : DegreeBox) : Except Refusal Envelope :=
  ofDegrees b.minLon b.maxLon b.minLat b.maxLat

def toBox (e : Envelope) : DegreeBox :=
  .ofCorners (FixedPoint.toDegrees e.minLon) (FixedPoint.toDegrees e.minLat)
    (FixedPoint.toDegrees e.maxLon) (FixedPoint.toDegrees e.maxLat)

/-- Whether the two boxes meet; touching edges count. -/
def meets (a b : Envelope) : Bool :=
  a.minLon ≤ b.maxLon && b.minLon ≤ a.maxLon && a.minLat ≤ b.maxLat && b.minLat ≤ a.maxLat

def encloses (a b : Envelope) : Bool :=
  a.minLon ≤ b.minLon && b.maxLon ≤ a.maxLon && a.minLat ≤ b.minLat && b.maxLat ≤ a.maxLat

def describe (e : Envelope) : String :=
  "FixedPointEnvelope \x7b min_lon: " ++ toString e.minLon.toInt ++
    ", max_lon: " ++ toString e.maxLon.toInt ++ ", min_lat: " ++ toString e.minLat.toInt ++
    ", max_lat: " ++ toString e.maxLat.toInt ++ " \x7d"

end Envelope
end MercatorGrid
