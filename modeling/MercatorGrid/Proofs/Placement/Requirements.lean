import MercatorGrid.Proofs.Placement

namespace MercatorGrid.Placement

structure Requirement where
  met : Prop
  refusal : Refusal

def requirements (zoom west north width height : Int32) : List Requirement :=
  [⟨0 ≤ zoom.toInt ∧ zoom.toInt ≤ 22, .zoomOutOfRange zoom⟩,
   ⟨1 ≤ width.toInt ∧ 1 ≤ height.toInt, .sidesNotPositive width.toInt height.toInt⟩,
   ⟨west.toInt + width.toInt ≤ 2147483647 ∧ north.toInt + height.toInt ≤ 2147483647,
    .leavesPlane (.farEdge width height west north)⟩,
   ⟨width.toInt * height.toInt ≤ 2147483647,
    .tooManyPoints (width.toInt * height.toInt).toNat⟩]

/-- The first requirement that is not met has this refusal. -/
def FirstUnmet (qs : List Requirement) (r : Refusal) : Prop :=
  ∃ q, FirstWithout Requirement.met qs q ∧ q.refusal = r

section Make
variable {zoom west north width height : Int32}

theorem checkZoom_of_inside (inside : 0 ≤ zoom.toInt ∧ zoom.toInt ≤ 22) :
    checkZoom zoom = .ok zoom.toInt.toNat := by
  refine checkZoom_eq_ok_iff.mpr ⟨by omega, ?_⟩
  change zoom.toInt.toNat ≤ 22
  omega

theorem make_of_met (met : ∀ q ∈ requirements zoom west north width height, q.met) :
    make zoom west north width height = .ok ⟨zoom.toInt.toNat, west, north, width, height⟩ := by
  simp only [requirements, List.forall_mem_cons] at met
  obtain ⟨inside, sides, edges, few, -⟩ := met
  refine make_eq_ok_iff.mpr ⟨by dsimp only; omega, rfl, rfl, rfl, rfl, ?_⟩
  refine ⟨?_, sides.1, sides.2, edges.1, edges.2, few⟩
  change zoom.toInt.toNat ≤ 22
  omega

theorem make_of_outside (outside : ¬ (0 ≤ zoom.toInt ∧ zoom.toInt ≤ 22)) :
    make zoom west north width height = Attempt.refuse (.zoomOutOfRange zoom) := by
  have refused : checkZoom zoom = .error (.zoomOutOfRange zoom) := if_neg outside
  rw [make, refused]
  rfl

theorem make_of_firstUnmet {r : Refusal}
    (first : FirstUnmet (requirements zoom west north width height) r) :
    make zoom west north width height = Attempt.refuse r := by
  obtain ⟨q, first, rfl⟩ := first
  rcases first with outside | ⟨inside, later⟩
  · exact make_of_outside outside
  rw [make_eq (checkZoom_of_inside inside)]
  rcases later with flat | ⟨sides, later⟩
  · dsimp only at flat
    exact if_pos (by omega)
  dsimp only at sides
  rw [if_neg (by omega)]
  rcases later with far | ⟨edges, later⟩
  · dsimp only at far
    exact if_pos (by omega)
  dsimp only at edges
  rw [if_neg (by omega)]
  rcases later with many | ⟨few, later⟩
  · have count := points_eq (p := ⟨zoom.toInt.toNat, west, north, width, height⟩) sides.1 sides.2
    dsimp only at many count
    rw [if_pos (by simp only [maxPoints]; omega), ← count, Int.toNat_natCast]
  · cases later

/-- The product carried by a refusal is the exact one, because both sides are positive by then. -/
theorem exact_of_firstUnmet {count : ℕ}
    (first : FirstUnmet (requirements zoom west north width height) (.tooManyPoints count)) :
    (count : ℤ) = width.toInt * height.toInt := by
  obtain ⟨q, first, same⟩ := first
  rcases first with - | ⟨-, - | ⟨sides, - | ⟨-, - | ⟨-, later⟩⟩⟩⟩
  · cases same
  · cases same
  · cases same
  · obtain rfl := Refusal.tooManyPoints.inj same
    dsimp only at sides
    have positive : 0 ≤ width.toInt * height.toInt := Int.mul_nonneg (by omega) (by omega)
    exact Int.toNat_of_nonneg positive
  · cases later

theorem concernsGrid_of_firstUnmet {r : Refusal}
    (first : FirstUnmet (requirements zoom west north width height) r) :
    r.concernsGrid = true := by
  obtain ⟨q, first, rfl⟩ := first
  rcases first with - | ⟨-, - | ⟨-, - | ⟨-, - | ⟨-, later⟩⟩⟩⟩
  · rfl
  · rfl
  · rfl
  · rfl
  · cases later

theorem met_or_firstUnmet (zoom west north width height : Int32) :
    (∀ q ∈ requirements zoom west north width height, q.met) ∨
      ∃ r, FirstUnmet (requirements zoom west north width height) r := by
  rcases all_or_firstWithout Requirement.met (requirements zoom west north width height) with
    met | ⟨q, first⟩
  · exact .inl met
  · exact .inr ⟨_, q, first, rfl⟩

theorem make_eq_ok_iff_met {p : Placement} : make zoom west north width height = .ok p ↔
    (∀ q ∈ requirements zoom west north width height, q.met) ∧
      p = ⟨zoom.toInt.toNat, west, north, width, height⟩ := by
  constructor
  · intro made
    rcases met_or_firstUnmet zoom west north width height with met | ⟨r, first⟩
    · rw [make_of_met met] at made
      cases made
      exact ⟨met, rfl⟩
    · rw [make_of_firstUnmet first] at made
      cases made
  · rintro ⟨met, rfl⟩
    exact make_of_met met

theorem make_eq_error_iff {failure : Failure} :
    make zoom west north width height = .error failure ↔
      ∃ r, failure = .refused r ∧ FirstUnmet (requirements zoom west north width height) r := by
  constructor
  · intro failed
    rcases met_or_firstUnmet zoom west north width height with met | ⟨r, first⟩
    · rw [make_of_met met] at failed
      cases failed
    · rw [make_of_firstUnmet first] at failed
      cases failed
      exact ⟨r, rfl, first⟩
  · rintro ⟨r, rfl, first⟩
    exact make_of_firstUnmet first

end Make

/-- A placement is made with the given fields exactly when every requirement is met. Otherwise the
first that is not met is the refusal, whose fault is the grid's, and a count that it names is
exact. A placement that was made counts its points exactly. -/
theorem make_exact (zoom west north width height : Int32) :
    (∀ p, make zoom west north width height = .ok p ↔
      (∀ q ∈ requirements zoom west north width height, q.met) ∧
        p = ⟨zoom.toInt.toNat, west, north, width, height⟩) ∧
    (∀ failure, make zoom west north width height = .error failure ↔
      ∃ r, failure = .refused r ∧ FirstUnmet (requirements zoom west north width height) r) ∧
    (∀ r, make zoom west north width height = .error (.refused r) → r.concernsGrid = true ∧
      ∀ count, r = .tooManyPoints count → (count : ℤ) = width.toInt * height.toInt) ∧
    ∀ p, make zoom west north width height = .ok p →
      ∃ count, p.pointCount = .ok count ∧ (count : ℤ) = width.toInt * height.toInt := by
  refine ⟨fun p => make_eq_ok_iff_met, fun failure => make_eq_error_iff, ?_, ?_⟩
  · intro r failed
    obtain ⟨_, ⟨⟩, first⟩ := make_eq_error_iff.mp failed
    refine ⟨concernsGrid_of_firstUnmet first, ?_⟩
    rintro count rfl
    exact exact_of_firstUnmet first
  · intro p made
    obtain ⟨met, rfl⟩ := make_eq_ok_iff_met.mp made
    simp only [requirements, List.forall_mem_cons] at met
    obtain ⟨-, sides, -⟩ := met
    exact ⟨_, pointCount_of_pos sides.1 sides.2, points_eq sides.1 sides.2⟩

/-- At the far corner of the plane a single point fits. Sides whose product passes 62 bits are
refused for their number, but a bad zoom is told before everything else that is wrong. -/
theorem make_exact_at_far_corner :
    (∃ count, pointCount ⟨22, 2147483646, 2147483646, 1, 1⟩ = .ok count ∧ (count : ℤ) = 1) ∧
      make 0 (-2147483648) (-2147483648) 2147483647 2147483647 =
        .error (.refused (.tooManyPoints 4611686014132420609)) ∧
      make 23 2147483647 0 (-1) 0 = .error (.refused (.zoomOutOfRange 23)) := by
  obtain ⟨ok, -, -, exact_count⟩ := make_exact 22 2147483646 2147483646 1 1
  obtain ⟨-, crowded, -, -⟩ := make_exact 0 (-2147483648) (-2147483648) 2147483647 2147483647
  obtain ⟨-, outside, -, -⟩ := make_exact 23 2147483647 0 (-1) 0
  refine ⟨?_, ?_, ?_⟩
  · exact exact_count _ ((ok _).mpr ⟨by simp [requirements], rfl⟩)
  · refine (crowded _).mpr ⟨_, rfl, _, .later ?_ (.later ?_ (.later ?_ (.here ?_))), rfl⟩ <;> decide
  · exact (outside _).mpr ⟨_, rfl, _, .here (by decide), rfl⟩

end MercatorGrid.Placement
