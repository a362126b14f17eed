import MercatorGrid.Proofs.Grid.Query
import MercatorGrid.Proofs.Grid.Schedule

namespace MercatorGrid.Grid

/-- No query of an envelope that is not inverted stops. -/
def Answers (fns : Elementary Float) (g : Grid) (es : List Envelope) : Prop :=
  ∀ e ∈ es, e.check = .ok () → ∃ points, g.pointsIn fns e = .ok points

theorem answers_of_accepted {g : Grid} (accepted : g.placement.Accepted) (fns : Elementary Float)
    (es : List Envelope) : g.Answers fns es := by
  intro e _ passed
  exact ⟨_, pointsIn_of_valid accepted ((Envelope.check_eq_ok_iff e).mp passed)⟩

theorem check_of_pointsIn {fns : Elementary Float} {g : Grid} {e : Envelope} {points : List ℕ}
    (answered : g.pointsIn fns e = .ok points) : e.check = .ok () := by
  cases outcome : e.check with
  | ok u => rfl
  | error r =>
    rw [pointsIn_of_refused fns g outcome] at answered
    cases answered

theorem refused_of_answers {fns : Elementary Float} {g : Grid} {es : List Envelope}
    (answers : g.Answers fns es) {e : Envelope} (member : e ∈ es) {failure : Failure}
    (failed : g.pointsIn fns e = .error failure) :
    ∃ fault, e.check = .error (.envelopeInvalid fault) ∧
      failure = .refused (.envelopeInvalid fault) := by
  cases outcome : e.check with
  | ok u =>
    obtain ⟨points, answered⟩ := answers e member outcome
    rw [answered] at failed
    cases failed
  | error r =>
    obtain ⟨fault, rfl⟩ := check_error outcome
    rw [pointsIn_of_refused fns g outcome] at failed
    cases failed
    exact ⟨fault, rfl, rfl⟩

section Ends
variable {fns : Elementary Float} {g : Grid} {es : List Envelope}

theorem checked_of_ends {answers : List (List ℕ)}
    (ends : Schedule.Ends (g.pointsIn fns) es (.ok answers)) : ∀ e ∈ es, e.check = .ok () := by
  intro e member
  have listed : g.pointsIn fns e ∈ es.map (g.pointsIn fns) := List.mem_map_of_mem member
  rw [ends.answers] at listed
  obtain ⟨points, -, answered⟩ := List.mem_map.mp listed
  exact check_of_pointsIn answered.symm

theorem refused_of_ends (answers : g.Answers fns es) {failure : Failure}
    (ends : Schedule.Ends (g.pointsIn fns) es (.error failure)) : ∃ e ∈ es, ∃ fault,
      e.check = .error (.envelopeInvalid fault) ∧ failure = .refused (.envelopeInvalid fault) := by
  obtain ⟨e, member, failed⟩ := ends.failure
  exact ⟨e, member, refused_of_answers answers member failed⟩

section Outcome
variable {outcome : Attempt (List (List ℕ))} (answers : g.Answers fns es)
  (ends : Schedule.Ends (g.pointsIn fns) es outcome)
include answers ends

theorem answered_iff_of_ends :
    (∃ found, outcome = .ok found) ↔ ∀ e ∈ es, e.check = .ok () := by
  constructor
  · rintro ⟨found, rfl⟩
    exact checked_of_ends ends
  · intro passed
    cases outcome with
    | ok found => exact ⟨found, rfl⟩
    | error failure =>
      obtain ⟨e, member, fault, refused, -⟩ := refused_of_ends answers ends
      rw [passed e member] at refused
      cases refused

theorem refused_of_inverted (some : ∃ e ∈ es, e.check ≠ .ok ()) : ∃ e ∈ es, ∃ fault,
    e.check = .error (.envelopeInvalid fault) ∧
      outcome = .error (.refused (.envelopeInvalid fault)) ∧
      (Refusal.envelopeInvalid fault).concernsGrid = false := by
  obtain ⟨e, member, inverted⟩ := some
  cases outcome with
  | ok found => exact absurd (checked_of_ends ends e member) inverted
  | error failure =>
    obtain ⟨f, first, fault, refused, rfl⟩ := refused_of_ends answers ends
    exact ⟨f, first, fault, refused, rfl, rfl⟩

end Outcome

/-- On an accepted placement every schedule ends in the points of each envelope or, if one of them
is inverted, in the refusal of one that is. -/
theorem ends_of_accepted (accepted : g.placement.Accepted) {outcome : Attempt (List (List ℕ))}
    (ends : Schedule.Ends (g.pointsIn fns) es outcome) :
    (outcome = .ok (es.map (g.touched fns)) ↔ ∀ e ∈ es, e.check = .ok ()) ∧
    ((∃ e ∈ es, e.check ≠ .ok ()) → ∃ e ∈ es, ∃ fault,
      e.check = .error (.envelopeInvalid fault) ∧
        outcome = .error (.refused (.envelopeInvalid fault)) ∧
        (Refusal.envelopeInvalid fault).concernsGrid = false) := by
  have answers := answers_of_accepted accepted fns es
  refine ⟨⟨?_, fun passed => ?_⟩, refused_of_inverted answers ends⟩
  · rintro rfl
    exact checked_of_ends ends
  · rw [ends.eq_ok_iff, List.map_map]
    exact List.map_congr_left fun e member =>
      pointsIn_of_valid accepted ((Envelope.check_eq_ok_iff e).mp (passed e member))

theorem pointsInEach_of_valid (accepted : g.placement.Accepted) (plan : Plan)
    (valid : ∀ e ∈ es, e.Valid) : g.pointsInEach fns plan es = .ok (es.map (g.touched fns)) :=
  (ends_of_accepted accepted (Schedule.ends_run plan es)).1.mpr fun e member =>
    (Envelope.check_eq_ok_iff e).mpr (valid e member)

end Ends

/-- What a plan returns is what some schedule ends in, and every schedule of a batch ends alike: in
an answer for each envelope, the one its own query gets, or, if an envelope is inverted, in the
refusal of one of the inverted envelopes, which is never about the grid. On a grid whose placement
was accepted nothing else stops a query. -/
theorem pointsInEach_exact (fns : Elementary Float) (g : Grid) (es : List Envelope) :
    (∀ plan, Schedule.Ends (g.pointsIn fns) es (g.pointsInEach fns plan es)) ∧
    (g.placement.Accepted → g.Answers fns es) ∧
    ∀ outcome, Schedule.Ends (g.pointsIn fns) es outcome →
      (∀ answers, outcome = .ok answers ↔ answers.length = es.length ∧
        ∀ (k : ℕ) e, es[k]? = some e →
          ∃ points, answers[k]? = some points ∧ g.pointsIn fns e = .ok points) ∧
      (g.Answers fns es →
        ((∃ answers, outcome = .ok answers) ↔ ∀ e ∈ es, e.check = .ok ()) ∧
        ((∃ e ∈ es, e.check ≠ .ok ()) → ∃ e ∈ es, ∃ fault,
          e.check = .error (.envelopeInvalid fault) ∧
            outcome = .error (.refused (.envelopeInvalid fault)) ∧
            (Refusal.envelopeInvalid fault).concernsGrid = false)) := by
  refine ⟨fun plan => Schedule.ends_run plan es,
    fun accepted => answers_of_accepted accepted fns es,
    fun outcome ends => ⟨fun answers => ?_, fun calm => ⟨?_, ?_⟩⟩⟩
  · exact (ends.eq_ok_iff answers).trans Schedule.map_eq_map_ok_iff
  · exact answered_iff_of_ends calm ends
  · exact refused_of_inverted calm ends

theorem pointsInEach_exact_two_inverted :
    Placement.Accepted ⟨2, 500, 500, 30, 40⟩ ∧ ∀ plan,
      ∃ e ∈ [Envelope.mk 0 10 0 10, ⟨10, 0, 0, 10⟩, ⟨0, 10, 10, 0⟩], ∃ fault,
        e.check = .error (.envelopeInvalid fault) ∧
        Grid.pointsInEach Mercator.stepped ⟨⟨2, 500, 500, 30, 40⟩, none⟩ plan
          [⟨0, 10, 0, 10⟩, ⟨10, 0, 0, 10⟩, ⟨0, 10, 10, 0⟩] =
            .error (.refused (.envelopeInvalid fault)) ∧
        (Refusal.envelopeInvalid fault).concernsGrid = false := by
  have accepted : Placement.Accepted ⟨2, 500, 500, 30, 40⟩ := by decide
  obtain ⟨ends, answers, exact⟩ := pointsInEach_exact Mercator.stepped
    ⟨⟨2, 500, 500, 30, 40⟩, none⟩ [⟨0, 10, 0, 10⟩, ⟨10, 0, 0, 10⟩, ⟨0, 10, 10, 0⟩]
  refine ⟨accepted, fun plan => ((exact _ (ends plan)).2 (answers accepted)).2 ?_⟩
  refine ⟨⟨10, 0, 0, 10⟩, by decide, fun passed => ?_⟩
  exact absurd ((Envelope.check_eq_ok_iff _).mp passed) (by decide)

end MercatorGrid.Grid
