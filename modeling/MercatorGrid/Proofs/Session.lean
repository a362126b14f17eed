import MercatorGrid.Proofs.Grid.Covering
import MercatorGrid.Session

/-! Runs of commands.
A command replaces the current grid, saves it, or leaves the session as it was; a command that
fails does the last. What holds of every grid that is built and of each that comes from such a one
by attaching values therefore holds of all grids of a session, and a loaded grid is the one that
was current when its name was last saved. -/
namespace MercatorGrid

namespace Outcome
variable {α : Type}

@[simp] theorem attempted_ok (a : α) : (liftM (.ok a : Attempt α) : Outcome α) = .ok a := rfl

@[simp] theorem attempted_error (f : Failure) :
    (liftM (.error f : Attempt α) : Outcome α) = .error (.failed f) := rfl

end Outcome

def GridSource.IsChecked : GridSource → Prop
  | .placement (.document _) => False
  | _ => True

def Command.IsChecked : Command → Prop
  | .rebuild source => source.IsChecked
  | _ => True

section Source
variable {fns : Elementary Float} {source : GridSource} {g : Grid}

theorem placement_of_make {source : PlacementSource}
    (built : (GridSource.placement source).make fns = .ok g) :
    ∃ p, source.make fns = .ok p ∧ g = .ofPlacement p := by
  cases outcome : source.make fns with
  | error f => simp [GridSource.make, outcome, Except.map] at built
  | ok p =>
    simp only [GridSource.make, outcome, Except.map, Except.ok.injEq] at built
    exact ⟨p, rfl, built.symm⟩

theorem ofAttempt_eq_ok_iff {α : Type} {attempt : Attempt α} {a : α} :
    Outcome.ofAttempt attempt = .ok a ↔ attempt = .ok a := by
  cases attempt <;> simp [Outcome.ofAttempt]

theorem counts_of_make (built : source.make fns = .ok g) : g.counts = none := by
  cases source with
  | covering box zoom =>
    obtain ⟨p, -, made⟩ := bind_eq_ok_iff.mp (ofAttempt_eq_ok_iff.mp built)
    cases made
    rfl
  | placement source =>
    obtain ⟨p, -, rfl⟩ := placement_of_make built
    rfl

theorem accepted_of_make (checked : source.IsChecked) (built : source.make fns = .ok g) :
    g.placement.Accepted := by
  cases source with
  | covering box zoom => exact Grid.accepted_of_covering (ofAttempt_eq_ok_iff.mp built)
  | placement source =>
    obtain ⟨p, made, rfl⟩ := placement_of_make built
    cases source with
    | fields zoom west north width height =>
      exact (Placement.make_eq_ok_iff.mp (ofAttempt_eq_ok_iff.mp made)).2.2.2.2.2
    | covering box zoom => exact (Placement.covering_edges (ofAttempt_eq_ok_iff.mp made)).2.1
    | document d => exact checked.elim

end Source

namespace Session
variable {fns : Elementary Float} {s : Session}

/-- The command puts this grid in the place of the current one. -/
def Replaces (fns : Elementary Float) (s : Session) : Command → Grid → Prop
  | .attach counts, g => s.grid.attach counts = .ok g
  | .rebuild source, g => source.make fns = .ok g
  | .load slot, g => s.saved slot = .ok g
  | _, _ => False

def Answers (s : Session) (step : Outcome (Session × Answer)) : Prop :=
  ∀ t a, step = .ok (t, a) → t = s

theorem answers_pure (a : Answer) : s.Answers (pure (s, a)) := by
  rintro t b same
  cases same
  rfl

theorem answers_bind {α : Type} {first : Outcome α} {rest : α → Outcome (Session × Answer)}
    (each : ∀ a, s.Answers (rest a)) : s.Answers (first >>= rest) := by
  intro t a same
  obtain ⟨b, -, last⟩ := bind_eq_ok_iff.mp same
  exact each b t a last

theorem next_of_answers {c : Command} (answers : s.Answers (s.step fns c)) :
    s.next fns c = s := by
  unfold next
  cases outcome : s.step fns c with
  | error f => rfl
  | ok result => exact answers _ _ outcome

theorem next_of_replaces {c : Command} {g : Grid} (replaces : s.Replaces fns c g) :
    s.next fns c = { s with grid := g } := by
  cases c with
  | attach counts =>
    change s.grid.attach counts = .ok g at replaces
    simp only [next, step, replaces, Outcome.attempted_ok, ok_bind, pure_ok]
  | rebuild source =>
    change source.make fns = .ok g at replaces
    simp only [next, step, replaces, ok_bind, pure_ok]
  | load slot =>
    change s.saved slot = .ok g at replaces
    simp only [next, step, replaces, ok_bind, pure_ok]
  | _ => exact replaces.elim

theorem next_save (slot : String) :
    s.next fns (.save slot) = { s with slots := (slot, s.grid) :: s.slots } := rfl

/-- The commands that can replace the grid fail if they do not, and the others only answer. -/
theorem next_of_not_replaces {c : Command} (kept : ∀ g, ¬ s.Replaces fns c g)
    (unsaved : ∀ slot, c ≠ .save slot) : s.next fns c = s := by
  apply next_of_answers
  cases c with
  | describe => exact answers_bind fun _ => answers_pure _
  | bounds => exact answers_bind fun _ => answers_pure _
  | query source => exact answers_bind fun _ => answers_bind fun _ => answers_pure _
  | batch sources => exact answers_bind fun _ => answers_bind fun _ => answers_pure _
  | locate lon lat => exact answers_bind fun _ => answers_pure _
  | centre index => exact answers_bind fun _ => answers_bind fun _ => answers_pure _
  | pixelOf lon lat => exact answers_bind fun _ => answers_bind fun _ => answers_pure _
  | cornerOf x y => exact answers_bind fun _ => answers_pure _
  | countReturning => exact answers_bind fun _ => answers_pure _
  | attach counts =>
    cases outcome : s.grid.attach counts with
    | ok g => exact absurd outcome (kept g)
    | error f => simp [Answers, step, outcome]
  | countAt index => exact answers_bind fun _ => answers_pure _
  | total => exact answers_pure _
  | rebuild source =>
    cases outcome : source.make fns with
    | ok g => exact absurd outcome (kept g)
    | error f => simp [Answers, step, outcome]
  | save slot => exact absurd rfl (unsaved slot)
  | load slot =>
    cases outcome : s.saved slot with
    | ok g => exact absurd outcome (kept g)
    | error f => simp [Answers, step, outcome]
  | same slot => exact answers_bind fun _ => answers_pure _

/-- All that a command can do to a session. -/
theorem next_cases (fns : Elementary Float) (s : Session) (c : Command) :
    (∃ g, s.Replaces fns c g ∧ s.next fns c = { s with grid := g }) ∨
    (∃ slot, c = .save slot ∧ s.next fns c = { s with slots := (slot, s.grid) :: s.slots }) ∨
    s.next fns c = s := by
  by_cases replaced : ∃ g, s.Replaces fns c g
  · obtain ⟨g, replaces⟩ := replaced
    exact .inl ⟨g, replaces, next_of_replaces replaces⟩
  · by_cases isSave : ∃ slot, c = .save slot
    · obtain ⟨slot, rfl⟩ := isSave
      exact .inr (.inl ⟨slot, rfl, next_save slot⟩)
    · exact .inr (.inr (next_of_not_replaces (not_exists.mp replaced) (not_exists.mp isSave)))

/-- The current grid and all that are saved have the property. -/
structure All (P : Grid → Prop) (s : Session) : Prop where
  current : P s.grid
  saved : ∀ slot g, s.saved slot = .ok g → P g

theorem saved_cons {slot name : String} {g : Grid} {slots : List (String × Grid)} {h : Grid} :
    saved ⟨h, (name, g) :: slots⟩ slot =
      if slot = name then .ok g else saved ⟨h, slots⟩ slot := by
  by_cases same : slot = name
  · simp only [saved, same, List.lookup_cons_self, if_true]
  · have apart : (slot == name) = false := beq_eq_false_iff_ne.mpr same
    simp only [saved, List.lookup_cons, apart, same, if_false]

section Invariant
variable {P : Grid → Prop} (attached : ∀ g h counts, P g → g.attach counts = .ok h → P h)
include attached

theorem next_all {c : Command} (all : s.All P)
    (built : ∀ source g, c = .rebuild source → source.make fns = .ok g → P g) :
    (s.next fns c).All P := by
  rcases next_cases fns s c with ⟨g, replaces, next⟩ | ⟨slot, -, next⟩ | next
  · rw [next]
    refine ⟨?_, all.saved⟩
    cases c with
    | attach counts => exact attached _ _ counts all.current replaces
    | rebuild source => exact built source g rfl replaces
    | load slot => exact all.saved slot g replaces
    | _ => exact replaces.elim
  · rw [next]
    refine ⟨all.current, ?_⟩
    intro other g found
    rw [saved_cons] at found
    split at found
    · cases found
      exact all.current
    · exact all.saved other g found
  · rwa [next]

theorem after_all {cs : List Command} (all : s.All P)
    (built : ∀ source g, .rebuild source ∈ cs → source.make fns = .ok g → P g) :
    (s.after fns cs).All P := by
  induction cs generalizing s with
  | nil => exact all
  | cons c cs ih =>
    apply ih (next_all attached all ?_)
    · intro source g member
      exact built source g (List.mem_cons_of_mem c member)
    · rintro source g rfl
      exact built source g List.mem_cons_self

end Invariant

section Saved
variable {slot : String}

theorem saved_next_save : (s.next fns (.save slot)).saved slot = .ok s.grid := by
  rw [next_save, saved_cons, if_pos rfl]

theorem saved_next {c : Command} (unsaved : c ≠ .save slot) :
    (s.next fns c).saved slot = s.saved slot := by
  rcases next_cases fns s c with ⟨g, -, next⟩ | ⟨name, rfl, next⟩ | next
  · rw [next]
    rfl
  · have other : slot ≠ name := fun same => unsaved (same ▸ rfl)
    rw [next, saved_cons, if_neg other]
  · rw [next]

theorem after_snoc (cs : List Command) (c : Command) :
    s.after fns (cs ++ [c]) = (s.after fns cs).next fns c := List.foldl_concat ..

theorem after_append (cs ds : List Command) :
    s.after fns (cs ++ ds) = (s.after fns cs).after fns ds := List.foldl_append ..

theorem saved_after {cs : List Command} (unsaved : .save slot ∉ cs) :
    (s.after fns cs).saved slot = s.saved slot := by
  induction cs generalizing s with
  | nil => rfl
  | cons c cs ih =>
    rw [List.mem_cons, not_or] at unsaved
    calc ((s.next fns c).after fns cs).saved slot = (s.next fns c).saved slot := ih unsaved.2
      _ = s.saved slot := saved_next fun same => unsaved.1 same.symm

theorem saved_after_save {before since : List Command} (unsaved : .save slot ∉ since) :
    (s.after fns (before ++ .save slot :: since)).saved slot = .ok (s.after fns before).grid := by
  rw [after_append]
  exact (saved_after unsaved).trans saved_next_save

theorem exists_save {cs : List Command} {g : Grid} (unknown : ∀ h, s.saved slot ≠ .ok h)
    (found : (s.after fns cs).saved slot = .ok g) :
    ∃ before since, cs = before ++ .save slot :: since ∧ .save slot ∉ since ∧
      g = (s.after fns before).grid := by
  -- from the end of the run, where the last save stands
  induction cs using List.reverseRecOn with
  | nil => exact absurd found (unknown g)
  | append_singleton cs c ih =>
    rw [after_snoc] at found
    by_cases last : c = .save slot
    · subst last
      rw [saved_next_save, Except.ok.injEq] at found
      exact ⟨cs, [], rfl, List.not_mem_nil, found.symm⟩
    · rw [saved_next last] at found
      obtain ⟨before, since, rfl, unsaved, same⟩ := ih found
      refine ⟨before, since ++ [c], by simp, ?_, same⟩
      simp only [List.mem_append, List.mem_singleton, not_or]
      exact ⟨unsaved, fun same => last same.symm⟩

end Saved
end Session
end MercatorGrid
