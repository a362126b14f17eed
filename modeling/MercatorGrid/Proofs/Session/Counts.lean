import MercatorGrid.Proofs.Session
import MercatorGrid.Proofs.Grid.Exact

namespace MercatorGrid
open Mercator

namespace Grid
variable {g h : Grid}

/-- If there are values, they are counted like the points. -/
def Sized (g : Grid) : Prop := ∀ counts, g.counts = some counts → g.pointCount = .ok counts.length

theorem sized_of_none (bare : g.counts = none) : g.Sized := by
  intro counts some
  rw [bare] at some
  cases some

theorem eq_of_attach {counts : List Float} (attached : g.attach counts = .ok h) :
    g.pointCount = .ok counts.length ∧ h = { g with counts := some counts } := by
  cases outcome : g.pointCount with
  | error f => simp [attach, outcome] at attached
  | ok count =>
    rw [attach_of_counted outcome] at attached
    split at attached
    · rename_i full
      cases attached
      exact ⟨congrArg _ full.symm, rfl⟩
    · cases attached

theorem sized_of_attach {counts : List Float} (attached : g.attach counts = .ok h) : h.Sized := by
  obtain ⟨counted, rfl⟩ := eq_of_attach attached
  intro others same
  cases same
  exact counted

/-- Two grids give the same answers to all requests about places. -/
structure Alike (fns : Elementary Float) (g h : Grid) : Prop where
  placement : g.placement = h.placement
  points : g.pointCount = h.pointCount
  query : ∀ e, g.pointsIn fns e = h.pointsIn fns e
  batch : ∀ plan es, g.pointsInEach fns plan es = h.pointsInEach fns plan es
  pixel : ∀ x y, g.placement.pointAt x y = h.placement.pointAt x y
  cell : ∀ i, g.placement.cell? i = h.placement.cell? i
  location : ∀ lon lat, g.locate fns lon lat = h.locate fns lon lat
  centre : ∀ i, g.longitude i = h.longitude i ∧ g.latitude fns i = h.latitude fns i
  bounds : g.placement.bounds fns = h.placement.bounds fns

theorem alike_of_attach (fns : Elementary Float) {counts : List Float}
    (attached : g.attach counts = .ok h) : h.Alike fns g := by
  obtain ⟨-, rfl⟩ := eq_of_attach attached
  exact ⟨rfl, rfl, fun _ => rfl, fun _ _ => rfl, fun _ _ => rfl, fun _ => rfl, fun _ _ => rfl,
    fun _ => ⟨rfl, rfl⟩, rfl⟩

end Grid

namespace Session
variable {fns : Elementary Float} {s : Session}

/-- The list last attached to the grid that a run of commands ends with, read off the commands
alone but for their success. To load a grid is to go back to where it was last saved. -/
inductive Attached (fns : Elementary Float) (s : Session) : List Command → Option (List Float) → Prop
  | start : Attached fns s [] none
  | attach {cs : List Command} {counts : List Float} {g : Grid}
    (done : (s.after fns cs).grid.attach counts = .ok g) :
    Attached fns s (cs ++ [.attach counts]) (some counts)
  | rebuild {cs : List Command} {source : GridSource} {g : Grid} (done : source.make fns = .ok g) :
    Attached fns s (cs ++ [.rebuild source]) none
  | load {before since : List Command} {slot : String} {last : Option (List Float)}
    (saved : Attached fns s before last) (unsaved : .save slot ∉ since) :
    Attached fns s (before ++ .save slot :: since ++ [.load slot]) last
  | other {cs : List Command} {c : Command} {last : Option (List Float)}
    (kept : ∀ g, ¬ (s.after fns cs).Replaces fns c g) (prior : Attached fns s cs last) :
    Attached fns s (cs ++ [c]) last

theorem grid_of_not_replaces {c : Command} (kept : ∀ g, ¬ s.Replaces fns c g) :
    (s.next fns c).grid = s.grid := by
  rcases next_cases fns s c with ⟨g, replaces, -⟩ | ⟨slot, -, next⟩ | next
  · exact absurd replaces (kept g)
  · rw [next]
  · rw [next]

theorem grid_of_replaces {cs : List Command} {c : Command} {g : Grid}
    (replaces : (s.after fns cs).Replaces fns c g) : (s.after fns (cs ++ [c])).grid = g := by
  rw [after_snoc, next_of_replaces replaces]

theorem Attached.counts {cs : List Command} {last : Option (List Float)}
    (attached : s.Attached fns cs last) (bare : s.grid.counts = none) :
    (s.after fns cs).grid.counts = last := by
  induction attached with
  | start => exact bare
  | attach done =>
    obtain ⟨-, rfl⟩ := Grid.eq_of_attach done
    rw [grid_of_replaces (c := .attach _) done]
  | rebuild done => rw [grid_of_replaces (c := .rebuild _) done, counts_of_make done]
  | load saved unsaved ih => rw [grid_of_replaces (c := .load _) (saved_after_save unsaved), ih]
  | other kept prior ih => rw [after_snoc, grid_of_not_replaces kept, ih]

theorem exists_attached (fns : Elementary Float) (unknown : ∀ slot g, s.saved slot ≠ .ok g)
    (cs : List Command) : ∃ last, s.Attached fns cs last := by
  rcases List.eq_nil_or_concat' cs with rfl | ⟨cs, c, rfl⟩
  · exact ⟨none, .start⟩
  · by_cases replaced : ∃ g, (s.after fns cs).Replaces fns c g
    · obtain ⟨g, replaces⟩ := replaced
      cases c with
      | attach counts => exact ⟨_, .attach replaces⟩
      | rebuild source => exact ⟨_, .rebuild replaces⟩
      | load slot =>
        -- the history goes on from the save, so the recursion is on the number of commands
        obtain ⟨before, since, rfl, unsaved, -⟩ := exists_save (unknown slot) replaces
        obtain ⟨last, saved⟩ := exists_attached fns unknown before
        exact ⟨last, .load saved unsaved⟩
      | _ => exact replaces.elim
    · obtain ⟨last, prior⟩ := exists_attached fns unknown cs
      exact ⟨last, .other (not_exists.mp replaced) prior⟩
termination_by cs.length

/-- What the values of a grid with so many points come to, if the last list attached was this one:
which are read, what is attached, and what of the grid stays. -/
structure Tallies (fns : Elementary Float) (s : Session) (count : ℕ) (last : Option (List Float)) :
    Prop where
  full : ∀ counts, last = some counts → counts.length = count
  value : ∀ i < count, ∃ v, s.grid.countAt i = .ok (some v) ∧ (last = none → v = 0.0) ∧
    ∀ counts, last = some counts → counts[i]? = some v
  beyond : ∀ i, count ≤ i → s.grid.countAt i = .ok none
  mismatch : ∀ counts, counts.length ≠ count →
    s.grid.attach counts = .error (.refused (.countsMismatch count counts.length)) ∧
      s.next fns (.attach counts) = s
  attach : ∀ counts, counts.length = count → ∃ g, s.grid.attach counts = .ok g ∧
    s.next fns (.attach counts) = { s with grid := g } ∧ g.counts = some counts ∧
      g.Alike fns s.grid

theorem tallies_of_counted {count : ℕ} (counted : s.grid.pointCount = .ok count)
    (sized : s.grid.Sized) : s.Tallies fns count s.grid.counts := by
  have full : ∀ counts, s.grid.counts = some counts → counts.length = count := by
    intro counts some
    exact Except.ok.inj ((sized counts some).symm.trans counted)
  have read := Grid.countAt_of_counted counted full
  constructor
  case full => exact full
  case value =>
    intro i inside
    refine ⟨s.grid.value i, by rw [read, if_pos inside], ?_, ?_⟩
    · intro none
      rw [Grid.value, none]
    · intro counts some
      have long : i < counts.length := (full counts some).symm ▸ inside
      rw [Grid.value, some, List.getElem?_eq_getElem long]
      exact congrArg _ (List.getD_eq_getElem _ _ long).symm
  case beyond =>
    intro i outside
    rw [read, if_neg (Nat.not_lt.mpr outside)]
  case mismatch =>
    intro counts different
    have refused := Grid.attach_of_counted counted counts
    rw [if_neg different] at refused
    refine ⟨refused, next_of_not_replaces ?_ (by simp)⟩
    intro g done
    cases refused.symm.trans done
  case attach =>
    intro counts same
    have done := Grid.attach_of_counted counted counts
    rw [if_pos same] at done
    exact ⟨_, done, next_of_replaces (c := .attach counts) done, rfl,
      Grid.alike_of_attach fns done⟩

theorem start_eq_ok {source : GridSource} (started : start fns source = .ok s) :
    source.make fns = .ok s.grid ∧ ∀ slot g, s.saved slot ≠ .ok g := by
  obtain ⟨g, built, same⟩ := bind_eq_ok_iff.mp started
  cases same
  exact ⟨built, nofun⟩

/-- After any commands the grid's values are those of the list last attached to it, one for each
point, or zeros if none was, and no saved grid has more or fewer values than points either. A list
of another length is refused with both lengths and changes nothing; one of the right length is
attached and changes nothing but the values. Where no placement came from a document unchecked,
the points have a count. -/
theorem counts_of_run {source : GridSource} (started : start fns source = .ok s)
    (cs : List Command) :
    (∃ last, (∀ other, s.Attached fns cs other ↔ other = last) ∧
      (s.after fns cs).grid.counts = last ∧
      ∀ count, (s.after fns cs).grid.pointCount = .ok count →
        (s.after fns cs).Tallies fns count last) ∧
    (s.after fns cs).All Grid.Sized ∧
    (source.IsChecked → (∀ c ∈ cs, c.IsChecked) →
      ∃ count, (s.after fns cs).grid.pointCount = .ok count ∧ (count : ℤ) =
        (s.after fns cs).grid.placement.width.toInt *
          (s.after fns cs).grid.placement.height.toInt) := by
  obtain ⟨built, unknown⟩ := start_eq_ok started
  have bare := counts_of_make built
  have sized : (s.after fns cs).All Grid.Sized := by
    apply after_all (fun g h counts _ attached => Grid.sized_of_attach attached)
    · exact ⟨Grid.sized_of_none bare, fun slot g found => absurd found (unknown slot g)⟩
    · exact fun source g _ made => Grid.sized_of_none (counts_of_make made)
  refine ⟨?_, sized, ?_⟩
  · obtain ⟨last, attached⟩ := exists_attached fns unknown cs
    obtain rfl := attached.counts bare
    refine ⟨_, fun other => ⟨fun same => (same.counts bare).symm, ?_⟩, rfl,
      fun count counted => tallies_of_counted counted sized.current⟩
    rintro rfl
    exact attached
  · intro checked each
    have accepted : (s.after fns cs).All fun g => g.placement.Accepted := by
      apply after_all
      · intro g h counts accepted attached
        obtain ⟨-, rfl⟩ := Grid.eq_of_attach attached
        exact accepted
      · exact ⟨accepted_of_make checked built, fun slot g found => absurd found (unknown slot g)⟩
      · exact fun source g member made => accepted_of_make (each _ member) made
    have current := accepted.current
    exact ⟨_, current.pointCount_eq, Placement.points_eq current.2.1 current.2.2.1⟩

def lostAndFound : List Command :=
  [.attach [0.5, 1.5, 2.5, 3.5, 4.5, 5.5], .save "values", .attach [7.0],
    .rebuild (.placement (.fields 2 0 0 1 1)), .attach [7.0], .load "values", .attach []]

theorem counts_of_run_lostAndFound :
    start Elementary.native (.placement (.fields 2 10 20 3 2)) =
        .ok ⟨⟨⟨2, 10, 20, 3, 2⟩, none⟩, []⟩ ∧
      (GridSource.placement (.fields 2 10 20 3 2)).IsChecked ∧
      (∀ c ∈ lostAndFound, c.IsChecked) ∧
      Attached Elementary.native ⟨⟨⟨2, 10, 20, 3, 2⟩, none⟩, []⟩ lostAndFound
        (some [0.5, 1.5, 2.5, 3.5, 4.5, 5.5]) ∧
      (after Elementary.native ⟨⟨⟨2, 10, 20, 3, 2⟩, none⟩, []⟩ lostAndFound).grid.countAt 4 =
        .ok (some 4.5) ∧
      (after Elementary.native ⟨⟨⟨2, 10, 20, 3, 2⟩, none⟩, []⟩ lostAndFound).grid.attach [] =
        .error (.refused (.countsMismatch 6 0)) := by
  have started : start Elementary.native (.placement (.fields 2 10 20 3 2)) =
      .ok ⟨⟨⟨2, 10, 20, 3, 2⟩, none⟩, []⟩ := rfl
  have checked : (GridSource.placement (.fields 2 10 20 3 2)).IsChecked := trivial
  have each : ∀ c ∈ lostAndFound, c.IsChecked := by
    simp [lostAndFound, Command.IsChecked, GridSource.IsChecked]
  obtain ⟨⟨last, attached, values, tallies⟩, -, counts⟩ := counts_of_run started lostAndFound
  obtain ⟨count, counted, -⟩ := counts checked each
  obtain rfl : 6 = count := Except.ok.inj counted
  obtain rfl : some [0.5, 1.5, 2.5, 3.5, 4.5, 5.5] = last := values
  obtain ⟨v, read, -, entry⟩ := (tallies 6 counted).value 4 (by decide)
  obtain rfl : 4.5 = v := Option.some.inj (entry _ rfl)
  exact ⟨started, checked, each, (attached _).mpr rfl, read,
    ((tallies 6 counted).mismatch [] (by decide)).1⟩

end Session
end MercatorGrid
