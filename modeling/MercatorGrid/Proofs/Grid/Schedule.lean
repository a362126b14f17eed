import MercatorGrid.Grid.Batch
import MercatorGrid.Proofs.Attempt
import Mathlib.Logic.Relation

/-! Batches under every schedule.
A list is cut into contiguous stretches, which are worked on a step at a time and in any order.
A failure ends its own stretch, and once one is kept every other stretch may be left where it is.
Whatever the order, the answers of a batch that has any are those of the whole list, and the
failure of one that fails is that of one of its items. -/
namespace MercatorGrid.Schedule
variable {α β ε : Type}

/-- A contiguous part of a list: the answers to its first items, and the items still to be asked. -/
structure Stretch (α β : Type) where
  answers : List β
  rest : List α

structure State (α β ε : Type) where
  stretches : List (Stretch α β)
  kept : Option ε

def State.start (xs : List α) : State α β ε := ⟨[⟨[], xs⟩], none⟩

/-- What one worker does to one stretch. -/
inductive Step (ask : α → Except ε β) : State α β ε → State α β ε → Prop
  | split (before after : List (Stretch α β)) (answers : List β) (left right : List α)
      (kept : Option ε) :
    Step ask ⟨before ++ ⟨answers, left ++ right⟩ :: after, kept⟩
      ⟨before ++ ⟨answers, left⟩ :: ⟨[], right⟩ :: after, kept⟩
  | answer (before after : List (Stretch α β)) (answers : List β) (rest : List α)
      (kept : Option ε) {x : α} {y : β} (asked : ask x = .ok y) :
    Step ask ⟨before ++ ⟨answers, x :: rest⟩ :: after, kept⟩
      ⟨before ++ ⟨answers ++ [y], rest⟩ :: after, kept⟩
  | fail (before after : List (Stretch α β)) (answers : List β) (rest : List α)
      (kept : Option ε) {x : α} {e keep : ε} (asked : ask x = .error e)
      (one : keep = e ∨ kept = some keep) :
    Step ask ⟨before ++ ⟨answers, x :: rest⟩ :: after, kept⟩
      ⟨before ++ ⟨answers, []⟩ :: after, some keep⟩
  | leave (before after : List (Stretch α β)) (answers : List β) (rest : List α) (e : ε) :
    Step ask ⟨before ++ ⟨answers, rest⟩ :: after, some e⟩
      ⟨before ++ ⟨answers, []⟩ :: after, some e⟩

abbrev Run (ask : α → Except ε β) : State α β ε → State α β ε → Prop :=
  Relation.ReflTransGen (Step ask)

def State.Done (s : State α β ε) : Prop := ∀ p ∈ s.stretches, p.rest = []

def settle (kept : Option ε) (answers : List β) : Except ε (List β) :=
  match kept with
  | none => .ok answers
  | some e => .error e

def State.outcome (s : State α β ε) : Except ε (List β) :=
  settle s.kept (s.stretches.flatMap Stretch.answers)

theorem settle_eq_ok_iff {kept : Option ε} {answers ys : List β} :
    settle kept answers = .ok ys ↔ kept = none ∧ answers = ys := by
  cases kept <;> simp [settle]

theorem settle_eq_error_iff {kept : Option ε} {answers : List β} {e : ε} :
    settle kept answers = .error e ↔ kept = some e := by
  cases kept <;> simp [settle]

/-- Some schedule of the list ends like this. -/
def Ends (ask : α → Except ε β) (xs : List α) (outcome : Except ε (List β)) : Prop :=
  ∃ s, Run ask (.start xs) s ∧ s.Done ∧ s.outcome = outcome

section Invariant
variable {ask : α → Except ε β} {xs : List α}

/-- What was answered and what is still to come. -/
def Stretch.outlook (ask : α → Except ε β) (p : Stretch α β) : List (Except ε β) :=
  p.answers.map .ok ++ p.rest.map ask

/-- Without a failure nothing is lost, moved or asked twice; a failure is that of an item. -/
structure Faithful (ask : α → Except ε β) (xs : List α) (s : State α β ε) : Prop where
  whole : s.kept = none → s.stretches.flatMap (Stretch.outlook ask) = xs.map ask
  within : s.stretches.flatMap Stretch.rest ⊆ xs
  source : ∀ e, s.kept = some e → ∃ x ∈ xs, ask x = .error e

theorem faithful_start : Faithful ask xs (.start xs) where
  whole := by
    intro _
    simp [State.start, Stretch.outlook]
  within := by simp [State.start]
  source := by
    intro e kept
    cases kept

theorem Step.faithful {s t : State α β ε} (step : Step ask s t) (faithful : Faithful ask xs s) :
    Faithful ask xs t := by
  obtain ⟨whole, within, source⟩ := faithful
  cases step with
  | split before after answers left right kept =>
    refine ⟨?_, ?_, source⟩
    · intro none
      rw [← whole none]
      simp [Stretch.outlook]
    · simpa using within
  | answer before after answers rest kept asked =>
    refine ⟨?_, ?_, source⟩
    · intro none
      rw [← whole none]
      simp [Stretch.outlook, asked]
    · simp only [List.flatMap_append, List.flatMap_cons, List.append_subset, List.cons_subset]
        at within ⊢
      exact ⟨within.1, within.2.1.2, within.2.2⟩
  | @fail before after answers rest kept x e keep asked one =>
    simp only [List.flatMap_append, List.flatMap_cons, List.append_subset, List.cons_subset]
      at within
    refine ⟨?_, ?_, ?_⟩
    · intro none
      cases none
    · simp only [List.flatMap_append, List.flatMap_cons, List.append_subset]
      exact ⟨within.1, List.nil_subset xs, within.2.2⟩
    · rintro _ ⟨⟩
      rcases one with rfl | earlier
      · exact ⟨x, within.2.1.1, asked⟩
      · exact source keep earlier
  | leave before after answers rest e =>
    refine ⟨?_, ?_, source⟩
    · intro none
      cases none
    · simp only [List.flatMap_append, List.flatMap_cons, List.append_subset] at within ⊢
      exact ⟨within.1, List.nil_subset xs, within.2.2⟩

theorem Run.faithful {s t : State α β ε} (run : Run ask s t) (faithful : Faithful ask xs s) :
    Faithful ask xs t := by
  induction run with
  | refl => exact faithful
  | tail _ step ih => exact step.faithful ih

theorem outlook_done {stretches : List (Stretch α β)} (done : ∀ p ∈ stretches, p.rest = []) :
    stretches.flatMap (Stretch.outlook ask) =
      (stretches.flatMap Stretch.answers).map Except.ok := by
  induction stretches with
  | nil => rfl
  | cons p ps ih =>
    have rest := ih fun q member => done q (List.mem_cons_of_mem p member)
    have finished := done p List.mem_cons_self
    simp [Stretch.outlook, rest, finished]

theorem Ends.answers {ys : List β} (ends : Ends ask xs (.ok ys)) :
    xs.map ask = ys.map .ok := by
  obtain ⟨s, run, done, outcome⟩ := ends
  obtain ⟨none, rfl⟩ := settle_eq_ok_iff.mp outcome
  rw [← (run.faithful faithful_start).whole none, outlook_done done]

theorem Ends.failure {e : ε} (ends : Ends ask xs (.error e)) : ∃ x ∈ xs, ask x = .error e := by
  obtain ⟨s, run, -, outcome⟩ := ends
  exact (run.faithful faithful_start).source e (settle_eq_error_iff.mp outcome)

theorem map_eq_map_ok_iff {ys : List β} : xs.map ask = ys.map .ok ↔ ys.length = xs.length ∧
    ∀ (k : Nat) x, xs[k]? = some x → ∃ y, ys[k]? = some y ∧ ask x = .ok y := by
  constructor
  · intro each
    refine ⟨by simpa using (congrArg List.length each).symm, ?_⟩
    intro k x item
    have entry := congrArg (·[k]?) each
    simp only [List.getElem?_map, item, Option.map_some] at entry
    obtain ⟨y, answer, asked⟩ := Option.map_eq_some_iff.mp entry.symm
    exact ⟨y, answer, asked.symm⟩
  · rintro ⟨long, entries⟩
    apply List.ext_getElem?
    intro k
    simp only [List.getElem?_map]
    cases item : xs[k]? with
    | none =>
      have beyond : ys[k]? = none := by
        simp only [List.getElem?_eq_none_iff] at item ⊢
        omega
      rw [beyond]
      rfl
    | some x =>
      obtain ⟨y, answer, asked⟩ := entries k x item
      rw [answer, Option.map_some, Option.map_some, asked]

theorem Ends.eq_ok_iff {outcome : Except ε (List β)} (ends : Ends ask xs outcome) (ys : List β) :
    outcome = .ok ys ↔ xs.map ask = ys.map .ok := by
  constructor
  · rintro rfl
    exact ends.answers
  · intro each
    cases outcome with
    | ok zs =>
      have same := ends.answers.symm.trans each
      have distinct : ∀ y z : β, (Except.ok y : Except ε β) = .ok z → y = z :=
        fun _ _ => Except.ok.inj
      rw [(List.map_inj_right distinct).mp same]
    | error e =>
      obtain ⟨x, member, failed⟩ := ends.failure
      have listed : Except.error e ∈ xs.map ask := List.mem_map.mpr ⟨x, member, failed⟩
      rw [each] at listed
      obtain ⟨y, -, answered⟩ := List.mem_map.mp listed
      cases answered

end Invariant

section Plans
variable {ask : α → Except ε β}

/-- A stretch that was not begun can be brought to this outcome whatever stands around it. -/
def Reaches (ask : α → Except ε β) (xs : List α) (outcome : Except ε (List β)) : Prop :=
  ∀ before after : List (Stretch α β), ∃ s : State α β ε, s.Done ∧ s.outcome = outcome ∧
    Run ask ⟨before ++ ⟨[], xs⟩ :: after, none⟩ ⟨before ++ s.stretches ++ after, s.kept⟩

theorem run_in_order (ask : α → Except ε β) (xs : List α) (answers : List β)
    (before after : List (Stretch α β)) :
    ∃ given kept, settle kept given = (xs.mapM ask).map (answers ++ ·) ∧
      Run ask ⟨before ++ ⟨answers, xs⟩ :: after, none⟩
        ⟨before ++ ⟨given, []⟩ :: after, kept⟩ := by
  induction xs generalizing answers with
  | nil => exact ⟨answers, none, by simp [settle, Except.map], .refl⟩
  | cons x xs ih =>
    rw [List.mapM_cons]
    cases asked : ask x with
    | error e =>
      exact ⟨answers, some e, rfl, .single (.fail before after answers xs none asked (.inl rfl))⟩
    | ok y =>
      obtain ⟨given, kept, outcome, run⟩ := ih (answers ++ [y])
      refine ⟨given, kept, ?_, .head (.answer before after answers xs none asked) run⟩
      rw [outcome]
      cases xs.mapM ask with
      | error e => rfl
      | ok ys => simp [Except.map]

theorem reaches_whole (xs : List α) : Reaches ask xs (xs.mapM ask) := by
  intro before after
  obtain ⟨given, kept, outcome, run⟩ := run_in_order ask xs [] before after
  refine ⟨⟨[⟨given, []⟩], kept⟩, by simp [State.Done], ?_, by simpa using run⟩
  simp only [State.outcome, List.flatMap_singleton, outcome]
  cases xs.mapM ask <;> rfl

theorem done_append {ps qs : List (Stretch α β)} (hp : ∀ p ∈ ps, p.rest = [])
    (hq : ∀ p ∈ qs, p.rest = []) : ∀ p ∈ ps ++ qs, p.rest = [] := by
  intro p member
  rcases List.mem_append.mp member with first | second
  · exact hp p first
  · exact hq p second

section Halves
variable {xs ys : List α} {l r : Except ε (List β)} (left : Reaches ask xs l)
  (right : Reaches ask ys r)
include left right

theorem reaches_left_first :
    Reaches ask (xs ++ ys) (do let as ← l; let bs ← r; return as ++ bs) := by
  intro before after
  have cut : Step ask _ _ := .split before after [] xs ys none
  obtain ⟨s, done, outcome, run⟩ := left before (⟨[], ys⟩ :: after)
  cases l with
  | error e =>
    have kept : s.kept = some e := settle_eq_error_iff.mp outcome
    have given_up : Step ask _ _ := .leave (before ++ s.stretches) after [] ys e
    rw [kept] at run
    refine ⟨⟨s.stretches ++ [⟨[], []⟩], some e⟩, ?_, rfl, ?_⟩
    · exact done_append done (by simp)
    · simpa using (Relation.ReflTransGen.head cut run).tail given_up
  | ok as =>
    obtain ⟨kept, answers⟩ := settle_eq_ok_iff.mp outcome
    rw [kept] at run
    obtain ⟨t, done', outcome', run'⟩ := right (before ++ s.stretches) after
    refine ⟨⟨s.stretches ++ t.stretches, t.kept⟩, done_append done done', ?_, ?_⟩
    · rw [← outcome', State.outcome, State.outcome, List.flatMap_append, answers]
      cases t.kept <;> rfl
    · simpa using (Relation.ReflTransGen.head cut run).trans run'

theorem reaches_right_first :
    Reaches ask (xs ++ ys) (do let bs ← r; let as ← l; return as ++ bs) := by
  intro before after
  have cut : Step ask _ _ := .split before after [] xs ys none
  obtain ⟨t, done, outcome, run⟩ := right (before ++ [⟨[], xs⟩]) after
  simp only [List.append_assoc, List.singleton_append] at run
  cases r with
  | error e =>
    have kept : t.kept = some e := settle_eq_error_iff.mp outcome
    have given_up : Step ask _ _ := .leave before (t.stretches ++ after) [] xs e
    rw [kept] at run
    refine ⟨⟨⟨[], []⟩ :: t.stretches, some e⟩, ?_, rfl, ?_⟩
    · exact List.forall_mem_cons.mpr ⟨rfl, done⟩
    · simpa using (Relation.ReflTransGen.head cut run).tail given_up
  | ok bs =>
    obtain ⟨kept, answers⟩ := settle_eq_ok_iff.mp outcome
    rw [kept] at run
    obtain ⟨s, done', outcome', run'⟩ := left before (t.stretches ++ after)
    refine ⟨⟨s.stretches ++ t.stretches, s.kept⟩, done_append done' done, ?_, ?_⟩
    · rw [← outcome', State.outcome, State.outcome, List.flatMap_append, answers]
      cases s.kept <;> rfl
    · simpa using (Relation.ReflTransGen.head cut run).trans run'

end Halves

theorem run_split (cut : Nat) (leftFirst : Bool) (left right : Plan) (xs : List α) :
    (Plan.split cut leftFirst left right).run ask xs =
      if leftFirst then do
        let as ← left.run ask (xs.take cut)
        let bs ← right.run ask (xs.drop cut)
        return as ++ bs
      else do
        let bs ← right.run ask (xs.drop cut)
        let as ← left.run ask (xs.take cut)
        return as ++ bs := by
  simp only [Plan.run]
  cases left.run ask (xs.take cut) <;> cases right.run ask (xs.drop cut) <;>
    cases leftFirst <;> rfl

theorem reaches_run (plan : Plan) (xs : List α) : Reaches ask xs (plan.run ask xs) := by
  induction plan generalizing xs with
  | whole => exact reaches_whole xs
  | split cut leftFirst left right ihl ihr =>
    have halves := List.take_append_drop cut xs
    rw [run_split]
    cases leftFirst with
    | true =>
      have both := reaches_left_first (ihl (xs.take cut)) (ihr (xs.drop cut))
      rwa [halves] at both
    | false =>
      have both := reaches_right_first (ihl (xs.take cut)) (ihr (xs.drop cut))
      rwa [halves] at both

theorem ends_run (plan : Plan) (xs : List α) : Ends ask xs (plan.run ask xs) := by
  obtain ⟨s, done, outcome, run⟩ := reaches_run plan xs [] []
  rw [List.nil_append, List.append_nil] at run
  exact ⟨s, run, done, outcome⟩

end Plans
end MercatorGrid.Schedule
