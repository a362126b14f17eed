import MercatorGrid.Attempt
import Mathlib.Data.List.Forall2

namespace MercatorGrid

section Chains
variable {ε α β : Type}

@[simp] theorem ok_bind (a : α) (next : α → Except ε β) :
    (Except.ok a >>= next) = next a := rfl

@[simp] theorem error_bind (e : ε) (next : α → Except ε β) :
    ((Except.error e : Except ε α) >>= next) = .error e := rfl

@[simp] theorem pure_ok (a : α) : (pure a : Except ε α) = .ok a := rfl

theorem bind_eq_ok_iff {step : Except ε α} {next : α → Except ε β} {b : β} :
    (step >>= next) = .ok b ↔ ∃ a, step = .ok a ∧ next a = .ok b := by
  cases step <;> simp

theorem mapError_eq_ok_iff {η : Type} {f : ε → η} {step : Except ε α} {a : α} :
    step.mapError f = .ok a ↔ step = .ok a := by
  cases step with
  | error e => constructor <;> intro h <;> cases h
  | ok b =>
    constructor <;> intro h <;> cases h <;> rfl

theorem eq_ok_of_toOption {attempt : Except ε α} {a : α} (h : attempt.toOption = some a) :
    attempt = .ok a := by
  cases attempt with
  | error e => cases h
  | ok b => exact congrArg Except.ok (Option.some.inj h)

theorem ok_of_map_toOption {attempt : Except ε α} {part : α → β} {b : β}
    (h : attempt.toOption.map part = some b) : ∃ a, attempt = .ok a ∧ part a = b := by
  obtain ⟨a, present, rfl⟩ := Option.map_eq_some_iff.mp h
  exact ⟨a, eq_ok_of_toOption present, rfl⟩

theorem mapM_ok {step : α → Except ε β} {value : α → β} {xs : List α}
    (each : ∀ x ∈ xs, step x = .ok (value x)) : xs.mapM step = .ok (xs.map value) := by
  induction xs with
  | nil => rfl
  | cons x xs ih =>
    have rest := ih fun y hy => each y (List.mem_cons_of_mem _ hy)
    simp [each x, rest]

theorem mapM_of_forall₂ {step : α → Except ε β} {xs : List α} {ys : List β}
    (each : List.Forall₂ (fun x y => step x = .ok y) xs ys) : xs.mapM step = .ok ys := by
  induction each with
  | nil => rfl
  | cons first _ ih => simp [first, ih]

end Chains

section First
variable {α β ε : Type} {p : α → Prop}

inductive FirstWithout (p : α → Prop) : List α → α → Prop
  | here {x : α} {rest : List α} (lacks : ¬ p x) : FirstWithout p (x :: rest) x
  | later {x y : α} {rest : List α} (has : p y) (first : FirstWithout p rest x) :
    FirstWithout p (y :: rest) x

theorem all_or_firstWithout (p : α → Prop) (xs : List α) :
    (∀ x ∈ xs, p x) ∨ ∃ x, FirstWithout p xs x := by
  induction xs with
  | nil => simp
  | cons x xs ih =>
    by_cases has : p x
    · rcases ih with all | ⟨y, first⟩
      · exact .inl (List.forall_mem_cons.mpr ⟨has, all⟩)
      · exact .inr ⟨y, .later has first⟩
    · exact .inr ⟨x, .here has⟩

theorem FirstWithout.lacks {xs : List α} {x : α} (first : FirstWithout p xs x) : ¬ p x := by
  induction first with
  | here lacks => exact lacks
  | later _ _ ih => exact ih

theorem mapM_of_firstWithout {step : α → Except ε β} {xs : List α} {x : α} {e : ε}
    (first : FirstWithout (fun x => ∃ y, step x = .ok y) xs x) (failed : step x = .error e) :
    xs.mapM step = .error e := by
  induction first with
  | here _ => simp [failed]
  | later has _ ih =>
    obtain ⟨y, stepped⟩ := has
    simp [stepped, ih failed]

theorem find?_of_firstWithout {q : α → Bool} {xs : List α} {x : α}
    (first : FirstWithout (fun x => q x = false) xs x) : xs.find? q = some x := by
  induction first with
  | here lacks => exact List.find?_cons_of_pos (Bool.not_eq_false _ ▸ lacks)
  | later has _ ih => rw [List.find?_cons_of_neg (by simp [has]), ih]

theorem exists_forall₂ {r : α → ε → Prop} {xs : List α} (each : ∀ x ∈ xs, ∃ y, r x y) :
    ∃ ys, List.Forall₂ r xs ys := by
  induction xs with
  | nil => exact ⟨[], .nil⟩
  | cons x xs ih =>
    rw [List.forall_mem_cons] at each
    obtain ⟨⟨y, first⟩, others⟩ := each
    obtain ⟨ys, rest⟩ := ih others
    exact ⟨y :: ys, .cons first rest⟩

end First

namespace Attempt
variable {α : Type}

@[simp] theorem checked_ok (a : α) : (liftM (.ok a : Checked α) : Attempt α) = .ok a := rfl

@[simp] theorem checked_error (f : Fault) :
    (liftM (.error f : Checked α) : Attempt α) = .error (.fault f) := rfl

@[simp] theorem guarded_ok (a : α) :
    (liftM (.ok a : Except Refusal α) : Attempt α) = .ok a := rfl

@[simp] theorem guarded_error (r : Refusal) :
    (liftM (.error r : Except Refusal α) : Attempt α) = refuse r := rfl

@[simp] theorem refuse_ne_ok (r : Refusal) (a : α) : (refuse r : Attempt α) ≠ .ok a := by
  simp [refuse]

end Attempt

namespace Checked

theorem int64_of_range {n : Int} (low : -9223372036854775808 ≤ n)
    (high : n ≤ 9223372036854775807) : int64 n = .ok n :=
  int64_eq_ok_iff.mpr ⟨rfl, low, high⟩

theorem int64_difference (x y : Int32) :
    int64 (x.toInt - y.toInt) = .ok (x.toInt - y.toInt) := by
  have hx := toInt_range x
  have hy := toInt_range y
  apply int64_of_range <;> omega

theorem word_of_lt {n : Nat} (fits : n < 18446744073709551616) : word n = .ok n :=
  word_eq_ok_iff.mpr ⟨rfl, fits⟩

theorem reserve_of_le {n : Nat} (fits : 8 * n ≤ 9223372036854775807) : reserve n = .ok n :=
  if_pos fits

theorem shiftAmount_of_lt {n : Nat} (fits : n < 64) : shiftAmount n = .ok n := if_pos fits

theorem remainder_of_pos {a b : Nat} (positive : 0 < b) : remainder a b = .ok (a % b) :=
  if_neg (Nat.ne_of_gt positive)

theorem quotient_of_pos {a b : Nat} (positive : 0 < b) : quotient a b = .ok (a / b) :=
  if_neg (Nat.ne_of_gt positive)

end Checked

theorem wrap32_toInt {n : Nat} (fits : n ≤ 2147483647) : (wrap32 n).toInt = n := by
  rw [wrap32, ← Int32.ofInt_eq_ofNat]
  apply Checked.toInt_ofInt_of_range <;> omega

end MercatorGrid
