import MercatorGrid.Text.Blank
import Mathlib.Data.List.TakeWhile
import Mathlib.Tactic.Common

namespace MercatorGrid.Text

section Trim

def Blank (cs : List Char) : Prop := ∀ c ∈ cs, isBlank c = true

def Solid (cs : List Char) : Prop := ∀ c ∈ cs, isBlank c = false

theorem Blank.reverse {cs : List Char} (blank : Blank cs) : Blank cs.reverse :=
  fun c member => blank c (List.mem_reverse.mp member)

theorem Solid.reverse {cs : List Char} (solid : Solid cs) : Solid cs.reverse :=
  fun c member => solid c (List.mem_reverse.mp member)

theorem dropWhile_blank {blanks rest : List Char} (blank : Blank blanks) :
    (blanks ++ rest).dropWhile isBlank = rest.dropWhile isBlank :=
  List.dropWhile_append_of_pos blank

theorem dropWhile_solid {cs rest : List Char} (solid : Solid cs) (some : cs ≠ []) :
    (cs ++ rest).dropWhile isBlank = cs ++ rest := by
  obtain ⟨c, cs, rfl⟩ := List.exists_cons_of_ne_nil some
  exact List.dropWhile_cons_of_neg (by simp [solid c List.mem_cons_self])

theorem trim_padded {before middle after : List Char} (left : Blank before) (right : Blank after)
    (solid : Solid middle) (some : middle ≠ []) : trim (before ++ (middle ++ after)) = middle := by
  rw [trim, dropWhile_blank left, dropWhile_solid solid some, List.reverse_append,
    dropWhile_blank right.reverse, ← List.append_nil middle.reverse,
    dropWhile_solid solid.reverse (by simpa using some), List.append_nil, List.reverse_reverse]

theorem exists_padding (cs : List Char) :
    ∃ before after, Blank before ∧ Blank after ∧ cs = before ++ (trim cs ++ after) := by
  refine ⟨cs.takeWhile isBlank, ((cs.dropWhile isBlank).reverse.takeWhile isBlank).reverse,
    fun _ => List.mem_takeWhile_imp, Blank.reverse fun _ => List.mem_takeWhile_imp, ?_⟩
  rw [trim, ← List.reverse_append, List.takeWhile_append_dropWhile, List.reverse_reverse,
    List.takeWhile_append_dropWhile]

theorem trim_eq_nil_iff {cs : List Char} : trim cs = [] ↔ Blank cs := by
  constructor
  · intro empty
    obtain ⟨before, after, left, right, whole⟩ := exists_padding cs
    rw [whole, empty]
    exact List.forall_mem_append.mpr ⟨left, right⟩
  · intro blank
    have none : (cs ++ []).dropWhile isBlank = [] := dropWhile_blank blank
    rw [List.append_nil] at none
    rw [trim, none]
    rfl

end Trim

section Parts
variable {separator : Char}

/-- The parts between the separators: they hold none and join to the text. -/
structure Parts (separator : Char) (text : List Char) (parts : List (List Char)) : Prop where
  some : parts ≠ []
  free : ∀ part ∈ parts, separator ∉ part
  joined : List.intercalate [separator] parts = text

theorem splitAt_of_free {part : List Char} (free : separator ∉ part) :
    splitAt separator part = [part] := by
  induction part with
  | nil => rfl
  | cons c cs ih =>
    rw [List.mem_cons, not_or] at free
    rw [splitAt, if_neg (Ne.symm free.1), ih free.2]

theorem splitAt_append {part : List Char} (free : separator ∉ part) (rest : List Char) :
    splitAt separator (part ++ separator :: rest) = part :: splitAt separator rest := by
  induction part with
  | nil => rw [List.nil_append, splitAt, if_pos rfl]
  | cons c cs ih =>
    rw [List.mem_cons, not_or] at free
    rw [List.cons_append, splitAt, if_neg (Ne.symm free.1), ih free.2]

theorem splitAt_intercalate {parts : List (List Char)} (some : parts ≠ [])
    (free : ∀ part ∈ parts, separator ∉ part) :
    splitAt separator (List.intercalate [separator] parts) = parts := by
  induction parts with
  | nil => exact absurd rfl some
  | cons part parts ih =>
    rw [List.forall_mem_cons] at free
    cases parts with
    | nil =>
      rw [List.intercalate_singleton]
      exact splitAt_of_free free.1
    | cons next parts =>
      rw [List.intercalate_cons_cons, List.append_assoc, List.singleton_append,
        splitAt_append free.1, ih (by simp) free.2]

theorem splitAt_eq_iff {text : List Char} {parts : List (List Char)} :
    splitAt separator text = parts ↔ Parts separator text parts := by
  constructor
  · rintro rfl
    exact ⟨splitAt_ne_nil _ _, not_mem_of_mem_splitAt _ _, intercalate_splitAt _ _⟩
  · rintro ⟨some, free, rfl⟩
    exact splitAt_intercalate some free

end Parts
end MercatorGrid.Text
