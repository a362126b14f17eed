import MercatorGrid.Proofs.Decimal.Grammar
import MercatorGrid.Proofs.Decimal.Rounding
import MercatorGrid.Decimal.Text
import Mathlib.Data.List.DropRight

namespace MercatorGrid.Decimal
open Numeral

section Places

def lastDigits : ℕ → ℕ → List Char
  | 0, _ => []
  | p + 1, c => lastDigits p (c / 10) ++ [Nat.digitChar (c % 10)]

theorem length_lastDigits (p c : ℕ) : (lastDigits p c).length = p := by
  induction p generalizing c with
  | zero => rfl
  | succ p ih => rw [lastDigits, List.length_append, ih, List.length_singleton]

theorem isDigit_digitChar {d : ℕ} (small : d < 10) : (Nat.digitChar d).isDigit = true :=
  Nat.isDigit_of_mem_toDigits (b := 10) (n := d) (by norm_num) le_rfl
    (by rw [Nat.toDigits_of_lt_base small]; exact List.mem_singleton_self _)

theorem digits_lastDigits (p c : ℕ) : Digits (lastDigits p c) := by
  induction p generalizing c with
  | zero => exact fun _ none => absurd none List.not_mem_nil
  | succ p ih =>
    refine List.forall_mem_append.mpr ⟨ih _, List.forall_mem_singleton.mpr ?_⟩
    exact isDigit_digitChar (Nat.mod_lt c (by norm_num))

theorem digits_toDigits (n : ℕ) : Digits (Nat.toDigits 10 n) := fun _ =>
  Nat.isDigit_of_mem_toDigits (by norm_num) le_rfl

theorem padded_eq (p c : ℕ) :
    List.replicate (p + 1 - (Nat.toDigits 10 c).length) '0' ++ Nat.toDigits 10 c =
      Nat.toDigits 10 (c / 10 ^ p) ++ lastDigits p c := by
  induction p generalizing c with
  | zero =>
    have some : 0 < (Nat.toDigits 10 c).length := Nat.length_toDigits_pos
    rw [show 0 + 1 - (Nat.toDigits 10 c).length = 0 by omega, pow_zero, Nat.div_one, lastDigits,
      List.append_nil]
    rfl
  | succ p ih =>
    have quotient : c / 10 ^ (p + 1) = c / 10 / 10 ^ p := by
      rw [pow_succ', Nat.div_div_eq_div_mul]
    rw [quotient, lastDigits, ← List.append_assoc, ← ih (c / 10)]
    by_cases small : c < 10
    · have none : c / 10 = 0 := by omega
      rw [Nat.toDigits_of_lt_base small, none, Nat.toDigits_zero, Nat.mod_eq_of_lt small,
        List.length_singleton, List.length_singleton, Nat.add_sub_cancel, Nat.add_sub_cancel,
        List.replicate_succ']
    · rw [Nat.toDigits_of_base_le (by norm_num) (not_lt.mp small), List.length_append,
        List.length_singleton, Nat.add_sub_add_right, List.append_assoc]

theorem ofDigitChars_places (p c : ℕ) :
    Nat.ofDigitChars 10 (Nat.toDigits 10 (c / 10 ^ p) ++ lastDigits p c) 0 = c := by
  rw [← padded_eq, Nat.ofDigitChars_append, Nat.ofDigitChars_replicate_zero, mul_zero,
    Nat.ofDigitChars_ten_toDigits]

end Places

section Positional

theorem positional_of_places {p : ℕ} (some : 0 < p) (c : ℕ) (wholePoint : Bool) :
    positional ⟨c, -p⟩ wholePoint =
      Nat.toDigits 10 (c / 10 ^ p) ++ '.' :: lastDigits p c := by
  have part : ¬ (0 : ℤ) ≤ -p := by omega
  have length : (Nat.toDigits 10 (c / 10 ^ p) ++ lastDigits p c).length - p =
      (Nat.toDigits 10 (c / 10 ^ p)).length := by
    rw [List.length_append, length_lastDigits, Nat.add_sub_cancel]
  simp only [positional, if_neg part, neg_neg, Int.toNat_natCast, padded_eq, length]
  rw [List.take_left, List.drop_left]

theorem positional_of_whole (c k : ℕ) :
    positional ⟨c, k⟩ false = Nat.toDigits 10 c ++ List.replicate k '0' := by
  simp [positional]

theorem mantissa_positional (d : Decimal) (wholePoint : Bool) : ∃ n places,
    Mantissa (d.positional wholePoint) n places ∧ (n : ℚ) / 10 ^ places = d.value := by
  obtain ⟨c, e⟩ := d
  rcases lt_or_ge e 0 with part | whole
  · obtain ⟨p, rfl⟩ : ∃ p : ℕ, e = -p := ⟨(-e).toNat, by omega⟩
    have mantissa := Mantissa.pointed (digits_toDigits (c / 10 ^ p)) (digits_lastDigits p c)
      (by simp)
    rw [ofDigitChars_places, length_lastDigits] at mantissa
    rw [positional_of_places (by omega)]
    refine ⟨c, p, mantissa, ?_⟩
    rw [value, zpow_neg, zpow_natCast, div_eq_mul_inv]
  · obtain ⟨k, rfl⟩ := Int.eq_ofNat_of_zero_le whole
    have digits : Digits (Nat.toDigits 10 c ++ List.replicate k '0') := by
      refine List.forall_mem_append.mpr ⟨digits_toDigits c, fun z zero => ?_⟩
      rw [List.eq_of_mem_replicate zero]
      rfl
    have read (j : ℕ) : Nat.ofDigitChars 10 (Nat.toDigits 10 c ++ List.replicate j '0') 0 =
        10 ^ j * c := by
      rw [Nat.ofDigitChars_append, Nat.ofDigitChars_ten_toDigits, Nat.ofDigitChars_replicate_zero]
    cases wholePoint with
    | false =>
      have mantissa := Mantissa.whole digits (by simp)
      rw [read] at mantissa
      rw [positional_of_whole]
      refine ⟨_, _, mantissa, ?_⟩
      simp [value, mul_comm]
    | true =>
      have zero : Digits (List.replicate 1 '0') := List.forall_mem_singleton.mpr rfl
      have mantissa := Mantissa.pointed digits zero (by simp)
      have last := read (k + 1)
      rw [List.replicate_add, ← List.append_assoc] at last
      rw [last] at mantissa
      refine ⟨_, _, by simpa [positional] using mantissa, ?_⟩
      rw [value]
      push_cast
      rw [zpow_natCast]
      ring

theorem mantissa_scientific (d : Decimal) : ∃ m,
    d.scientific = m ++ 'e' :: (toString d.leading).toList ∧
      Mantissa m d.digits ((Nat.toDigits 10 d.digits).length - 1) := by
  have digits := digits_toDigits d.digits
  have whole : Nat.ofDigitChars 10 (Nat.toDigits 10 d.digits) 0 = d.digits :=
    Nat.ofDigitChars_ten_toDigits
  have some : 0 < (Nat.toDigits 10 d.digits).length := Nat.length_toDigits_pos
  refine ⟨_, rfl, ?_⟩
  generalize Nat.toDigits 10 d.digits = ds at *
  rw [← whole]
  obtain _ | ⟨c, _ | ⟨next, rest⟩⟩ := ds
  · cases some
  · exact .whole digits (by simp)
  · obtain ⟨first, later⟩ := List.forall_mem_cons.mp digits
    have before : Digits [c] := List.forall_mem_singleton.mpr first
    exact .pointed before later (by simp)

theorem exponent_toString (k : ℤ) : Exponent ('e' :: (toString k).toList) k := by
  have written {s : List Char} {negative : Bool} (sign : Sign s negative) (n : ℕ) :
      Exponent ('e' :: (s ++ Nat.toDigits 10 n)) (Binary64.signed negative n) := by
    have one := Exponent.written (.inl rfl) sign (digits_toDigits n)
      (List.ne_nil_of_length_pos Nat.length_toDigits_pos)
    rwa [Nat.ofDigitChars_ten_toDigits] at one
  cases k with
  | ofNat n =>
    have text : (toString (Int.ofNat n)).toList = [] ++ Nat.toDigits 10 n := String.toList_ofList
    rw [text]
    exact written .none n
  | negSucc n =>
    have text : (toString (Int.negSucc n)).toList = ['-'] ++ Nat.toDigits 10 (n + 1) := by
      change ("-" ++ String.ofList (Nat.toDigits 10 (n + 1))).toList = _
      rw [String.toList_append]
      exact congrArg (['-'] ++ ·) String.toList_ofList
    rw [text]
    exact written .minus (n + 1)

theorem spells_withSign (negative : Bool) {m x : List Char} {n places : ℕ} {k : ℤ}
    (mantissa : Mantissa m n places) (exponent : Exponent x k) :
    Spells (withSign negative (m ++ x)) (.decimal negative ⟨n, k - (places : ℤ)⟩) := by
  cases negative with
  | false => exact .decimal .none mantissa exponent
  | true => exact .decimal .minus mantissa exponent

theorem spells_positional (negative : Bool) (d : Decimal) (wholePoint : Bool) : ∃ d' : Decimal,
    Spells (withSign negative (d.positional wholePoint)) (.decimal negative d') ∧
      d'.value = d.value := by
  obtain ⟨n, places, mantissa, same⟩ := mantissa_positional d wholePoint
  have spelled := spells_withSign negative mantissa .none
  rw [List.append_nil] at spelled
  refine ⟨_, spelled, ?_⟩
  rw [← same, value, zero_sub, zpow_neg, zpow_natCast, div_eq_mul_inv]

theorem spells_scientific (negative : Bool) (d : Decimal) :
    Spells (withSign negative d.scientific) (.decimal negative d) := by
  obtain ⟨m, text, mantissa⟩ := mantissa_scientific d
  have some : 0 < (Nat.toDigits 10 d.digits).length := Nat.length_toDigits_pos
  have exponent : d.leading - ((Nat.toDigits 10 d.digits).length - 1 : ℕ) = d.exponent := by
    rw [leading]
    omega
  have spelled := spells_withSign negative mantissa (exponent_toString d.leading)
  rwa [← text, exponent] at spelled

/-- The text is a numeral, and it loses nothing of the value. -/
theorem spells_magnitude (l : Layout) (negative : Bool) (d : Decimal) : ∃ d' : Decimal,
    Spells (withSign negative (l.magnitude d)) (.decimal negative d') ∧ d'.value = d.value := by
  have positional := spells_positional negative d l.wholePoint
  unfold Layout.magnitude
  split
  · exact positional
  · split
    · exact positional
    · exact ⟨d, spells_scientific negative d, rfl⟩

end Positional

section Trim

theorem trim_last {d : Decimal} (some : d.digits ≠ 0) : d.trim.digits % 10 ≠ 0 := by
  fun_induction trim d with
  | case1 d zeros ih =>
    apply ih
    dsimp only
    omega
  | case2 d stop => omega

theorem le_exponent_trim (d : Decimal) : d.exponent ≤ d.trim.exponent := by
  fun_induction trim d with
  | case1 d zeros ih =>
    dsimp only at ih
    omega
  | case2 d stop => exact le_rfl

theorem value_trim_places (p c : ℕ) : (trim ⟨c, -p⟩).value = c / 10 ^ p := by
  rw [value_trim, value, zpow_neg, zpow_natCast, div_eq_mul_inv]

end Trim

section Expansion

/-- The places and the point before them, if there are any. -/
def pointed : List Char → List Char
  | [] => []
  | ps => '.' :: ps

/-- The decimal expansion of `c / 10^p`: all digits of the whole part, and of the places those up to
the last that is not zero. -/
def expansion (p c : ℕ) : List Char :=
  Nat.toDigits 10 (c / 10 ^ p) ++ pointed ((lastDigits p c).rdropWhile (· = '0'))

theorem expansion_zero (c : ℕ) : expansion 0 c = Nat.toDigits 10 c := by
  rw [expansion, pow_zero, Nat.div_one]
  exact List.append_nil _

theorem expansion_ten_mul (p c : ℕ) : expansion (p + 1) (10 * c) = expansion p c := by
  have whole : 10 * c / 10 ^ (p + 1) = c / 10 ^ p := by
    rw [pow_succ', Nat.mul_div_mul_left _ _ (by norm_num)]
  have zero : Nat.digitChar (10 * c % 10) = '0' := by
    rw [Nat.mul_mod_right]
    rfl
  rw [expansion, expansion, whole, lastDigits, zero, Nat.mul_div_cancel_left _ (by norm_num),
    List.rdropWhile_concat_pos _ _ _ (by rfl)]

theorem digitChar_ne_zero {d : ℕ} (small : d < 10) (some : d ≠ 0) : Nat.digitChar d ≠ '0' := by
  interval_cases d <;> first | exact absurd rfl some | decide

theorem expansion_of_last {c : ℕ} (last : c % 10 ≠ 0) {p : ℕ} (some : 0 < p) :
    expansion p c = Nat.toDigits 10 (c / 10 ^ p) ++ '.' :: lastDigits p c := by
  obtain ⟨q, rfl⟩ := Nat.exists_eq_add_of_lt some
  have stays : ¬ decide (Nat.digitChar (c % 10) = '0') = true := by
    simpa using digitChar_ne_zero (Nat.mod_lt c (by norm_num)) last
  rw [expansion, zero_add, lastDigits, List.rdropWhile_concat_neg (· = '0') _ _ stays]
  cases lastDigits q (c / 10) <;> rfl

theorem toDigits_mul_pow {c : ℕ} (some : c ≠ 0) (k : ℕ) :
    Nat.toDigits 10 (c * 10 ^ k) = Nat.toDigits 10 c ++ List.replicate k '0' := by
  induction k with
  | zero => simp
  | succ k ih =>
    have large : 10 ≤ c * 10 ^ (k + 1) := by
      rw [pow_succ, ← mul_assoc]
      exact Nat.le_mul_of_pos_left 10 (Nat.pos_of_ne_zero (by positivity))
    rw [Nat.toDigits_of_base_le (by norm_num) large, pow_succ, ← mul_assoc, Nat.mul_div_cancel _
      (by norm_num), Nat.mul_mod_left, ih, List.replicate_succ', List.append_assoc]
    rfl

theorem positional_trim (d : Decimal) (some : d.digits ≠ 0) : d.trim.positional false =
    expansion (-d.exponent).toNat (d.digits * 10 ^ d.exponent.toNat) := by
  fun_induction trim d with
  | case1 d zeros ih =>
    obtain ⟨c, e⟩ := d
    dsimp only at zeros ih ⊢
    obtain ⟨b, rfl⟩ := Nat.dvd_of_mod_eq_zero zeros.2
    rw [Nat.mul_div_cancel_left _ (by norm_num)] at ih
    rw [Nat.mul_div_cancel_left _ (by norm_num), ih (by omega)]
    rcases lt_or_ge e 0 with part | whole
    · obtain ⟨p, rfl⟩ : ∃ p : ℕ, e = -(p + 1 : ℕ) := ⟨(-e - 1).toNat, by omega⟩
      rw [show (-(-((p + 1 : ℕ) : ℤ) + 1)).toNat = p by omega,
        show (-((p + 1 : ℕ) : ℤ) + 1).toNat = 0 by omega,
        show (-(-((p + 1 : ℕ) : ℤ))).toNat = p + 1 by omega,
        show (-((p + 1 : ℕ) : ℤ)).toNat = 0 by omega, pow_zero, mul_one, mul_one, expansion_ten_mul]
    · obtain ⟨k, rfl⟩ := Int.eq_ofNat_of_zero_le whole
      rw [show (-((k : ℤ) + 1)).toNat = 0 by omega, show ((k : ℤ) + 1).toNat = k + 1 by omega,
        show (-(k : ℤ)).toNat = 0 by omega, Int.toNat_natCast, pow_succ]
      congr 1
      ring
  | case2 d stop =>
    obtain ⟨c, e⟩ := d
    dsimp only at stop some ⊢
    rcases lt_or_ge e 0 with part | whole
    · obtain ⟨p, rfl⟩ : ∃ p : ℕ, e = -p := ⟨(-e).toNat, by omega⟩
      rw [positional_of_places (by omega), neg_neg, Int.toNat_natCast,
        show (-(p : ℤ)).toNat = 0 by omega, pow_zero, mul_one,
        expansion_of_last (by omega) (by omega)]
    · obtain ⟨k, rfl⟩ := Int.eq_ofNat_of_zero_le whole
      rw [positional_of_whole, show (-(k : ℤ)).toNat = 0 by omega, Int.toNat_natCast,
        ← toDigits_mul_pow some, expansion_zero]

theorem positional_trim_places {c : ℕ} (some : c ≠ 0) (p : ℕ) :
    (trim ⟨c, -p⟩).positional false = expansion p c := by
  rw [positional_trim _ some, neg_neg, Int.toNat_natCast, show (-(p : ℤ)).toNat = 0 by omega,
    pow_zero, mul_one]

theorem expansion_of_zero (p : ℕ) : expansion p 0 = positional ⟨0, 0⟩ false := by
  induction p with
  | zero => rfl
  | succ p ih =>
    rw [← ih]
    exact expansion_ten_mul p 0

theorem spells_expansion (negative : Bool) (p c : ℕ) : ∃ d : Decimal,
    Spells (withSign negative (expansion p c)) (.decimal negative d) ∧ d.value = c / 10 ^ p := by
  by_cases zero : c = 0
  · obtain ⟨d, spelled, same⟩ := spells_positional negative ⟨0, 0⟩ false
    rw [zero, expansion_of_zero]
    refine ⟨d, spelled, ?_⟩
    rw [same, value, Nat.cast_zero, zero_mul, zero_div]
  · obtain ⟨d, spelled, same⟩ := spells_positional negative (trim ⟨c, -p⟩) false
    rw [positional_trim_places zero] at spelled
    refine ⟨d, spelled, ?_⟩
    rw [same, value_trim_places]

end Expansion

end MercatorGrid.Decimal
