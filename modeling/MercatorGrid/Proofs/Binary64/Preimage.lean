import MercatorGrid.Proofs.Binary64.Rounding

/-! The numbers that round to one double.
They lie within half a last place of it, those at the ends only for an even significand. Right
below a power of two the doubles are twice as dense, and half of that side belongs to the next. -/
namespace MercatorGrid.Binary64

/-- The one form `m · 2^e` of a positive double. -/
structure Canonical (m : ℕ) (e : ℤ) : Prop where
  positive : 0 < m
  few : m < 2 ^ 53
  low : -1074 ≤ e
  form : 2 ^ 52 ≤ m ∨ e = -1074

/-- A power of two below which the doubles are denser. -/
def Leads (m : ℕ) (e : ℤ) : Prop := m = 2 ^ 52 ∧ -1074 < e

section Place
variable {m : ℕ} {e : ℤ}

theorem lastPlace_of_form (few : m < 2 ^ 53) (low : -1074 ≤ e) (form : 2 ^ 52 ≤ m ∨ e = -1074)
    {y : ℚ} (positive : 0 < y) (least : m * 2 ^ e ≤ y) (less : y < (m + 1) * 2 ^ e) :
    lastPlace y = e := by
  have fine : m = 0 → e ≤ lastPlace y := by
    intro none
    have floor := lastPlace_low y
    omega
  rw [← targetExponent_eq_lastPlace positive least less fine, targetExponent_eq]
  by_cases none : m = 0
  · rw [none, Nat.log2_zero]
    omega
  have most : m.log2 < 53 := (Nat.log2_lt none).mpr few
  rcases form with full | lowest
  · have first := (Nat.le_log2 none).mpr full
    omega
  · omega

theorem Canonical.value_pos (c : Canonical m e) : (0 : ℚ) < m * 2 ^ e :=
  mul_pos (by exact_mod_cast c.positive) (two_zpow_pos e)

theorem Canonical.lastPlace_eq (c : Canonical m e) : lastPlace (m * 2 ^ e) = e := by
  have unit := two_zpow_pos e
  exact lastPlace_of_form c.few c.low c.form c.value_pos le_rfl (by linarith)

theorem Canonical.unique (c : Canonical m e) {n : ℕ} {f : ℤ} (d : Canonical n f)
    (same : (n : ℚ) * 2 ^ f = m * 2 ^ e) : n = m ∧ f = e := by
  have place : f = e := by rw [← d.lastPlace_eq, same, c.lastPlace_eq]
  rw [place] at same
  exact ⟨by exact_mod_cast mul_right_cancel₀ (two_zpow_pos e).ne' same, place⟩

theorem div_two_zpow_sub_one (y : ℚ) (e : ℤ) : y / 2 ^ (e - 1) = 2 * (y / 2 ^ e) := by
  rw [zpow_sub_one₀ (by norm_num)]
  field_simp

theorem nearest_of_carry (low : -1074 < e) {y : ℚ} (positive : 0 < y)
    (least : 2 ^ 52 - 1 / 4 ≤ y / 2 ^ e) (less : y / 2 ^ e < 2 ^ 52) :
    nearest y = (2 ^ 52 : ℕ) * 2 ^ e := by
  have unit := two_zpow_pos (e - 1)
  have place : lastPlace y = e - 1 := by
    refine lastPlace_of_form (m := 2 ^ 53 - 1) (by norm_num) (by omega) (.inl (by norm_num))
      positive ((le_div_iff₀ unit).mp ?_) ((div_lt_iff₀ unit).mp ?_)
    · rw [div_two_zpow_sub_one]
      norm_num at least ⊢
      linarith
    · rw [div_two_zpow_sub_one]
      norm_num at less ⊢
      linarith
  have carry : nearestEven (y / 2 ^ (e - 1)) = 2 ^ 53 := by
    apply nearestEven_eq
    have error : |((2 ^ 53 : ℤ) : ℚ) - 2 * (y / 2 ^ e)| ≤ 1 / 2 := by
      rw [abs_le]
      norm_num at least less ⊢
      constructor <;> linarith
    rw [div_two_zpow_sub_one]
    exact error.lt_or_eq.imp_right fun half => ⟨half, by norm_num⟩
  rw [nearest, digits, place, carry, zpow_sub_one₀ (by norm_num)]
  push_cast
  ring

end Place

section Preimage
variable {m : ℕ} {e : ℤ} {y : ℚ} (c : Canonical m e)
include c

theorem pos_of_nearest (near : nearest y = m * 2 ^ e) : 0 < y := by
  by_contra negative
  have below := nearest_mono (not_lt.mp negative)
  rw [near, nearest_zero] at below
  exact absurd c.value_pos (not_lt.mpr below)

theorem digits_of_nearest (near : nearest y = m * 2 ^ e) : lastPlace y = e ∧ digits y = m ∨
    lastPlace y = e - 1 ∧ digits y = 2 ^ 53 ∧ Leads m e := by
  have positive := pos_of_nearest c near
  have value := c.value_pos
  have same : (digits y : ℚ) * 2 ^ lastPlace y = m * 2 ^ e := near
  rw [← same] at value
  have some : 0 < digits y := by exact_mod_cast pos_of_mul_pos_left value (two_zpow_pos _).le
  have low := lastPlace_low y
  have form : 2 ^ 52 ≤ digits y ∨ lastPlace y = -1074 := by
    by_cases lowest : lastPlace y = -1074
    · exact .inr lowest
    · exact .inl (le_digits positive (by omega))
  have few := (abs_le.mp (abs_digits_le y)).2
  obtain ⟨k, whole⟩ := Int.eq_ofNat_of_zero_le some.le
  rw [whole] at same some form few ⊢
  rw [Int.cast_natCast] at same
  rcases few.lt_or_eq with less | carry
  · have full : Canonical k (lastPlace y) := ⟨by omega, by omega, low, by omega⟩
    obtain ⟨rfl, place⟩ := c.unique full same
    exact .inl ⟨place, rfl⟩
  -- a full row of digits has become a power of two, one place higher
  · have full : Canonical (2 ^ 52) (lastPlace y + 1) :=
      ⟨by norm_num, by norm_num, by omega, .inl le_rfl⟩
    have carried : ((2 ^ 52 : ℕ) : ℚ) * 2 ^ (lastPlace y + 1) = m * 2 ^ e := by
      rw [← same, show (k : ℚ) = 2 ^ 53 by exact_mod_cast carry, zpow_add_one₀ (by norm_num)]
      push_cast
      ring
    obtain ⟨power, place⟩ := c.unique full carried
    exact .inr ⟨by omega, carry, power.symm, by omega⟩

theorem near_of_nearest (near : nearest y = m * 2 ^ e) :
    Near (y / 2 ^ e) m ∧ (Leads m e → (m : ℚ) - 1 / 4 ≤ y / 2 ^ e) := by
  have positive := pos_of_nearest c near
  have rounded : Near (y / 2 ^ lastPlace y) (digits y) := near_nearestEven _
  rcases digits_of_nearest c near with ⟨place, same⟩ | ⟨place, carry, power, -⟩
  · rw [place, same] at rounded
    refine ⟨rounded, fun leads => ?_⟩
    have least := le_abs_of_lastPlace positive.ne' (by rw [place]; exact leads.2)
    rw [abs_of_pos positive, place, add_comm, zpow_add₀ (by norm_num),
      ← le_div_iff₀ (two_zpow_pos e)] at least
    rw [leads.1]
    norm_num at least ⊢
    linarith
  · rw [place, carry, div_two_zpow_sub_one] at rounded
    have sides := abs_le.mp rounded.error
    rw [power]
    norm_num at sides ⊢
    refine ⟨.inl (abs_lt.mpr ?_), fun _ => ?_⟩
    · push_cast
      constructor <;> linarith
    · linarith

theorem nearest_of_near (near : Near (y / 2 ^ e) m)
    (quarter : Leads m e → (m : ℚ) - 1 / 4 ≤ y / 2 ^ e) : nearest y = m * 2 ^ e := by
  have unit := two_zpow_pos e
  have one : (1 : ℚ) ≤ m := by exact_mod_cast c.positive
  obtain ⟨above, below⟩ := abs_le.mp near.error
  rw [Int.cast_natCast] at above below
  have positive : 0 < y := (div_pos_iff_of_pos_right unit).mp (by linarith)
  have settled : lastPlace y = e → nearest y = m * 2 ^ e := by
    intro place
    rw [nearest, digits, place, nearestEven_eq near, Int.cast_natCast]
  rcases le_or_gt (m : ℚ) (y / 2 ^ e) with up | down
  · exact settled (lastPlace_of_form c.few c.low c.form positive ((le_div_iff₀ unit).mp up)
      ((div_lt_iff₀ unit).mp (by linarith)))
  by_cases leads : Leads m e
  · have close := quarter leads
    rw [leads.1] at close down ⊢
    exact nearest_of_carry leads.2 positive (by exact_mod_cast close) (by exact_mod_cast down)
  · have before : ((m - 1 : ℕ) : ℚ) = m - 1 := by
      rw [Nat.cast_sub c.positive, Nat.cast_one]
    have form : 2 ^ 52 ≤ m - 1 ∨ e = -1074 := by
      have canonical := c.form
      have low := c.low
      rw [Leads] at leads
      omega
    have few := c.few
    refine settled (lastPlace_of_form (m := m - 1) (by omega) c.low form positive
      ((le_div_iff₀ unit).mp ?_) ((div_lt_iff₀ unit).mp ?_))
    · rw [before]
      linarith
    · rw [before]
      linarith

/-- A number rounds to a double exactly when the double's digits are nearest to it in last places
and it does not lie below the middle of a denser side. -/
theorem nearest_eq_iff : nearest y = m * 2 ^ e ↔
    Near (y / 2 ^ e) m ∧ (Leads m e → (m : ℚ) - 1 / 4 ≤ y / 2 ^ e) :=
  ⟨near_of_nearest c, fun ⟨near, quarter⟩ => nearest_of_near c near quarter⟩

end Preimage
end MercatorGrid.Binary64
