import MercatorGrid.Proofs.Binary64.Conversion

namespace MercatorGrid.Binary64
open Float.Model Float.Model.UnpackedFloat

/-- Where an unpacked number lies: numbers at what they hold, infinities at the ends. -/
inductive Stands : UnpackedFloat → Line → Prop
  | bot : Stands (.infinity .negative) ⊥
  | top : Stands (.infinity .positive) ⊤
  | number {u : UnpackedFloat} {q : ℚ} (holds : Holds u q) : Stands u (q : Line)

theorem stands_unpack {x : Float} {v : Line} (h : Denotes x v) : Stands x.toModel.unpack v := by
  induction v using WithBotTop.rec with
  | coe q => exact .number (holds_unpack h).1
  | bot =>
    unfold Denotes at h
    cases shape : x.toModel.unpack with
    | infinity s =>
      cases s with
      | negative => exact .bot
      | positive => rw [shape] at h; cases h
    | notANumber => rw [shape] at h; cases h
    | zero s => rw [shape] at h; cases h
    | finite s m e positive => rw [shape] at h; cases h
  | top =>
    unfold Denotes at h
    cases shape : x.toModel.unpack with
    | infinity s =>
      cases s with
      | negative => rw [shape] at h; cases h
      | positive => exact .top
    | notANumber => rw [shape] at h; cases h
    | zero s => rw [shape] at h; cases h
    | finite s m e positive => rw [shape] at h; cases h

theorem nan_or_denotes (x : Float) : x.toModel.unpack = .notANumber ∨ ∃ v, Denotes x v := by
  unfold Denotes
  cases x.toModel.unpack with
  | notANumber => exact .inl rfl
  | infinity s => cases s <;> exact .inr ⟨_, rfl⟩
  | zero s => exact .inr ⟨_, rfl⟩
  | finite s m e positive => exact .inr ⟨_, rfl⟩

theorem Denotes.unique {x : Float} {v w : Line} (hv : Denotes x v) (hw : Denotes x w) : v = w :=
  Option.some.inj (hv.symm.trans hw)

theorem eq_of_clip {p q : ℚ} (h : clip p = (q : Line)) : p = q := by
  unfold clip at h
  split at h
  · exact absurd h.symm (WithBotTop.coe_ne_top q)
  · split at h
    · exact absurd h.symm (WithBotTop.coe_ne_bot q)
    · exact WithBotTop.coe_injective h

theorem isFinite_iff {x : Float} : x.isFinite = true ↔ ∃ q : ℚ, Denotes x (q : Line) := by
  change x.toModel.unpack.isFinite = true ↔ _
  constructor
  · intro finite
    unfold Denotes
    cases shape : x.toModel.unpack with
    | notANumber => rw [shape] at finite; cases finite
    | infinity s => rw [shape] at finite; cases finite
    | zero s => exact ⟨_, rfl⟩
    | finite s m e positive => exact ⟨_, rfl⟩
  · rintro ⟨q, h⟩
    have holds := (holds_unpack h).1
    generalize x.toModel.unpack = u at holds
    cases holds <;> rfl

/-- What arithmetic on numbers becomes on the line: its results are rounded and clipped, and the
infinities stay where they are. -/
def rounded (f : ℚ → ℚ) : Line → Line :=
  WithBotTop.rec ⊥ (fun q => clip (nearest (f q))) ⊤

def floorOn : Line → ℤ :=
  WithBotTop.rec (-2147483648) (fun q => max (-2147483648) (min 2147483647 ⌊q⌋)) 2147483647

theorem clip_mono : Monotone clip := by
  intro p q order
  unfold clip
  by_cases large : firstOverflow ≤ q
  · rw [if_pos large]
    exact le_top
  · have small : ¬ firstOverflow ≤ p := fun h => large (h.trans order)
    rw [if_neg large, if_neg small]
    by_cases low : p ≤ -firstOverflow
    · rw [if_pos low]
      exact bot_le
    · have above : ¬ q ≤ -firstOverflow := fun h => low (order.trans h)
      rw [if_neg low, if_neg above]
      exact WithBotTop.coe_le_coe.mpr order

theorem rounded_mono {f : ℚ → ℚ} (mono : Monotone f) : Monotone (rounded f) := by
  intro v w order
  induction v using WithBotTop.rec with
  | bot => exact bot_le
  | top => rw [top_le_iff.mp order]
  | coe p =>
    induction w using WithBotTop.rec with
    | bot => exact absurd (le_bot_iff.mp order) (WithBotTop.coe_ne_bot p)
    | top => exact le_top
    | coe q => exact clip_mono (nearest_mono (mono (WithBotTop.coe_le_coe.mp order)))

theorem floorOn_range (v : Line) : -2147483648 ≤ floorOn v ∧ floorOn v ≤ 2147483647 := by
  induction v using WithBotTop.rec with
  | bot => decide
  | top => decide
  | coe q =>
    change _ ≤ max _ _ ∧ max _ _ ≤ _
    omega

theorem floorOn_mono : Monotone floorOn := by
  intro v w order
  induction v using WithBotTop.rec with
  | bot => exact (floorOn_range w).1
  | top => rw [top_le_iff.mp order]
  | coe p =>
    induction w using WithBotTop.rec with
    | bot => exact absurd (le_bot_iff.mp order) (WithBotTop.coe_ne_bot p)
    | top => exact (floorOn_range _).2
    | coe q =>
      have floors := Int.floor_le_floor (WithBotTop.coe_le_coe.mp order)
      change max _ _ ≤ max _ _
      omega

theorem floor32_eq {x : Float} {v : Line} (h : Denotes x v) : (floor32 x).toInt = floorOn v := by
  have stands := stands_unpack h
  cases v using WithBotTop.rec with
  | coe q => exact floor32_toInt h
  | bot =>
    unfold floor32 read
    generalize x.toModel.unpack = u at stands
    cases stands
    rfl
  | top =>
    unfold floor32 read
    generalize x.toModel.unpack = u at stands
    cases stands
    rfl

theorem compare_coe (p q : ℚ) : compare (p : Line) (q : Line) = compare p q := by
  rcases lt_trichotomy p q with less | rfl | more
  · rw [compare_lt_iff_lt.mpr less, compare_lt_iff_lt.mpr (WithBotTop.coe_lt_coe.mpr less)]
  · rw [compare_eq_iff_eq.mpr rfl, compare_eq_iff_eq.mpr rfl]
  · rw [compare_gt_iff_gt.mpr more, compare_gt_iff_gt.mpr (WithBotTop.coe_lt_coe.mpr more)]

theorem compare_stands {a b : UnpackedFloat} {v w : Line} (ha : Stands a v) (hb : Stands b w) :
    a.compare b = some (compare v w) := by
  cases ha with
  | bot =>
    cases hb with
    | bot => rw [compare_eq_iff_eq.mpr rfl]; rfl
    | top => rw [compare_lt_iff_lt.mpr bot_lt_top]; rfl
    | number holds =>
      rw [compare_lt_iff_lt.mpr (bot_lt_iff_ne_bot.mpr (WithBotTop.coe_ne_bot _))]
      exact (compare_infinite holds).1
  | top =>
    cases hb with
    | bot => rw [compare_gt_iff_gt.mpr bot_lt_top]; rfl
    | top => rw [compare_eq_iff_eq.mpr rfl]; rfl
    | number holds =>
      rw [compare_gt_iff_gt.mpr (lt_top_iff_ne_top.mpr (WithBotTop.coe_ne_top _))]
      cases holds <;> rfl
  | number left =>
    cases hb with
    | bot =>
      rw [compare_gt_iff_gt.mpr (bot_lt_iff_ne_bot.mpr (WithBotTop.coe_ne_bot _))]
      cases left <;> rfl
    | top =>
      rw [compare_lt_iff_lt.mpr (lt_top_iff_ne_top.mpr (WithBotTop.coe_ne_top _))]
      exact (compare_infinite left).2
    | number right => rw [compare_holds left right, compare_coe]

theorem le_iff_compare {x y : Float} : x ≤ y ↔
    (x.toModel.unpack.compare y.toModel.unpack).any Ordering.isLE = true := by
  change (decide (x.toModel ≤ y.toModel)) = true ↔ _
  simp only [decide_eq_true_iff]
  rfl

theorem denotes_le {x y : Float} {v w : Line} (hx : Denotes x v) (hy : Denotes y w) :
    x ≤ y ↔ v ≤ w := by
  rw [le_iff_compare, compare_stands (stands_unpack hx) (stands_unpack hy), Option.any_some,
    Ordering.isLE_iff_ne_gt]
  exact compare_le_iff_le

theorem lt_iff_of_denotes {x y : Float} {v w : Line} (hx : Denotes x v) (hy : Denotes y w) :
    x < y ↔ v < w := by
  rw [lt_iff_compare, compare_stands (stands_unpack hx) (stands_unpack hy), Option.some.injEq]
  exact compare_lt_iff_lt

theorem compare_nan (u : UnpackedFloat) : u.compare .notANumber = none := by
  cases u <;> rfl

theorem points_of_le {x y : Float} (order : x ≤ y) :
    ∃ v w, Denotes x v ∧ Denotes y w ∧ v ≤ w := by
  rcases nan_or_denotes x with nan | ⟨v, hv⟩
  · rw [le_iff_compare, nan] at order
    cases order
  · rcases nan_or_denotes y with nan | ⟨w, hw⟩
    · rw [le_iff_compare, nan, compare_nan] at order
      cases order
    · exact ⟨v, w, hv, hw, (denotes_le hv hw).mp order⟩

theorem le_self_of_le {x y : Float} (order : x ≤ y) : x ≤ x ∧ y ≤ y := by
  obtain ⟨v, w, hv, hw, -⟩ := points_of_le order
  exact ⟨(denotes_le hv hv).mpr (le_refl v), (denotes_le hw hw).mpr (le_refl w)⟩

theorem pointOf_pack_infinity (s : Sign) :
    pointOf (Float.Model.pack (.infinity s)).unpack = pointOf (.infinity s) := by
  cases s <;> rfl

theorem Holds.eq_of_pos {u : UnpackedFloat} {q : ℚ} (h : Holds u q) (positive : 0 < q) :
    ∃ (m : ℕ) (e : ℤ) (nonzero : 0 < m), u = .finite .positive m e nonzero := by
  cases h with
  | zero s => exact absurd positive (lt_irrefl 0)
  | finite s nonzero digits low form =>
    rename_i m e
    cases s with
    | positive => exact ⟨m, e, nonzero, rfl⟩
    | negative =>
      have value : (0 : ℚ) < m * 2 ^ e := mul_pos (by exact_mod_cast nonzero) (two_zpow_pos e)
      exact absurd positive (not_lt.mpr (neg_nonpos.mpr value.le))

-- An infinite operand stays infinite beside a number. In a product the number must not be zero,
-- and it must be positive if the sign is to stay too.
section Constant
variable {x y : Float} {v : Line} {q : ℚ}

theorem denotes_add_number (hx : Denotes x v) (hy : Denotes y q) :
    Denotes (x + y) (rounded (· + q) v) := by
  have left := stands_unpack hx
  have right := (holds_unpack hy).1
  change pointOf (Float.Model.pack (UnpackedFloat.add _ x.toModel.unpack y.toModel.unpack)).unpack
    = some (rounded (· + q) v)
  generalize x.toModel.unpack = a at left ⊢
  generalize y.toModel.unpack = b at right ⊢
  cases left with
  | bot => cases right <;> exact pointOf_pack_infinity .negative
  | top => cases right <;> exact pointOf_pack_infinity .positive
  | number holds => exact pointOf_unpack_pack (holds_add holds right)

theorem denotes_mul_positive (hx : Denotes x v) (hy : Denotes y q) (positive : 0 < q) :
    Denotes (x * y) (rounded (· * q) v) := by
  have left := stands_unpack hx
  have right := (holds_unpack hy).1
  change pointOf (Float.Model.pack (UnpackedFloat.mul _ x.toModel.unpack y.toModel.unpack)).unpack
    = some (rounded (· * q) v)
  obtain ⟨m, e, nonzero, shape⟩ := right.eq_of_pos positive
  generalize x.toModel.unpack = a at left ⊢
  cases left with
  | bot =>
    rw [shape]
    exact pointOf_pack_infinity .negative
  | top =>
    rw [shape]
    exact pointOf_pack_infinity .positive
  | number holds => exact pointOf_unpack_pack (holds_mul holds right)

theorem denotes_div_positive (hx : Denotes x v) (hy : Denotes y q) (positive : 0 < q) :
    Denotes (x / y) (rounded (· / q) v) := by
  have left := stands_unpack hx
  have right := (holds_unpack hy).1
  change pointOf (Float.Model.pack (UnpackedFloat.div _ x.toModel.unpack y.toModel.unpack)).unpack
    = some (rounded (· / q) v)
  obtain ⟨m, e, nonzero, shape⟩ := right.eq_of_pos positive
  generalize x.toModel.unpack = a at left ⊢
  cases left with
  | bot =>
    rw [shape]
    exact pointOf_pack_infinity .negative
  | top =>
    rw [shape]
    exact pointOf_pack_infinity .positive
  | number holds => exact pointOf_unpack_pack (holds_div holds right positive.ne')

theorem factor_of_product {p : ℚ} (hy : Denotes y q) (positive : 0 < q)
    (h : Denotes (x * y) p) : ∃ r : ℚ, Denotes x r ∧ p = nearest (r * q) := by
  rcases nan_or_denotes x with nan | ⟨v, hv⟩
  · change pointOf (Float.Model.pack (UnpackedFloat.mul _ x.toModel.unpack
      y.toModel.unpack)).unpack = some _ at h
    have product : UnpackedFloat.mul Format.binary64 .notANumber y.toModel.unpack =
        .notANumber := by
      cases y.toModel.unpack <;> rfl
    rw [nan, product] at h
    cases h
  · have same := (denotes_mul_positive hv hy positive).unique h
    cases v using WithBotTop.rec with
    | bot => exact absurd same.symm (WithBotTop.coe_ne_bot p)
    | top => exact absurd same.symm (WithBotTop.coe_ne_top p)
    | coe r => exact ⟨r, hv, (eq_of_clip same).symm⟩

end Constant

end MercatorGrid.Binary64
