import MercatorGrid.CommandLine.QueryText
import MercatorGrid.Proofs.Decimal.Grammar
import MercatorGrid.Proofs.Decimal.Written
import MercatorGrid.Proofs.Envelope.Conversion
import MercatorGrid.Proofs.Text.Parts

/-! Queries written as text.
A text is read exactly when its parts between commas are four numerals whose doubles become the
bounds of a valid envelope; otherwise the first stage that fails is reported, and within it the
leftmost part. A numeral that writes a whole number of units becomes that number, however it is
spelled. -/
namespace MercatorGrid.CommandLine
open Binary64 FixedPoint Numeral Envelope Text

/-- A numeral with nothing but blanks around it. -/
inductive Padded : List Char → Numeral → Prop
  | mk {before literal after : List Char} {n : Numeral} (left : Blank before)
    (right : Blank after) (spelled : Spells literal n) : Padded (before ++ (literal ++ after)) n

section Characters

theorem outside_of_isBlank {c : Char} (blank : isBlank c = true) :
    c.toNat ≤ 32 ∨ 133 ≤ c.toNat := by
  simp only [isBlank, blankRanges, List.any_cons, List.any_nil, Bool.or_false, Bool.or_eq_true,
    Bool.and_eq_true, decide_eq_true_iff] at blank
  omega

theorem glyph_range {c : Char} (glyph : Glyph c) :
    43 ≤ c.toNat ∧ c.toNat ≤ 122 ∧ c.toNat ≠ 44 := by
  rcases glyph with digit | sign | letter
  · have range := Char.isDigit_iff_toNat.mp digit
    change 48 ≤ c.toNat ∧ c.toNat ≤ 57 at range
    omega
  · simp only [List.mem_cons, List.not_mem_nil, or_false] at sign
    rcases sign with rfl | rfl | rfl <;> decide
  · by_cases outside : c.toNat < 65 ∨ 90 < c.toNat
    · rw [toLower_of_outside outside] at letter
      have range := letter_range c letter
      omega
    · omega

theorem solid_of_spells {literal : List Char} {n : Numeral} (spelled : Spells literal n) :
    Solid literal := by
  intro c member
  have range := glyph_range (glyphs_of_spells spelled c member)
  by_contra blank
  rw [Bool.not_eq_false] at blank
  have outside := outside_of_isBlank blank
  omega

theorem no_comma_of_padded {text : List Char} {n : Numeral} (padded : Padded text n) :
    ',' ∉ text := by
  have blanks : ∀ {cs}, Blank cs → ',' ∉ cs := by
    intro cs blank member
    cases blank ',' member
  cases padded with
  | mk left right spelled =>
    simp only [List.mem_append, not_or]
    refine ⟨blanks left, fun member => ?_, blanks right⟩
    have range := glyph_range (glyphs_of_spells spelled ',' member)
    exact range.2.2 rfl

end Characters

section Part
variable {text : List Char}

theorem padded_iff {n : Numeral} : Padded text n ↔ Spells (trim text) n := by
  constructor
  · rintro ⟨left, right, spelled⟩
    rwa [trim_padded left right (solid_of_spells spelled) (ne_nil_of_spells spelled)]
  · intro spelled
    obtain ⟨before, after, left, right, whole⟩ := exists_padding text
    rw [whole]
    exact .mk left right spelled

theorem padded_of_spells {numeral : Numeral} (spelled : Spells text numeral) :
    Padded text numeral := by
  have blank : Text.Blank [] := fun _ none => absurd none List.not_mem_nil
  rw [← List.append_nil text, ← List.nil_append (text ++ [])]
  exact .mk blank blank spelled

theorem padded_of_parse {n : Numeral} (parsed : (parse (trim text)).toOption = some n) :
    Padded text n :=
  padded_iff.mpr (spells_of_parse (eq_ok_of_toOption parsed))

theorem readPart_of_padded {n : Numeral} (padded : Padded text n) :
    readPart text = .ok n.toFloat := by
  rw [readPart, parseDouble, parse_of_spells (padded_iff.mp padded)]
  rfl

theorem readPart_of_not_padded (none : ∀ n, ¬ Padded text n) :
    readPart text = .error (.part text (if text.all isBlank then .empty else .invalid)) := by
  have unspelled : ∀ n, ¬ Spells (trim text) n := fun n spelled => none n (padded_iff.mpr spelled)
  have failed := parse_eq_error_iff.mpr ⟨unspelled, rfl⟩
  have empty : (trim text = []) = (text.all isBlank = true) := by
    rw [trim_eq_nil_iff, List.all_eq_true]
    rfl
  simp only [empty] at failed
  rw [readPart, parseDouble, failed]
  rfl

theorem exists_readPart_iff : (∃ x, readPart text = .ok x) ↔ ∃ n, Padded text n := by
  constructor
  · rintro ⟨x, read⟩
    by_contra none
    rw [readPart_of_not_padded (not_exists.mp none)] at read
    cases read
  · rintro ⟨n, padded⟩
    exact ⟨_, readPart_of_padded padded⟩

end Part

section Query
variable {text : List Char} {parts : List (List Char)} {ns : List Numeral}

/-- The fixed-point value of the double that a numeral stands for. -/
def Converts (n : Numeral) (bound : Int32) : Prop := coordinate n.toFloat = .ok bound

/-- The parts are numerals that become the bounds of a valid envelope, in the order west, east,
south, north. -/
def Accepts (parts : List (List Char)) (e : Envelope) : Prop :=
  ∃ ns, List.Forall₂ Padded parts ns ∧
    List.Forall₂ Converts ns [e.minLon, e.maxLon, e.minLat, e.maxLat] ∧
    e.minLon ≤ e.maxLon ∧ e.minLat ≤ e.maxLat

def inversion (axis : String) (low high : Int32) : String :=
  "Invalid envelope: min " ++ axis ++ " " ++ expand low ++ " exceeds max " ++ axis ++ " " ++
    expand high

theorem inverted_eq_inversion (axis : String) (low high : Int32) :
    "Invalid envelope: " ++ EnvelopeFault.message.inverted axis low high =
      inversion axis low high := by
  have opening : "Invalid envelope: min " = "Invalid envelope: " ++ "min " := by decide
  unfold EnvelopeFault.message.inverted inversion
  dsimp only
  rw [opening]
  simp only [-String.reduceAppend, write_toDegrees, String.append_assoc]

/-- The first stage that fails, what is reported of it, and the text of the report. -/
inductive Rejects : List (List Char) → QueryFault → String → Prop
  | part {parts : List (List Char)} {part : List Char}
    (first : FirstWithout (fun part => ∃ n, Padded part n) parts part) :
    Rejects parts (.part part (if part.all isBlank then .empty else .invalid))
      ("'" ++ String.ofList part ++ "': " ++ if part.all isBlank then
        "cannot parse float from empty string" else "invalid float literal")
  | count {parts : List (List Char)} {ns : List Numeral} (numerals : List.Forall₂ Padded parts ns)
    (other : parts.length ≠ 4) : Rejects parts (.partCount parts.length)
      ("expected 4 comma-separated values, got " ++ toString parts.length)
  | unfit {parts : List (List Char)} {ns : List Numeral} {n : Numeral} {value : String}
    (numerals : List.Forall₂ Padded parts ns) (four : parts.length = 4)
    (first : FirstWithout (fun n => ∃ bound, Converts n bound) ns n)
    (shown : Decimal.Shows .plain n.toFloat value) :
    Rejects parts (.refused (.envelopeInvalid (.unrepresentable n.toFloat)))
      ("Invalid envelope: coordinate " ++ value ++ " cannot be represented in fixed-point degrees")
  | longitudes {parts : List (List Char)} {ns : List Numeral} {west east south north : Int32}
    (numerals : List.Forall₂ Padded parts ns)
    (bounds : List.Forall₂ Converts ns [west, east, south, north]) (inverted : east < west) :
    Rejects parts (.refused (.envelopeInvalid (.invertedLongitude west east)))
      (inversion "longitude" west east)
  | latitudes {parts : List (List Char)} {ns : List Numeral} {west east south north : Int32}
    (numerals : List.Forall₂ Padded parts ns)
    (bounds : List.Forall₂ Converts ns [west, east, south, north]) (ordered : west ≤ east)
    (inverted : north < south) :
    Rejects parts (.refused (.envelopeInvalid (.invertedLatitude south north)))
      (inversion "latitude" south north)

theorem message_of_unrepresentable (x : Float) :
    (QueryFault.refused (.envelopeInvalid (.unrepresentable x))).message =
      "Invalid envelope: coordinate " ++ Decimal.Layout.plain.write x ++
        " cannot be represented in fixed-point degrees" := by
  have opening : "Invalid envelope: coordinate " = "Invalid envelope: " ++ "coordinate " := by
    decide
  unfold QueryFault.message Refusal.message EnvelopeFault.message
  dsimp only
  rw [opening]
  simp only [-String.reduceAppend, String.append_assoc]

theorem rejects_message {fault : QueryFault} {message : String}
    (rejected : Rejects parts fault message) : Rejects parts fault fault.message := by
  cases rejected with
  | part first =>
    convert Rejects.part first using 1
    unfold QueryFault.message
    dsimp only
    split <;> simp only [NumeralFault.message]
  | count numerals other => exact .count numerals other
  | unfit numerals four first =>
    rw [message_of_unrepresentable]
    exact .unfit numerals four first (Decimal.write_shows _ _)
  | longitudes numerals bounds inverted =>
    convert Rejects.longitudes numerals bounds inverted using 1
    exact inverted_eq_inversion "longitude" _ _
  | latitudes numerals bounds ordered inverted =>
    convert Rejects.latitudes numerals bounds ordered inverted using 1
    exact inverted_eq_inversion "latitude" _ _

theorem mapM_readPart (numerals : List.Forall₂ Padded parts ns) :
    parts.mapM readPart = .ok (ns.map Numeral.toFloat) := by
  refine mapM_of_forall₂ ?_
  rw [List.forall₂_map_right_iff]
  exact numerals.imp fun _ _ => readPart_of_padded

theorem readQuery_of_count (cut : Parts ',' text parts) (numerals : List.Forall₂ Padded parts ns)
    (other : parts.length ≠ 4) : readQuery text = .error (.partCount parts.length) := by
  rw [readQuery, splitAt_eq_iff.mpr cut, mapM_readPart numerals, ok_bind]
  rw [numerals.length_eq] at other ⊢
  split
  · rename_i four
    exact absurd (by simpa using congrArg List.length four) other
  · rw [List.length_map]

theorem readQuery_of_four {a b c d : Numeral} (cut : Parts ',' text parts)
    (numerals : List.Forall₂ Padded parts [a, b, c, d]) : readQuery text =
      (ofDegrees a.toFloat b.toFloat c.toFloat d.toFloat).mapError .refused := by
  rw [readQuery, splitAt_eq_iff.mpr cut, mapM_readPart numerals]
  rfl

theorem readQuery_of_accepts {e : Envelope} (cut : Parts ',' text parts)
    (accepted : Accepts parts e) : readQuery text = .ok e := by
  obtain ⟨ns, numerals, bounds, valid⟩ := accepted
  obtain _ | ⟨west, _ | ⟨east, _ | ⟨south, _ | ⟨north, _ | _⟩⟩⟩⟩ := bounds
  rw [readQuery_of_four cut numerals]
  exact mapError_eq_ok_iff.mpr (ofBox_eq_ok_iff (b := ⟨_, _, _, _⟩).mpr
    ⟨west, east, south, north, valid⟩)

theorem readQuery_of_part {part : List Char} (cut : Parts ',' text parts)
    (first : FirstWithout (fun part => ∃ n, Padded part n) parts part) : readQuery text =
      .error (.part part (if part.all isBlank then .empty else .invalid)) := by
  have failed := readPart_of_not_padded (not_exists.mp first.lacks)
  simp only [← exists_readPart_iff] at first
  rw [readQuery, splitAt_eq_iff.mpr cut, mapM_of_firstWithout first failed, error_bind]

theorem readQuery_of_unfit {n : Numeral} (cut : Parts ',' text parts)
    (numerals : List.Forall₂ Padded parts ns) (four : parts.length = 4)
    (first : FirstWithout (fun n => ∃ bound, Converts n bound) ns n) : readQuery text =
      .error (.refused (.envelopeInvalid (.unrepresentable n.toFloat))) := by
  rw [numerals.length_eq] at four
  obtain ⟨a, b, c, d, rfl⟩ := List.length_eq_four.mp four
  simp only [Converts, ← unfit_eq_false_iff] at first
  have found : ([a, b, c, d].map Numeral.toFloat).find? Envelope.unfit = some n.toFloat := by
    rw [List.find?_map]
    exact congrArg (Option.map Numeral.toFloat) (find?_of_firstWithout first)
  have failed := ofBox_of_first (b := ⟨a.toFloat, c.toFloat, b.toFloat, d.toFloat⟩) found
  rw [readQuery_of_four cut numerals]
  exact congrArg (Except.mapError QueryFault.refused) failed

section Inverted
variable {west east south north : Int32}

theorem readQuery_of_bounds (cut : Parts ',' text parts) (numerals : List.Forall₂ Padded parts ns)
    (bounds : List.Forall₂ Converts ns [west, east, south, north]) :
    readQuery text = (Envelope.make west east south north).mapError .refused := by
  obtain _ | ⟨hwest, _ | ⟨heast, _ | ⟨hsouth, _ | ⟨hnorth, _ | _⟩⟩⟩⟩ := bounds
  rw [Converts] at hwest heast hsouth hnorth
  rw [readQuery_of_four cut numerals]
  simp only [ofDegrees, hwest, heast, hsouth, hnorth, ok_bind]

theorem make_of_inverted_longitude (inverted : east < west) (south north : Int32) :
    Envelope.make west east south north =
      .error (.envelopeInvalid (.invertedLongitude west east)) := by
  rw [Envelope.make, check, if_pos inverted]
  rfl

theorem make_of_inverted_latitude (ordered : west ≤ east) (inverted : north < south) :
    Envelope.make west east south north =
      .error (.envelopeInvalid (.invertedLatitude south north)) := by
  rw [Envelope.make, check, if_neg (Int32.not_lt.mpr ordered), if_pos inverted]
  rfl

end Inverted

theorem readQuery_of_rejects {fault : QueryFault} {message : String} (cut : Parts ',' text parts)
    (rejected : Rejects parts fault message) : readQuery text = .error fault := by
  cases rejected with
  | part first => exact readQuery_of_part cut first
  | count numerals other => exact readQuery_of_count cut numerals other
  | unfit numerals four first => exact readQuery_of_unfit cut numerals four first
  | longitudes numerals bounds inverted =>
    rw [readQuery_of_bounds cut numerals bounds, make_of_inverted_longitude inverted]
    rfl
  | latitudes numerals bounds ordered inverted =>
    rw [readQuery_of_bounds cut numerals bounds, make_of_inverted_latitude ordered inverted]
    rfl

theorem accepts_or_rejects (parts : List (List Char)) :
    (∃ e, Accepts parts e) ∨ ∃ fault message, Rejects parts fault message := by
  rcases all_or_firstWithout (fun part => ∃ n, Padded part n) parts with all | ⟨part, first⟩
  case inr => exact .inr ⟨_, _, .part first⟩
  obtain ⟨ns, numerals⟩ := exists_forall₂ all
  by_cases four : parts.length = 4
  case neg => exact .inr ⟨_, _, .count numerals four⟩
  rcases all_or_firstWithout (fun n => ∃ bound, Converts n bound) ns with all | ⟨n, first⟩
  case inr => exact .inr ⟨_, _, .unfit numerals four first (Decimal.write_shows _ _)⟩
  obtain ⟨bounds, converted⟩ := exists_forall₂ all
  rw [numerals.length_eq, converted.length_eq] at four
  obtain ⟨west, east, south, north, rfl⟩ := List.length_eq_four.mp four
  by_cases lons : west ≤ east
  case neg => exact .inr ⟨_, _, .longitudes numerals converted (Int32.not_le.mp lons)⟩
  by_cases lats : south ≤ north
  case neg => exact .inr ⟨_, _, .latitudes numerals converted lons (Int32.not_le.mp lats)⟩
  exact .inl ⟨⟨west, east, south, north⟩, ns, numerals, converted, lons, lats⟩

theorem readQuery_eq_ok_iff_of_parts (cut : Parts ',' text parts) {e : Envelope} :
    readQuery text = .ok e ↔ Accepts parts e := by
  refine ⟨fun read => ?_, readQuery_of_accepts cut⟩
  rcases accepts_or_rejects parts with ⟨other, accepted⟩ | ⟨fault, message, rejected⟩
  · rw [readQuery_of_accepts cut accepted] at read
    cases read
    exact accepted
  · rw [readQuery_of_rejects cut rejected] at read
    cases read

theorem readQuery_eq_error_iff_of_parts (cut : Parts ',' text parts) {fault : QueryFault} :
    readQuery text = .error fault ↔ Rejects parts fault fault.message := by
  refine ⟨fun failed => ?_, readQuery_of_rejects cut⟩
  rcases accepts_or_rejects parts with ⟨other, accepted⟩ | ⟨fault, message, rejected⟩
  · rw [readQuery_of_accepts cut accepted] at failed
    cases failed
  · rw [readQuery_of_rejects cut rejected] at failed
    cases failed
    exact rejects_message rejected

theorem parts_splitAt (text : List Char) : Parts ',' text (splitAt ',' text) :=
  splitAt_eq_iff.mp rfl

theorem not_converts_nan (bound : Int32) : ¬ Converts .nan bound := nofun

theorem not_converts_infinite (negative : Bool) (bound : Int32) :
    ¬ Converts (.infinite negative) bound := by
  cases negative <;> exact nofun

end Query

/-- A text is read as an envelope exactly when its parts between commas are four numerals, blanks
around them being allowed, and the fixed-point values of their doubles are the bounds of the
envelope in order. Otherwise the first stage that fails is reported, and the leftmost part or value
that fails in it; a part that is no numeral is quoted whole. The words for what is no number are
numerals without a fixed-point value. -/
theorem readQuery_exact (text : List Char) :
    (∃ parts, Parts ',' text parts ∧
      (∀ e, readQuery text = .ok e ↔ Accepts parts e) ∧
      (∀ fault, readQuery text = .error fault ↔ Rejects parts fault fault.message)) ∧
    (∀ negative d, Denotes (Numeral.decimal negative d).toFloat
      (clip (nearest (amount negative d)))) ∧
    Numeral.nan.toFloat.isNaN = true ∧
    (∀ negative, Denotes (Numeral.infinite negative).toFloat (if negative then ⊥ else ⊤)) ∧
    (∀ n bound, Converts n bound ↔ Scaled n.toFloat bound.toInt) ∧
    (∀ bound, ¬ Converts .nan bound) ∧
    ∀ negative bound, ¬ Converts (.infinite negative) bound := by
  have cut := parts_splitAt text
  exact ⟨⟨splitAt ',' text, cut, fun _ => readQuery_eq_ok_iff_of_parts cut,
      fun _ => readQuery_eq_error_iff_of_parts cut⟩,
    denotes_decimal, rfl, denotes_word,
    fun _ _ => coordinate_eq_ok_iff.trans ofDegrees?_eq_some_iff, not_converts_nan,
    not_converts_infinite⟩

/-- A word where a number is needed, before bounds in the wrong order; and a part that is no numeral
after a word, among too few parts. -/
theorem readQuery_exact_of_words :
    readQuery "nan,1,-44.4,-44.6".toList =
      .error (.refused (.envelopeInvalid (.unrepresentable notANumber))) ∧
    (QueryFault.refused (.envelopeInvalid (.unrepresentable notANumber))).message =
      "Invalid envelope: coordinate NaN cannot be represented in fixed-point degrees" ∧
    readQuery "-Inf, x".toList = .error (.part [' ', 'x'] .invalid) ∧
    (QueryFault.part [' ', 'x'] .invalid).message = "' x': invalid float literal" := by
  obtain ⟨⟨parts, cut, -, refused⟩, -, -, -, -, word, -⟩ :=
    readQuery_exact "nan,1,-44.4,-44.6".toList
  have four : splitAt ',' "nan,1,-44.4,-44.6".toList =
      ["nan".toList, "1".toList, "-44.4".toList, "-44.6".toList] := by decide +kernel
  obtain rfl := (splitAt_eq_iff.mpr cut).symm.trans four
  have numerals : List.Forall₂ Padded ["nan".toList, "1".toList, "-44.4".toList, "-44.6".toList]
      [.nan, .decimal false ⟨1, 0⟩, .decimal true ⟨444, -1⟩, .decimal true ⟨446, -1⟩] :=
    .cons (padded_of_parse (by decide +kernel)) (.cons (padded_of_parse (by decide +kernel))
      (.cons (padded_of_parse (by decide +kernel)) (.cons (padded_of_parse (by decide +kernel))
        .nil)))
  have unfit := Rejects.unfit numerals rfl (.here fun ⟨bound, converts⟩ => word bound converts)
    (.nan rfl)
  obtain ⟨⟨parts, cut, -, failed⟩, -⟩ := readQuery_exact "-Inf, x".toList
  have two : splitAt ',' "-Inf, x".toList = ["-Inf".toList, [' ', 'x']] := by decide +kernel
  obtain rfl := (splitAt_eq_iff.mpr cut).symm.trans two
  have foreign : ¬ ∃ n, Padded [' ', 'x'] n := by
    rintro ⟨n, padded⟩
    have read := parse_of_spells (padded_iff.mp padded)
    have none : (parse (trim [' ', 'x'])).toOption = none := by decide +kernel
    rw [read] at none
    cases none
  have first : FirstWithout (fun part => ∃ n, Padded part n) ["-Inf".toList, [' ', 'x']]
      [' ', 'x'] :=
    .later ⟨.infinite true, padded_of_parse (by decide +kernel)⟩ (.here foreign)
  have part := Rejects.part first
  have solid : ¬ [' ', 'x'].all isBlank = true := by decide
  rw [if_neg solid] at part
  refine ⟨(refused _).mpr (rejects_message unfit), by decide +kernel,
    (failed _).mpr (rejects_message part), by decide⟩

section Units
variable {text : List Char} {n : Int32}

/-- A numeral with blanks around it whose exact value is the number. -/
def Writes (text : List Char) (q : ℚ) : Prop :=
  ∃ negative d, Padded text (.decimal negative d) ∧ amount negative d = q

def Gives (text : List Char) (bound : Int32) : Prop :=
  ∃ n, Padded text n ∧ Converts n bound

theorem converts_of_nearest {numeral : Numeral}
    (h : Denotes numeral.toFloat ((nearest (n.toInt / 10 ^ 7) : ℚ) : Line)) : Converts numeral n :=
  coordinate_eq_ok_iff.mpr (ofDegrees?_eq_some_iff.mpr (scaled_of_nearest h))

/-- Numerals of one value are rounded to one double, and that of a whole number of units goes back
to it. -/
theorem gives_of_writes (writes : Writes text (n.toInt / 10 ^ 7)) : Gives text n := by
  obtain ⟨negative, d, padded, value⟩ := writes
  have h := denotes_decimal negative d
  rw [value, clip_degrees] at h
  exact ⟨_, padded, converts_of_nearest h⟩

theorem writes_of_parse (negative : Bool) (d : Decimal) (k : ℤ)
    (parsed : (parse (trim text)).toOption = some (.decimal negative d)) (units : n.toInt = k)
    (value : amount negative d = k / 10 ^ 7) : Writes text (n.toInt / 10 ^ 7) :=
  ⟨negative, d, padded_of_parse parsed, by rw [units, value]⟩

theorem parts_of_padded {parts : List (List Char)} {ns : List Numeral} (some : parts ≠ [])
    (numerals : List.Forall₂ Padded parts ns) :
    Parts ',' (List.intercalate [','] parts) parts := by
  refine ⟨some, fun part member => ?_, rfl⟩
  obtain ⟨i, bound, rfl⟩ := List.getElem_of_mem member
  exact no_comma_of_padded (numerals.get (i := i) bound (numerals.length_eq ▸ bound))

theorem readQuery_of_gives {west east south north : Int32} (lons : west ≤ east)
    (lats : south ≤ north) {a b c d : List Char} (givesWest : Gives a west)
    (givesEast : Gives b east) (givesSouth : Gives c south) (givesNorth : Gives d north) :
    readQuery (List.intercalate [','] [a, b, c, d]) = .ok ⟨west, east, south, north⟩ := by
  obtain ⟨_, padded₁, converts₁⟩ := givesWest
  obtain ⟨_, padded₂, converts₂⟩ := givesEast
  obtain ⟨_, padded₃, converts₃⟩ := givesSouth
  obtain ⟨_, padded₄, converts₄⟩ := givesNorth
  have numerals := List.Forall₂.cons padded₁ (.cons padded₂ (.cons padded₃ (.cons padded₄ .nil)))
  have bounds := List.Forall₂.cons converts₁
    (.cons converts₂ (.cons converts₃ (.cons converts₄ .nil)))
  exact readQuery_of_accepts (parts_of_padded (by simp) numerals) ⟨_, numerals, bounds, lons, lats⟩

end Units

/-- Four numerals that write whole numbers of units in order are read as these numbers, with any
sign, zeros, exponents and blanks that leave their values as they are. -/
theorem readQuery_of_writes {west east south north : Int32} (lons : west ≤ east)
    (lats : south ≤ north) {a b c d : List Char} (writesWest : Writes a (west.toInt / 10 ^ 7))
    (writesEast : Writes b (east.toInt / 10 ^ 7)) (writesSouth : Writes c (south.toInt / 10 ^ 7))
    (writesNorth : Writes d (north.toInt / 10 ^ 7)) :
    readQuery (List.intercalate [','] [a, b, c, d]) = .ok ⟨west, east, south, north⟩ :=
  readQuery_of_gives lons lats (gives_of_writes writesWest) (gives_of_writes writesEast)
    (gives_of_writes writesSouth) (gives_of_writes writesNorth)

theorem readQuery_of_odd_spellings :
    readQuery "\t-2147483648e-7,+00214.74836470 ,-.0000001, 5.E-0 ".toList =
      .ok ⟨-2147483648, 2147483647, -1, 50000000⟩ := by
  have west : Writes "\t-2147483648e-7".toList ((-2147483648 : Int32).toInt / 10 ^ 7) :=
    writes_of_parse true ⟨2147483648, -7⟩ (-2147483648) (by decide +kernel) rfl
      (by norm_num [amount, Decimal.value])
  have east : Writes "+00214.74836470 ".toList ((2147483647 : Int32).toInt / 10 ^ 7) :=
    writes_of_parse false ⟨21474836470, -8⟩ 2147483647 (by decide +kernel) rfl
      (by norm_num [amount, Decimal.value])
  have south : Writes "-.0000001".toList ((-1 : Int32).toInt / 10 ^ 7) :=
    writes_of_parse true ⟨1, -7⟩ (-1) (by decide +kernel) rfl
      (by norm_num [amount, Decimal.value])
  have north : Writes " 5.E-0 ".toList ((50000000 : Int32).toInt / 10 ^ 7) :=
    writes_of_parse false ⟨5, 0⟩ 50000000 (by decide +kernel) rfl
      (by norm_num [amount, Decimal.value])
  have joined : "\t-2147483648e-7,+00214.74836470 ,-.0000001, 5.E-0 ".toList =
      List.intercalate [','] ["\t-2147483648e-7".toList, "+00214.74836470 ".toList,
        "-.0000001".toList, " 5.E-0 ".toList] := by decide +kernel
  rw [joined]
  exact readQuery_of_writes (by decide) (by decide) west east south north

end MercatorGrid.CommandLine
