import MercatorGrid.Decimal.Numeral
import MercatorGrid.Proofs.Attempt
import Mathlib.Data.Int.Notation
import Mathlib.Data.List.TakeWhile
import Mathlib.Tactic.Common

namespace MercatorGrid.Numeral

inductive Sign : List Char → Bool → Prop
  | none : Sign [] false
  | plus : Sign ['+'] false
  | minus : Sign ['-'] true

def Digits (cs : List Char) : Prop := ∀ c ∈ cs, c.isDigit = true

/-- At least one digit and at most one point: the whole number that the digits write, and how many
of them stand after the point. -/
inductive Mantissa : List Char → ℕ → ℕ → Prop
  | whole {ds : List Char} (digits : Digits ds) (some : ds ≠ []) :
    Mantissa ds (Nat.ofDigitChars 10 ds 0) 0
  | pointed {ds ps : List Char} (before : Digits ds) (after : Digits ps) (some : ds ++ ps ≠ []) :
    Mantissa (ds ++ '.' :: ps) (Nat.ofDigitChars 10 (ds ++ ps) 0) ps.length

inductive Exponent : List Char → ℤ → Prop
  | none : Exponent [] 0
  | written {e : Char} {s ds : List Char} {negative : Bool} (mark : e = 'e' ∨ e = 'E')
    (sign : Sign s negative) (digits : Digits ds) (some : ds ≠ []) :
    Exponent (e :: (s ++ ds)) (Binary64.signed negative (Nat.ofDigitChars 10 ds 0))

inductive Word (negative : Bool) : List Char → Numeral → Prop
  | infinite {w : List Char} (lower : w.map Char.toLower = "inf".toList ∨
    w.map Char.toLower = "infinity".toList) : Word negative w (.infinite negative)
  | nan {w : List Char} (lower : w.map Char.toLower = "nan".toList) : Word negative w .nan

inductive Spells : List Char → Numeral → Prop
  | decimal {s m x : List Char} {negative : Bool} {n places : ℕ} {k : ℤ} (sign : Sign s negative)
    (mantissa : Mantissa m n places) (exponent : Exponent x k) :
    Spells (s ++ (m ++ x)) (.decimal negative ⟨n, k - (places : ℤ)⟩)
  | word {s w : List Char} {negative : Bool} {n : Numeral} (sign : Sign s negative)
    (word : Word negative w n) : Spells (s ++ w) n

section Heads
variable {p : Char → Bool} {cs : List Char}

def NoHead (p : Char → Bool) (cs : List Char) : Prop := ∀ c rest, cs = c :: rest → p c = false

theorem noHead_nil : NoHead p [] := fun _ _ h => by cases h

theorem noHead_cons {c : Char} (h : p c = false) : NoHead p (c :: cs) := by
  rintro _ _ ⟨⟩
  exact h

theorem span_of_noHead {ds rest : List Char} (all : ∀ c ∈ ds, p c = true) (stop : NoHead p rest) :
    (ds ++ rest).takeWhile p = ds ∧ (ds ++ rest).dropWhile p = rest := by
  rw [List.takeWhile_append_of_pos all, List.dropWhile_append_of_pos all]
  cases rest with
  | nil => simp
  | cons c rest => simp [stop c rest rfl]

theorem toLower_of_outside {c : Char} (outside : c.toNat < 65 ∨ 90 < c.toNat) : c.toLower = c := by
  refine dif_neg ?_
  rintro ⟨low, high⟩
  have low : 65 ≤ c.toNat := UInt32.le_iff_toNat_le.mp low
  have high : c.toNat ≤ 90 := UInt32.le_iff_toNat_le.mp high
  omega

theorem toLower_of_isDigit {c : Char} (digit : c.isDigit = true) : c.toLower = c := by
  have high := (Char.isDigit_iff_toNat.mp digit).2
  change c.toNat ≤ 57 at high
  exact toLower_of_outside (by omega)

end Heads

section Signs

def isSign (c : Char) : Bool := c = '-' || c = '+'

theorem noHead_isSign_of_digits {ds : List Char} (digits : Digits ds) : NoHead isSign ds := by
  rintro c rest rfl
  have digit := digits c List.mem_cons_self
  by_contra sign
  simp only [isSign, Bool.or_eq_true, decide_eq_true_iff, Bool.not_eq_false] at sign
  rcases sign with rfl | rfl <;> cases digit

theorem splitSign_append {s body : List Char} {negative : Bool} (sign : Sign s negative)
    (unsigned : NoHead isSign body) : splitSign (s ++ body) = (negative, body) := by
  cases sign with
  | none =>
    cases body with
    | nil => rfl
    | cons c rest =>
      have plain := unsigned c rest rfl
      simp only [isSign, Bool.or_eq_false_iff, decide_eq_false_iff_not] at plain
      simp only [List.nil_append, splitSign, if_neg plain.1, if_neg plain.2]
  | plus => rfl
  | minus => rfl

theorem exists_sign {cs body : List Char} {negative : Bool}
    (split : splitSign cs = (negative, body)) : ∃ s, Sign s negative ∧ cs = s ++ body := by
  cases cs with
  | nil =>
    cases split
    exact ⟨[], .none, rfl⟩
  | cons c cs =>
    simp only [splitSign] at split
    split at split
    · rename_i minus
      cases split
      exact ⟨['-'], .minus, by rw [minus]; rfl⟩
    · split at split
      · rename_i plus
        cases split
        exact ⟨['+'], .plus, by rw [plus]; rfl⟩
      · cases split
        exact ⟨[], .none, rfl⟩

end Signs

section Numbers

theorem digits?_eq_some_iff {cs : List Char} {n : ℕ} :
    digits? cs = some n ↔ (Digits cs ∧ cs ≠ []) ∧ Nat.ofDigitChars 10 cs 0 = n := by
  unfold digits?
  by_cases shape : Digits cs ∧ cs ≠ []
  · have all : cs.all Char.isDigit = true := List.all_eq_true.mpr shape.1
    rw [if_neg (by simp [all, shape.2]), Option.some.injEq]
    simp [shape]
  · rw [if_pos]
    · simp [shape]
    · simp only [Bool.or_eq_true, List.isEmpty_iff, Bool.not_eq_true']
      by_cases empty : cs = []
      · exact .inl empty
      · right
        by_contra all
        rw [Bool.not_eq_false, List.all_eq_true] at all
        exact shape ⟨all, empty⟩

theorem exponent?_eq_some_iff {cs : List Char} {k : ℤ} : exponent? cs = some k ↔ Exponent cs k := by
  constructor
  · intro read
    cases cs with
    | nil =>
      cases read
      exact .none
    | cons c cs =>
      simp only [exponent?] at read
      split at read
      · rename_i mark
        rcases split : splitSign cs with ⟨negative, ds⟩
        simp only [split] at read
        obtain ⟨s, sign, rfl⟩ := exists_sign split
        obtain ⟨n, digits, rfl⟩ := Option.map_eq_some_iff.mp read
        obtain ⟨⟨all, some⟩, rfl⟩ := digits?_eq_some_iff.mp digits
        exact .written mark sign all some
      · cases read
  · intro spelled
    cases spelled with
    | none => rfl
    | written mark sign digits some =>
      simp only [exponent?, if_pos mark]
      rw [splitSign_append sign (noHead_isSign_of_digits digits)]
      simp only [digits?_eq_some_iff.mpr ⟨⟨digits, some⟩, rfl⟩, Option.map_some]

theorem noHead_of_exponent {x : List Char} {k : ℤ} (exponent : Exponent x k) :
    NoHead Char.isDigit x ∧ NoHead (· = '.') x := by
  cases exponent with
  | none => exact ⟨noHead_nil, noHead_nil⟩
  | written mark =>
    rcases mark with rfl | rfl
    · exact ⟨noHead_cons rfl, noHead_cons rfl⟩
    · exact ⟨noHead_cons rfl, noHead_cons rfl⟩

theorem fraction_of_noHead {cs : List Char} (stop : NoHead (· = '.') cs) :
    fraction cs = ([], cs) := by
  cases cs with
  | nil => rfl
  | cons c cs =>
    have other := stop c cs rfl
    simp only [decide_eq_false_iff_not] at other
    simp only [fraction, if_neg other]

theorem decimal?_of_spelled {m x : List Char} {n places : ℕ} {k : ℤ}
    (mantissa : Mantissa m n places) (exponent : Exponent x k) :
    decimal? (m ++ x) = some ⟨n, k - (places : ℤ)⟩ := by
  obtain ⟨noDigit, noPoint⟩ := noHead_of_exponent exponent
  have read := exponent?_eq_some_iff.mpr exponent
  cases mantissa with
  | whole digits some =>
    obtain ⟨taken, left⟩ := span_of_noHead digits noDigit
    simp only [decimal?, taken, left, fraction_of_noHead noPoint, read]
    simp [some]
  | pointed before after some =>
    rename_i ds ps
    have point : NoHead Char.isDigit ('.' :: (ps ++ x)) := noHead_cons rfl
    obtain ⟨taken, left⟩ := span_of_noHead before point
    obtain ⟨places, rest⟩ := span_of_noHead after noDigit
    have text : ds ++ '.' :: ps ++ x = ds ++ '.' :: (ps ++ x) := by simp
    simp only [decimal?, text, taken, left, fraction, if_true, places, rest, read]
    simpa using some

theorem exists_digits (cs : List Char) : ∃ ds rest, Digits ds ∧ cs = ds ++ rest ∧
    cs.takeWhile Char.isDigit = ds ∧ cs.dropWhile Char.isDigit = rest :=
  ⟨_, _, fun _ => List.mem_takeWhile_imp, List.takeWhile_append_dropWhile.symm, rfl, rfl⟩

theorem exists_spelled {cs : List Char} {d : Decimal} (read : decimal? cs = some d) :
    ∃ m n places x k, Mantissa m n places ∧ Exponent x k ∧ cs = m ++ x ∧
      d = ⟨n, k - (places : ℤ)⟩ := by
  obtain ⟨ds, rest, digits, rfl, taken, left⟩ := exists_digits cs
  simp only [decimal?, taken, left] at read
  by_cases pointed : ∃ after, rest = '.' :: after
  · obtain ⟨after, rfl⟩ := pointed
    obtain ⟨ps, x, places, rfl, taken, left⟩ := exists_digits after
    simp only [fraction, if_true, taken, left] at read
    split at read
    · cases read
    · rename_i some
      obtain ⟨k, exponent, rfl⟩ := Option.map_eq_some_iff.mp read
      refine ⟨_, _, _, x, k, .pointed digits places ?_, exponent?_eq_some_iff.mp exponent, ?_, rfl⟩
      · simpa using some
      · simp
  · have stop : NoHead (· = '.') rest := by
      rintro c after rfl
      exact decide_eq_false fun point => pointed ⟨after, by rw [point]⟩
    simp only [fraction_of_noHead stop] at read
    split at read
    · cases read
    · rename_i some
      obtain ⟨k, exponent, rfl⟩ := Option.map_eq_some_iff.mp read
      refine ⟨ds, _, _, rest, k, .whole digits ?_, exponent?_eq_some_iff.mp exponent, rfl, ?_⟩
      · simpa using some
      · simp

theorem head_of_mantissa {m : List Char} {n places : ℕ} (mantissa : Mantissa m n places) :
    ∃ c rest, m = c :: rest ∧ (c.isDigit = true ∨ c = '.') := by
  cases mantissa with
  | whole digits some =>
    obtain ⟨c, rest, rfl⟩ := List.exists_cons_of_ne_nil some
    exact ⟨c, rest, rfl, .inl (digits c List.mem_cons_self)⟩
  | pointed before after some =>
    rename_i ds ps
    cases ds with
    | nil => exact ⟨'.', ps, rfl, .inr rfl⟩
    | cons c rest => exact ⟨c, _, rfl, .inl (before c List.mem_cons_self)⟩

theorem noHead_isSign_of_mantissa {m : List Char} {n places : ℕ} (mantissa : Mantissa m n places)
    (x : List Char) : NoHead isSign (m ++ x) := by
  obtain ⟨c, rest, rfl, shape⟩ := head_of_mantissa mantissa
  refine noHead_cons ?_
  rcases shape with digit | rfl
  · have single : Digits [c] := List.forall_mem_singleton.mpr digit
    exact noHead_isSign_of_digits single c [] rfl
  · rfl

end Numbers

section Words
variable {negative : Bool} {w : List Char} {n : Numeral}

theorem word?_eq_some_iff : word? negative w = some n ↔ Word negative w n := by
  simp only [word?]
  constructor
  · intro read
    split at read
    · rename_i lower
      cases read
      exact .nan lower
    · split at read
      · rename_i lower
        cases read
        exact .infinite lower
      · cases read
  · intro word
    cases word with
    | infinite lower =>
      rw [if_neg (by rcases lower with lower | lower <;> rw [lower] <;> decide)]
      exact if_pos lower
    | nan lower => exact if_pos lower

def letters : List Char := ['i', 'n', 'f', 't', 'y', 'a', 'e']

theorem letter_range : ∀ c ∈ letters, 97 ≤ c.toNat ∧ c.toNat ≤ 122 := by
  simp [letters]

theorem letter_of_word (word : Word negative w n) : ∀ c ∈ w, c.toLower ∈ letters := by
  intro c member
  have lower := List.mem_map_of_mem (f := Char.toLower) member
  have some : ∀ name ∈ ["inf", "infinity", "nan"], name.toList ⊆ letters := by decide
  cases word with
  | infinite same =>
    rcases same with same | same <;> rw [same] at lower
    · exact some "inf" (by simp) lower
    · exact some "infinity" (by simp) lower
  | nan same =>
    rw [same] at lower
    exact some "nan" (by simp) lower

theorem noHead_of_word (word : Word negative w n) {p : Char → Bool}
    (other : ∀ c, p c = true → c.toLower ∉ letters) : NoHead p w := by
  rintro c rest rfl
  by_contra holds
  rw [Bool.not_eq_false] at holds
  exact other c holds (letter_of_word word c List.mem_cons_self)

theorem noHead_isSign_of_word (word : Word negative w n) : NoHead isSign w := by
  refine noHead_of_word word ?_
  intro c sign
  simp only [isSign, Bool.or_eq_true, decide_eq_true_iff] at sign
  rcases sign with rfl | rfl <;> decide

theorem not_letter_of_isDigit {c : Char} (digit : c.isDigit = true) : c.toLower ∉ letters := by
  intro letter
  rw [toLower_of_isDigit digit] at letter
  have low := (letter_range c letter).1
  have high := (Char.isDigit_iff_toNat.mp digit).2
  change c.toNat ≤ 57 at high
  omega

theorem decimal?_of_word (word : Word negative w n) : decimal? w = none := by
  cases read : decimal? w with
  | none => rfl
  | some d =>
    obtain ⟨m, _, _, x, _, mantissa, -, rfl, -⟩ := exists_spelled read
    obtain ⟨c, rest, rfl, shape⟩ := head_of_mantissa mantissa
    have other := letter_of_word word c (by simp)
    rcases shape with digit | rfl
    · exact absurd other (not_letter_of_isDigit digit)
    · exact absurd other (by decide)

theorem word_ne_nil (word : Word negative w n) : w ≠ [] := by
  rintro rfl
  cases word with
  | infinite lower => rcases lower with lower | lower <;> cases lower
  | nan lower => cases lower

end Words

section Reading
variable {cs : List Char} {n : Numeral}

theorem ne_nil_of_spells (spelled : Spells cs n) : cs ≠ [] := by
  cases spelled with
  | decimal _ mantissa _ =>
    obtain ⟨c, rest, rfl, -⟩ := head_of_mantissa mantissa
    simp
  | word _ word => simp [word_ne_nil word]

theorem spells_of_parse (read : parse cs = .ok n) : Spells cs n := by
  simp only [parse] at read
  split at read
  · cases read
  · rcases split : splitSign cs with ⟨negative, body⟩
    obtain ⟨s, sign, rfl⟩ := exists_sign split
    simp only [split] at read
    split at read
    · rename_i d number
      cases read
      obtain ⟨m, _, _, x, _, mantissa, exponent, rfl, rfl⟩ := exists_spelled number
      exact .decimal sign mantissa exponent
    · split at read
      · rename_i word
        cases read
        exact .word sign (word?_eq_some_iff.mp word)
      · cases read

theorem parse_of_spells (spelled : Spells cs n) : parse cs = .ok n := by
  have some := ne_nil_of_spells spelled
  simp only [parse, List.isEmpty_iff, if_neg some]
  cases spelled with
  | decimal sign mantissa exponent =>
    simp only [splitSign_append sign (noHead_isSign_of_mantissa mantissa _),
      decimal?_of_spelled mantissa exponent]
  | word sign word =>
    simp only [splitSign_append sign (noHead_isSign_of_word word), decimal?_of_word word,
      word?_eq_some_iff.mpr word]

theorem parse_eq_ok_iff : parse cs = .ok n ↔ Spells cs n := ⟨spells_of_parse, parse_of_spells⟩

theorem fault_of_parse {fault : NumeralFault} (failed : parse cs = .error fault) :
    fault = if cs = [] then .empty else .invalid := by
  simp only [parse, List.isEmpty_iff] at failed
  split at failed
  · rename_i empty
    rw [if_pos empty]
    exact (Except.error.inj failed).symm
  · rename_i some
    rw [if_neg some]
    split at failed
    · cases failed
    · split at failed
      · cases failed
      · exact (Except.error.inj failed).symm

/-- What is not spelled by the grammar is refused, and only the text without characters is told
apart. -/
theorem parse_eq_error_iff {fault : NumeralFault} : parse cs = .error fault ↔
    (∀ n, ¬ Spells cs n) ∧ fault = if cs = [] then .empty else .invalid := by
  cases read : parse cs with
  | ok n =>
    have spelled := spells_of_parse read
    simp only [reduceCtorEq, false_iff]
    exact fun none => none.1 n spelled
  | error other =>
    have none : ∀ n, ¬ Spells cs n := by
      intro n spelled
      rw [parse_of_spells spelled] at read
      cases read
    rw [Except.error.injEq, fault_of_parse read]
    exact ⟨fun same => ⟨none, same.symm⟩, fun h => h.2.symm⟩

end Reading

section Glyphs

def Glyph (c : Char) : Prop :=
  c.isDigit = true ∨ c ∈ ['-', '+', '.'] ∨ c.toLower ∈ letters

theorem glyphs_of_digits {ds : List Char} (digits : Digits ds) : ∀ c ∈ ds, Glyph c :=
  fun c member => .inl (digits c member)

theorem glyphs_of_sign {s : List Char} {negative : Bool} (sign : Sign s negative) :
    ∀ c ∈ s, Glyph c := by
  intro c member
  cases sign with
  | none => cases member
  | plus => exact .inr (.inl (by simp_all))
  | minus => exact .inr (.inl (by simp_all))

theorem glyphs_of_mantissa {m : List Char} {n places : ℕ} (mantissa : Mantissa m n places) :
    ∀ c ∈ m, Glyph c := by
  cases mantissa with
  | whole digits _ => exact glyphs_of_digits digits
  | pointed before after _ =>
    rw [List.forall_mem_append, List.forall_mem_cons]
    exact ⟨glyphs_of_digits before, .inr (.inl (by simp)), glyphs_of_digits after⟩

theorem glyphs_of_exponent {x : List Char} {k : ℤ} (exponent : Exponent x k) :
    ∀ c ∈ x, Glyph c := by
  cases exponent with
  | none => simp
  | written mark sign digits _ =>
    rw [List.forall_mem_cons, List.forall_mem_append]
    refine ⟨.inr (.inr ?_), glyphs_of_sign sign, glyphs_of_digits digits⟩
    rcases mark with rfl | rfl <;> decide

theorem glyphs_of_spells {cs : List Char} {n : Numeral} (spelled : Spells cs n) :
    ∀ c ∈ cs, Glyph c := by
  cases spelled with
  | decimal sign mantissa exponent =>
    rw [List.forall_mem_append, List.forall_mem_append]
    exact ⟨glyphs_of_sign sign, glyphs_of_mantissa mantissa, glyphs_of_exponent exponent⟩
  | word sign word =>
    rw [List.forall_mem_append]
    exact ⟨glyphs_of_sign sign, fun c member => .inr (.inr (letter_of_word word c member))⟩

end Glyphs
end MercatorGrid.Numeral
