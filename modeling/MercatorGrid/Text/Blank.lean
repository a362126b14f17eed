namespace MercatorGrid.Text

/-- First and last code point of each run of blanks, in order. -/
def blankRanges : List (Nat × Nat) :=
  [(0x0009, 0x000D), (0x0020, 0x0020), (0x0085, 0x0085), (0x00A0, 0x00A0), (0x1680, 0x1680),
   (0x2000, 0x200A), (0x2028, 0x2029), (0x202F, 0x202F), (0x205F, 0x205F), (0x3000, 0x3000)]

def isBlank (c : Char) : Bool :=
  blankRanges.any fun (first, last) => first ≤ c.toNat && c.toNat ≤ last

def trim (cs : List Char) : List Char :=
  ((cs.dropWhile isBlank).reverse.dropWhile isBlank).reverse

def splitAt (separator : Char) : List Char → List (List Char)
  | [] => [[]]
  | c :: cs =>
    if c = separator then [] :: splitAt separator cs
    else
      match splitAt separator cs with
      | [] => [[c]]
      | part :: parts => (c :: part) :: parts

theorem splitAt_ne_nil (separator : Char) (cs : List Char) : splitAt separator cs ≠ [] := by
  cases cs with
  | nil => simp [splitAt]
  | cons c cs =>
    by_cases h : c = separator
    · simp [splitAt, h]
    · simp only [splitAt, if_neg h]
      split <;> simp

theorem intercalate_splitAt (separator : Char) (cs : List Char) :
    List.intercalate [separator] (splitAt separator cs) = cs := by
  induction cs with
  | nil => rfl
  | cons c cs ih =>
    by_cases h : c = separator
    · simp only [splitAt, if_pos h]
      cases hs : splitAt separator cs with
      | nil => exact absurd hs (splitAt_ne_nil separator cs)
      | cons part parts => simp_all [List.intercalate, List.intersperse]
    · simp only [splitAt, if_neg h]
      cases hs : splitAt separator cs with
      | nil => exact absurd hs (splitAt_ne_nil separator cs)
      | cons part parts =>
        rw [hs] at ih
        cases parts <;> simp_all [List.intercalate, List.intersperse]

theorem not_mem_of_mem_splitAt (separator : Char) (cs : List Char) :
    ∀ part ∈ splitAt separator cs, separator ∉ part := by
  induction cs with
  | nil => simp [splitAt]
  | cons c cs ih =>
    by_cases h : c = separator
    · simpa [splitAt, h] using ih
    · simp only [splitAt, if_neg h]
      split
      · simp [Ne.symm h]
      · rename_i part parts hs
        rw [hs] at ih
        simp_all [eq_comm]

end MercatorGrid.Text
