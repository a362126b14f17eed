import MercatorGrid.Proofs.CommandLine.QueryText
import MercatorGrid.Proofs.CommandLine.Run
import MercatorGrid.Proofs.Decimal.Written

namespace MercatorGrid
open Binary64 FixedPoint Decimal Numeral

namespace CommandLine

theorem writes_expand (n : Int32) : Writes (expand n).toList (n.toInt / 10 ^ 7) := by
  obtain ⟨d, spelled, same⟩ := spells_expansion (n.toInt < 0) 7 n.toInt.natAbs
  rw [expand, String.toList_ofList]
  refine ⟨_, d, padded_of_spells spelled, ?_⟩
  rw [amount, same, ← abs_units]
  by_cases negative : n.toInt < 0
  · have cast : (n.toInt : ℚ) < 0 := by exact_mod_cast negative
    rw [if_pos (decide_eq_true negative), abs_of_neg (div_neg_of_neg_of_pos cast (by norm_num)),
      neg_neg]
  · have cast : (0 : ℚ) ≤ n.toInt := by exact_mod_cast not_lt.mp negative
    rw [if_neg (by simpa using negative), abs_of_nonneg (div_nonneg cast (by norm_num))]

theorem gives_expand (n : Int32) : Gives (expand n).toList n := by
  obtain ⟨negative, d, spelled, denotes⟩ := reads_back (denotes_toDegrees n)
  rw [write_toDegrees] at spelled
  exact ⟨_, padded_of_spells spelled, converts_of_nearest denotes⟩

/-- A whole number of units is printed as its exact decimal expansion. So the four numbers of a
query's line, with commas between them, are read as the envelope of the query. -/
theorem queryLine_read_again :
    (∀ n, Layout.plain.write (toDegrees n) = expand n ∧
      Writes (expand n).toList (n.toInt / 10 ^ 7)) ∧
    ∀ e : Entry, e.envelope.Valid →
      Report.queryLine e = "query lon " ++ expand e.envelope.minLon ++ ".." ++
        expand e.envelope.maxLon ++ " lat " ++ expand e.envelope.minLat ++ ".." ++
        expand e.envelope.maxLat ++ ": " ++ toString e.indices.length ++ " points" ∧
      readQuery (expand e.envelope.minLon ++ "," ++ expand e.envelope.maxLon ++ "," ++
        expand e.envelope.minLat ++ "," ++ expand e.envelope.maxLat).toList = .ok e.envelope := by
  constructor
  · intro n
    constructor
    · exact write_toDegrees n
    · exact writes_expand n
  intro e valid
  constructor
  · exact queryLine_eq valid
  · have read := readQuery_of_gives valid.1 valid.2 (gives_expand e.envelope.minLon)
      (gives_expand e.envelope.maxLon) (gives_expand e.envelope.minLat)
      (gives_expand e.envelope.maxLat)
    have comma : ",".toList = [','] := rfl
    simp only [String.toList_append, comma]
    rw [← read]
    simp only [List.intercalate_cons_cons, List.intercalate_singleton, List.append_assoc]

theorem queryLine_read_again_at_ends :
    (⟨-2147483648, 2147483647, -1, 50000000⟩ : Envelope).Valid ∧
    Report.queryLine ⟨⟨-2147483648, 2147483647, -1, 50000000⟩, [7]⟩ =
      "query lon -214.7483648..214.7483647 lat -0.0000001..5: 1 points" ∧
    readQuery "-214.7483648,214.7483647,-0.0000001,5".toList =
      .ok ⟨-2147483648, 2147483647, -1, 50000000⟩ := by
  have valid : (⟨-2147483648, 2147483647, -1, 50000000⟩ : Envelope).Valid := by decide
  have west : expand (-2147483648) = "-214.7483648" := by decide +kernel
  have east : expand 2147483647 = "214.7483647" := by decide +kernel
  have south : expand (-1) = "-0.0000001" := by decide +kernel
  have north : expand 50000000 = "5" := by decide +kernel
  obtain ⟨line, read⟩ := queryLine_read_again.2
    ⟨⟨-2147483648, 2147483647, -1, 50000000⟩, [7]⟩ valid
  simp only [west, east, south, north] at line read
  exact ⟨valid, line, read⟩

end CommandLine
end MercatorGrid
