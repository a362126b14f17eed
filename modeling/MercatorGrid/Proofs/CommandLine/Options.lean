import MercatorGrid.Proofs.CommandLine.Arguments
import MercatorGrid.Proofs.CommandLine.QueryText
import MercatorGrid.Proofs.Decimal.Whole

/-! Command lines that are accepted.
The arguments are taken from the left with one value waiting to be looked at, yet what comes of it
is simple: each option has the values that are written after it, each read on its own. -/
namespace MercatorGrid.CommandLine
open Argument

/-- The values of an option, in the order in which they are given. -/
def given (name : OptionName) (rs : List Request) : List (List Char) :=
  rs.filterMap fun
    | .value other text => if other = name then some text else none
    | .json => none

def ReadsQuery (text : List Char) (e : Envelope) : Prop :=
  ∃ parts, Text.Parts ',' text parts ∧ Accepts parts e

def ReadsEdge (text : List Char) (x : Float) : Prop :=
  ∃ n : Numeral, Numeral.Spells text n ∧ n.toFloat = x ∧ n.Names x

def ReadsZoom (text : List Char) (zoom : Int32) : Prop := Whole.Spells text zoom.toInt

theorem readEdge_eq_ok_iff {text : List Char} {x : Float} :
    readEdge text = .ok x ↔ ReadsEdge text x := by
  have named : ∀ n : Numeral, n.toFloat = x → n.Names x := by
    rintro n rfl
    exact n.names_toFloat
  simp only [readEdge, mapError_eq_ok_iff, Numeral.parseDouble, ReadsEdge,
    ← Numeral.parse_eq_ok_iff]
  cases Numeral.parse text with
  | error fault => simp [Except.map]
  | ok n => simpa [Except.map] using named n

theorem readQuery_eq_ok_iff {text : List Char} {e : Envelope} :
    readQuery text = .ok e ↔ ReadsQuery text e := by
  constructor
  · intro read
    exact ⟨_, parts_splitAt text, (readQuery_eq_ok_iff_of_parts (parts_splitAt text)).mp read⟩
  · rintro ⟨parts, cut, accepted⟩
    exact (readQuery_eq_ok_iff_of_parts cut).mpr accepted

theorem readZoom_eq_ok_iff {text : List Char} {zoom : Int32} :
    readZoom text = .ok zoom ↔ ReadsZoom text zoom := by
  simp only [readZoom, bind_eq_ok_iff, mapError_eq_ok_iff, Whole.parse_eq_ok_iff,
    Checked.int32_eq_ok_iff, ReadsZoom]
  constructor
  · rintro ⟨_, ⟨spelled, -⟩, rfl⟩
    exact spelled
  · intro spelled
    have range := Checked.toInt_range zoom
    exact ⟨_, ⟨spelled, by rw [Whole.Fits]; omega⟩, rfl⟩

section Given
variable (name other : OptionName) (text : List Char) (rs : List Request)

@[simp] theorem given_concat_json : given name (rs ++ [.json]) = given name rs := by
  simp [given]

@[simp] theorem given_concat_same :
    given name (rs ++ [.value name text]) = given name rs ++ [text] := by
  simp [given]

variable {name other} in
theorem given_concat_other (apart : other ≠ name) :
    given name (rs ++ [.value other text]) = given name rs := by
  simp [given, apart]

end Given

namespace Draft
variable {d d' : Draft} {rs : List Request}

/-- The draft has what the requests give, and nothing else. -/
structure Holds (d : Draft) (rs : List Request) : Prop where
  edges : ∀ edge, List.Forall₂ ReadsEdge (given (.edge edge) rs) (d.edges.lookup edge).toList
  zoom : List.Forall₂ ReadsZoom (given .zoom rs) d.zoom.toList
  queries : List.Forall₂ ReadsQuery (given .query rs) d.queries
  json : d.json = true ↔ .json ∈ rs

theorem holds_empty : empty.Holds [] := ⟨fun _ => .nil, .nil, .nil, by simp [empty]⟩

theorem forall₂_of_fresh {α : Type} {reads : List Char → α → Prop} {texts : List (List Char)}
    {text : List Char} {old : Option α} {value : α} (fresh : ¬ old.isSome = true)
    (before : List.Forall₂ reads texts old.toList) (read : reads text value) :
    List.Forall₂ reads (texts ++ [text]) [value] := by
  rw [Option.not_isSome_iff_eq_none.mp fresh] at before
  exact List.rel_append before (.cons read .nil)

theorem assign_holds {name : OptionName} {text : List Char} (holds : d.Holds rs)
    (taken : d.assign name text = .ok d') : d'.Holds (rs ++ [.value name text]) := by
  obtain ⟨edges, zoom, queries, json⟩ := holds
  have flag : d.json = true ↔ .json ∈ rs ++ [.value name text] := by simpa using json
  cases name with
  | edge edge =>
    simp only [assign] at taken
    split at taken
    · cases taken
    · rename_i fresh
      obtain ⟨value, read, made⟩ := bind_eq_ok_iff.mp taken
      cases made
      rw [mapError_eq_ok_iff, readEdge_eq_ok_iff] at read
      refine ⟨fun other => ?_, ?_, ?_, flag⟩
      · by_cases same : other = edge
        · rw [same, given_concat_same, List.lookup_cons_self]
          exact forall₂_of_fresh fresh (edges edge) read
        · have apart : (other == edge) = false := beq_eq_false_iff_ne.mpr same
          rw [given_concat_other _ _ (by simpa using Ne.symm same), List.lookup_cons, apart]
          exact edges other
      · rwa [given_concat_other _ _ (by simp)]
      · rwa [given_concat_other _ _ (by simp)]
  | zoom =>
    simp only [assign] at taken
    split at taken
    · cases taken
    · rename_i fresh
      obtain ⟨value, read, made⟩ := bind_eq_ok_iff.mp taken
      cases made
      rw [mapError_eq_ok_iff, readZoom_eq_ok_iff] at read
      refine ⟨fun other => ?_, ?_, ?_, flag⟩
      · rw [given_concat_other _ _ (by simp)]
        exact edges other
      · rw [given_concat_same]
        exact forall₂_of_fresh fresh zoom read
      · rwa [given_concat_other _ _ (by simp)]
  | query =>
    obtain ⟨e, read, made⟩ := bind_eq_ok_iff.mp taken
    cases made
    rw [mapError_eq_ok_iff, mapError_eq_ok_iff, readQuery_eq_ok_iff] at read
    refine ⟨fun other => ?_, ?_, ?_, flag⟩
    · rw [given_concat_other _ _ (by simp)]
      exact edges other
    · rwa [given_concat_other _ _ (by simp)]
    · rw [given_concat_same]
      exact List.rel_append queries (.cons read .nil)

def pending : Option (OptionName × List Char) → List Request
  | none => []
  | some (name, text) => [.value name text]

theorem settle_holds {waiting : Option (OptionName × List Char)} (holds : d.Holds rs)
    (settled : d.settle waiting = .ok d') : d'.Holds (rs ++ pending waiting) := by
  cases waiting with
  | none =>
    cases settled
    rwa [pending, List.append_nil]
  | some a => exact assign_holds holds settled

theorem setJson_holds (holds : d.Holds rs) (set : d.setJson = .ok d') :
    d'.Holds (rs ++ [.json]) := by
  simp only [setJson] at set
  split at set
  · cases set
  · cases set
    obtain ⟨edges, zoom, queries, -⟩ := holds
    exact ⟨by simpa using edges, by simpa using zoom, by simpa using queries, by simp⟩

/-- A run over the arguments adds what they ask for, after the value that waits. -/
theorem take_holds {waiting : Option (OptionName × List Char)} {args : List String}
    (holds : d.Holds rs) (taken : d.take waiting args = .ok d') :
    ∃ later, Asks args later ∧ d'.Holds (rs ++ pending waiting ++ later) := by
  -- an argument settles the value before it, and only then leaves one of its own
  fun_induction Draft.take d waiting args generalizing rs with
  | case1 d waiting =>
    refine ⟨[], .done, ?_⟩
    rw [List.append_nil]
    exact settle_holds holds taken
  | case3 d waiting arg name value rest shape ih =>
    obtain ⟨e, settled, after⟩ := bind_eq_ok_iff.mp taken
    obtain ⟨later, asks, result⟩ := ih e (settle_holds holds settled) after
    have spelled := spelled_of_read shape (by simp [refusals])
    exact ⟨_, .apart spelled asks, by simpa [pending] using result⟩
  | case4 d waiting arg name value rest shape ih =>
    obtain ⟨e, settled, after⟩ := bind_eq_ok_iff.mp taken
    obtain ⟨f, assigned, last⟩ := bind_eq_ok_iff.mp after
    have holds := assign_holds (settle_holds holds settled) assigned
    obtain ⟨later, asks, result⟩ := ih f holds last
    have spelled := spelled_of_read shape (by simp [refusals])
    exact ⟨_, .attached spelled asks, by simpa [pending] using result⟩
  | case5 d waiting arg rest shape ih =>
    obtain ⟨e, settled, after⟩ := bind_eq_ok_iff.mp taken
    obtain ⟨f, set, last⟩ := bind_eq_ok_iff.mp after
    have holds := setJson_holds (settle_holds holds settled) set
    obtain ⟨later, asks, result⟩ := ih f holds last
    have spelled := spelled_of_read shape (by simp [refusals])
    exact ⟨_, .json spelled asks, by simpa [pending] using result⟩
  | case9 d waiting arg shape =>
    have spelled := spelled_of_read shape (by simp [refusals])
    refine ⟨[], .separator spelled, ?_⟩
    rw [List.append_nil]
    exact settle_holds holds taken
  | case2 | case6 | case7 =>
    obtain ⟨e, -, thrown⟩ := bind_eq_ok_iff.mp taken
    cases thrown
  | case8 | case10 | case11 => cases taken

end Draft

namespace Options

def edge (o : Options) : Edge → Float
  | .west => o.west
  | .east => o.east
  | .south => o.south
  | .north => o.north

/-- The options are those that are asked for; each edge is given once, and zoom 9 is the one that
is taken where none is given. -/
structure Follows (o : Options) (rs : List Request) : Prop where
  edges : ∀ edge, ∃ text, given (.edge edge) rs = [text] ∧ ReadsEdge text (o.edge edge)
  zoom : (given .zoom rs = [] ∧ o.zoom = 9) ∨
    ∃ text, given .zoom rs = [text] ∧ ReadsZoom text o.zoom
  queries : List.Forall₂ ReadsQuery (given .query rs) o.queries
  json : o.json = true ↔ .json ∈ rs

theorem follows_of_finish {d : Draft} {o : Options} {rs : List Request} (holds : d.Holds rs)
    (finished : d.finish = .ok o) : o.Follows rs := by
  have once : ∀ {α : Type} {p : List Char → α → Prop} {texts : List (List Char)} {x : α},
      List.Forall₂ p texts [x] → ∃ text, texts = [text] ∧ p text x := by
    rintro _ _ _ _ (_ | ⟨read, _ | _⟩)
    exact ⟨_, rfl, read⟩
  obtain ⟨edges, zoom, queries, json⟩ := holds
  simp only [Draft.finish] at finished
  split at finished
  · rename_i west east south north atWest atEast atSouth atNorth
    cases finished
    refine ⟨fun edge => once ?_, ?_, queries, json⟩
    · have one := edges edge
      cases edge with
      | west => rwa [atWest] at one
      | east => rwa [atEast] at one
      | south => rwa [atSouth] at one
      | north => rwa [atNorth] at one
    · cases chosen : d.zoom with
      | none =>
        rw [chosen] at zoom
        exact .inl ⟨List.forall₂_nil_right_iff.mp zoom, rfl⟩
      | some z =>
        rw [chosen] at zoom
        exact .inr (once zoom)
  · cases finished

theorem exists_requests {args : List String} {o : Options} (parsed : ofArguments args = .ok o) :
    ∃ rs, (∀ other, Asks args other ↔ other = rs) ∧ o.Follows rs := by
  obtain ⟨d, taken, finished⟩ := bind_eq_ok_iff.mp parsed
  obtain ⟨rs, asks, holds⟩ := Draft.take_holds Draft.holds_empty taken
  refine ⟨rs, fun other => ⟨fun same => same.unique asks, ?_⟩, follows_of_finish holds finished⟩
  rintro rfl
  exact asks

end Options

theorem valid_of_reads {texts : List (List Char)} {es : List Envelope}
    (reads : List.Forall₂ ReadsQuery texts es) : ∀ e ∈ es, e.Valid := by
  induction reads with
  | nil => simp
  | cons read _ ih =>
    obtain ⟨parts, -, ns, -, -, valid⟩ := read
    exact List.forall_mem_cons.mpr ⟨valid, ih⟩

end MercatorGrid.CommandLine
