import MercatorGrid.CommandLine.Options

namespace MercatorGrid.CommandLine

inductive Request where
  | value (name : OptionName) (text : List Char)
  | json
deriving DecidableEq

def OptionName.long : OptionName → String
  | .edge .west => "west"
  | .edge .east => "east"
  | .edge .south => "south"
  | .edge .north => "north"
  | .zoom => "zoom"
  | .query => "query"

inductive Letter : Char → OptionName → Prop
  | zoom : Letter 'z' .zoom
  | query : Letter 'q' .query

/-- How an option, with its value if it is attached, and the flags are written. -/
inductive Spelled : List Char → Argument → Prop
  | long (name : OptionName) : Spelled ('-' :: '-' :: name.long.toList) (.option name none)
  | equals (name : OptionName) (text : List Char) :
    Spelled ('-' :: '-' :: (name.long.toList ++ '=' :: text)) (.option name (some text))
  | short {letter : Char} {name : OptionName} (known : Letter letter name) :
    Spelled ['-', letter] (.option name none)
  | shortEquals {letter : Char} {name : OptionName} (known : Letter letter name)
    (text : List Char) : Spelled ('-' :: letter :: '=' :: text) (.option name (some text))
  | shortText {letter c : Char} {name : OptionName} (known : Letter letter name) (other : c ≠ '=')
    (text : List Char) : Spelled ('-' :: letter :: c :: text) (.option name (some (c :: text)))
  | json : Spelled "--json".toList .json
  | separator : Spelled "--".toList .separator

/-- The requests of the arguments from the left. -/
inductive Asks : List String → List Request → Prop
  | done : Asks [] []
  | separator {arg : String} (spelled : Spelled arg.toList .separator) : Asks [arg] []
  | json {arg : String} {rest : List String} {rs : List Request}
    (spelled : Spelled arg.toList .json) (later : Asks rest rs) : Asks (arg :: rest) (.json :: rs)
  | attached {arg : String} {rest : List String} {rs : List Request} {name : OptionName}
    {text : List Char} (spelled : Spelled arg.toList (.option name (some text)))
    (later : Asks rest rs) : Asks (arg :: rest) (.value name text :: rs)
  | apart {arg value : String} {rest : List String} {rs : List Request} {name : OptionName}
    (spelled : Spelled arg.toList (.option name none)) (later : Asks rest rs) :
    Asks (arg :: value :: rest) (.value name value.toList :: rs)

section Arguments
open Argument

def refusals : List Argument := [help, version, valueOfFlag, unknown]

theorem cases_of_long (name : List Char) (value : Option (List Char)) :
    (∃ option : OptionName, name = option.long.toList ∧ long name value = .option option value) ∨
    (name = "json".toList ∧ value = none ∧ long name value = .json) ∨
    long name value ∈ refusals := by
  have spelled : ∀ {text : String}, String.ofList name = text → name = text.toList := by
    rintro _ rfl
    exact String.toList_ofList.symm
  have refused : ∀ {a}, a ∈ refusals → (if value.isSome then valueOfFlag else a) ∈ refusals := by
    intro a member
    split
    · simp [refusals]
    · exact member
  unfold long
  extract_lets flag
  split
  · rename_i same
    exact .inl ⟨.edge .west, spelled same, rfl⟩
  · rename_i same
    exact .inl ⟨.edge .east, spelled same, rfl⟩
  · rename_i same
    exact .inl ⟨.edge .south, spelled same, rfl⟩
  · rename_i same
    exact .inl ⟨.edge .north, spelled same, rfl⟩
  · rename_i same
    exact .inl ⟨.zoom, spelled same, rfl⟩
  · rename_i same
    exact .inl ⟨.query, spelled same, rfl⟩
  · rename_i same
    cases value with
    | none => exact .inr (.inl ⟨spelled same, rfl, rfl⟩)
    | some text => exact .inr (.inr (by simp [flag, refusals]))
  · exact .inr (.inr (refused (by simp [refusals])))
  · exact .inr (.inr (refused (by simp [refusals])))
  · exact .inr (.inr (by simp [refusals]))

theorem spelled_attached {letter : Char} {name : OptionName} (known : Letter letter name)
    (rest : List Char) : Spelled ('-' :: letter :: rest) (.option name (attached rest)) := by
  cases rest with
  | nil => exact .short known
  | cons c rest =>
    by_cases equals : c = '='
    · rw [attached, if_pos equals, equals]
      exact .shortEquals known rest
    · rw [attached, if_neg equals]
      exact .shortText known equals rest

theorem spelled_short (letter : Char) (rest : List Char) :
    Spelled ('-' :: letter :: rest) (short letter rest) ∨ short letter rest ∈ refusals := by
  unfold short
  split
  · rename_i same
    rw [same]
    exact .inl (spelled_attached .zoom rest)
  · split
    · rename_i same
      rw [same]
      exact .inl (spelled_attached .query rest)
    · split
      · exact .inr (by simp [refusals])
      · split <;> exact .inr (by simp [refusals])

theorem exists_cut (text : List Char) :
    (text.takeWhile (· ≠ '=') = text ∧ text.dropWhile (· ≠ '=') = []) ∨
      ∃ value, text = text.takeWhile (· ≠ '=') ++ '=' :: value ∧
        text.dropWhile (· ≠ '=') = '=' :: value := by
  have whole := (List.takeWhile_append_dropWhile (p := (· ≠ '=')) (l := text))
  have head := List.head?_dropWhile_not (· ≠ '=') text
  cases rest : text.dropWhile (· ≠ '=') with
  | nil =>
    rw [rest, List.append_nil] at whole
    exact .inl ⟨whole, rfl⟩
  | cons c value =>
    rw [rest] at whole head
    obtain rfl : c = '=' := by simpa using head
    exact .inr ⟨value, whole.symm, rfl⟩

theorem spelled_long (text : List Char) {a : Argument} (read : a = long (text.takeWhile (· ≠ '='))
    (match text.dropWhile (· ≠ '=') with | [] => none | _ :: value => .some value)) :
    Spelled ('-' :: '-' :: text) a ∨ a ∈ refusals := by
  rw [read]
  rcases exists_cut text with ⟨all, rest⟩ | ⟨value, whole, rest⟩
  · rw [rest, all]
    rcases cases_of_long text none with ⟨name, rfl, option⟩ | ⟨rfl, -, flag⟩ | refused
    · rw [option]
      exact .inl (.long name)
    · rw [flag]
      exact .inl .json
    · exact .inr refused
  · rw [rest]
    rcases cases_of_long (text.takeWhile (· ≠ '=')) (.some value) with
      ⟨name, same, option⟩ | ⟨-, absent, -⟩ | refused
    · rw [option, whole, same]
      exact .inl (.equals name value)
    · cases absent
    · exact .inr refused

theorem spelled_ofText (cs : List Char) : Spelled cs (ofText cs) ∨ ofText cs ∈ refusals := by
  unfold ofText
  split
  · exact .inl .separator
  · rename_i text _
    exact spelled_long text rfl
  · rename_i letter rest _ _
    exact spelled_short letter rest
  · exact .inr (by simp [refusals])

theorem spelled_of_read {cs : List Char} {a : Argument} (read : ofText cs = a)
    (kept : a ∉ refusals) : Spelled cs a := by
  rcases spelled_ofText cs with spelled | refused
  · rwa [read] at spelled
  · exact absurd (read ▸ refused) kept

theorem ofText_of_spelled {cs : List Char} {a : Argument} (spelled : Spelled cs a) :
    ofText cs = a := by
  cases spelled with
  | long name => rcases name with (_ | _ | _ | _) | _ | _ <;> rfl
  | equals name text => rcases name with (_ | _ | _ | _) | _ | _ <;> rfl
  | short known => cases known <;> rfl
  | shortEquals known text => cases known <;> rfl
  | shortText known other text =>
    cases known with
    | zoom => exact congrArg (option .zoom) (if_neg other)
    | query => exact congrArg (option .query) (if_neg other)
  | json => rfl
  | separator => rfl

theorem Spelled.unique {cs : List Char} {a b : Argument} (first : Spelled cs a)
    (second : Spelled cs b) : a = b :=
  (ofText_of_spelled first).symm.trans (ofText_of_spelled second)

theorem Asks.unique {args : List String} {rs ss : List Request} (first : Asks args rs)
    (second : Asks args ss) : rs = ss := by
  -- an argument has one reading, so both lists are extended by the same request
  induction first generalizing ss with
  | done =>
    cases second
    rfl
  | separator spelled =>
    cases second with
    | separator _ => rfl
    | json other _ | attached other _ => cases spelled.unique other
  | json spelled _ ih =>
    cases second with
    | json _ later => rw [ih later]
    | separator other | attached other _ | apart other _ => cases spelled.unique other
  | attached spelled _ ih =>
    cases second with
    | attached other later =>
      cases spelled.unique other
      rw [ih later]
    | separator other | json other _ | apart other _ => cases spelled.unique other
  | apart spelled _ ih =>
    cases second with
    | apart other later =>
      cases spelled.unique other
      rw [ih later]
    | json other _ | attached other _ => cases spelled.unique other

end Arguments

end MercatorGrid.CommandLine
