import MercatorGrid.Document.Text
import Mathlib.Data.Int.Notation
import Mathlib.Tactic.Common

namespace MercatorGrid.Document

def indent (level : ℕ) : String := String.ofList (List.replicate (2 * level) ' ')

/-- Items between brackets, each on a line of its own and two columns further in. -/
def block (opening closing : String) (level : ℕ) : List String → String
  | [] => opening ++ closing
  | item :: items => opening ++ "\n" ++
    String.intercalate ",\n" ((item :: items).map (indent (level + 1) ++ ·)) ++
    "\n" ++ indent level ++ closing

mutual

def layout (level : ℕ) : Document → String
  | .null => "null"
  | .bool b => if b then "true" else "false"
  | .number mantissa places => numberText mantissa places
  | .text s => quote s
  | .list items => block "[" "]" level (layouts (level + 1) items)
  | .object fields => block "\x7b" "\x7d" level (fieldLayouts (level + 1) fields)

def layouts (level : ℕ) : List Document → List String
  | [] => []
  | item :: items => layout level item :: layouts level items

def fieldLayouts (level : ℕ) : List (String × Document) → List String
  | [] => []
  | (name, value) :: fields =>
    (quote name ++ ": " ++ layout level value) :: fieldLayouts level fields

end

theorem newline_spread (level : ℕ) (acc : String) :
    Form.spread.newline level acc = acc ++ "\n" ++ indent level := rfl

theorem intercalate_eq_join (separator first : String) (items : List String) :
    separator.intercalate (first :: items) =
      first ++ String.join (items.map (separator ++ ·)) := by
  induction items generalizing first with
  | nil => rw [String.intercalate_singleton, List.map_nil, String.join_nil, String.append_empty]
  | cons item items ih =>
    rw [String.intercalate_cons_cons, ih, List.map_cons, String.join_cons]
    simp only [String.append_assoc]

mutual

theorem write_spread (level : ℕ) (acc : String) : ∀ d : Document,
    d.write .spread level acc = acc ++ d.layout level
  | .null | .bool _ | .number _ _ | .text _ | .list [] | .object [] => rfl
  | .list (item :: items) => by
    rw [write, write_spread, writeItems_spread, layout, layouts, block, List.map_cons,
      intercalate_eq_join, List.map_map]
    simp only [newline_spread, String.append_assoc]
    rfl
  | .object ((name, value) :: fields) => by
    rw [write, write_spread, writeFields_spread, layout, fieldLayouts, block, List.map_cons,
      intercalate_eq_join, List.map_map]
    simp only [newline_spread, Form.colon, String.append_assoc]
    rfl

-- the first item is written by `write`, each later one with the comma before it
theorem writeItems_spread (level : ℕ) (acc : String) : ∀ items : List Document,
    writeItems .spread level acc items =
      acc ++ String.join ((layouts level items).map fun text => ",\n" ++ (indent level ++ text))
  | [] => (String.append_empty).symm
  | item :: items => by
    have comma : ",\n" = "," ++ "\n" := rfl
    rw [writeItems, write_spread, writeItems_spread, layouts, List.map_cons, String.join_cons]
    simp only [newline_spread, comma, String.append_assoc]

theorem writeFields_spread (level : ℕ) (acc : String) : ∀ fields : List (String × Document),
    writeFields .spread level acc fields = acc ++
      String.join ((fieldLayouts level fields).map fun text => ",\n" ++ (indent level ++ text))
  | [] => (String.append_empty).symm
  | (name, value) :: fields => by
    have comma : ",\n" = "," ++ "\n" := rfl
    rw [writeFields, write_spread, writeFields_spread, fieldLayouts, List.map_cons,
      String.join_cons]
    simp only [newline_spread, Form.colon, comma, String.append_assoc]

end

theorem spread_eq (d : Document) : d.spread = d.layout 0 := by
  rw [spread, write_spread, String.empty_append]

namespace Printer

/-- Every document is written, each level two columns further in. -/
def Faithful (printer : Printer) : Prop := ∀ d, printer d = .ok (d.layout 0)

theorem spread_faithful : Printer.spread.Faithful := fun d => congrArg Except.ok d.spread_eq

end Printer

end MercatorGrid.Document
