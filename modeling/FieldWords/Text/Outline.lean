import FieldWords.Text.Quoted

/-!
# Outlines

The diagnostic form of a value is an outline: a piece of text, or a delimited group of outlines. It
is written on one line or, as a block, with one item a line, four spaces of indentation for each
level and a comma after each item.
-/

namespace FieldWords

/-- What encloses a group, and what pads it when it stands on one line. -/
structure Delimiters where
  opening : String
  closing : String
  padding : String := ""

/-- A piece of text, a piece with a name, or a group. -/
inductive Outline where
  | text (s : String)
  | named (name : String) (body : Outline)
  | group (delimiters : Delimiters) (items : List Outline)

namespace Outline

/-- A list of items in square brackets. -/
def list (items : List Outline) : Outline := .group ⟨"[", "]", ""⟩ items

/-- A constructor with its arguments. -/
def tuple (name : String) (items : List Outline) : Outline := .group ⟨name ++ "(", ")", ""⟩ items

/-- A constructor with its named fields. -/
def record (name : String) (fields : List (String × Outline)) : Outline :=
  .group ⟨name ++ " \x7b", "\x7d", " "⟩ (fields.map fun f => .named f.1 f.2)

mutual

/-- The outline on one line. -/
def line : Outline → String
  | .text s => s
  | .named name body => name ++ ": " ++ line body
  | .group d items =>
    match lines items with
    | [] => d.opening ++ d.closing
    | texts => d.opening ++ d.padding ++ String.intercalate ", " texts ++ d.padding ++ d.closing

/-- Each outline on a line of its own. -/
def lines : List Outline → List String
  | [] => []
  | o :: os => line o :: lines os

end

/-- The white space in front of a line at a depth. -/
def indent (depth : Nat) : String := String.ofList (List.replicate (4 * depth) ' ')

mutual

/-- The outline as a block whose last line stands at a depth. -/
def block (depth : Nat) : Outline → String
  | .text s => s
  | .named name body => name ++ ": " ++ block depth body
  | .group d items =>
    match blocks (depth + 1) items with
    | [] => d.opening ++ d.closing
    | texts => d.opening ++ "\n" ++ String.join texts ++ indent depth ++ d.closing

/-- Outlines one below the other, each followed by a comma. -/
def blocks (depth : Nat) : List Outline → List String
  | [] => []
  | o :: os => (indent depth ++ block depth o ++ ",\n") :: blocks depth os

end

end Outline

/-- Values that have a diagnostic form. -/
class Inspect (α : Type) where
  outline : α → Outline

/-- The diagnostic form on one line. -/
def inspect {α : Type} [Inspect α] (a : α) : String := (Inspect.outline a).line

/-- The diagnostic form as a block. -/
def inspectBlock {α : Type} [Inspect α] (a : α) : String := (Inspect.outline a).block 0

instance : Inspect String := ⟨fun s => .text (Quoted.string s)⟩

end FieldWords
