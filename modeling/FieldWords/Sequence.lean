import FieldWords.Panic.Run

/-!
# Sequences

A sequence grows only at the back. Reads are checked: outside the bounds there is nothing, and a
caller may escalate that to a panic, which leaves the sequence alone. A session is a sequence under
a series of actions, with one saved copy to go back to.
-/

namespace FieldWords

/-- An append-only sequence; the array holds its items in the order they were appended. -/
structure Sequence (α : Type) where
  items : Array α
  deriving DecidableEq

namespace Sequence

variable {α : Type}

def empty : Sequence α := ⟨#[]⟩

def ofList (xs : List α) : Sequence α := ⟨xs.toArray⟩

/-- The items, first appended first. -/
def toList (s : Sequence α) : List α := s.items.toList

@[simp] theorem toList_ofList (xs : List α) : (ofList xs).toList = xs := by
  simp [toList, ofList]

@[simp] theorem ofList_toList (s : Sequence α) : ofList s.toList = s := by
  simp [toList, ofList]

@[simp] theorem toList_empty : (empty : Sequence α).toList = [] := rfl

def length (s : Sequence α) : Nat := s.items.size

def isEmpty (s : Sequence α) : Bool := s.items.isEmpty

/-- Put one item at the back. -/
def append (s : Sequence α) (a : α) : Sequence α := ⟨s.items.push a⟩

@[simp] theorem toList_append (s : Sequence α) (a : α) :
    (s.append a).toList = s.toList ++ [a] := by
  simp [toList, append]

/-- Put items at the back, one by one. -/
def extend (s : Sequence α) (xs : List α) : Sequence α := xs.foldl append s

@[simp] theorem toList_extend (s : Sequence α) (xs : List α) :
    (s.extend xs).toList = s.toList ++ xs := by
  induction xs generalizing s with
  | nil => simp [extend]
  | cons x xs ih =>
    have h := ih (s.append x)
    simp only [extend, toList_append, List.append_assoc] at h
    simpa [extend] using h

/-- The item at an index, if there is one. -/
def at? (s : Sequence α) (i : Nat) : Option α := s.items[i]?

@[simp] theorem at?_eq (s : Sequence α) (i : Nat) : s.at? i = s.toList[i]? := by
  simp [at?, toList]

@[simp] theorem length_eq (s : Sequence α) : s.length = s.toList.length := by
  simp [length, toList]

@[simp] theorem isEmpty_eq (s : Sequence α) : s.isEmpty = s.toList.isEmpty := by
  cases s; simp [isEmpty, toList]

/-- The items from the back. -/
def reversed (s : Sequence α) : List α := s.items.toListRev

@[simp] theorem reversed_eq (s : Sequence α) : s.reversed = s.toList.reverse := by
  simp [reversed, toList]

/-- The item at an index, or a raised fault. -/
def get (s : Sequence α) (i : Nat) : Panic.Run α :=
  match s.at? i with
  | some a => pure a
  | none => .raise (.indexOutOfBounds i s.length)

instance [Inspect α] : Inspect (Sequence α) :=
  ⟨fun s => .list (s.toList.map Inspect.outline)⟩

/-! ### Sessions -/

/-- A sequence and a saved copy. -/
structure Session (α : Type) where
  current : Sequence α
  saved : Sequence α

/-- What a session can be asked. -/
inductive Action (α : Type) where
  | append (a : α)
  | extend (xs : List α)
  | at (i : Nat)
  | get (i : Nat)
  | length
  | isEmpty
  | items
  | reversed
  | inspect
  | inspectBlock
  | save
  | restore
  | equalsSaved

/-- What a session answers. -/
inductive Reply (α : Type) where
  | count (n : Nat)
  | item (a : Option α)
  | got (result : Panic.Run (Except Payload α))
  | flag (b : Bool)
  | items (xs : List α)
  | text (s : String)

namespace Session

variable [Inspect α] [DecidableEq α]

/-- One action on a session. -/
def act (s : Session α) : Action α → Session α × Reply α
  | .append a => let t := s.current.append a; ({ s with current := t }, .count t.length)
  | .extend xs => let t := s.current.extend xs; ({ s with current := t }, .count t.length)
  | .at i => (s, .item (s.current.at? i))
  | .get i => (s, .got (s.current.get i).caught)
  | .length => (s, .count s.current.length)
  | .isEmpty => (s, .flag s.current.isEmpty)
  | .items => (s, .items s.current.toList)
  | .reversed => (s, .items s.current.reversed)
  | .inspect => (s, .text (FieldWords.inspect s.current))
  | .inspectBlock => (s, .text (FieldWords.inspectBlock s.current))
  | .save => ({ s with saved := s.current }, .count s.current.length)
  | .restore => ({ s with current := s.saved }, .count s.saved.length)
  | .equalsSaved => (s, .flag (s.current = s.saved))

/-- The replies to a series of actions. -/
def replies (s : Session α) : List (Action α) → List (Reply α)
  | [] => []
  | a :: rest => (s.act a).2 :: (s.act a).1.replies rest

end Session

end Sequence

end FieldWords
