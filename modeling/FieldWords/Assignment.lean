import FieldWords.Chain

/-!
# Assignments to a variable

An assigning operator reads a variable, computes with what it read, and writes the result back. A
variable is not restored when a computation unwinds: a catch finds in it what was last written.
-/

namespace FieldWords

/-- A computation on the panic channel over a variable: from what the variable holds, its run and
what the variable holds after it, no matter how the run ends. -/
structure Assigning (α β : Type) where
  on : α → Panic.Run β × α

namespace Assigning

variable {α β γ ω : Type}

protected def pure (b : β) : Assigning α β := ⟨fun held => (pure b, held)⟩

/-- The second computation runs only after a value of the first, and on what the first left in the
variable. -/
protected def bind (m : Assigning α β) (f : β → Assigning α γ) : Assigning α γ := ⟨fun held =>
  match m.on held with
  | (⟨.ok b, log⟩, left) => (⟨((f b).on left).1.outcome, log ++ ((f b).on left).1.events⟩,
    ((f b).on left).2)
  | (⟨.error s, log⟩, left) => (⟨.error s, log⟩, left)⟩

instance : Monad (Assigning α) where
  pure := Assigning.pure
  bind := Assigning.bind

@[simp] theorem on_pure (b : β) (held : α) : (pure b : Assigning α β).on held = (pure b, held) :=
  rfl

theorem on_bind_of_ok {m : Assigning α β} {held left : α} {b : β} {log : List Panic.Event}
    (h : m.on held = (⟨.ok b, log⟩, left)) (f : β → Assigning α γ) :
    (m >>= f).on held =
      (⟨((f b).on left).1.outcome, log ++ ((f b).on left).1.events⟩, ((f b).on left).2) := by
  change (Assigning.bind m f).on held = _
  simp only [Assigning.bind, h]

theorem on_bind_of_error {m : Assigning α β} {held left : α} {e : Panic.Signal}
    {log : List Panic.Event} (h : m.on held = (⟨.error e, log⟩, left)) (f : β → Assigning α γ) :
    (m >>= f).on held = (⟨.error e, log⟩, left) := by
  change (Assigning.bind m f).on held = _
  simp only [Assigning.bind, h]

def read : Assigning α α := ⟨fun held => (pure held, held)⟩

def write (a : α) : Assigning α Unit := ⟨fun _ => (pure (), a)⟩

/-- A computation that leaves the variable alone. -/
def compute (m : Panic.Run β) : Assigning α β := ⟨fun held => (m, held)⟩

/-- Stop an unwinding payload or text here; the variable keeps what it holds. -/
def caught (m : Assigning α β) : Assigning α (Except Payload β) := ⟨fun held =>
  ((m.on held).1.caught, (m.on held).2)⟩

theorem on_caught (m : Assigning α β) (held : α) :
    m.caught.on held = ((m.on held).1.caught, (m.on held).2) :=
  rfl

@[simp] theorem on_read_bind (f : α → Assigning α γ) (held : α) :
    (read >>= f).on held = (f held).on held :=
  rfl

variable [Operators ω α]

/-- An assigning operator. -/
def assign (s : Chain.Step ω α) : Assigning α Unit := do
  let a ← read
  let v ← compute (Operators.raising s.op a (s.operand.getD a))
  write v

/-- An assigning operator inside its own catch; the reply tells what the variable holds then. -/
def attempt (s : Chain.Step ω α) : Assigning α (Chain.Reply α) := do
  let result ← (assign s).caught
  let a ← read
  match result with
  | .ok () => return .moved a
  | .error p => return .raised p a

/-- Assigning operators one after the other, each inside its own catch. -/
def attemptAll : List (Chain.Step ω α) → Assigning α (List (Chain.Reply α))
  | [] => pure []
  | s :: rest => do
    let reply ← attempt s
    let replies ← attemptAll rest
    return reply :: replies

end Assigning

end FieldWords
