import FieldWords.Panic.Payload

/-!
# Runs

A run is a computation that may unwind: it ends in a value or in a signal, and it leaves a log of
events. Raising a payload is logged when it happens. A catch turns a payload into a value, turns a
signal with plain text into the payload that spells it, which is logged, and lets any other signal
pass.
-/

namespace FieldWords.Panic

/-- The two kinds of plain text that can unwind. -/
inductive TextKind where
  | owned
  | borrowed
  deriving DecidableEq, Repr

/-- What unwinds: a payload, plain text, or a value that no catch knows. -/
inductive Signal where
  | payload (p : Payload)
  | text (kind : TextKind) (s : String)
  | foreign (n : UInt32)
  deriving DecidableEq

/-- What is logged. -/
inductive Event where
  | raising (p : Payload)
  | converting (kind : TextKind) (s : String)
  deriving DecidableEq

/-- The levels of the log. -/
inductive Level where
  | debug
  | trace
  deriving DecidableEq, Repr

/-- The values of the fields of an event. -/
inductive FieldValue where
  | text (s : String)
  | count (n : Nat)
  deriving DecidableEq, Repr

namespace Event

def level : Event → Level
  | .raising _ => .debug
  | .converting _ _ => .trace

/-- The fields of an event, in the order of the log. -/
def fields : Event → List (String × FieldValue)
  | .raising p =>
    [("message", .text "raising panic"), ("payload", .text p.message),
      ("len", .count p.values.length)]
  | .converting .owned s =>
    [("message", .text "converting string panic"), ("message", .text s)]
  | .converting .borrowed s =>
    [("message", .text "converting str panic"), ("message", .text s)]

end Event

/-- The end of a computation and the events before it. -/
structure Run (α : Type) where
  outcome : Except Signal α
  events : List Event

namespace Run

variable {α β γ : Type}

protected def pure (a : α) : Run α := ⟨.ok a, []⟩

/-- The second computation runs only after a value of the first. -/
protected def bind (m : Run α) (f : α → Run β) : Run β :=
  match m.outcome with
  | .ok a => ⟨(f a).outcome, m.events ++ (f a).events⟩
  | .error s => ⟨.error s, m.events⟩

instance : Monad Run where
  pure := Run.pure
  bind := Run.bind

theorem pure_eq (a : α) : (pure a : Run α) = ⟨.ok a, []⟩ := rfl

@[simp] theorem ok_bind (a : α) (log : List Event) (f : α → Run β) :
    (⟨.ok a, log⟩ : Run α) >>= f = ⟨(f a).outcome, log ++ (f a).events⟩ := rfl

@[simp] theorem error_bind (s : Signal) (log : List Event) (f : α → Run β) :
    (⟨.error s, log⟩ : Run α) >>= f = ⟨.error s, log⟩ := rfl

theorem bind_assoc (m : Run α) (f : α → Run β) (g : β → Run γ) :
    m >>= f >>= g = m >>= fun a => f a >>= g := by
  obtain ⟨o | a, log⟩ := m
  · rfl
  · simp only [ok_bind]
    obtain ⟨o | b, log'⟩ := f a
    · rfl
    · simp

theorem id_map (m : Run α) : id <$> m = m := by
  obtain ⟨o | a, log⟩ := m
  · rfl
  · change (⟨.ok a, log ++ []⟩ : Run α) = _
    rw [List.append_nil]

instance : LawfulMonad Run := LawfulMonad.mk' Run id_map (fun _ _ => rfl) bind_assoc

/-- Unwind without a log. -/
def unwind (s : Signal) : Run α := ⟨.error s, []⟩

/-- Raise a payload. -/
def panicWith (p : Payload) : Run α := ⟨.error (.payload p), [.raising p]⟩

/-- Raise the payload of a fault. -/
def raise (fault : Fault) : Run α := panicWith (.ofFault fault)

/-- Raise a message unless a condition holds. -/
def assert (condition : Bool) (message : String) : Run Unit :=
  if condition then pure () else raise (.assertion message)

/-- The value of a checked result, or its fault raised. -/
def ofChecked : Except Fault α → Run α
  | .ok a => pure a
  | .error fault => raise fault

/-- The value, if there is one, or else plain text that unwinds. -/
def orUnwind (text : String) : Option α → Run α
  | some a => pure a
  | none => unwind (.text .borrowed text)

/-- Stop an unwinding payload or text here. -/
def caught (m : Run α) : Run (Except Payload α) :=
  match m.outcome with
  | .ok a => ⟨.ok (.ok a), m.events⟩
  | .error (.payload p) => ⟨.ok (.error p), m.events⟩
  | .error (.text kind s) => ⟨.ok (.error (.ofMessage s)), m.events ++ [.converting kind s]⟩
  | .error (.foreign n) => ⟨.error (.foreign n), m.events⟩

end Run

end FieldWords.Panic
