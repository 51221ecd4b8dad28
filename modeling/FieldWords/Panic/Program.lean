import FieldWords.Panic.Run

/-!
# Programs in layers

A program is one computation on the panic channel inside any number of layers. A layer catches what
unwinds from inside and either returns what it caught or raises the caught payload again.
-/

namespace FieldWords.Panic

/-- A computation on the panic channel that may return values of a type. -/
inductive Program (α : Type) where
  | value (a : α)
  | assertion (holds : Bool) (message : String)
  | panicWith (p : Payload)
  | raise (fault : Fault)
  | checked (result : Except Fault α)
  | text (kind : TextKind) (s : String)
  | foreign (n : UInt32)
  | layer (reraise : Bool) (inner : Program α)

/-- What a program returns: a value, the news that an assertion held, or what a layer caught. -/
inductive Answer (α : Type) where
  | value (a : α)
  | passed
  | returned (a : Answer α)
  | panicked (p : Payload)

namespace Program

variable {α : Type}

/-- Run a program, outside any catch. -/
def run : Program α → Run (Answer α)
  | .value a => pure (.value a)
  | .assertion holds message => do
    Run.assert holds message
    return .passed
  | .panicWith p => Run.panicWith p
  | .raise fault => Run.raise fault
  | .checked result => do
    let a ← Run.ofChecked result
    return .value a
  | .text kind s => Run.unwind (.text kind s)
  | .foreign n => Run.unwind (.foreign n)
  | .layer reraise inner => do
    match ← inner.run.caught with
    | .ok a => return .returned a
    | .error p => if reraise then Run.panicWith p else return .panicked p

end Program

end FieldWords.Panic
