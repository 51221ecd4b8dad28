import FieldWords.Operator

/-!
# Chains

A chain applies operators to a state, one after the other, each inside its own catch. A step that
raises leaves the state as it was, and the chain goes on.
-/

namespace FieldWords.Chain

variable {ω α : Type} [Operators ω α]

/-- An operator and its right operand; without one the state itself is the operand. -/
structure Step (ω α : Type) where
  op : ω
  operand : Option α

/-- What a step leaves: a new state, or a payload and the old state. -/
inductive Reply (α : Type) where
  | moved (state : α)
  | raised (p : Payload) (state : α)

namespace Reply

def state : Reply α → α
  | .moved a => a
  | .raised _ a => a

end Reply

/-- One step inside its catch. -/
def step (state : α) (s : Step ω α) : Panic.Run (Reply α) := do
  match ← (Operators.raising s.op state (s.operand.getD state)).caught with
  | .ok a => return .moved a
  | .error p => return .raised p state

/-- The replies of all steps, in order. -/
def run (state : α) : List (Step ω α) → Panic.Run (List (Reply α))
  | [] => pure []
  | s :: rest => do
    let reply ← step state s
    let replies ← run reply.state rest
    return reply :: replies

end FieldWords.Chain
