import Mathlib.Data.List.Basic
import Mathlib.Logic.Function.Iterate
import FieldWords.Panic.Program

/-!
# Nested catches

Any computation on the panic channel may stand inside layers of catches, each of which returns what
it caught or raises it again. One layer does this to each kind of ending: `layer_returned`,
`layer_payload_reraised`, `layer_payload_returned`, `layer_text`, `layer_foreign`. By induction over
the layers a payload arrives unchanged at the first layer that returns it (`within_payload`), plain
text becomes a payload in the innermost layer and in no other (`within_text`), and what no catch
knows passes all layers (`within_foreign`). A program is the computation inside all its layers, and
logs nothing before them but what it raises itself (`Program.run_eq_within`).
-/

namespace FieldWords.Panic

variable {α : Type}

namespace Run

/-! ### One layer -/

/-- A catch around a computation that raises what it caught again, or returns it. -/
def layer (reraise : Bool) (m : Run (Answer α)) : Run (Answer α) := do
  match ← m.caught with
  | .ok a => return .returned a
  | .error p => if reraise then panicWith p else return .panicked p

theorem layer_returned (reraise : Bool) (a : Answer α) (log : List Event) :
    layer reraise ⟨.ok a, log⟩ = ⟨.ok (.returned a), log⟩ := by
  rw [layer, caught, ok_bind]
  simp [pure_eq]

theorem layer_payload_reraised (p : Payload) (log : List Event) :
    layer true (⟨.error (.payload p), log⟩ : Run (Answer α)) =
      ⟨.error (.payload p), log ++ [.raising p]⟩ :=
  rfl

theorem layer_payload_returned (p : Payload) (log : List Event) :
    layer false (⟨.error (.payload p), log⟩ : Run (Answer α)) = ⟨.ok (.panicked p), log⟩ := by
  rw [layer, caught, ok_bind]
  simp [pure_eq]

/-- Plain text is to a layer the payload that spells it, but for one event. -/
theorem layer_text (reraise : Bool) (kind : TextKind) (s : String) (log : List Event) :
    layer reraise (⟨.error (.text kind s), log⟩ : Run (Answer α)) =
      layer reraise ⟨.error (.payload (.ofMessage s)), log ++ [.converting kind s]⟩ :=
  rfl

theorem layer_foreign (reraise : Bool) (n : UInt32) (log : List Event) :
    layer reraise (⟨.error (.foreign n), log⟩ : Run (Answer α)) = ⟨.error (.foreign n), log⟩ :=
  rfl

/-- A computation inside layers, the innermost first; of each it is told whether it raises again. -/
def within (m : Run (Answer α)) : List Bool → Run (Answer α)
  | [] => m
  | reraise :: outer => (m.layer reraise).within outer

end Run

/-! ### Where a payload ends -/

/-- How many layers raise a payload again before the first that returns it. -/
def reraises (layers : List Bool) : ℕ := (layers.takeWhile id).length

@[simp] theorem reraises_nil : reraises [] = 0 := rfl

@[simp] theorem reraises_true (outer : List Bool) : reraises (true :: outer) = reraises outer + 1 :=
  rfl

@[simp] theorem reraises_false (outer : List Bool) : reraises (false :: outer) = 0 := rfl

/-- How a payload leaves layers: it unwinds past them if all raise it again; or else the first that
does not returns it, and the layers further out return that. -/
def arrival (p : Payload) (layers : List Bool) : Except Signal (Answer α) :=
  if reraises layers = layers.length then .error (.payload p)
  else .ok (Answer.returned^[layers.length - reraises layers - 1] (.panicked p))

theorem arrival_nil (p : Payload) :
    (arrival p [] : Except Signal (Answer α)) = .error (.payload p) :=
  rfl

theorem arrival_true (p : Payload) (outer : List Bool) :
    (arrival p (true :: outer) : Except Signal (Answer α)) = arrival p outer := by
  simp [arrival]

theorem arrival_false (p : Payload) (outer : List Bool) :
    (arrival p (false :: outer) : Except Signal (Answer α)) =
      .ok (Answer.returned^[outer.length] (.panicked p)) := by
  simp [arrival]

/-! ### Any number of layers -/

namespace Run

theorem within_returned (layers : List Bool) (a : Answer α) (log : List Event) :
    within ⟨.ok a, log⟩ layers = ⟨.ok (Answer.returned^[layers.length] a), log⟩ := by
  induction layers generalizing a with
  | nil => rfl
  | cons reraise outer ih =>
    rw [within, layer_returned, ih, List.length_cons, Function.iterate_succ_apply]

theorem within_payload (layers : List Bool) (p : Payload) (log : List Event) :
    within (⟨.error (.payload p), log⟩ : Run (Answer α)) layers =
      ⟨arrival p layers, log ++ List.replicate (reraises layers) (.raising p)⟩ := by
  induction layers generalizing log with
  | nil => rw [within, arrival_nil, reraises_nil, List.replicate_zero, List.append_nil]
  | cons reraise outer ih =>
    cases reraise with
    | true =>
      rw [within, layer_payload_reraised, ih, arrival_true, reraises_true, List.replicate_succ,
        List.append_assoc, List.singleton_append]
    | false =>
      rw [within, layer_payload_returned, within_returned, arrival_false, reraises_false,
        List.replicate_zero, List.append_nil]

/-- The innermost layer turns plain text into a payload, and the other layers see only that. -/
theorem within_text {layers : List Bool} (h : layers ≠ []) (kind : TextKind) (s : String)
    (log : List Event) :
    within (⟨.error (.text kind s), log⟩ : Run (Answer α)) layers =
      ⟨arrival (.ofMessage s) layers, log ++
        .converting kind s :: List.replicate (reraises layers) (.raising (.ofMessage s))⟩ := by
  obtain ⟨reraise, outer, rfl⟩ := List.exists_cons_of_ne_nil h
  have hpayload := within_payload (α := α) (reraise :: outer) (.ofMessage s)
    (log ++ [.converting kind s])
  rw [within] at hpayload
  rw [within, layer_text, hpayload, List.append_assoc, List.singleton_append]

theorem within_foreign (layers : List Bool) (n : UInt32) (log : List Event) :
    within (⟨.error (.foreign n), log⟩ : Run (Answer α)) layers = ⟨.error (.foreign n), log⟩ := by
  induction layers with
  | nil => rfl
  | cons reraise outer ih => rw [within, layer_foreign, ih]

theorem within_append (m : Run (Answer α)) (inner outer : List Bool) :
    m.within (inner ++ outer) = (m.within inner).within outer := by
  induction inner generalizing m with
  | nil => rfl
  | cons reraise inner ih => rw [List.cons_append, within, within, ih]

end Run

/-! ### Programs -/

namespace Program

/-- The layers of a program, the innermost first. -/
def layers : Program α → List Bool
  | .layer reraise inner => inner.layers ++ [reraise]
  | _ => []

/-- How the computation inside all layers ends. -/
def ending : Program α → Except Signal (Answer α)
  | .value a => .ok (.value a)
  | .assertion true _ => .ok .passed
  | .assertion false message => .error (.payload (.ofMessage message))
  | .panicWith p => .error (.payload p)
  | .raise fault => .error (.payload (.ofFault fault))
  | .checked (.ok a) => .ok (.value a)
  | .checked (.error fault) => .error (.payload (.ofFault fault))
  | .text kind s => .error (.text kind s)
  | .foreign n => .error (.foreign n)
  | .layer _ inner => inner.ending

end Program

/-- What is logged where a computation ends: the payload that it raises, and nothing else. -/
def raisings : Except Signal (Answer α) → List Event
  | .error (.payload p) => [.raising p]
  | _ => []

/-- A program is the end of its computation inside its layers. -/
theorem Program.run_eq_within (c : Program α) :
    c.run = Run.within ⟨c.ending, raisings c.ending⟩ c.layers := by
  induction c with
  | value a => rfl
  | assertion holds message => cases holds <;> rfl
  | panicWith p => rfl
  | raise fault => rfl
  | checked result => cases result <;> rfl
  | text kind s => rfl
  | foreign n => rfl
  | layer reraise inner ih =>
    have hlayer : (Program.layer reraise inner).run = inner.run.layer reraise := rfl
    rw [hlayer, ih, layers, Run.within_append, ending, Run.within, Run.within]

/-! ### What arrives outside -/

/-- What layers make of a computation, by the way it ends. -/
structure Carried (m : Run (Answer α)) (layers : List Bool) (result : Run (Answer α)) : Prop where
  returned (a : Answer α) : m.outcome = .ok a →
    result = ⟨.ok (Answer.returned^[layers.length] a), m.events⟩
  payload (p : Payload) : m.outcome = .error (.payload p) →
    result = ⟨arrival p layers, m.events ++ List.replicate (reraises layers) (.raising p)⟩
  text (kind : TextKind) (s : String) : m.outcome = .error (.text kind s) → layers ≠ [] →
    result = ⟨arrival (.ofMessage s) layers, m.events ++
      .converting kind s :: List.replicate (reraises layers) (.raising (.ofMessage s))⟩
  foreign (n : UInt32) : m.outcome = .error (.foreign n) →
    result = ⟨.error (.foreign n), m.events⟩

theorem carried_within (m : Run (Answer α)) (layers : List Bool) :
    Carried m layers (m.within layers) := by
  obtain ⟨outcome, log⟩ := m
  constructor
  · rintro a rfl
    exact Run.within_returned layers a log
  · rintro p rfl
    exact Run.within_payload layers p log
  · rintro kind s rfl h
    exact Run.within_text h kind s log
  · rintro n rfl
    exact Run.within_foreign layers n log

/-- **Nested catches.** Whatever a computation did before, layers around it make this of its end. A
payload, however it was raised, passes every layer that raises it again and is returned as it is by
the first that does not; plain text becomes the payload that spells it in the innermost layer, and
passes the others as such; any other signal leaves all layers as it entered. The log has one event
of the level `debug` for each time a payload is raised, the first included, one of the level `trace`
for a text, and none for any other signal or a value. -/
theorem carried_through_layers :
    (∀ (m : Run (Answer α)) (layers : List Bool), Carried m layers (m.within layers)) ∧
    (∀ c : Program α, Carried ⟨c.ending, raisings c.ending⟩ c.layers c.run) ∧
    (∀ p, (Event.raising p).level = .debug) ∧
    ∀ kind s, (Event.converting kind s).level = .trace := by
  refine ⟨carried_within, fun c => ?_, fun _ => rfl, fun _ _ => rfl⟩
  rw [c.run_eq_within]
  exact carried_within _ _

/-- A text that the innermost of five layers converts and the third returns. -/
theorem carried_through_layers_text_returned :
    let c : Program Unit :=
      .layer true (.layer false (.layer false (.layer true (.layer true (.text .borrowed "out")))))
    c.run = ⟨.ok (.returned (.returned (.panicked (.ofMessage "out")))),
      [.converting .borrowed "out", .raising (.ofMessage "out"), .raising (.ofMessage "out")]⟩ := by
  intro c
  exact (carried_through_layers.2.1 c).text .borrowed "out" rfl (List.cons_ne_nil _ _)

end FieldWords.Panic
