import FieldWords.Proofs.Panic.Checked
import FieldWords.Proofs.Sequence

/-!
# Sessions

A session is what variables hold whose only copy is kept under the number 0, and its actions are
edits of them (`fst_act`). The reply to an action can be read off two lists, the items of the
sequence and those of the saved copy (`snd_act`), and a history tells both (`replies_of_history`).
-/

namespace FieldWords.Sequence

variable {α : Type}

/-- The part of the variables that a session has. -/
def Versions.session (v : Versions α) : Session α := ⟨v.current, v.kept 0⟩

namespace Action

/-- The edits that an action makes. -/
def edits : Action α → List (Edit α)
  | append a => [.append a]
  | extend xs => [.extend xs]
  | get i => [.get i]
  | save => [.keep 0]
  | restore => [.restore 0]
  | _ => []

variable [Inspect α] [DecidableEq α]

/-- The reply to an action, by the items and by those of the saved copy. -/
def answer (ys saved : List α) : Action α → Reply α
  | append _ => .count (ys.length + 1)
  | extend xs => .count (ys.length + xs.length)
  | .at i => .item ys[i]?
  | get i =>
    match ys[i]? with
    | some a => .got (pure (.ok a))
    | none =>
      let p := Payload.ofFault (.indexOutOfBounds i ys.length)
      .got ⟨.ok (.error p), [.raising p]⟩
  | length => .count ys.length
  | isEmpty => .flag ys.isEmpty
  | items => .items ys
  | reversed => .items ys.reverse
  | inspect => .text (FieldWords.inspect (ofList ys))
  | inspectBlock => .text (FieldWords.inspectBlock (ofList ys))
  | save => .count ys.length
  | restore => .count saved.length
  | equalsSaved => .flag (ys = saved)

end Action

variable [Inspect α] [DecidableEq α]

/-- An action leaves what its edits leave. -/
theorem fst_act (v : Versions α) (a : Action α) :
    (v.session.act a).1 = (v.after a.edits).session := by
  rw [Versions.after_eq_foldl]
  cases a <;> rfl

theorem snd_act (s : Session α) (a : Action α) :
    (s.act a).2 = a.answer s.current.toList s.saved.toList := by
  cases a with
  | get i =>
    rw [Session.act, Action.answer, ← at?_eq]
    cases h : s.current.at? i with
    | some a => rw [get_of_some h, Panic.Run.caught_pure]
    | none => rw [get_of_none h, Panic.Run.caught_raise, length_eq]
  | equalsSaved => simp only [Session.act, Action.answer, toList_injective.eq_iff]
  | _ => simp [Session.act, Action.answer]

/-- Each reply is that of the session which the actions before it leave. -/
theorem getElem?_replies (v : Versions α) (actions : List (Action α)) (i : ℕ) :
    (v.session.replies actions)[i]? = actions[i]?.map fun a =>
      ((v.after ((actions.take i).flatMap Action.edits)).session.act a).2 := by
  induction actions generalizing v i with
  | nil => rfl
  | cons a rest ih =>
    cases i with
    | zero => rfl
    | succ i =>
      rw [Session.replies, List.getElem?_cons_succ, List.getElem?_cons_succ, fst_act, ih,
        List.take_succ_cons, List.flatMap_cons]
      simp only [Versions.after_append]

/-- **A session answers what its history tells.** A reply is read off the items that the actions
before it leave, and off those that the saved copy would bring back. -/
theorem replies_of_history {xs ys saved : List α} {actions : List (Action α)} {i : ℕ}
    (hys : Contents xs ((actions.take i).flatMap Action.edits) ys)
    (hsaved : Contents xs ((actions.take i).flatMap Action.edits ++ [.restore 0]) saved) :
    (Session.replies ⟨ofList xs, empty⟩ actions)[i]? = actions[i]?.map (Action.answer ys saved) := by
  have hcurrent := toList_current_of_contents hys
  have hkept := toList_current_of_contents hsaved
  rw [Versions.after_append, Versions.after_cons, Versions.after_nil] at hkept
  refine (getElem?_replies (Versions.start xs) actions i).trans ?_
  congr 1
  funext a
  rw [snd_act]
  exact congrArg₂ (fun ys saved => Action.answer ys saved a) hcurrent hkept

end FieldWords.Sequence
