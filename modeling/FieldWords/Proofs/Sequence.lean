import Mathlib.Data.List.Basic
import Mathlib.Logic.Function.Basic
import FieldWords.Assignment
import FieldWords.Sequence

/-!
# Histories of a sequence

A variable holds a sequence that grows, of which copies are kept under numbers, and which is
replaced by copies again; between this, items are read that must be there, and such a read unwinds
where there is no item (`Edit.perform`). What one edit leaves in the variables is `Versions.next`
(`on_caught_perform`), so a history leaves what the edits leave one after the other
(`Versions.after_append`). Without a replacement only items behind the old ones are added
(`toList_current_after`), and what is kept under a number stays until the number is used again
(`kept_after`). So what a sequence holds is told by the last replacement in its history
(`Contents`), and every way to read it shows this list (`contents_of_history`).
-/

namespace FieldWords.Sequence

variable {α : Type}

/-- A sequence, and the copies of it that are kept under numbers. -/
structure Versions (α : Type) where
  current : Sequence α
  kept : ℕ → Sequence α

/-- What is done to a sequence: it grows by one item or by several, a copy is kept, it is replaced
by a copy of what is kept, or an item is read that must be there. -/
inductive Edit (α : Type) where
  | append (a : α)
  | extend (xs : List α)
  | keep (k : ℕ)
  | restore (k : ℕ)
  | get (i : ℕ)

namespace Edit

/-- One edit of the variables. -/
def perform : Edit α → Assigning (Versions α) (Option α)
  | append a => do
    let v ← Assigning.read
    Assigning.write { v with current := v.current.append a }
    return none
  | extend xs => do
    let v ← Assigning.read
    Assigning.write { v with current := v.current.extend xs }
    return none
  | keep k => do
    let v ← Assigning.read
    Assigning.write { v with kept := Function.update v.kept k v.current }
    return none
  | restore k => do
    let v ← Assigning.read
    Assigning.write { v with current := v.kept k }
    return none
  | get i => do
    let v ← Assigning.read
    let a ← Assigning.compute (v.current.get i)
    return some a

/-- Edits one after the other, each inside its own catch. -/
def performAll : List (Edit α) → Assigning (Versions α) (List (Except Payload (Option α)))
  | [] => pure []
  | e :: rest => do
    let reply ← e.perform.caught
    let replies ← performAll rest
    return reply :: replies

/-- The items that an edit adds at the back. -/
def added : Edit α → List α
  | append a => [a]
  | extend xs => xs
  | _ => []

/-- Edits that put other contents in place of the old ones. -/
def Replaces (e : Edit α) : Prop := ∃ k, e = restore k

end Edit

namespace Versions

/-- A sequence that is collected from items, with nothing kept yet. -/
def start (xs : List α) : Versions α := ⟨ofList xs, fun _ => empty⟩

/-- What the variables hold after edits, some of which may have unwound. -/
def after (v : Versions α) (edits : List (Edit α)) : Versions α := ((Edit.performAll edits).on v).2

/-- What one edit leaves. -/
def next (v : Versions α) : Edit α → Versions α
  | .append a => { v with current := v.current.append a }
  | .extend xs => { v with current := v.current.extend xs }
  | .keep k => { v with kept := Function.update v.kept k v.current }
  | .restore k => { v with current := v.kept k }
  | .get _ => v

end Versions

/-! ### One edit -/

theorem get_of_some {s : Sequence α} {i : ℕ} {a : α} (h : s.at? i = some a) : s.get i = pure a := by
  rw [get, h]

theorem get_of_none {s : Sequence α} {i : ℕ} (h : s.at? i = none) :
    s.get i = .raise (.indexOutOfBounds i s.length) := by
  rw [get, h]

namespace Edit

theorem on_perform_get_of_some {v : Versions α} {i : ℕ} {a : α} (h : v.current.at? i = some a) :
    (get i).perform.on v = (pure (some a), v) := by
  rw [perform, Assigning.on_read_bind, get_of_some h]
  rfl

/-- A read that unwinds has written nothing. -/
theorem on_perform_get_of_none {v : Versions α} {i : ℕ} (h : v.current.at? i = none) :
    (get i).perform.on v = (.raise (.indexOutOfBounds i v.current.length), v) := by
  rw [perform, Assigning.on_read_bind, get_of_none h]
  rfl

/-- Inside a catch every edit comes to an end, and leaves `next`. -/
theorem on_caught_perform (v : Versions α) (e : Edit α) :
    ∃ reply log, e.perform.caught.on v = (⟨.ok reply, log⟩, v.next e) := by
  cases e with
  | append a => exact ⟨_, _, rfl⟩
  | extend xs => exact ⟨_, _, rfl⟩
  | keep k => exact ⟨_, _, rfl⟩
  | restore k => exact ⟨_, _, rfl⟩
  | get i =>
    rw [Assigning.on_caught]
    cases h : v.current.at? i with
    | some a =>
      rw [on_perform_get_of_some h]
      exact ⟨_, _, rfl⟩
    | none =>
      rw [on_perform_get_of_none h]
      exact ⟨_, _, rfl⟩

/-- Every edit of a history comes to an end, too. -/
theorem exists_on_performAll (v : Versions α) (edits : List (Edit α)) :
    ∃ replies log, (performAll edits).on v = (⟨.ok replies, log⟩, edits.foldl Versions.next v) := by
  induction edits generalizing v with
  | nil => exact ⟨_, _, rfl⟩
  | cons e rest ih =>
    obtain ⟨reply, log, hfirst⟩ := on_caught_perform v e
    obtain ⟨replies, logs, hrest⟩ := ih (v.next e)
    rw [performAll, Assigning.on_bind_of_ok hfirst, Assigning.on_bind_of_ok hrest]
    exact ⟨_, _, rfl⟩

end Edit

/-! ### Histories -/

namespace Versions

theorem after_eq_foldl (v : Versions α) (edits : List (Edit α)) :
    v.after edits = edits.foldl next v := by
  obtain ⟨replies, log, h⟩ := Edit.exists_on_performAll v edits
  rw [after, h]

@[simp] theorem after_nil (v : Versions α) : v.after [] = v := rfl

@[simp] theorem after_cons (v : Versions α) (e : Edit α) (edits : List (Edit α)) :
    v.after (e :: edits) = (v.next e).after edits := by
  simp only [after_eq_foldl, List.foldl_cons]

@[simp] theorem after_append (v : Versions α) (edits later : List (Edit α)) :
    v.after (edits ++ later) = (v.after edits).after later := by
  simp only [after_eq_foldl, List.foldl_append]

/-- An edit that does not replace the sequence adds its items behind the others. -/
theorem toList_current_next {v : Versions α} {e : Edit α} (h : ¬ e.Replaces) :
    (v.next e).current.toList = v.current.toList ++ e.added := by
  cases e with
  | append a => exact toList_append _ a
  | extend xs => exact toList_extend _ xs
  | keep k => exact (List.append_nil _).symm
  | restore k => exact absurd ⟨k, rfl⟩ h
  | get i => exact (List.append_nil _).symm

/-- Without a replacement the old items stay where they are, and behind them is what was added. -/
theorem toList_current_after {v : Versions α} {edits : List (Edit α)}
    (h : ∀ e ∈ edits, ¬ e.Replaces) :
    (v.after edits).current.toList = v.current.toList ++ edits.flatMap Edit.added := by
  induction edits generalizing v with
  | nil => exact (List.append_nil _).symm
  | cons e rest ih =>
    obtain ⟨he, hrest⟩ := List.forall_mem_cons.mp h
    rw [after_cons, ih hrest, toList_current_next he, List.flatMap_cons, List.append_assoc]

theorem kept_next {v : Versions α} {e : Edit α} {k : ℕ} (h : e ≠ .keep k) :
    (v.next e).kept k = v.kept k := by
  cases e with
  | keep j => exact Function.update_of_ne (fun hkj => h (congrArg Edit.keep hkj.symm)) _ _
  | append a => rfl
  | extend xs => rfl
  | restore j => rfl
  | get i => rfl

/-- What is kept under a number stays until the number is used again. -/
theorem kept_after {v : Versions α} {edits : List (Edit α)} {k : ℕ} (h : .keep k ∉ edits) :
    (v.after edits).kept k = v.kept k := by
  induction edits generalizing v with
  | nil => rfl
  | cons e rest ih =>
    obtain ⟨he, hrest⟩ := List.ne_and_not_mem_of_not_mem_cons h
    rw [after_cons, ih hrest, kept_next he.symm]

theorem kept_after_keep {v : Versions α} {later : List (Edit α)} {k : ℕ} (h : .keep k ∉ later) :
    (v.after (.keep k :: later)).kept k = v.current := by
  rw [after_cons, kept_after h]
  exact Function.update_self k v.current v.kept

end Versions

/-! ### Contents -/

/-- What a sequence that began with some items holds after edits. If it was never replaced, that is
the items it began with and all that were added. Otherwise it is what was last kept under the number
of the last replacement, if anything was, and all that were added since that replacement. -/
inductive Contents (xs : List α) : List (Edit α) → List α → Prop where
  | initial {edits : List (Edit α)} (hedits : ∀ e ∈ edits, ¬ e.Replaces) :
    Contents xs edits (xs ++ edits.flatMap Edit.added)
  | restored {before between later : List (Edit α)} {k : ℕ} {ys : List α}
    (hkept : Contents xs before ys) (hbetween : .keep k ∉ between)
    (hlater : ∀ e ∈ later, ¬ e.Replaces) :
    Contents xs (before ++ .keep k :: (between ++ .restore k :: later))
      (ys ++ later.flatMap Edit.added)
  | neverKept {before later : List (Edit α)} {k : ℕ} (hbefore : .keep k ∉ before)
    (hlater : ∀ e ∈ later, ¬ e.Replaces) :
    Contents xs (before ++ .restore k :: later) (later.flatMap Edit.added)

/-- A list without an element of a kind, or the last such element. -/
theorem forall_not_or_exists_last {β : Type} (p : β → Prop) (bs : List β) :
    (∀ b ∈ bs, ¬ p b) ∨
      ∃ front b back, bs = front ++ b :: back ∧ p b ∧ ∀ c ∈ back, ¬ p c := by
  induction bs with
  | nil => exact Or.inl (List.forall_mem_nil _)
  | cons c bs ih =>
    obtain hnone | ⟨front, b, back, rfl, hb, hback⟩ := ih
    · by_cases hc : p c
      · exact Or.inr ⟨[], c, bs, rfl, hc, hnone⟩
      · exact Or.inl (List.forall_mem_cons.mpr ⟨hc, hnone⟩)
    · exact Or.inr ⟨c :: front, b, back, rfl, hb, hback⟩

theorem toList_current_of_contents {xs ys : List α} {edits : List (Edit α)}
    (h : Contents xs edits ys) : ((Versions.start xs).after edits).current.toList = ys := by
  induction h with
  | initial hedits =>
    rw [Versions.toList_current_after hedits, Versions.start, toList_ofList]
  | restored hkept hbetween hlater ih =>
    rw [Versions.after_append, ← List.cons_append, Versions.after_append, Versions.after_cons _
      (.restore _), Versions.toList_current_after hlater, Versions.next,
      Versions.kept_after_keep hbetween, ih]
  | neverKept hbefore hlater =>
    rw [Versions.after_append, Versions.after_cons, Versions.toList_current_after hlater,
      Versions.next, Versions.kept_after hbefore]
    rfl

/-- Every history has contents: before its last replacement there is a shorter one. -/
theorem exists_contents (xs : List α) (edits : List (Edit α)) : ∃ ys, Contents xs edits ys := by
  induction hn : edits.length using Nat.strongRecOn generalizing edits with
  | ind n ih =>
    obtain hnone | ⟨front, _, later, rfl, ⟨k, rfl⟩, hlater⟩ :=
      forall_not_or_exists_last Edit.Replaces edits
    · exact ⟨_, .initial hnone⟩
    · obtain hnever | ⟨before, _, between, rfl, rfl, hbetween⟩ :=
        forall_not_or_exists_last (· = Edit.keep k) front
      · exact ⟨_, .neverKept (fun hmem => hnever _ hmem rfl) hlater⟩
      · have hshort : before.length < n := by
          rw [← hn]
          simp only [List.length_append, List.length_cons]
          omega
        obtain ⟨ys, hys⟩ := ih before.length hshort before rfl
        have hcontents := hys.restored (fun hmem => hbetween _ hmem rfl) hlater
        rw [← List.cons_append, ← List.append_assoc] at hcontents
        exact ⟨_, hcontents⟩

/-! ### Reading -/

/-- All that can be read of a sequence is what a list has: its length, the items in order and from
the back, the item at each index and no item behind the last, and whether it equals another. -/
structure Shows [DecidableEq α] (s : Sequence α) (ys : List α) : Prop where
  items_eq : s.toList = ys
  reversed_eq : s.reversed = ys.reverse
  length_eq : s.length = ys.length
  isEmpty_iff : s.isEmpty = true ↔ ys = []
  at?_eq (i : ℕ) : s.at? i = ys[i]?
  isSome_at?_iff (i : ℕ) : (s.at? i).isSome = true ↔ i < s.length
  beq_iff (t : Sequence α) : (s == t) = true ↔ ys = t.toList
  get_eq (i : ℕ) (a : α) : s.at? i = some a → s.get i = pure a

theorem toList_injective : Function.Injective (toList : Sequence α → List α) := fun s t h => by
  rw [← ofList_toList s, h, ofList_toList]

theorem shows_toList [DecidableEq α] (s : Sequence α) : s.Shows s.toList where
  items_eq := rfl
  reversed_eq := s.reversed_eq
  length_eq := s.length_eq
  isEmpty_iff := by rw [isEmpty_eq, List.isEmpty_iff]
  at?_eq i := s.at?_eq i
  isSome_at?_iff i := by rw [at?_eq, length_eq, Option.isSome_iff_ne_none, ne_eq,
    List.getElem?_eq_none_iff, Nat.not_le]
  beq_iff t := by rw [beq_iff_eq, toList_injective.eq_iff]
  get_eq _ _ := get_of_some

/-- **A sequence holds what its history tells.** After any history the contents are one list: what
the sequence began with, or what it was last replaced by, and all that were added since, in order.
Every way to read the sequence shows this list. Until the next replacement, an item that was read at
an index is read there again. What is kept stays as it was until its number is used again. A read
that must have an item raises a fault where there is none, and leaves everything as it was. -/
theorem contents_of_history [DecidableEq α] (xs : List α) (edits : List (Edit α)) :
    (∃! ys, Contents xs edits ys) ∧
    (∀ ys, Contents xs edits ys → ((Versions.start xs).after edits).current.Shows ys) ∧
    (∀ later, (∀ e ∈ later, ¬ e.Replaces) → ∀ i a,
      ((Versions.start xs).after edits).current.at? i = some a →
        ((Versions.start xs).after (edits ++ later)).current.at? i = some a) ∧
    (∀ k later, .keep k ∉ later →
      ((Versions.start xs).after (edits ++ .keep k :: later)).kept k =
        ((Versions.start xs).after edits).current) ∧
    ∀ i, ((Versions.start xs).after edits).current.at? i = none →
      (Edit.get i).perform.on ((Versions.start xs).after edits) =
        (.raise (.indexOutOfBounds i ((Versions.start xs).after edits).current.length),
          (Versions.start xs).after edits) := by
  refine ⟨?_, fun ys hys => ?_, fun later hlater i a ha => ?_, fun k later hlater => ?_,
    fun i hi => Edit.on_perform_get_of_none hi⟩
  · obtain ⟨ys, hys⟩ := exists_contents xs edits
    refine ⟨ys, hys, fun zs hzs => ?_⟩
    rw [← toList_current_of_contents hys, ← toList_current_of_contents hzs]
  · rw [← toList_current_of_contents hys]
    exact shows_toList _
  · rw [at?_eq] at ha ⊢
    rw [Versions.after_append, Versions.toList_current_after hlater]
    exact (List.getElem?_append_left (List.getElem?_eq_some_iff.mp ha).1).trans ha
  · rw [Versions.after_append, Versions.kept_after_keep hlater]

/-- A copy is kept, the sequence grows on, a read of it unwinds, and the copy is restored. -/
theorem contents_of_history_restored :
    let edits : List (Edit ℕ) :=
      [.append 3, .keep 0, .extend [4, 5], .get 9, .restore 0, .append 6]
    let v := (Versions.start [1, 2]).after edits
    Contents [1, 2] edits [1, 2, 3, 6] ∧ v.current.Shows [1, 2, 3, 6] ∧
      v.current.at? 3 = some 6 ∧
      ((Versions.start [1, 2]).after (edits ++ [.append 7])).current.at? 3 = some 6 ∧
      ((Versions.start [1, 2]).after (edits ++ [.keep 1, .append 7])).kept 1 = v.current ∧
      v.current.at? 4 = none ∧
      (Edit.get 4).perform.on v = (.raise (.indexOutOfBounds 4 v.current.length), v) := by
  intro edits v
  have hadds : ∀ (a : ℕ), ∀ e ∈ [Edit.append a], ¬ e.Replaces := by simp [Edit.Replaces]
  have hkept : Contents [1, 2] [.append 3] [1, 2, 3] := .initial (hadds 3)
  have hbetween : .keep 0 ∉ [Edit.extend [4, 5], .get 9] := by simp
  have hcontents : Contents [1, 2] edits [1, 2, 3, 6] := hkept.restored hbetween (hadds 6)
  obtain ⟨-, hshows, hstays, hcopy, hraises⟩ := contents_of_history [1, 2] edits
  have hthree : v.current.at? 3 = some 6 := (hshows _ hcontents).at?_eq 3
  have hfour : v.current.at? 4 = none := (hshows _ hcontents).at?_eq 4
  exact ⟨hcontents, hshows _ hcontents, hthree, hstays _ (hadds 7) 3 6 hthree,
    hcopy 1 _ (by simp), hfour, hraises 4 hfour⟩

end FieldWords.Sequence
