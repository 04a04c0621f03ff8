import Mathlib.Data.List.Basic
import Mathlib.Tactic.Common

/-! Logs whose every entry is judged by the entries before it. -/
namespace Trace

variable {α : Type}

/-- Every entry of `log` satisfies `P` given `past` and the entries before it. -/
def AlongFrom (P : List α → α → Prop) (past : List α) : List α → Prop
  | [] => True
  | a :: log => P past a ∧ AlongFrom P (past ++ [a]) log

def Along (P : List α → α → Prop) (log : List α) : Prop := AlongFrom P [] log

variable {P Q : List α → α → Prop}

instance decidableAlongFrom [∀ past a, Decidable (P past a)] (past : List α) :
    (log : List α) → Decidable (AlongFrom P past log)
  | [] => isTrue trivial
  | a :: log =>
    have := decidableAlongFrom (past ++ [a]) log
    inferInstanceAs (Decidable (P past a ∧ AlongFrom P (past ++ [a]) log))

instance [∀ past a, Decidable (P past a)] (log : List α) : Decidable (Along P log) :=
  decidableAlongFrom [] log

theorem alongFrom_append {past log log' : List α} :
    AlongFrom P past (log ++ log') ↔ AlongFrom P past log ∧ AlongFrom P (past ++ log) log' := by
  induction log generalizing past with
  | nil => simp [AlongFrom]
  | cons a log ih => simp only [List.cons_append, AlongFrom, ih, and_assoc, List.append_assoc]; rfl

theorem along_append {log log' : List α} :
    Along P (log ++ log') ↔ Along P log ∧ AlongFrom P log log' := alongFrom_append

/-- An entry and the ones before it. -/
theorem AlongFrom.at {past log : List α} (h : AlongFrom P past log) {front back : List α} {a : α}
    (split : log = front ++ a :: back) : P (past ++ front) a := by
  rw [split, alongFrom_append] at h
  exact h.2.1

/-- While the entries leave a view of the log as it is, each is judged by that view. -/
theorem alongFrom_of_still {β : Type} {f : List α → β} {past log : List α}
    (still : ∀ a ∈ log, ∀ past, f (past ++ [a]) = f past)
    (each : ∀ a ∈ log, ∀ past', f past' = f past → P past' a) : AlongFrom P past log := by
  induction log generalizing past with
  | nil => trivial
  | cons a log ih =>
    refine ⟨each a List.mem_cons_self past rfl, ih ?_ ?_⟩
    · intro b hb
      exact still b (List.mem_cons_of_mem a hb)
    · intro b hb past' same
      apply each b (List.mem_cons_of_mem a hb) past'
      rw [same, still a List.mem_cons_self]

theorem view_append {β : Type} {f : List α → β} {log : List α}
    (still : ∀ a ∈ log, ∀ past, f (past ++ [a]) = f past) (past : List α) :
    f (past ++ log) = f past := by
  induction log generalizing past with
  | nil => rw [List.append_nil]
  | cons a log ih =>
    rw [← List.singleton_append, ← List.append_assoc,
      ih fun b hb => still b (List.mem_cons_of_mem a hb)]
    exact still a List.mem_cons_self past

end Trace
