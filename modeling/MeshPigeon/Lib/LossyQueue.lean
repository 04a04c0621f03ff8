import Mathlib.Data.List.Basic
import Mathlib.Tactic.Common

/-!
# Bounded queues that drop what does not fit

A producer writes in pieces, one element a step, and a consumer reads, in any
interleaving. A write that finds the queue full drops the rest of its piece.
-/
namespace LossyQueue

variable {α : Type}

/-- A step of the producer or of the consumer. -/
inductive TaskStep (α : Type) where
  | write (data : List α)
  /-- the next element of the write under way -/
  | put
  | available
  | read
  | clear

/-- What a step did. -/
inductive Did (α : Type) where
  | written (data : List α)
  | accepted (a : α)
  /-- the rest of a write -/
  | refused (rest : List α)
  | found (n : Int)
  | got (a : Option α)
  | cleared (queued : List α)

/-! ## What a log says -/

def written (log : List (Did α)) : List α := log.flatMap fun
  | .written data => data
  | _ => []

def accepted (log : List (Did α)) : List α := log.flatMap fun
  | .accepted a => [a]
  | _ => []

/-- The elements the writes are done with, and whether they were accepted. -/
def settled (log : List (Did α)) : List (α × Bool) := log.flatMap fun
  | .accepted a => [(a, true)]
  | .refused rest => rest.map (·, false)
  | _ => []

def delivered (log : List (Did α)) : List α := log.flatMap fun
  | .got (some a) => [a]
  | _ => []

/-- The elements that left the queue, and whether they were read. -/
def departed (log : List (Did α)) : List (α × Bool) := log.flatMap fun
  | .got (some a) => [(a, true)]
  | .cleared queued => queued.map (·, false)
  | _ => []

/-- The elements of a marked list whose mark is set. -/
def marked (l : List (α × Bool)) : List α := (l.filter Prod.snd).map Prod.fst

theorem marked_append (l m : List (α × Bool)) : marked (l ++ m) = marked l ++ marked m := by
  simp [marked]

theorem marked_none (l : List α) : marked (l.map (·, false)) = [] := by
  simp [marked]

theorem marked_all (l : List α) : marked (l.map (·, true)) = l := by
  simp [marked, List.filter_map, Function.comp_def]

theorem accepted_eq_marked (log : List (Did α)) : accepted log = marked (settled log) := by
  induction log with
  | nil => rfl
  | cons seen log ih =>
    unfold accepted settled at ih ⊢
    rw [List.flatMap_cons, List.flatMap_cons, marked_append, ih]
    cases seen with
    | refused rest => rw [marked_none]
    | _ => rfl

theorem delivered_eq_marked (log : List (Did α)) : delivered log = marked (departed log) := by
  induction log with
  | nil => rfl
  | cons seen log ih =>
    unfold delivered departed at ih ⊢
    rw [List.flatMap_cons, List.flatMap_cons, marked_append, ih]
    cases seen with
    | got a => cases a <;> rfl
    | cleared queued => rw [marked_none]
    | _ => rfl

/-- Without a `clear` everything that left was read. -/
theorem departed_of_uncleared {log : List (Did α)} (uncleared : ∀ queued, .cleared queued ∉ log) :
    (departed log).map Prod.fst = delivered log := by
  induction log with
  | nil => rfl
  | cons seen log ih =>
    have rest := ih fun queued mem => uncleared queued (List.mem_cons_of_mem _ mem)
    unfold delivered departed at rest ⊢
    rw [List.flatMap_cons, List.flatMap_cons, List.map_append, rest]
    cases seen with
    | got a => cases a <;> rfl
    | cleared queued => exact absurd List.mem_cons_self (uncleared queued)
    | _ => rfl

/-! ## The queue -/

structure Queue (α : Type) where
  entries : List α := []
  /-- what the write under way has not come to yet -/
  rest : List α := []

namespace Queue

/-- One step; one that is not enabled does nothing. -/
def step (N : Nat) (q : Queue α) : TaskStep α → Queue α × List (Did α)
  | .write data =>
    match q.rest with
    | [] => ({ q with rest := data }, [.written data])
    | _ :: _ => (q, [])
  | .put =>
    match q.rest with
    | [] => (q, [])
    | a :: rest =>
      if q.entries.length < N then (⟨q.entries ++ [a], rest⟩, [.accepted a])
      else ({ q with rest := [] }, [.refused (a :: rest)])
  | .available => (q, [.found q.entries.length])
  | .read =>
    match q.entries with
    | [] => (q, [.got none])
    | a :: entries => ({ q with entries }, [.got (some a)])
  | .clear => ({ q with entries := [] }, [.cleared q.entries])

def run (N : Nat) (q : Queue α) : List (TaskStep α) → Queue α × List (Did α)
  | [] => (q, [])
  | act :: acts =>
    let r := q.step N act
    let t := run N r.1 acts
    (t.1, r.2 ++ t.2)

/-- What was in and is accepted has left or is in; what was being written and is
called for is settled or being written. -/
structure Balance (q : Queue α) (log : List (Did α)) (q' : Queue α) : Prop where
  entries : q.entries ++ accepted log = (departed log).map Prod.fst ++ q'.entries
  rest : q.rest ++ written log = (settled log).map Prod.fst ++ q'.rest

theorem Balance.append {q q' q'' : Queue α} {log log' : List (Did α)} (h : Balance q log q')
    (h' : Balance q' log' q'') : Balance q (log ++ log') q'' := by
  constructor
  · rw [accepted, departed, List.flatMap_append, List.flatMap_append, ← accepted, ← accepted,
      ← departed, ← departed, ← List.append_assoc, h.entries, List.append_assoc, h'.entries,
      List.map_append, List.append_assoc]
  · rw [written, settled, List.flatMap_append, List.flatMap_append, ← written, ← written,
      ← settled, ← settled, ← List.append_assoc, h.rest, List.append_assoc, h'.rest,
      List.map_append, List.append_assoc]

theorem step_balance (N : Nat) (q : Queue α) (act : TaskStep α) :
    Balance q (q.step N act).2 (q.step N act).1 := by
  obtain ⟨entries, rest⟩ := q
  cases act with
  | write data => cases rest <;> exact ⟨by simp [step, accepted, departed], by simp [step, written, settled]⟩
  | put =>
    cases rest with
    | nil => exact ⟨by simp [step, accepted, departed], by simp [step, written, settled]⟩
    | cons a rest =>
      by_cases room : entries.length < N
      · exact ⟨by simp [step, room, accepted, departed], by simp [step, room, written, settled]⟩
      · exact ⟨by simp [step, room, accepted, departed],
          by simp [step, room, written, settled, Function.comp_def]⟩
  | available => exact ⟨by simp [step, accepted, departed], by simp [step, written, settled]⟩
  | read => cases entries <;> exact ⟨by simp [step, accepted, departed], by simp [step, written, settled]⟩
  | clear =>
    exact ⟨by simp [step, accepted, departed, Function.comp_def], by simp [step, written, settled]⟩

theorem run_balance (N : Nat) (acts : List (TaskStep α)) (q : Queue α) :
    Balance q (q.run N acts).2 (q.run N acts).1 := by
  induction acts generalizing q with
  | nil => exact ⟨by simp [run, accepted, departed], by simp [run, written, settled]⟩
  | cons act acts ih => exact (q.step_balance N act).append (ih _)

/-- Only a full queue refuses, and then the whole rest of the write. -/
theorem refused_of_step {N : Nat} {q : Queue α} {act : TaskStep α} {rest : List α}
    (refused : .refused rest ∈ (q.step N act).2) :
    act = .put ∧ N ≤ q.entries.length ∧ rest = q.rest ∧ (q.step N act).1.rest = [] := by
  obtain ⟨entries, rest'⟩ := q
  cases act with
  | write data => cases rest' <;> simp [step] at refused
  | put =>
    cases rest' with
    | nil => simp [step] at refused
    | cons a rest' =>
      by_cases room : entries.length < N
      · simp [step, room] at refused
      · simp only [step, if_neg room, List.mem_singleton, Did.refused.injEq] at refused ⊢
        exact ⟨trivial, Nat.le_of_not_lt room, refused, trivial⟩
  | available => simp [step] at refused
  | read => cases entries <;> simp [step] at refused
  | clear => simp [step] at refused

theorem cleared_of_step {N : Nat} {q : Queue α} {act : TaskStep α} {queued : List α}
    (cleared : .cleared queued ∈ (q.step N act).2) : act = .clear := by
  obtain ⟨entries, rest⟩ := q
  cases act with
  | write data => cases rest <;> simp [step] at cleared
  | put =>
    cases rest with
    | nil => simp [step] at cleared
    | cons a rest => by_cases room : entries.length < N <;> simp [step, room] at cleared
  | available => simp [step] at cleared
  | read => cases entries <;> simp [step] at cleared
  | clear => rfl

theorem uncleared_run {N : Nat} {acts : List (TaskStep α)} (reads : ∀ act ∈ acts, act ≠ .clear)
    (q : Queue α) (queued : List α) : .cleared queued ∉ (q.run N acts).2 := by
  induction acts generalizing q with
  | nil => exact List.not_mem_nil
  | cons act acts ih =>
    intro cleared
    obtain here | later := List.mem_append.mp cleared
    · exact reads act List.mem_cons_self (cleared_of_step here)
    · exact ih (fun act mem => reads act (List.mem_cons_of_mem _ mem)) _ later

/-! ### Runs of one task -/

theorem run_append (N : Nat) (q : Queue α) (acts acts' : List (TaskStep α)) :
    q.run N (acts ++ acts') =
      (((q.run N acts).1.run N acts').1, (q.run N acts).2 ++ ((q.run N acts).1.run N acts').2) := by
  induction acts generalizing q with
  | nil => rfl
  | cons act acts ih => simp only [List.cons_append, run, ih, List.append_assoc]

/-- What a run makes of the queue, what it settles, what it delivers and what it calls for. -/
structure Ran (N : Nat) (q : Queue α) (acts : List (TaskStep α)) (q' : Queue α) (done : List (α × Bool))
    (out called : List α) : Prop where
  queue : (q.run N acts).1 = q'
  settled : settled (q.run N acts).2 = done
  delivered : delivered (q.run N acts).2 = out
  written : written (q.run N acts).2 = called

section

variable {N : Nat} {q q' q'' : Queue α} {acts acts' : List (TaskStep α)} {done done' : List (α × Bool)}
  {out out' called called' : List α}

theorem Ran.append (h : Ran N q acts q' done out called)
    (h' : Ran N q' acts' q'' done' out' called') :
    Ran N q (acts ++ acts') q'' (done ++ done') (out ++ out') (called ++ called') := by
  obtain ⟨rfl, rfl, rfl, rfl⟩ := h
  obtain ⟨rfl, rfl, rfl, rfl⟩ := h'
  constructor
  · rw [run_append]
  · rw [run_append, LossyQueue.settled, List.flatMap_append]
    rfl
  · rw [run_append, LossyQueue.delivered, List.flatMap_append]
    rfl
  · rw [run_append, LossyQueue.written, List.flatMap_append]
    rfl

theorem ran_idle (entries : List α) (n : Nat) :
    Ran N ⟨entries, []⟩ (List.replicate n .put) ⟨entries, []⟩ [] [] [] := by
  induction n with
  | zero => exact ⟨rfl, rfl, rfl, rfl⟩
  | succ n ih =>
    have one : Ran N ⟨entries, []⟩ [.put] ⟨entries, []⟩ [] [] [] := ⟨rfl, rfl, rfl, rfl⟩
    exact one.append ih

/-- The turns of a write that nothing interrupts accept what there is room for. -/
theorem ran_put (entries data : List α) :
    Ran N ⟨entries, data⟩ (List.replicate data.length .put)
      ⟨entries ++ data.take (N - entries.length), []⟩
      ((data.take (N - entries.length)).map (·, true) ++
        (data.drop (N - entries.length)).map (·, false)) [] [] := by
  induction data generalizing entries with
  | nil => exact ⟨by simp [run], by simp [run, LossyQueue.settled], rfl, rfl⟩
  | cons a data ih =>
    by_cases room : entries.length < N
    · have one : Ran N ⟨entries, a :: data⟩ [.put] ⟨entries ++ [a], data⟩ [(a, true)] [] [] := by
        constructor <;> simp [run, step, room, LossyQueue.settled, LossyQueue.delivered,
          LossyQueue.written]
      have left : N - entries.length = N - (entries ++ [a]).length + 1 := by
        rw [List.length_append, List.length_singleton]
        omega
      have all := one.append (ih (entries ++ [a]))
      rw [List.append_assoc] at all
      rw [left, List.take_succ_cons, List.drop_succ_cons]
      exact all
    · have none : N - entries.length = 0 := Nat.sub_eq_zero_of_le (Nat.le_of_not_lt room)
      have one : Ran N ⟨entries, a :: data⟩ [.put] ⟨entries, []⟩ ((a :: data).map (·, false)) [] [] := by
        constructor <;> simp [run, step, room, LossyQueue.settled, LossyQueue.delivered,
          LossyQueue.written]
      have all := one.append (ran_idle entries data.length)
      rw [List.append_nil] at all
      rw [none, List.take_zero, List.drop_zero, List.append_nil]
      exact all

/-- A call of `write` and all turns of its loop. -/
def call (data : List α) : List (TaskStep α) := .write data :: List.replicate data.length .put

theorem ran_call (entries data : List α) :
    Ran N ⟨entries, []⟩ (call data) ⟨entries ++ data.take (N - entries.length), []⟩
      ((data.take (N - entries.length)).map (·, true) ++
        (data.drop (N - entries.length)).map (·, false)) [] data := by
  have begun : Ran N ⟨entries, []⟩ [.write data] ⟨entries, data⟩ [] [] data :=
    ⟨rfl, rfl, rfl, by simp [run, step, LossyQueue.written]⟩
  have all := begun.append (ran_put entries data)
  rw [List.append_nil data] at all
  exact all

/-- Calls with nothing read between accept what one call with all their data does. -/
theorem ran_calls (entries : List α) (pieces : List (List α)) :
    Ran N ⟨entries, []⟩ (pieces.flatMap call) ⟨entries ++ pieces.flatten.take (N - entries.length), []⟩
      ((pieces.flatten.take (N - entries.length)).map (·, true) ++
        (pieces.flatten.drop (N - entries.length)).map (·, false)) [] pieces.flatten := by
  induction pieces generalizing entries with
  | nil => exact ⟨by simp [run], by simp [run, LossyQueue.settled], rfl, rfl⟩
  | cons data pieces ih =>
    have all := (ran_call entries data).append (ih (entries ++ data.take (N - entries.length)))
    rw [List.flatMap_cons, List.flatten_cons]
    by_cases room : data.length ≤ N - entries.length
    · rw [List.take_of_length_le room, List.drop_of_length_le room, List.length_append,
        ← Nat.sub_sub, List.append_assoc, List.map_nil, List.append_nil] at all
      rw [List.take_append, List.drop_append, List.take_of_length_le room,
        List.drop_of_length_le room, List.nil_append, List.map_append, List.append_assoc]
      exact all
    · have full : N - (entries ++ data.take (N - entries.length)).length = 0 := by
        rw [List.length_append, List.length_take]
        omega
      have none : N - entries.length - data.length = 0 := by omega
      rw [full, List.take_zero, List.drop_zero, List.append_nil, List.map_nil, List.nil_append,
        List.append_assoc, ← List.map_append] at all
      rw [List.take_append, List.drop_append, none, List.take_zero, List.drop_zero, List.append_nil]
      exact all

/-- Reading everything. -/
theorem ran_read (entries : List α) :
    Ran N ⟨entries, []⟩ (List.replicate entries.length .read) ⟨[], []⟩ [] entries [] := by
  induction entries with
  | nil => exact ⟨rfl, rfl, rfl, rfl⟩
  | cons a entries ih =>
    have one : Ran N ⟨a :: entries, []⟩ [.read] ⟨entries, []⟩ [] [a] [] := ⟨rfl, rfl, rfl, rfl⟩
    exact one.append ih

end

end Queue

end LossyQueue
