import Mathlib.Data.List.Basic
import Mathlib.Logic.Function.Basic

/-!
# Files and power cuts

A disk of named files, programs of file operations, and what is left of them when
the power is cut: whole steps, and of a write the part that got through.
-/
namespace Files

variable {P β : Type} [DecidableEq P]

/-- The files by their paths. -/
abbrev Disk (P β : Type) := P → Option (List β)

/-- Operations that take effect. Opening for append makes the file if there is none. -/
inductive Step (P β : Type) where
  | remove (p : P)
  | openAppend (p : P)
  | write (p : P) (bytes : List β)
  | close (p : P)
  | rename (p q : P)

def Step.exec (d : Disk P β) : Step P β → Disk P β
  | .remove p => Function.update d p none
  | .openAppend p => Function.update d p (some ((d p).getD []))
  | .write p bytes => Function.update d p (some ((d p).getD [] ++ bytes))
  | .close _ => d
  | .rename p q =>
    match d p with
    | none => d
    | some bytes => Function.update (Function.update d p none) q (some bytes)

def exec (d : Disk P β) (steps : List (Step P β)) : Disk P β := steps.foldl Step.exec d

/-- What of a program is done when the power is cut: whole steps, the last one a
part of a write perhaps. -/
inductive Cut : List (Step P β) → List (Step P β) → Prop
  | between (done rest : List (Step P β)) : Cut (done ++ rest) done
  | inside (done : List (Step P β)) (p : P) (bytes : List β) (k : Nat) (rest : List (Step P β)) :
    Cut (done ++ .write p bytes :: rest) (done ++ [.write p (bytes.take k)])

/-- The cut after `n` steps, `k` bytes into a write if the next is one. -/
def cutAt (steps : List (Step P β)) (n k : Nat) : List (Step P β) :=
  steps.take n ++
    match steps[n]? with
    | some (.write p bytes) => [.write p (bytes.take k)]
    | _ => []

omit [DecidableEq P] in
theorem cut_cutAt (steps : List (Step P β)) (n k : Nat) : Cut steps (cutAt steps n k) := by
  have whole : steps.take n ++ steps.drop n = steps := List.take_append_drop n steps
  unfold cutAt
  split
  · rename_i p bytes next
    obtain ⟨inside, found⟩ := List.getElem?_eq_some_iff.mp next
    have split : steps.take n ++ .write p bytes :: steps.drop (n + 1) = steps := by
      rw [← found, ← List.drop_eq_getElem_cons inside]
      exact whole
    have cut := Cut.inside (steps.take n) p bytes k (steps.drop (n + 1))
    rwa [split] at cut
  · have cut := Cut.between (steps.take n) (steps.drop n)
    rw [whole] at cut
    rwa [List.append_nil]

/-- The step changes no file but `tmp`. -/
inductive Step.Within (tmp : P) : Step P β → Prop
  | remove : Within tmp (.remove tmp)
  | openAppend : Within tmp (.openAppend tmp)
  | write (bytes : List β) : Within tmp (.write tmp bytes)
  | close (p : P) : Within tmp (.close p)

theorem Step.Within.exec {tmp : P} {s : Step P β} (h : s.Within tmp) (d : Disk P β) {q : P}
    (other : q ≠ tmp) : s.exec d q = d q := by
  cases h with
  | close p => rfl
  | remove | openAppend | write => exact Function.update_of_ne other _ _

/-- Steps within one file leave the others alone. -/
theorem exec_within {tmp : P} {steps : List (Step P β)} (h : ∀ s ∈ steps, s.Within tmp)
    (d : Disk P β) {q : P} (other : q ≠ tmp) : exec d steps q = d q := by
  induction steps generalizing d with
  | nil => rfl
  | cons s steps ih =>
    have first := (h s List.mem_cons_self).exec d other
    have rest := ih (fun t ht => h t (List.mem_cons_of_mem s ht)) (s.exec d)
    exact rest.trans first

omit [DecidableEq P] in
/-- What a cut leaves of steps within one file stays within it. -/
theorem Cut.within {tmp : P} {steps done : List (Step P β)} (h : Cut steps done)
    (each : ∀ s ∈ steps, s.Within tmp) : ∀ s ∈ done, s.Within tmp := by
  cases h with
  | between done rest => exact fun s hs => each s (List.mem_append_left rest hs)
  | inside done p bytes k rest =>
    intro s hs
    rcases List.mem_append.mp hs with before | last
    · exact each s (List.mem_append_left _ before)
    · have written := each (.write p bytes) (by simp)
      rw [List.mem_singleton.mp last]
      cases written with
      | write => exact .write _

omit [DecidableEq P] in
/-- A cut of a program that ends with a rename is the whole, or a cut of the rest. -/
theorem Cut.before_rename {steps done : List (Step P β)} {p q : P}
    (h : Cut (steps ++ [.rename p q]) done) : done = steps ++ [.rename p q] ∨ Cut steps done := by
  generalize whole : steps ++ [.rename p q] = all at h
  cases h with
  | between done rest =>
    rcases List.eq_nil_or_concat rest with rfl | ⟨rest, last, rfl⟩
    · exact .inl (List.append_nil done).symm
    · right
      have split : steps ++ [.rename p q] = (done ++ rest) ++ [last] := by
        rw [whole]
        simp
      rw [(List.append_inj' split rfl).1]
      exact .between done rest
  | inside done f bytes k rest =>
    right
    rcases List.eq_nil_or_concat rest with rfl | ⟨rest, last, rfl⟩
    · have last := (List.append_inj' whole rfl).2
      cases last
    · have split : steps ++ [.rename p q] = (done ++ .write f bytes :: rest) ++ [last] := by
        rw [whole]
        simp
      rw [(List.append_inj' split rfl).1]
      exact .inside done f bytes k rest

omit [DecidableEq P] in
/-- A removal is not cut in two. -/
theorem Cut.remove {p : P} {done : List (Step P β)} (h : Cut [.remove p] done) :
    done = [] ∨ done = [.remove p] := by
  generalize whole : ([.remove p] : List (Step P β)) = all at h
  cases h with
  | between done rest =>
    rcases List.singleton_eq_append_iff.mp whole with ⟨none, _⟩ | ⟨_, none⟩
    · exact .inl none
    · rw [none]
      exact .inr (List.append_nil done).symm
  | inside done f bytes k rest =>
    rcases List.singleton_eq_append_iff.mp whole with ⟨_, other⟩ | ⟨_, none⟩
    · cases other
    · cases none

/-! ## Replacing a file -/

/-- Write a fresh temporary file, then rename it over the target. -/
def replace (tmp path : P) (bytes : List β) : List (Step P β) :=
  [.remove tmp, .openAppend tmp, .write tmp bytes, .close tmp] ++ [.rename tmp path]

theorem exec_append (d : Disk P β) (as bs : List (Step P β)) :
    exec d (as ++ bs) = exec (exec d as) bs := List.foldl_append

/-- The temporary file as it is before the rename. -/
theorem exec_draft (d : Disk P β) (tmp : P) (bytes : List β) :
    exec d [.remove tmp, .openAppend tmp, .write tmp bytes, .close tmp] =
      Function.update d tmp (some bytes) := by
  simp [exec, Step.exec]

theorem exec_replace (d : Disk P β) (tmp path : P) (bytes : List β) :
    exec d (replace tmp path bytes) =
      Function.update (Function.update d tmp none) path (some bytes) := by
  rw [replace, exec_append, exec_draft]
  simp [exec, Step.exec]

omit [DecidableEq P] in
/-- Everything up to the rename is about the temporary file. -/
theorem draft_within (tmp : P) (bytes : List β) :
    ∀ s ∈ ([.remove tmp, .openAppend tmp, .write tmp bytes, .close tmp] : List (Step P β)),
      s.Within tmp := by
  simp only [List.mem_cons, List.not_mem_nil, or_false]
  rintro s (rfl | rfl | rfl | rfl)
  · exact .remove
  · exact .openAppend
  · exact .write bytes
  · exact .close tmp

/-- **A cut replacement is all or nothing.** Every file but the temporary one is as
before, or as after the whole replacement. -/
theorem replace_cut {d : Disk P β} {tmp path : P} {bytes : List β} {done : List (Step P β)}
    (h : Cut (replace tmp path bytes) done) :
    (∀ q, q ≠ tmp → exec d done q = d q) ∨ exec d done = exec d (replace tmp path bytes) := by
  rcases h.before_rename with whole | cut
  · right
    rw [whole]
    rfl
  · left
    intro q other
    exact exec_within (cut.within (draft_within tmp bytes)) d other

end Files
