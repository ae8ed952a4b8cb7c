import Linewise.Patch.Basic

/-!
# Edit scripts

An edit script turns one sequence into another by keeping, deleting and
inserting one element at a time. `Script.Transforms` says between which
sequences a script leads, `Script.cost` counts its deletions and insertions, and
`Script.toPatchFrom` collects each unbroken run of them in a fragment.
-/

namespace Linewise

/-- One step of an edit script. -/
inductive Edit where
  /-- The next element is the same in both sequences. -/
  | keep
  /-- The next element of the first sequence goes. -/
  | delete
  /-- The next element of the second sequence comes. -/
  | insert
  deriving DecidableEq, Repr

/-- A sequence of edits. -/
abbrev Script := List Edit

namespace Script

variable {α : Type}

/-- `Transforms s a b` says that the script `s` uses up `a` and produces `b`. -/
inductive Transforms : Script → List α → List α → Prop
  | done : Transforms [] [] []
  | keep {s : Script} {a b : List α} (x : α) :
      Transforms s a b → Transforms (.keep :: s) (x :: a) (x :: b)
  | delete {s : Script} {a b : List α} (x : α) :
      Transforms s a b → Transforms (.delete :: s) (x :: a) b
  | insert {s : Script} {a b : List α} (x : α) :
      Transforms s a b → Transforms (.insert :: s) a (x :: b)

/-- Number of deletions and insertions. -/
def cost : Script → Nat
  | [] => 0
  | .keep :: s => cost s
  | .delete :: s => cost s + 1
  | .insert :: s => cost s + 1

/-- `count` elements kept. -/
def kept (count : Nat) : Script := List.replicate count .keep

/-- `n` elements deleted and then `m` inserted. -/
def replaced (n m : Nat) : Script := List.replicate n .delete ++ List.replicate m .insert

/-- Costs add up. -/
theorem cost_append (s t : Script) : cost (s ++ t) = cost s + cost t := by
  induction s with
  | nil => simp [cost]
  | cons edit s ih =>
    cases edit <;> simp only [List.cons_append, cost, ih] <;> omega

/-- Keeping costs nothing. -/
@[simp] theorem cost_kept (count : Nat) : cost (kept count) = 0 := by
  unfold kept
  induction count with
  | zero => rfl
  | succ count ih => rw [List.replicate_succ, cost, ih]

/-- A replacement costs all its lines. -/
@[simp] theorem cost_replaced (n m : Nat) : cost (replaced n m) = n + m := by
  have hdelete : cost (List.replicate n .delete) = n := by
    induction n with
    | zero => rfl
    | succ n ih => rw [List.replicate_succ, cost, ih]
  have hinsert : cost (List.replicate m .insert) = m := by
    induction m with
    | zero => rfl
    | succ m ih => rw [List.replicate_succ, cost, ih]
  rw [replaced, cost_append, hdelete, hinsert]

/-- Scripts can be carried out one after the other. -/
theorem Transforms.append {s t : Script} {a b c d : List α} (h : Transforms s a b)
    (h' : Transforms t c d) : Transforms (s ++ t) (a ++ c) (b ++ d) := by
  induction h with
  | done => exact h'
  | keep x _ ih => exact ih.keep x
  | delete x _ ih => exact ih.delete x
  | insert x _ ih => exact ih.insert x

/-- Every sequence can be kept. -/
theorem transforms_kept (a : List α) : Transforms (kept a.length) a a := by
  induction a with
  | nil => exact .done
  | cons x a ih => exact ih.keep x

/-- Any sequence can give way to any other. -/
theorem transforms_replaced (a b : List α) : Transforms (replaced a.length b.length) a b := by
  have hb : Transforms (List.replicate b.length .insert) [] b := by
    induction b with
    | nil => exact .done
    | cons x b ih => exact ih.insert x
  induction a with
  | nil => exact hb
  | cons x a ih => exact ih.delete x

/-- The fragment for a run of edits from `(i₀, j₀)` to `(i, j)`, if there was an edit. -/
def fragmentOf (i₀ j₀ i j : Nat) : List Fragment :=
  if i₀ = i ∧ j₀ = j then [] else [⟨.span i₀ i, .span j₀ j⟩]

/-- The fragments of a script that stands at `(i, j)` in a run of edits begun at `(i₀, j₀)`: one for
each unbroken run of deletions and insertions. -/
def toPatchFrom (i₀ j₀ i j : Nat) : Script → Patch
  | [] => fragmentOf i₀ j₀ i j
  | .keep :: s => fragmentOf i₀ j₀ i j ++ toPatchFrom (i + 1) (j + 1) (i + 1) (j + 1) s
  | .delete :: s => toPatchFrom i₀ j₀ (i + 1) j s
  | .insert :: s => toPatchFrom i₀ j₀ i (j + 1) s

end Script

end Linewise
