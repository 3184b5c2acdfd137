import Mathlib.Algebra.Ring.Int.Defs
import LuaReflow.Proofs.Layout.Lines

/-!
# Walks through nested depths

A block program is a sequence of items each of which takes the nesting depth from one value to
another: a block's opening keywords go one level down, its closing keywords one level up, a
statement or a blank leaves the depth as it found it. `Walk enter exit a xs z` says that the
items `xs` chain up from depth `a` to depth `z`: each item starts at the depth the one before it
left.

A line written at depth `e` needs the depth `e` before it, or `e + 1` when it dedents, and
leaves `e`, or `e + 1` when it indents (`Document.depthBefore`, `Document.depthAfter`). When
lines paired with depths walk from `a` to `z`:

* `Document.writtenDepths_of_walk` — the layout writes each line at its own depth;
* `Document.sum_delta_of_walk` — the net changes of depth of the lines add up to `z - a`.

Lines all written at one depth walk when their flags chain up (`Document.walk_of_flagsChain`):
each line dedents exactly where the line before it indented.
-/

namespace LuaReflow

open List

/-- The items `xs` take the depth from `a` to `z`, each starting at the depth the one before it
left, where an item `x` starts at `enter x` and leaves `exit x`. -/
inductive Walk {α : Type} (enter exit : α → Nat) : Nat → List α → Nat → Prop
  | nil (d : Nat) : Walk enter exit d [] d
  | cons {a z : Nat} {x : α} {xs : List α} (h : enter x = a) (tail : Walk enter exit (exit x) xs z) :
      Walk enter exit a (x :: xs) z

namespace Walk

variable {α : Type} {enter exit : α → Nat}

/-- Two walks, the second starting where the first ends, make one. -/
theorem append {a b c : Nat} {xs ys : List α} (hxs : Walk enter exit a xs b)
    (hys : Walk enter exit b ys c) : Walk enter exit a (xs ++ ys) c := by
  induction hxs with
  | nil => exact hys
  | cons h _ ih => exact .cons h (ih hys)

end Walk

namespace Document

/-- The depth before a line written at depth `p.2`: one more when the line dedents. -/
def depthBefore (p : Line × Nat) : Nat := p.2 + if p.1.dedentBefore then 1 else 0

/-- The depth after a line written at depth `p.2`: one more when the line indents. -/
def depthAfter (p : Line × Nat) : Nat := p.2 + if p.1.indentAfter then 1 else 0

variable {a z : Nat} {ps : List (Line × Nat)}

/-- **Each line at its own depth.** Lines that walk from `a` are written, from depth `a`, each at
the depth it is paired with. -/
theorem writtenDepths_of_walk (h : Walk depthBefore depthAfter a ps z) :
    writtenDepths a (ps.map Prod.fst) = ps.map fun p => (p.2 : Int) := by
  induction h with
  | nil => rfl
  | @cons a z p ps hp _ ih =>
    -- the line is written at the depth before it less its dedent, which is its own depth
    have he : (a : Int) - (if p.1.dedentBefore then 1 else 0) = p.2 := by
      rw [← hp, depthBefore]
      split <;> simp
    have hnext : (p.2 : Int) + (if p.1.indentAfter then 1 else 0) = (depthAfter p : Nat) := by
      rw [depthAfter]
      split <;> simp
    rw [map_cons, writtenDepths, map_cons]
    simp only [he, hnext, ih]

/-- Across lines that walk from `a` to `z`, the depth changes by `z - a`. -/
theorem sum_delta_of_walk (h : Walk depthBefore depthAfter a ps z) :
    (a : Int) + ((ps.map Prod.fst).map Line.delta).sum = z := by
  induction h with
  | nil => simp
  | @cons a z p ps hp _ ih =>
    -- one line moves the depth from the depth before it to the depth after it
    have hstep : (depthBefore p : Int) + p.1.delta = depthAfter p := by
      rw [depthBefore, depthAfter, Line.delta]
      split <;> split <;> omega
    rw [map_cons, map_cons, sum_cons, ← ih, ← hp, ← Int.add_assoc, hstep]

/-- The lines `ls`, all written at one depth, start `a` levels below the depth before them and
leave `z` levels below it: each line dedents exactly where the line before it indented. -/
def flagsChain : Bool → List Line → Bool → Bool
  | a, [], z => a == z
  | a, l :: ls, z => l.dedentBefore == a && flagsChain l.indentAfter ls z

theorem add_ite_eq_toNat (d : Nat) (b : Bool) : (d + if b = true then 1 else 0) = d + b.toNat := by
  cases b <;> rfl

/-- Lines written at the depth `d` whose flags chain from `a` to `z` walk from `d + a` to
`d + z`. -/
theorem walk_of_flagsChain {a z : Bool} {ls : List Line} (h : flagsChain a ls z = true)
    (d : Nat) : Walk depthBefore depthAfter (d + a.toNat) (ls.map (·, d)) (d + z.toNat) := by
  induction ls generalizing a with
  | nil =>
    simp only [flagsChain, beq_iff_eq] at h
    rw [h]
    exact .nil _
  | cons l ls ih =>
    simp only [flagsChain, Bool.and_eq_true, beq_iff_eq] at h
    obtain ⟨hdedent, htail⟩ := h
    refine .cons ?_ ?_
    · rw [depthBefore, add_ite_eq_toNat, hdedent]
    · rw [depthAfter, add_ite_eq_toNat]
      exact ih htail

end Document

end LuaReflow
