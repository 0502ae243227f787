import Rollup.Sample.Arithmetic

/-!
The order in which samples are added. Up to 128 terms are spread over eight lanes, which are then
joined in pairs; more are split near the middle. Rounding makes the order matter, so it is a tree
of its own. Main statement: the tree holds each term once.
-/

namespace Rollup

inductive SumTree (α : Type) where
  | empty
  | term (x : α)
  | join (left right : SumTree α)

namespace SumTree

variable {α : Type}

/-- Further terms, each added to all before it. -/
def extend (tree : SumTree α) (xs : List α) : SumTree α :=
  xs.foldl (fun t x => join t (term x)) tree

def leftToRight : List α → SumTree α
  | [] => empty
  | x :: xs => extend (term x) xs

/-- Adds one term to each lane. -/
def addBlock (lanes : List (SumTree α)) (block : List α) : List (SumTree α) :=
  lanes.zipWith (fun lane x => join lane (term x)) block

/-- Adds `blocks` blocks of eight terms to the lanes; also the terms that remain. -/
def addBlocks : Nat → List (SumTree α) → List α → List (SumTree α) × List α
  | 0, lanes, xs => (lanes, xs)
  | blocks + 1, lanes, xs => addBlocks blocks (addBlock lanes (xs.take 8)) (xs.drop 8)

def joinLanes : List (SumTree α) → SumTree α
  | [a, b, c, d, e, f, g, h] => join (join (join a b) (join c d)) (join (join e f) (join g h))
  | lanes => lanes.foldl join empty

/-- Eight lanes, and the last incomplete block term by term. -/
def interleaved (xs : List α) : SumTree α :=
  let (lanes, rest) := addBlocks (xs.length / 8 - 1) ((xs.take 8).map term) (xs.drop 8)
  extend (joinLanes lanes) rest

/-- The middle, at a whole number of blocks. -/
def middle (n : Nat) : Nat := n / 2 - n / 2 % 8

def pairwise (xs : List α) : SumTree α :=
  if xs.length < 8 then leftToRight xs
  else if xs.length ≤ 128 then interleaved xs
  else join (pairwise (xs.take (middle xs.length))) (pairwise (xs.drop (middle xs.length)))
termination_by xs.length
decreasing_by
  all_goals
    simp only [middle, List.length_take, List.length_drop]
    omega

/-- The value of a tree of additions. -/
def total : SumTree Sample → Sample
  | empty => .zero
  | term x => x
  | join left right => Sample.add left.total right.total

/-- The terms, from left to right. -/
def terms : SumTree α → List α
  | empty => []
  | term x => [x]
  | join left right => left.terms ++ right.terms

theorem terms_extend (tree : SumTree α) (xs : List α) :
    (tree.extend xs).terms = tree.terms ++ xs := by
  induction xs generalizing tree with
  | nil => simp [extend]
  | cons x xs ih =>
    have step := ih (join tree (term x))
    simp only [extend, terms] at step
    simpa [extend] using step

theorem terms_leftToRight (xs : List α) : (leftToRight xs).terms = xs := by
  cases xs with
  | nil => rfl
  | cons x xs => simp [leftToRight, terms_extend, terms]

theorem flatMap_terms_map_term (xs : List α) : (xs.map term).flatMap terms = xs := by
  induction xs with
  | nil => rfl
  | cons x xs ih => simp [terms, ih]

theorem terms_addBlock (lanes : List (SumTree α)) (block : List α)
    (same : lanes.length = block.length) :
    ((addBlock lanes block).flatMap terms).Perm (lanes.flatMap terms ++ block) := by
  induction lanes generalizing block with
  | nil => cases block <;> simp_all [addBlock]
  | cons lane lanes ih =>
    cases block with
    | nil => simp at same
    | cons x block =>
      have rest := ih block (by simpa using same)
      simp only [addBlock, List.zipWith_cons_cons, List.flatMap_cons, terms, List.append_assoc,
        List.singleton_append] at rest ⊢
      refine List.Perm.append_left lane.terms ?_
      exact (List.Perm.cons x rest).trans List.perm_middle.symm

theorem terms_addBlocks (blocks : Nat) (lanes : List (SumTree α)) (xs : List α)
    (eight : lanes.length = 8) (enough : 8 * blocks ≤ xs.length) :
    (addBlocks blocks lanes xs).1.length = 8 ∧
      ((addBlocks blocks lanes xs).1.flatMap terms ++ (addBlocks blocks lanes xs).2).Perm
        (lanes.flatMap terms ++ xs) := by
  induction blocks generalizing lanes xs with
  | zero => exact ⟨eight, .refl _⟩
  | succ blocks ih =>
    have taken : (xs.take 8).length = 8 := by
      rw [List.length_take]
      omega
    have next := ih (addBlock lanes (xs.take 8)) (xs.drop 8)
      (by simp [addBlock, eight, taken]) (by rw [List.length_drop]; omega)
    refine ⟨next.1, next.2.trans ?_⟩
    have block := (terms_addBlock lanes (xs.take 8) (by rw [eight, taken])).append_right (xs.drop 8)
    rwa [List.append_assoc, List.take_append_drop] at block

theorem terms_joinLanes (lanes : List (SumTree α)) (eight : lanes.length = 8) :
    (joinLanes lanes).terms = lanes.flatMap terms := by
  match lanes, eight with
  | [a, b, c, d, e, f, g, h], _ => simp [joinLanes, terms]

theorem terms_interleaved (xs : List α) (enough : 8 ≤ xs.length) :
    (interleaved xs).terms.Perm xs := by
  have taken : (xs.take 8).length = 8 := by
    rw [List.length_take]
    omega
  have lanes := terms_addBlocks (xs.length / 8 - 1) ((xs.take 8).map term) (xs.drop 8)
    (by rw [List.length_map, taken]) (by rw [List.length_drop]; omega)
  simp only [interleaved, terms_extend, terms_joinLanes _ lanes.1]
  exact lanes.2.trans (by rw [flatMap_terms_map_term, List.take_append_drop])

/-- Every term is added once. -/
theorem terms_pairwise (xs : List α) : (pairwise xs).terms.Perm xs := by
  fun_induction pairwise xs with
  | case1 xs => rw [terms_leftToRight]
  | case2 xs many => exact terms_interleaved xs (by omega)
  | case3 xs _ _ left right =>
    have both := left.append right
    rwa [List.take_append_drop] at both

end SumTree

/-- The sum starts from plus zero, so no sum is minus zero. -/
def Sample.sum (xs : List Sample) : Sample := Sample.add .zero (SumTree.pairwise xs).total

end Rollup
