import VaireDb.Lib.Traverse

/-!
# Trees of queries

A query is the blocks of its body, in order, a shell that holds them together, and the
queries nested in it wherever they stand.  What blocks and shells are is left open.

A pass that changes the blocks in place keeps the rest.  What a query means is put
together from what its blocks mean, each given the meanings of the nested queries; a
block may be refused, and then the query is.
-/

namespace VaireDb.Lib

open List
open Except (toOption)

inductive QueryTree (Block Shell : Type) where
  | mk (shell : Shell) (blocks : List Block) (nested : List (QueryTree Block Shell))

namespace QueryTree

variable {Block Shell Meaning Problem : Type}

mutual

def allBlocks : QueryTree Block Shell → List Block
  | mk _ blocks nested => blocks ++ nestedBlocks nested

def nestedBlocks : List (QueryTree Block Shell) → List Block
  | [] => []
  | tree :: trees => allBlocks tree ++ nestedBlocks trees

end

mutual

/-- Change every block, those of the query itself first. -/
def rewrite (change : Block → Except Problem Block) :
    QueryTree Block Shell → Except Problem (QueryTree Block Shell)
  | mk shell blocks nested => do
      let blocks ← blocks.mapM change
      let nested ← rewriteNested change nested
      pure (mk shell blocks nested)

def rewriteNested (change : Block → Except Problem Block) :
    List (QueryTree Block Shell) → Except Problem (List (QueryTree Block Shell))
  | [] => pure []
  | tree :: trees => do
      let tree ← rewrite change tree
      let trees ← rewriteNested change trees
      pure (tree :: trees)

end

section Meaning

variable (combine : Shell → List Meaning → List Meaning → Meaning)
  (rows : Block → Option (List Meaning → Meaning))

mutual

/-- The meaning of a query, if no block of it is refused. -/
def eval : QueryTree Block Shell → Option Meaning
  | mk shell blocks nested => do
      let selects ← blocks.mapM rows
      let meanings ← evalNested nested
      pure (combine shell (selects.map fun select => select meanings) meanings)

def evalNested : List (QueryTree Block Shell) → Option (List Meaning)
  | [] => pure []
  | tree :: trees => do
      let meaning ← eval tree
      let meanings ← evalNested trees
      pure (meaning :: meanings)

end

end Meaning

section Laws

variable {combine : Shell → List Meaning → List Meaning → Meaning}
  {rows other : Block → Option (List Meaning → Meaning)}
  {change : Block → Except Problem Block}

theorem mapM_congr {Item Result : Type} {first second : Item → Option Result}
    {items : List Item} (same : ∀ item ∈ items, first item = second item) :
    items.mapM first = items.mapM second := by
  induction items with
  | nil => rfl
  | cons item items induction =>
    rw [forall_mem_cons] at same
    rw [mapM_cons, mapM_cons, same.1, induction same.2]

theorem mapM_isSome {Item Result : Type} {f : Item → Option Result}
    {items : List Item} : (items.mapM f).isSome ↔ ∀ item ∈ items, (f item).isSome := by
  induction items with
  | nil => simp
  | cons item items induction =>
    rw [mapM_cons, forall_mem_cons, ← induction]
    cases f item <;> cases items.mapM f <;> simp

theorem mapM_toOption {Item Next Result : Type} {f : Item → Except Problem Next}
    {g : Next → Option Result} {items : List Item} :
    ((items.mapM f).toOption.bind fun nexts => nexts.mapM g) =
      items.mapM fun item => (f item).toOption.bind g := by
  induction items with
  | nil => rfl
  | cons item items induction =>
    rw [mapM_cons, mapM_cons, ← induction]
    cases f item with
    | error problem => rfl
    | ok next =>
      cases items.mapM f with
      | error problem => cases head : g next <;> simp [toOption, bind, head, Except.bind]
      | ok nexts => simp [toOption, bind, Except.bind, pure, Except.pure]

mutual

/-- Blocks that mean the same can be exchanged. -/
theorem eval_congr : ∀ {tree : QueryTree Block Shell},
    (∀ block ∈ tree.allBlocks, rows block = other block) →
      tree.eval combine rows = tree.eval combine other
  | mk shell blocks nested, same => by
      rw [allBlocks, forall_mem_append] at same
      rw [eval, eval, mapM_congr same.1, evalNested_congr same.2]

theorem evalNested_congr : ∀ {trees : List (QueryTree Block Shell)},
    (∀ block ∈ nestedBlocks trees, rows block = other block) →
      evalNested combine rows trees = evalNested combine other trees
  | [], _ => rfl
  | tree :: trees, same => by
      rw [nestedBlocks, forall_mem_append] at same
      rw [evalNested, evalNested, eval_congr same.1, evalNested_congr same.2]

end

mutual

theorem eval_isSome : ∀ {tree : QueryTree Block Shell},
    (tree.eval combine rows).isSome ↔ ∀ block ∈ tree.allBlocks, (rows block).isSome
  | mk shell blocks nested => by
      rw [allBlocks, forall_mem_append, ← mapM_isSome, ← evalNested_isSome, eval]
      cases blocks.mapM rows <;> cases evalNested combine rows nested <;> simp

theorem evalNested_isSome : ∀ {trees : List (QueryTree Block Shell)},
    (evalNested combine rows trees).isSome ↔ ∀ block ∈ nestedBlocks trees, (rows block).isSome
  | [] => by simp [evalNested, nestedBlocks]
  | tree :: trees => by
      rw [nestedBlocks, forall_mem_append, ← eval_isSome, ← evalNested_isSome, evalNested]
      cases eval combine rows tree <;> cases evalNested combine rows trees <;> simp

end

mutual

/-- A query that is rewritten and then read means what it means if each block is. -/
theorem eval_rewrite : ∀ {tree : QueryTree Block Shell},
    ((tree.rewrite change).toOption.bind fun result => result.eval combine rows) =
      tree.eval combine fun block => (change block).toOption.bind rows
  | mk shell blocks nested => by
      rw [rewrite, eval, ← mapM_toOption, ← evalNested_rewrite]
      cases blocks.mapM change with
      | error problem => rfl
      | ok blocks =>
        cases rewriteNested change nested with
        | error problem =>
          cases read : blocks.mapM rows <;>
            simp [toOption, bind, Except.bind, read]
        | ok nested => simp [toOption, bind, Except.bind, pure, Except.pure, eval]

theorem evalNested_rewrite : ∀ {trees : List (QueryTree Block Shell)},
    ((rewriteNested change trees).toOption.bind fun results =>
        evalNested combine rows results) =
      evalNested combine (fun block => (change block).toOption.bind rows) trees
  | [] => rfl
  | tree :: trees => by
      rw [rewriteNested, evalNested, ← eval_rewrite, ← evalNested_rewrite]
      cases rewrite change tree with
      | error problem => rfl
      | ok tree =>
        cases rewriteNested change trees with
        | error problem =>
          cases read : eval combine rows tree <;>
            simp [toOption, bind, Except.bind, read]
        | ok trees =>
          simp [toOption, bind, Except.bind, pure, Except.pure, evalNested]

end

section Blocks

variable {Result : Type} {read first second : Block → Option Result} {blocks : List Block}

mutual

theorem mapM_rewrite : ∀ {tree : QueryTree Block Shell},
    ((tree.rewrite change).toOption.bind fun result => result.allBlocks.mapM read) =
      tree.allBlocks.mapM fun block => (change block).toOption.bind read
  | mk shell blocks nested => by
    rw [rewrite, allBlocks, mapM_append, ← mapM_toOption, ← mapM_rewriteNested]
    cases blocks.mapM change with
    | error problem => rfl
    | ok blocks =>
      cases rewriteNested change nested with
      | error problem =>
        cases done : blocks.mapM read <;>
          simp [toOption, bind, Except.bind, done]
      | ok nested =>
        simp [toOption, bind, Except.bind, pure, Except.pure, allBlocks]

theorem mapM_rewriteNested : ∀ {trees : List (QueryTree Block Shell)},
    ((rewriteNested change trees).toOption.bind fun results =>
        (nestedBlocks results).mapM read) =
      (nestedBlocks trees).mapM fun block => (change block).toOption.bind read
  | [] => rfl
  | tree :: trees => by
    rw [rewriteNested, nestedBlocks, mapM_append, ← mapM_rewrite, ← mapM_rewriteNested]
    cases rewrite change tree with
    | error problem => rfl
    | ok tree =>
      cases rewriteNested change trees with
      | error problem =>
        cases done : tree.allBlocks.mapM read <;>
          simp [toOption, bind, Except.bind, done]
      | ok trees =>
        simp [toOption, bind, Except.bind, pure, Except.pure, nestedBlocks]

end

/-- Two readings of all blocks agree if both fail, or if they agree on each. -/
theorem mapM_eq_mapM_iff : blocks.mapM first = blocks.mapM second ↔
    (∃ block ∈ blocks, first block = none) ∧ (∃ block ∈ blocks, second block = none) ∨
      ∀ block ∈ blocks, first block = second block := by
  constructor
  · intro same
    cases done : blocks.mapM first with
    | none =>
      have fails : ∀ read : Block → Option Result, blocks.mapM read = none →
          ∃ block ∈ blocks, read block = none := by
        intro read refused
        by_contra missing
        have some : (blocks.mapM read).isSome := mapM_isSome.mpr fun block member =>
          Option.isSome_iff_ne_none.mpr fun none => missing ⟨block, member, none⟩
        rw [refused] at some
        cases some
      exact .inl ⟨fails first done, fails second (same.symm.trans done)⟩
    | some results =>
      have others := Traverse.forall₂_iff_mapM.mp (same.symm.trans done)
      refine .inr ?_
      clear same
      induction Traverse.forall₂_iff_mapM.mp done with
      | nil => exact fun _ impossible => by cases impossible
      | cons head rest induction =>
        cases others with
        | cons other others =>
          exact forall_mem_cons.mpr ⟨head.trans other.symm,
            induction (Traverse.forall₂_iff_mapM.mpr rest) others⟩
  · rintro (⟨⟨block, member, fails⟩, other, alsoMember, alsoFails⟩ | same)
    · have none : ∀ {read : Block → Option Result} {block}, block ∈ blocks →
          read block = none → blocks.mapM read = none := by
        intro read block among refused
        refine Option.not_isSome_iff_eq_none.mp fun some => ?_
        have here := mapM_isSome.mp some block among
        rw [refused] at here
        cases here
      rw [none member fails, none alsoMember alsoFails]
    · exact mapM_congr same

end Blocks

end Laws

end QueryTree

end VaireDb.Lib
