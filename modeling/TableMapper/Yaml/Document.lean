/-
TableMapper.Yaml.Document — the value of a YAML text.

Aliases are replaced by the values of their anchors, scalars get their
values, and the keys of every mapping have to be distinct.
-/
import TableMapper.Yaml.Scalar
import TableMapper.Yaml.Tree

namespace TableMapper.Yaml

/-! ## 1. Equality of values -/

/-- Numerical equality, where what is no number equals itself. -/
def Real.sameValue : Real → Real → Bool
  | .finite x, .finite y => x.sameValue y
  | x, y => x == y

namespace Node

mutual

/-- Equality of values as keys: the order of the entries of a mapping
does not matter. -/
def sameValue : Node → Node → Bool
  | .null, .null => true
  | .bool a, .bool b => a == b
  | .whole a, .whole b => a == b
  | .real a, .real b => a.sameValue b
  | .text a, .text b => a == b
  | .sequence a, .sequence b => sameItems a b
  | .mapping a, .mapping b => a.length == b.length && entriesIn a b
  | _, _ => false

/-- Equality of values one by one. -/
def sameItems : List Node → List Node → Bool
  | [], [] => true
  | a :: as, b :: bs => sameValue a b && sameItems as bs
  | _, _ => false

/-- Whether all entries of one mapping are in the other. -/
def entriesIn : List (Node × Node) → List (Node × Node) → Bool
  | [], _ => true
  | (key, value) :: rest, others =>
    others.any (fun (k, v) => sameValue key k && sameValue value v) && entriesIn rest others

end

/-- Whether keys are distinct. -/
def distinctKeys : List Node → Bool
  | [] => true
  | key :: rest => !rest.any (sameValue key ·) && distinctKeys rest

end Node

/-! ## 2. Anchors -/

namespace Tree

/-- The marks of a node. -/
def marks : Tree → Marks
  | .alias _ => {}
  | .scalar m _ _ => m
  | .sequence m _ => m
  | .mapping m _ => m

mutual

/-- The anchors in a tree, each with its node, in the order in which
they are written. -/
def anchored (t : Tree) : List (Nat × Tree) :=
  (t.marks.anchor.map fun n => (n, t)).toList ++ match t with
    | .sequence _ items => anchoredItems items
    | .mapping _ entries => anchoredEntries entries
    | _ => []

/-- The anchors in the items of a sequence. -/
def anchoredItems : List Tree → List (Nat × Tree)
  | [] => []
  | item :: rest => item.anchored ++ anchoredItems rest

/-- The anchors in the entries of a mapping. -/
def anchoredEntries : List (Tree × Tree) → List (Nat × Tree)
  | [] => []
  | (key, value) :: rest => key.anchored ++ value.anchored ++ anchoredEntries rest

end

mutual

/-- The size of a tree, where the start and the end of a collection
count. -/
def size : Tree → Nat
  | .alias _ => 1
  | .scalar .. => 1
  | .sequence _ items => 2 + sizeItems items
  | .mapping _ entries => 2 + sizeEntries entries

/-- The size of the items of a sequence. -/
def sizeItems : List Tree → Nat
  | [] => 0
  | item :: rest => item.size + sizeItems rest

/-- The size of the entries of a mapping. -/
def sizeEntries : List (Tree × Tree) → Nat
  | [] => 0
  | (key, value) :: rest => key.size + value.size + sizeEntries rest

end

/-! ## 3. Values -/

/-- What the aliases of a document stand for, and how many of them may
be followed. -/
structure References where
  anchors : List (Nat × Tree)
  limit : Nat

/-- The references of a document. Of several nodes with one number the
last counts. -/
def references (document : Tree) : References :=
  ⟨document.anchored.reverse, 100 * document.size⟩

/-- A step of evaluation, which counts the aliases that are followed. -/
abbrev Evaluation := StateT Nat Scanned

/-- The node that stands at a place: for an alias, the one with the
anchor. -/
def follow (refs : References) : Tree → Evaluation Tree
  | .alias number => do
    modify (· + 1)
    if refs.limit < (← get) then throw .tooManyAliases
    else match refs.anchors.find? (·.1 = number) with
      | some (_, t) => return t
      | none => throw .unknownAnchor
  | t => return t

/-- The value of a node with at most so many collections inside each
other. -/
def value (refs : References) (depth : Nat) (t : Tree) : Evaluation Node := do
  match ← follow refs t, depth with
  | .alias _, _ => throw .unknownAnchor
  | .scalar m cs plain, _ => Scalar.value m.tag cs plain
  | _, 0 => throw .tooDeep
  | .sequence m items, depth + 1 =>
    checkTag m
    return .sequence (← items.mapM (value refs depth))
  | .mapping m entries, depth + 1 =>
    checkTag m
    let entries ← entries.mapM fun (k, v) => do
      let k ← value refs depth k
      return (k, ← value refs depth v)
    if Node.distinctKeys (entries.map Prod.fst) then return .mapping entries
    else throw .duplicateKey
where
  /-- Local tags are not supported; all others say nothing of a
  collection. -/
  checkTag (m : Marks) : Evaluation Unit :=
    if m.tag.any (·.head? = some '!') then throw .localTag else return ()

end Tree

/-- The value of a text. -/
def Node.ofText (text : String) : Except Problem Node := do
  let tree ← Tree.documentOf text
  (Tree.value tree.references Tree.greatestDepth tree).run' 0

end TableMapper.Yaml
