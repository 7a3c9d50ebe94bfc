import Switchboard.Deflate.Bits

/-!
# Prefix codes

A code is given by the bit lengths of its symbols: shorter codes come first, codes of one length in
the order of their symbols. It is kept as a binary tree, so reading a symbol is a walk. A table must
use up all codes exactly, except that one with at most one symbol may leave codes unused where
`loose` says so.

## Main definitions

* `Code`: the tree.
* `Code.ofLengths?`: the tree of a table of lengths, if the table is sound.
* `Code.read`: reads one symbol.
-/
namespace Switchboard.Deflate

/-- A prefix code as a binary tree. -/
inductive Code where
  | empty
  | leaf (symbol : Nat)
  | node (zero one : Code)
deriving DecidableEq, Repr, Inhabited

namespace Code

/-- The longest code. -/
def maxLength : Nat := 15

/-- The lowest `width` bits of a number, most significant first. -/
def bitsOf (value width : Nat) : List Bool :=
  (List.range width).reverse.map fun i => value.testBit i

/-- Puts a symbol at the end of a path. -/
def insert (symbol : Nat) : List Bool → Code → Code
  | [], _ => leaf symbol
  | b :: path, tree =>
    let (zero, one) := match tree with
      | node zero one => (zero, one)
      | _ => (empty, empty)
    if b then node zero (insert symbol path one) else node (insert symbol path zero) one

/-- The used symbols with their lengths, shorter lengths first. -/
def ordered (lengths : List Nat) : List (Nat × Nat) :=
  let pairs := lengths.zipIdx.filter fun p => p.1 ≠ 0
  (List.range (maxLength + 1)).flatMap fun n => pairs.filter fun p => p.1 = n

/-- Gives codes in order: each is the one before plus one, with zeros up to its own length. -/
def assign (next length : Nat) : List (Nat × Nat) → Code → Code
  | [], tree => tree
  | (n, symbol) :: rest, tree =>
    let code := next * Nat.pow 2 (n - length)
    assign (code + 1) n rest (insert symbol (bitsOf code n) tree)

/-- The share of all codes that a table uses, in units of the longest. -/
def share (lengths : List Nat) : Nat :=
  lengths.foldr (fun n rest => (if n = 0 then 0 else Nat.pow 2 (maxLength - n)) + rest) 0

/-- The code with these lengths, if they use up all codes; with `loose`, a table of at most one
symbol need not. -/
def ofLengths? (loose : Bool) (lengths : List Nat) : Option Code :=
  let used := (lengths.filter (· ≠ 0)).length
  if share lengths = Nat.pow 2 maxLength || (loose && used ≤ 1) then
    some (assign 0 0 (ordered lengths) empty)
  else none

/-- Walks the tree along the bits. Off the tree, the data is corrupt once as many bits are there as
the longest code has; `seen` counts those walked. -/
def walk (seen : Nat) (bits : List Bool) (phase : Nat) : Code → Outcome Nat
  | leaf symbol => .done symbol ⟨bits, phase % 8⟩
  | empty => if maxLength ≤ seen + (bits.take maxLength).length then .corrupt else .short
  | node zero one =>
    match bits with
    | [] => .short
    | true :: rest => walk (seen + 1) rest (phase + 1) one
    | false :: rest => walk (seen + 1) rest (phase + 1) zero

/-- Reads one symbol. -/
def read (tree : Code) : Bits.Reader Nat := fun b => walk 0 b.pending b.phase tree

end Code

end Switchboard.Deflate
