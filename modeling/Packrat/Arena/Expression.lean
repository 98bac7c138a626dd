import Packrat.Arena.Written

/-!
# Expressions

A node that has no part in a rule or in a class of characters, at any depth, says all by itself
what it matches. Taken out of its arena it is a tree.

* `Expression`: any one character, the end of the text, a literal, or expressions one after
  another.
* `Arena.expression?`: the expression of a node, if it is one.
* `Arena.HasPart`, `Node.inExpression`: the parts of a node at any depth, and which of them an
  expression may have.
* `Expression.written`: an expression in the notation of grammars, character by character.
-/

namespace Packrat

/-- A node with all its parts. -/
inductive Expression where
  | any
  | eof
  | literal (text : Array Char)
  | sequence (parts : List Expression)

/-- Whether an expression may have a node as its part. -/
def Node.inExpression : Node → Bool
  | .primitive .any | .primitive .eof | .primitive (.literal _) | .sequence _ => true
  | _ => false

namespace Arena

/-- The node at the place `top` and its parts, at any depth. A rule has no parts. -/
inductive HasPart (arena : Arena) (top : Nat) : Nat → Prop where
  | self : HasPart arena top top
  | child {place : Nat} {children : List NodeId} {child : NodeId} (h : HasPart arena top place)
      (hnode : arena.nodes[place]? = some (.sequence children)) (hchild : child ∈ children) :
      HasPart arena top child.index

/-- The expression of the node at a place. Parts of a sequence that do not stand before it are in
no expression. -/
def expression? (arena : Arena) (place : Nat) : Option Expression :=
  match arena.nodes[place]? with
  | some (.primitive .any) => some .any
  | some (.primitive .eof) => some .eof
  | some (.primitive (.literal text)) => some (.literal text)
  | some (.sequence children) => do
    let parts ← children.mapM fun child =>
      if _h : child.index < place then expression? arena child.index else none
    return .sequence parts
  | _ => none
termination_by place

end Arena

namespace Expression

def isSequence : Expression → Bool
  | sequence _ => true
  | _ => false

mutual

/-- An expression as a part of a sequence. -/
def writtenPart : Expression → List Char
  | any => ['.']
  | eof => ['E', 'O', 'F']
  | literal text => (Text.quoteAscii text.toList).toList
  | sequence parts => '(' :: ' ' :: writtenParts parts ++ [' ', ')']

/-- The parts of a sequence with a blank between them. -/
def writtenParts : List Expression → List Char
  | [] => ['(', ')']
  | part :: rest => part.writtenPart ++ writtenRest rest

/-- Parts of a sequence behind its first, each behind a blank. -/
def writtenRest : List Expression → List Char
  | [] => []
  | part :: rest => ' ' :: (part.writtenPart ++ writtenRest rest)

end

/-- An expression on its own: a sequence has no brackets around it. -/
def written : Expression → List Char
  | sequence parts => writtenParts parts
  | e => e.writtenPart

end Expression

end Packrat
