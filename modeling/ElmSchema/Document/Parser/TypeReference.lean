import ElmSchema.Document.Parser.Basic
import ElmSchema.Document.Node

/-!
# Type references

A type reference is a name or a type reference in brackets, and an exclamation mark may
follow either.
-/

namespace ElmSchema.Document.Parser

/-- The name of a type. -/
def typeName : Parser String :=
  rule name

/-- A type reference that is nested in itself less than `depth` times. -/
def typeReferenceWithin : Nat → Parser TypeNode
  | 0 => throw (.tooDeep .rule)
  | depth + 1 => rule do
    let t ← current
    let node ← do
      if ← accept .bracketL then
        let inner ← typeReferenceWithin depth
        let close ← expect .bracketR
        pure (TypeNode.list (some ⟨t.start, close.stop⟩) inner)
      else
        let v ← typeName
        pure (TypeNode.named v)
    if ← accept .bang then return .nonNull node else return node

/-- A type reference. -/
def typeReference : Parser TypeNode :=
  typeReferenceWithin maxCalls

end ElmSchema.Document.Parser
