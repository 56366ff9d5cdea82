import ElmSchema.Schema.FieldType
import Mathlib.Data.List.Basic

/-!
# Types at the end of a chain

A type node is a chain of wrappers around its ending. The type of a field is read off the chain:
the ending has to be a name, at most one wrapper may be a list, and only the innermost wrapper
says whether a value is required. If there is no type, the node that is reported is the first at
fault on the way in: a list that lies in another one, or an ending that is no type.

What the resolution carries along says what it has met so far: whether there was a list, and
whether the last wrapper was a mark. The statements are proved for both in general.
-/

namespace ElmSchema

open Document (TypeNode)

/-! ### Chains -/

namespace Document.TypeNode

/-- The wrappers of a type node, from the outside to the inside. -/
def wrappers : TypeNode → List TypeNode
  | .nonNull inner => .nonNull inner :: inner.wrappers
  | .list span inner => .list span inner :: inner.wrappers
  | .named _ => []
  | .stray _ => []

/-- What the wrappers of a type node are around. -/
def ending : TypeNode → TypeNode
  | .nonNull inner => inner.ending
  | .list _ inner => inner.ending
  | .named name => .named name
  | .stray s => .stray s

/-- All nodes of a type node, from the outside to the inside. -/
def chain (node : TypeNode) : List TypeNode :=
  node.wrappers ++ [node.ending]

/-- Whether a node is a list. -/
def isList : TypeNode → Bool
  | .list _ _ => true
  | _ => false

/-- Whether a node marks what it wraps as required. -/
def isNonNull : TypeNode → Bool
  | .nonNull _ => true
  | _ => false

/-- Whether a node is no type. -/
def isStray : TypeNode → Bool
  | .stray _ => true
  | _ => false

/-- The number of lists among some nodes. -/
def countLists (nodes : List TypeNode) : Nat :=
  nodes.countP isList

@[simp]
theorem countLists_nil :
  countLists [] = 0
  := rfl

theorem countLists_cons (node : TypeNode) (nodes : List TypeNode) :
  countLists (node :: nodes) = node.isList.toNat + countLists nodes
  := by
  rw [countLists, List.countP_cons, Nat.add_comm]
  cases node.isList <;> rfl

theorem chain_nonNull (inner : TypeNode) :
  (nonNull inner).chain = .nonNull inner :: inner.chain
  := rfl

theorem chain_list (span : Option Span) (inner : TypeNode) :
  (list span inner).chain = .list span inner :: inner.chain
  := rfl

/-- Whether the innermost wrapper is a mark, where `outer` tells this of the node around. -/
def isMarked (outer : Bool) (node : TypeNode) : Bool :=
  (node.wrappers.getLast?.map isNonNull).getD outer

theorem isMarked_nonNull (outer : Bool) (inner : TypeNode) :
  (nonNull inner).isMarked outer = inner.isMarked true
  := by
  rw [isMarked, isMarked, wrappers, List.getLast?_cons]
  cases inner.wrappers.getLast? <;> rfl

theorem isMarked_list (outer : Bool) (span : Option Span) (inner : TypeNode) :
  (list span inner).isMarked outer = inner.isMarked false
  := by
  rw [isMarked, isMarked, wrappers, List.getLast?_cons]
  cases inner.wrappers.getLast? <;> rfl

end Document.TypeNode

open Document.TypeNode

/-! ### The type -/

/-- A type is found if the chain ends in a name and has no second list, those counted that were
met before. -/
theorem FieldType.resolve_eq_ok_iff {t : FieldType} :
  ∀ {node : TypeNode} {isList isRequired : Bool}, resolve isList isRequired node = .ok t ↔
    node.ending = .named t.typeName ∧ isList.toNat + countLists node.wrappers ≤ 1 ∧
      (t.isList ↔ isList.toNat + countLists node.wrappers = 1) ∧
      t.isRequired = node.isMarked isRequired
  | .named name, isList, isRequired => by
      obtain ⟨typeName, isRequired', isList'⟩ := t
      have hlist : isList = isList' ↔ (isList' ↔ isList.toNat = 1) := by
        cases isList <;> cases isList' <;> simp
      simp only [resolve, ending, wrappers, isMarked, countLists_nil, Except.ok.injEq,
        FieldType.mk.injEq, TypeNode.named.injEq, Nat.add_zero, List.getLast?_nil, Option.map_none,
        Option.getD_none, Bool.toNat_le, hlist]
      tauto
  | .nonNull inner, isList, isRequired => by
      rw [resolve, resolve_eq_ok_iff, isMarked_nonNull, ending, wrappers, countLists_cons]
      simp [TypeNode.isList]
  | .list span inner, isList, isRequired => by
      rw [resolve, isMarked_list, ending, wrappers, countLists_cons]
      cases isList with
      | true =>
          have hcount : ¬ 1 + (1 + countLists inner.wrappers) ≤ 1 := by omega
          simp [TypeNode.isList, hcount]
      | false => simp [resolve_eq_ok_iff, TypeNode.isList]
  | .stray s, isList, isRequired => by
      simp [resolve, ending]

/-! ### The node at fault -/

namespace MalformedType

/-- An error is about the first node at fault in a chain: a list with one other list before it,
or what is no type with no second list before it. Lists are counted on from those that were
`met` before the chain. -/
def IsFirstIn (e : MalformedType) (met : Nat) (chain : List TypeNode) : Prop :=
  ∃ before after, chain = before ++ e.node :: after ∧
    (e.node.isList ∧ met + countLists before = 1 ∨
      e.node.isStray ∧ met + countLists before ≤ 1)

theorem node_injective {e e' : MalformedType} (h : e.node = e'.node) :
  e = e'
  := by
  cases e <;> cases e' <;> simp_all [node]

/-- An error is about the node at the beginning of a chain, or about one behind it. -/
theorem isFirstIn_cons_iff
    {e : MalformedType} {met : Nat} {first : TypeNode} {chain : List TypeNode} :
  e.IsFirstIn met (first :: chain) ↔
    e.node = first ∧ (first.isList ∧ met = 1 ∨ first.isStray ∧ met ≤ 1) ∨
      e.IsFirstIn (met + first.isList.toNat) chain
  := by
  constructor
  · rintro ⟨before, after, hchain, hfault⟩
    cases before with
    | nil =>
        obtain ⟨rfl, -⟩ := List.cons.inj hchain
        left
        exact ⟨rfl, hfault⟩
    | cons other before =>
        obtain ⟨rfl, hrest⟩ := List.cons.inj hchain
        right
        use before, after, hrest
        rwa [countLists_cons, ← Nat.add_assoc] at hfault
  · rintro (⟨rfl, hfault⟩ | ⟨before, after, rfl, hfault⟩)
    · use [], chain, rfl
      exact hfault
    · use first :: before, after, rfl
      rwa [countLists_cons, ← Nat.add_assoc]

theorem not_isFirstIn_nil (e : MalformedType) (met : Nat) :
  ¬ e.IsFirstIn met []
  := by
  rintro ⟨before, after, hchain, -⟩
  simp at hchain

/-- Behind two lists there is nothing left to report. -/
theorem not_isFirstIn_of_two_le
    {e : MalformedType} {met : Nat} (h : 2 ≤ met) (chain : List TypeNode) :
  ¬ e.IsFirstIn met chain
  := by
  rintro ⟨before, after, -, ⟨-, hcount⟩ | ⟨-, hcount⟩⟩
  · omega
  · omega

end MalformedType

/-- The error is about the first node at fault. -/
theorem FieldType.resolve_eq_error_iff {e : MalformedType} :
  ∀ {node : TypeNode} {isList isRequired : Bool}, resolve isList isRequired node = .error e ↔
    e.IsFirstIn isList.toNat node.chain
  | .named name, isList, isRequired => by
      have hchain : (TypeNode.named name).chain = [.named name] := rfl
      simp [resolve, hchain, MalformedType.isFirstIn_cons_iff, MalformedType.not_isFirstIn_nil,
        TypeNode.isList, TypeNode.isStray]
  | .nonNull inner, isList, isRequired => by
      rw [resolve, resolve_eq_error_iff, chain_nonNull, MalformedType.isFirstIn_cons_iff]
      simp [TypeNode.isList, TypeNode.isStray]
  | .list span inner, isList, isRequired => by
      rw [resolve, chain_list, MalformedType.isFirstIn_cons_iff]
      cases isList with
      | true =>
          have hrest := MalformedType.not_isFirstIn_of_two_le (e := e) (Nat.le_refl 2) inner.chain
          have hnode : e.node = .list span inner ↔ MalformedType.nestedList span inner = e :=
            ⟨fun h => MalformedType.node_injective h.symm, fun h => h ▸ rfl⟩
          simp [TypeNode.isList, TypeNode.isStray, hrest, hnode]
      | false => simp [resolve_eq_error_iff, TypeNode.isList, TypeNode.isStray]
  | .stray s, isList, isRequired => by
      have hchain : (TypeNode.stray s).chain = [.stray s] := rfl
      have hnode : e.node = .stray s ↔ MalformedType.unexpected s = e :=
        ⟨fun h => MalformedType.node_injective h.symm, fun h => h ▸ rfl⟩
      simp [resolve, hchain, MalformedType.isFirstIn_cons_iff, MalformedType.not_isFirstIn_nil,
        TypeNode.isList, TypeNode.isStray, hnode, Bool.toNat_le]

/-! ### Types of chains -/

/-- The type of a field, or the error, is read off the chain of its type node. There is a type
just if the chain ends in a name and has at most one list. The type has that name, it is a list
if there is one, and it is required if the innermost wrapper says so. Otherwise the error holds
the first node at fault from the outside: the second list, or an ending that is no type where no
second list comes before it. -/
theorem resolution_of_chain (node : TypeNode) :
  ((∃ t, FieldType.ofNode node = .ok t) ↔
      (∃ name, node.ending = .named name) ∧ countLists node.wrappers ≤ 1) ∧
    (∀ t, FieldType.ofNode node = .ok t → node.ending = .named t.typeName ∧
      (t.isList ↔ countLists node.wrappers = 1) ∧
      (t.isRequired ↔ ∃ inner, node.wrappers.getLast? = some (.nonNull inner))) ∧
    ∀ e, FieldType.ofNode node = .error e ↔
      ∃ before after, node.chain = before ++ e.node :: after ∧
        (e.node.isList ∧ countLists before = 1 ∧
            e.reason = "nested list types are not supported" ∨
          e.node.isStray ∧ countLists before ≤ 1 ∧ e.reason = "unexpected field")
  := by
  have hok : ∀ t, FieldType.ofNode node = .ok t ↔ node.ending = .named t.typeName ∧
      countLists node.wrappers ≤ 1 ∧ (t.isList ↔ countLists node.wrappers = 1) ∧
      t.isRequired = node.isMarked false := by
    intro t
    rw [FieldType.ofNode, FieldType.resolve_eq_ok_iff, Bool.toNat_false, Nat.zero_add]
  refine ⟨?_, ?_, ?_⟩
  · constructor
    · rintro ⟨t, ht⟩
      obtain ⟨hname, hcount, -⟩ := (hok t).mp ht
      use ⟨t.typeName, hname⟩
    · rintro ⟨⟨name, hname⟩, hcount⟩
      use ⟨name, node.isMarked false, countLists node.wrappers == 1⟩
      rw [hok]
      use hname, hcount
      simp
  · intro t ht
    obtain ⟨hname, -, hlist, hrequired⟩ := (hok t).mp ht
    use hname, hlist
    rw [hrequired, isMarked]
    cases node.wrappers.getLast? with
    | none => simp
    | some inner => cases inner <;> simp [isNonNull]
  · intro e
    have hreason : (e.node.isList → e.reason = "nested list types are not supported") ∧
        (e.node.isStray → e.reason = "unexpected field") := by
      cases e <;> simp [MalformedType.node, MalformedType.reason, isList, isStray]
    rw [FieldType.ofNode, FieldType.resolve_eq_error_iff, MalformedType.IsFirstIn]
    simp only [Bool.toNat_false, Nat.zero_add]
    constructor
    · rintro ⟨before, after, hchain, ⟨hlist, hcount⟩ | ⟨hstray, hcount⟩⟩
      · use before, after, hchain, .inl ⟨hlist, hcount, hreason.1 hlist⟩
      · use before, after, hchain, .inr ⟨hstray, hcount, hreason.2 hstray⟩
    · rintro ⟨before, after, hchain, hfault⟩
      use before, after, hchain
      tauto

end ElmSchema
