import Dashboard.Proofs.Script.Grammar
import Dashboard.Proofs.Script.Parsing

/-!
How a chain of operands and binary operators is grouped. Its tree, read in order, gives the chain
back, and no operator stands below one that binds more tightly; of equals the left one is below,
but for `**` the right one.
-/
namespace Dashboard.Script

namespace Operator

/-- How tightly an operator binds its operands; zero for those that join no operands. -/
def tightness (operator : Operator) : Nat := operator.precedence?.getD 0

/-- An operator may stand at the root of the left operand of this one. -/
def TakesLeft (operator inner : Operator) : Prop :=
  if operator = .power then operator.tightness < inner.tightness
  else operator.tightness ≤ inner.tightness

/-- An operator may stand at the root of the right operand of this one. -/
def TakesRight (operator inner : Operator) : Prop :=
  if operator = .power then operator.tightness ≤ inner.tightness
  else operator.tightness < inner.tightness

theorem tightness_eq {operator : Operator} {precedence : Nat}
    (h : operator.precedence? = some precedence) : operator.tightness = precedence := by
  rw [tightness, h, Option.getD_some]

theorem tightness_pos {operator : Operator} (h : operator.precedence?.isSome = true) :
    0 < operator.tightness := by
  cases operator <;> first | decide | cases h

theorem tightness_lt_power {operator : Operator} (h : operator ≠ .power) :
    operator.tightness < power.tightness := by
  cases operator <;> first | exact absurd rfl h | decide

/-- What is too loose to stand in the right operand may take the whole as its left operand. -/
theorem takesLeft_of_lt_rightPrecedence {operator next : Operator}
    (h : next.tightness < operator.rightPrecedence operator.tightness) :
    next.TakesLeft operator := by
  unfold rightPrecedence at h
  unfold TakesLeft
  split_ifs at h with power
  · split_ifs
    · exact h
    · exact h.le
  · split_ifs with same
    · have looser := tightness_lt_power power
      subst same
      omega
    · exact Nat.le_of_lt_succ h

theorem takesRight_of_rightPrecedence_le {operator inner : Operator}
    (h : operator.rightPrecedence operator.tightness ≤ inner.tightness) :
    operator.TakesRight inner := by
  unfold rightPrecedence at h
  unfold TakesRight
  split_ifs at h ⊢ with power
  · exact h
  · exact h

end Operator

/-- Names and numbers. -/
def Token.isOperand : Token → Bool
  | identifier _ | number _ => true
  | _ => false

mutual

/-- Operands with binary operators between them. -/
def isChain : List Token → Bool
  | [] => false
  | operand :: rest => operand.isOperand && isTail rest

/-- What follows an operand of a chain. -/
def isTail : List Token → Bool
  | [] => true
  | .operator operator :: rest => operator.precedence?.isSome && isChain rest
  | _ :: _ => false

end

theorem isChain_cons {token : Token} {rest : List Token} :
    isChain (token :: rest) = true ↔ token.isOperand = true ∧ isTail rest = true := by
  rw [isChain, Bool.and_eq_true]

theorem isTail_cons {token : Token} {rest : List Token} : isTail (token :: rest) = true ↔
    ∃ operator, token = .operator operator ∧ operator.precedence?.isSome = true ∧
      isChain rest = true := by
  constructor
  · intro h
    cases token
    case operator operator =>
      rw [isTail, Bool.and_eq_true] at h
      exact ⟨operator, rfl, h⟩
    all_goals
      simp only [isTail] at h
      cases h
  · rintro ⟨operator, rfl, h⟩
    rw [isTail, Bool.and_eq_true]
    exact h

namespace Node

/-- The operands and operators of a tree, from left to right. -/
def inOrder? : Node → Option (List Token)
  | identifier _ name => some [.identifier name]
  | literal _ (.number value) => some [.number value]
  | binary _ operator left right =>
    match left.inOrder?, right.inOrder? with
    | some before, some after => some (before ++ .operator operator :: after)
    | _, _ => none
  | _ => none

/-- The operator at the root of a tree. -/
def root? : Node → Option Operator
  | binary _ operator _ _ => some operator
  | _ => none

/-- The operators at the roots of both operands may stand there. -/
def IsGrouped : Node → Prop
  | binary _ operator left right =>
    (∀ inner ∈ left.root?, operator.TakesLeft inner) ∧
      ∀ inner ∈ right.root?, operator.TakesRight inner
  | _ => True

theorem inOrder?_binary {position : Position} {operator : Operator} {left right : Node}
    {before after : List Token} (first : left.inOrder? = some before)
    (second : right.inOrder? = some after) :
    (binary position operator left right).inOrder? = some (before ++ .operator operator :: after) := by
  rw [inOrder?, first, second]

theorem forall_subnodes_binary {P : Node → Prop} {position : Position} {operator : Operator}
    {left right : Node} (root : P (.binary position operator left right))
    (first : ∀ node ∈ left.subnodes, P node) (second : ∀ node ∈ right.subnodes, P node) :
    ∀ node ∈ (binary position operator left right).subnodes, P node := by
  intro node member
  rcases mem_subnodes.mp member with rfl | ⟨child, below, inside⟩
  · exact root
  · rcases List.mem_pair.mp (mem_children.mp below) with rfl | rfl
    · exact first node inside
    · exact second node inside

theorem forall_subnodes_leaf {P : Node → Prop} {node : Node} (leaf : node.parts = []) (root : P node) :
    ∀ inner ∈ node.subnodes, P inner := by
  intro inner member
  rcases mem_subnodes.mp member with rfl | ⟨child, below, inside⟩
  · exact root
  · rw [mem_children, leaf] at below
    cases below

end Node

/-- A node that stands for the beginning of a chain, with the rest of the chain ahead. -/
structure Reads (least : Nat) (chain : List Token) (node : Node) (s : Tokens) : Prop where
  tokens : ∃ taken, node.inOrder? = some taken ∧ chain = taken ++ s.ahead
  tail : isTail s.ahead = true
  grouped : ∀ inner ∈ node.subnodes, inner.IsGrouped
  root : ∀ operator ∈ node.root?, least ≤ operator.tightness

/-- Such a node that ends before an operator that binds less tightly than the least. -/
structure ReadsAll (least : Nat) (chain : List Token) (node : Node) (s : Tokens) : Prop
    extends Reads least chain node s where
  next : ∀ operator rest, s.ahead = .operator operator :: rest → operator.tightness < least

/-- The beginning of a chain goes on with an operator and its right operand. -/
theorem Reads.extend {least : Nat} {chain rest : List Token} {left right : Node} {s t : Tokens}
    {operator : Operator} (position : Position) (before : Reads least chain left s)
    (ahead : s.ahead = .operator operator :: rest)
    (fits : ∀ inner ∈ left.root?, operator.TakesLeft inner)
    (enough : least ≤ operator.tightness)
    (after : Reads (operator.rightPrecedence operator.tightness) rest right t) :
    Reads least chain (.binary position operator left right) t := by
  obtain ⟨first, read, same⟩ := before.tokens
  obtain ⟨second, read', same'⟩ := after.tokens
  refine ⟨⟨_, Node.inOrder?_binary read read', ?_⟩, after.tail, ?_, ?_⟩
  · rw [same, ahead, same', List.append_assoc, List.cons_append]
  · refine Node.forall_subnodes_binary ⟨fits, fun inner root => ?_⟩ before.grouped after.grouped
    exact Operator.takesRight_of_rightPrecedence_le (after.root inner root)
  · intro inner root
    cases root
    exact enough

/-- Every binary operator is above the least, so nothing of a chain is left to be read. -/
theorem ReadsAll.ahead_eq_nil {chain : List Token} {node : Node} {s : Tokens}
    (h : ReadsAll 1 chain node s) : s.lexemes = [] := by
  obtain ⟨lexemes, stop⟩ := s
  cases lexemes with
  | nil => rfl
  | cons l rest =>
    obtain ⟨operator, same, isBinary, -⟩ := isTail_cons.mp h.tail
    have looser := h.next operator (rest.map Lexeme.token) (by rw [← same]; rfl)
    have positive := Operator.tightness_pos isBinary
    omega

namespace Productions

open Dashboard.Script.Parser

/-- The production for operators reads chains to their end, or to an operator below its least. -/
def Climbs (inner : Productions) : Prop :=
  ∀ least s node t, isChain s.ahead = true → inner.binary least s = .ok (node, t) →
    ReadsAll least s.ahead node t

section Level

variable {links : Nat} {inner : Productions}

theorem binaryChain_nil (position stop : Position) (least : Nat) (left : Node) :
    binaryChain inner position least links left ⟨[], stop⟩ = .ok (left, ⟨[], stop⟩) := by
  cases links <;> rw [binaryChain] <;> rfl

/-- The loop ends before an operator that binds less tightly than the least. Any other costs a
link, and its right operand is read one level deeper. -/
theorem binaryChain_cons {operator : Operator} {position place stop : Position} {least : Nat}
    {left node : Node} {rest : List Lexeme} {t : Tokens}
    (isBinary : operator.precedence?.isSome = true)
    (h : binaryChain inner position least links left ⟨⟨.operator operator, place⟩ :: rest, stop⟩ =
      .ok (node, t)) :
    (operator.tightness < least ∧ node = left ∧
        t = ⟨⟨.operator operator, place⟩ :: rest, stop⟩) ∨
      ∃ fewer right u, links = fewer + 1 ∧ least ≤ operator.tightness ∧
        inner.binary (operator.rightPrecedence operator.tightness) ⟨rest, stop⟩ = .ok (right, u) ∧
        binaryChain inner position least fewer (.binary position operator left right) u =
          .ok (node, t) := by
  obtain ⟨precedence, known⟩ := Option.isSome_iff_exists.mp isBinary
  rw [Operator.tightness_eq known]
  cases links with
  | zero =>
    rw [binaryChain, run_bind] at h
    simp only [peek, ok_bind, List.head?_cons, Option.map_some, known] at h
    split_ifs at h with looser
    · cases h
      exact Or.inl ⟨looser, rfl, rfl⟩
    · cases h
  | succ fewer =>
    rw [binaryChain, run_bind] at h
    simp only [peek, ok_bind, List.head?_cons, Option.map_some, known] at h
    split_ifs at h with looser
    · cases h
      exact Or.inl ⟨looser, rfl, rfl⟩
    · obtain ⟨_, s, skipped, more⟩ := run_bind_eq_ok.mp h
      cases skipped
      obtain ⟨right, u, read, more⟩ := run_bind_eq_ok.mp more
      exact Or.inr ⟨fewer, right, u, rfl, not_lt.mp looser, read, more⟩

/-- The loop over the operators of a level: what has been read is the left operand of the next. -/
theorem readsAll_binaryChain (climbs : inner.Climbs) {position : Position} {least : Nat}
    {chain : List Token} {left node : Node} {s t : Tokens} (before : Reads least chain left s)
    (fits : ∀ operator rest, s.ahead = .operator operator :: rest →
      ∀ root ∈ left.root?, operator.TakesLeft root)
    (h : binaryChain inner position least links left s = .ok (node, t)) :
    ReadsAll least chain node t := by
  induction links using Nat.strong_induction_on generalizing left s with
  | _ links ih =>
    obtain ⟨lexemes, stop⟩ := s
    cases lexemes with
    | nil =>
      rw [binaryChain_nil] at h
      cases h
      exact ⟨before, nofun⟩
    | cons l rest =>
      obtain ⟨token, place⟩ := l
      obtain ⟨operator, rfl, isBinary, chained⟩ := isTail_cons.mp before.tail
      obtain ⟨looser, rfl, rfl⟩ | ⟨fewer, right, u, rfl, enough, read, more⟩ :=
        binaryChain_cons isBinary h
      · refine ⟨before, fun next later same => ?_⟩
        cases same
        exact looser
      · have after := climbs _ ⟨rest, stop⟩ right u chained read
        have whole := before.extend position rfl (fits operator _ rfl) enough after.toReads
        refine ih fewer (Nat.lt_succ_self fewer) whole (fun next later ahead root same => ?_) more
        cases same
        exact Operator.takesLeft_of_lt_rightPrecedence (after.next next later ahead)

theorem isLink_eq_false {operator : Operator} (h : operator.precedence?.isSome = true) :
    isLink (.operator operator) = false := by
  cases operator <;> first | rfl | cases h

/-- No member, call or postfix operator follows an operand of a chain. -/
theorem postfixChain_tail {target : Node} {s : Tokens} (tail : isTail s.ahead = true) :
    postfixChain inner links target s = .ok (target, s) := by
  obtain ⟨lexemes, stop⟩ := s
  cases lexemes with
  | nil => cases links <;> rw [postfixChain] <;> rfl
  | cons l rest =>
    obtain ⟨token, place⟩ := l
    obtain ⟨operator, rfl, isBinary, -⟩ := isTail_cons.mp tail
    have none := isLink_eq_false isBinary
    cases links with
    | zero =>
      rw [postfixChain, run_bind]
      simp only [peek, ok_bind, List.head?_cons, Option.map_some, none]
      rfl
    | succ links =>
      rw [postfixChain, run_bind]
      simp only [peek, ok_bind, List.head?_cons, Option.map_some, none]
      rfl

/-- A chain begins with an operand, read as it stands. -/
theorem reads_unaryBody {node : Node} {s t : Tokens} (chained : isChain s.ahead = true)
    (h : unaryBody links inner s = .ok (node, t)) (least : Nat) :
    Reads least s.ahead node t ∧ node.root? = none := by
  obtain ⟨lexemes, stop⟩ := s
  cases lexemes with
  | nil => cases chained
  | cons l rest =>
    obtain ⟨token, place⟩ := l
    obtain ⟨operand, tail⟩ := isChain_cons.mp chained
    have after (target : Node) :
        postfixChain inner links target ⟨rest, stop⟩ = .ok (target, ⟨rest, stop⟩) :=
      postfixChain_tail tail
    cases token <;> cases operand
    case identifier.refl name =>
      have ran : unaryBody links inner ⟨⟨.identifier name, place⟩ :: rest, stop⟩ =
          postfixChain inner links (.identifier place name) ⟨rest, stop⟩ := rfl
      rw [ran, after] at h
      cases h
      exact ⟨⟨⟨[.identifier name], rfl, rfl⟩, tail,
        Node.forall_subnodes_leaf rfl trivial, nofun⟩, rfl⟩
    case number.refl value =>
      have ran : unaryBody links inner ⟨⟨.number value, place⟩ :: rest, stop⟩ =
          postfixChain inner links (.literal place (.number value)) ⟨rest, stop⟩ := rfl
      rw [ran, after] at h
      cases h
      exact ⟨⟨⟨[.number value], rfl, rfl⟩, tail,
        Node.forall_subnodes_leaf rfl trivial, nofun⟩, rfl⟩

end Level

theorem climbs_entered (levels : Nat) : (entered levels).Climbs := by
  induction levels with
  | zero =>
    intro least s node t chained h
    cases h
  | succ links ih =>
    intro least s node t chained h
    obtain ⟨position, u, place, h⟩ := run_bind_eq_ok.mp h
    cases place
    obtain ⟨first, u, read, more⟩ := run_bind_eq_ok.mp h
    obtain ⟨before, leaf⟩ := reads_unaryBody chained read least
    refine readsAll_binaryChain ih before (fun operator rest ahead root same => ?_) more
    rw [leaf] at same
    cases same

theorem arrowAhead_eq_false {s : Tokens} (chained : isChain s.ahead = true) :
    arrowAhead s.lexemes = false := by
  rw [arrowAhead]
  split
  · next name rest same =>
    rw [Tokens.ahead, same] at chained
    obtain ⟨operator, arrow, -⟩ := isTail_cons.mp (isChain_cons.mp chained).2
    cases arrow
  · next rest same =>
    rw [Tokens.ahead, same] at chained
    cases (isChain_cons.mp chained).1
  · rfl

/-- A chain is an expression of its own: no arrow, no conditional and no assignment. -/
theorem readsAll_assignmentBody (links : Nat) {node : Node} {s t : Tokens}
    (chained : isChain s.ahead = true)
    (h : assignmentBody links (entered links) s = .ok (node, t)) : ReadsAll 1 s.ahead node t := by
  obtain ⟨_, _, got, h⟩ := run_bind_eq_ok.mp h
  cases got
  rw [arrowAhead_eq_false chained] at h
  obtain ⟨_, _, place, h⟩ := run_bind_eq_ok.mp h
  cases place
  obtain ⟨left, u, read, h⟩ := run_bind_eq_ok.mp h
  obtain ⟨_, _, place, read⟩ := run_bind_eq_ok.mp read
  cases place
  obtain ⟨test, v, climbed, read⟩ := run_bind_eq_ok.mp read
  have reads := climbs_entered (links + 1) 1 s test v chained climbed
  obtain ⟨lexemes, stop⟩ := v
  obtain rfl : lexemes = [] := reads.ahead_eq_nil
  cases read
  cases h
  exact reads

end Productions

open Productions in
theorem readsAll_wholeExpression {node : Node} {s t : Tokens} (chained : isChain s.ahead = true)
    (h : wholeExpression s = .ok (node, t)) : ReadsAll 1 s.ahead node t := by
  obtain ⟨found, u, read, h⟩ := run_bind_eq_ok.mp h
  have reads := readsAll_assignmentBody (maxNesting - 1) chained read
  obtain ⟨lexemes, stop⟩ := u
  obtain rfl : lexemes = [] := reads.ahead_eq_nil
  cases h
  exact reads

/-- The tree of a chain of operands and binary operators gives the chain back, read in order, and
all of its operators are grouped by how tightly they bind. -/
theorem parseExpression_groups {text : String} {origin stop : Position} {lexemes : List Lexeme}
    {tree : Node} (cut : lexemesOf text origin = .ok (lexemes, stop))
    (chained : isChain (lexemes.map Lexeme.token) = true)
    (parsed : parseExpression text origin = .ok tree) :
    tree.inOrder? = some (lexemes.map Lexeme.token) ∧
      ∀ node ∈ tree.subnodes, node.IsGrouped := by
  obtain ⟨found, cut', rest⟩ := bind_eq_ok.mp parsed
  obtain rfl := Except.ok.inj (cut.symm.trans cut')
  obtain ⟨⟨node, s⟩, ran, last⟩ := bind_eq_ok.mp rest
  cases last
  have reads := readsAll_wholeExpression (s := ⟨lexemes, stop⟩) chained ran
  obtain ⟨taken, read, same⟩ := reads.tokens
  rw [Tokens.ahead, Tokens.ahead, reads.ahead_eq_nil, List.map_nil, List.append_nil] at same
  exact ⟨same ▸ read, reads.grouped⟩

def powers : String := "a - b * c ** d ** 2 - e"

theorem parseExpression_groups_powers : ∃ lexemes stop tree,
    lexemesOf powers .start = .ok (lexemes, stop) ∧ lexemes.length = 11 ∧
      parseExpression powers .start = .ok tree ∧
      tree.inOrder? = some (lexemes.map Lexeme.token) ∧ ∀ node ∈ tree.subnodes, node.IsGrouped := by
  have shown : (lexemesOf powers .start).toOption.map
      (fun found => (isChain (found.1.map Lexeme.token), found.1.length)) = some (true, 11) := by
    decide +kernel
  have accepted : (parseExpression powers .start).toOption.isSome = true := by decide +kernel
  obtain ⟨⟨lexemes, stop⟩, cut, shown⟩ := Option.map_eq_some_iff.mp shown
  obtain ⟨chained, eleven⟩ := Prod.mk.inj shown
  obtain ⟨tree, parsed⟩ := Option.isSome_iff_exists.mp accepted
  have cut := toOption_eq_some.mp cut
  have parsed := toOption_eq_some.mp parsed
  exact ⟨lexemes, stop, tree, cut, eleven, parsed, parseExpression_groups cut chained parsed⟩

end Dashboard.Script
