import Dashboard.Proofs.Position
import Dashboard.Proofs.Script.Places

/-!
Scripts at other places. A text that begins at another place is cut into the same lexemes, and each of
them moves along with its characters.
-/
namespace Dashboard

namespace Position

/-- Where a place goes when the text that it belongs to begins at `target` and no longer at `origin`:
on the first line columns go along, and on later lines they stay. -/
def shift (origin target p : Position) : Position where
  line := target.line + (p.line - origin.line)
  column := if p.line = origin.line then target.column + (p.column - origin.column) else p.column
  offset := target.offset + (p.offset - origin.offset)

theorem shift_advance (origin target : Position) (text : List Char) :
    shift origin target (origin.advance text) = target.advance text := by
  rw [advance_eq_behind, advance_eq_behind]
  simp only [shift, behind]
  by_cases feed : '\n' ∈ text
  · have some := List.count_pos_iff.mpr feed
    have later : ¬ origin.line + text.count '\n' = origin.line := by omega
    simp only [if_pos feed, if_neg later, Nat.add_sub_cancel_left]
  · have none := List.count_eq_zero.mpr feed
    simp only [if_neg feed, none, Nat.add_zero, if_true, Nat.add_sub_cancel_left, Nat.sub_self]

end Position

namespace Script

namespace Node

mutual

/-- The tree with every node at its new place. -/
def moved (f : Position → Position) : Node → Node
  | literal p value => .literal (f p) value
  | template p raw => .template (f p) raw
  | identifier p name => .identifier (f p) name
  | array p elements => .array (f p) (movedAll f elements)
  | object p properties => .object (f p) (movedAll f properties)
  | property p key value shorthand => .property (f p) (key.moved f) (value.moved f) shorthand
  | spread p argument => .spread (f p) (argument.moved f)
  | function p isDeclaration name params body =>
    .function (f p) isDeclaration (moved? f name) (movedAll f params) (body.moved f)
  | arrow p params body => .arrow (f p) (movedAll f params) (body.moved f)
  | unary p operator argument => .unary (f p) operator (argument.moved f)
  | update p operator before argument => .update (f p) operator before (argument.moved f)
  | binary p operator left right => .binary (f p) operator (left.moved f) (right.moved f)
  | assignment p operator left right => .assignment (f p) operator (left.moved f) (right.moved f)
  | conditional p test consequent alternate =>
    .conditional (f p) (test.moved f) (consequent.moved f) (alternate.moved f)
  | member p owner name computed => .member (f p) (owner.moved f) (name.moved f) computed
  | call p callee arguments => .call (f p) (callee.moved f) (movedAll f arguments)
  | construct p callee arguments => .construct (f p) (callee.moved f) (movedAll f arguments)
  | declarations p kind declarators => .declarations (f p) kind (movedAll f declarators)
  | declarator p name value => .declarator (f p) (name.moved f) (moved? f value)
  | imports p specifiers source => .imports (f p) (movedAll f specifiers) (source.moved f)
  | defaultSpecifier p binding => .defaultSpecifier (f p) (binding.moved f)
  | namespaceSpecifier p binding => .namespaceSpecifier (f p) (binding.moved f)
  | namedSpecifier p imported binding => .namedSpecifier (f p) (imported.moved f) (binding.moved f)
  | exported p declaration => .exported (f p) (declaration.moved f)
  | returned p argument => .returned (f p) (moved? f argument)
  | branching p test consequent alternate =>
    .branching (f p) (test.moved f) (consequent.moved f) (moved? f alternate)
  | block p body => .block (f p) (movedAll f body)
  | empty p => .empty (f p)
  | expression p e => .expression (f p) (e.moved f)
  | program p body => .program (f p) (movedAll f body)

def movedAll (f : Position → Position) : List Node → List Node
  | [] => []
  | first :: more => first.moved f :: movedAll f more

def moved? (f : Position → Position) : Option Node → Option Node
  | none => none
  | some node => some (node.moved f)

end

theorem movedAll_eq_map (f : Position → Position) (nodes : List Node) :
    movedAll f nodes = nodes.map (moved f) := by
  induction nodes with
  | nil => rfl
  | cons first more ih => rw [movedAll, ih, List.map_cons]

theorem position_moved (f : Position → Position) (node : Node) :
    (node.moved f).position = f node.position := by
  cases node <;> rfl

section Unplaced

variable (f : Position → Position)

mutual

/-- Without its places a tree is the same wherever it is. -/
theorem unplaced_moved : (node : Node) → (node.moved f).unplaced = node.unplaced
  | literal .. | template .. | identifier .. | empty .. => rfl
  | array _ children | object _ children | declarations _ _ children | block _ children
  | program _ children => by
    simp only [moved, unplaced, unplacedAll_moved children]
  | spread _ node | unary _ _ node | update _ _ _ node | defaultSpecifier _ node
  | namespaceSpecifier _ node | exported _ node | expression _ node => by
    simp only [moved, unplaced, unplaced_moved node]
  | property _ first second _ | binary _ _ first second | assignment _ _ first second
  | member _ first second _ | namedSpecifier _ first second => by
    simp only [moved, unplaced, unplaced_moved first, unplaced_moved second]
  | arrow _ children node | call _ node children | construct _ node children
  | imports _ children node => by
    simp only [moved, unplaced, unplacedAll_moved children, unplaced_moved node]
  | function _ _ name params body => by
    simp only [moved, unplaced, unplaced?_moved name, unplacedAll_moved params, unplaced_moved body]
  | conditional _ test consequent alternate => by
    simp only [moved, unplaced, unplaced_moved test, unplaced_moved consequent,
      unplaced_moved alternate]
  | declarator _ name value => by
    simp only [moved, unplaced, unplaced_moved name, unplaced?_moved value]
  | returned _ argument => by simp only [moved, unplaced, unplaced?_moved argument]
  | branching _ test consequent alternate => by
    simp only [moved, unplaced, unplaced_moved test, unplaced_moved consequent,
      unplaced?_moved alternate]

theorem unplacedAll_moved : (nodes : List Node) → unplacedAll (movedAll f nodes) = unplacedAll nodes
  | [] => rfl
  | first :: more => by
    simp only [movedAll, unplacedAll, unplaced_moved first, unplacedAll_moved more]

theorem unplaced?_moved : (node : Option Node) → unplaced? (moved? f node) = unplaced? node
  | none => rfl
  | some node => by simp only [moved?, unplaced?, unplaced_moved node]

end

end Unplaced

end Node

/-! Lexemes. -/

def Lexeme.moved (f : Position → Position) (l : Lexeme) : Lexeme := ⟨l.token, f l.position⟩

def Tokens.moved (f : Position → Position) (s : Tokens) : Tokens :=
  ⟨s.lexemes.map (Lexeme.moved f), f s.stop⟩

theorem map_token_moved (f : Position → Position) (ls : List Lexeme) :
    (ls.map (Lexeme.moved f)).map Lexeme.token = ls.map Lexeme.token := by
  rw [List.map_map]
  rfl

theorem Tokens.next_moved (f : Position → Position) (s : Tokens) :
    (s.moved f).lexemes.head?.map Lexeme.token = s.lexemes.head?.map Lexeme.token := by
  rw [Tokens.moved]
  cases s.lexemes <;> rfl

theorem Tokens.length_moved (f : Position → Position) (s : Tokens) :
    (s.moved f).lexemes.length = s.lexemes.length :=
  List.length_map _

/-- Behind the same text, lexemes move with the origin. -/
theorem lexemes_advance {origin target : Position} {before text : List Char}
    {found : List Lexeme × Position} (h : lexemes (origin.advance before) text = .ok found) :
    lexemes (target.advance before) text =
      .ok (found.1.map (Lexeme.moved (.shift origin target)), .shift origin target found.2) := by
  induction text using tokens?.induct generalizing before found with
  | case1 text fault unended =>
    rw [lexemes, unended] at h
    cases h
  | case2 text n skipped spent =>
    rw [lexemes_end _ skipped spent] at h ⊢
    cases h
    rw [← Position.advance_append, ← Position.advance_append, Position.shift_advance]
    rfl
  | case3 text n skipped c rest ahead fault failed =>
    rw [lexemes_cons _ skipped ahead, failed] at h
    cases h
  | case4 text n skipped c rest ahead token k scanned ih =>
    rw [lexemes_cons _ skipped ahead, scanned] at h ⊢
    simp only [← Position.advance_append] at h ⊢
    split at h
    · cases h
    next later =>
    cases h
    rw [ih later]
    simp only [List.map_cons, Lexeme.moved, Position.shift_advance]

theorem lexemes_moved {origin : Position} {text : List Char} {found : List Lexeme × Position}
    (h : lexemes origin text = .ok found) (target : Position) :
    lexemes target text =
      .ok (found.1.map (Lexeme.moved (.shift origin target)), .shift origin target found.2) :=
  @lexemes_advance origin target [] text found h

end Script

end Dashboard
