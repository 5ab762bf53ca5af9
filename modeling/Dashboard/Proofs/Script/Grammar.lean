import Dashboard.Outline
import Dashboard.Proofs.Script.Lexing

/-!
The nodes of a tree, and the grammar of scripts as a judgment on trees. A node has its category from
the production that made it, so what stands at one place of a tree is known from what stands above
it: the parts of a declaration are declarators, and declarators stand nowhere else.
-/
namespace Dashboard.Script

/-- A name as the lexer cuts it: letters, digits, underscores and dollar signs, one or more. -/
def IsName (name : String) : Prop :=
  name.toList ≠ [] ∧ ∀ c ∈ name.toList, isNameChar c = true

/-- A word that the lexer takes for an identifier: no keyword, and no word for a value. -/
def IsFree (word : String) : Prop := Token.ofWord word = .identifier word

theorem IsName.isWord {name : String} (h : IsName name) : Module.IsWord name :=
  ⟨h.1, fun c member => isBlank_of_isNameChar (h.2 c member)⟩

namespace Node

/-- The nodes in the fields of a node. -/
def parts : Node → List Node
  | literal .. | template .. | identifier .. | empty _ => []
  | array _ nodes | object _ nodes | declarations _ _ nodes | block _ nodes | program _ nodes => nodes
  | property _ key value _ => [key, value]
  | spread _ node | unary _ _ node | update _ _ _ node | exported _ node | expression _ node
  | defaultSpecifier _ node | namespaceSpecifier _ node => [node]
  | function _ _ name params body => name.toList ++ params ++ [body]
  | arrow _ params body => params ++ [body]
  | binary _ _ left right | assignment _ _ left right => [left, right]
  | conditional _ test consequent alternate => [test, consequent, alternate]
  | member _ owner name _ => [owner, name]
  | call _ callee arguments | construct _ callee arguments => callee :: arguments
  | declarator _ name value => name :: value.toList
  | imports _ specifiers source => specifiers ++ [source]
  | namedSpecifier _ imported binding => [imported, binding]
  | returned _ argument => argument.toList
  | branching _ test consequent alternate => test :: consequent :: alternate.toList

/-- A node stands in a tree, at any depth. -/
inductive Occurs (root : Node) : Node → Prop
  | root : Occurs root root
  | part {node child : Node} (above : Occurs root node) (member : child ∈ node.parts) :
    Occurs root child

theorem nodes_optional {α : Type} (field : String) (node : Option α) :
    (Branch.optional field node).flatMap Branch.nodes = node.toList := by
  cases node <;> rfl

/-- The branches of a node show all of its fields. -/
theorem mem_children {node child : Node} : child ∈ node.children ↔ child ∈ node.parts := by
  cases node
  all_goals
    simp [children, view, parts, Branch.one, Branch.many, nodes_optional, or_assoc, or_comm,
      or_left_comm]

theorem sizeOf_lt_of_mem_children {node child : Node} (h : child ∈ node.children) :
    sizeOf child < sizeOf node := by
  obtain ⟨branch, under, member⟩ := List.mem_flatMap.mp h
  exact sizeOf_lt_of_mem_branches under member

theorem Occurs.trans {root node other : Node} (h : root.Occurs node) (below : node.Occurs other) :
    root.Occurs other := by
  induction below with
  | root => exact h
  | part _ member ih => exact ih.part member

theorem mem_subnodes {node root : Node} :
    node ∈ root.subnodes ↔ node = root ∨ ∃ child ∈ root.children, node ∈ child.subnodes := by
  rw [subnodes_eq, List.mem_cons, List.mem_flatMap]

theorem subnodes_subset {node root : Node} (h : node ∈ root.subnodes) :
    node.subnodes ⊆ root.subnodes := by
  rcases mem_subnodes.mp h with rfl | ⟨child, below, inside⟩
  · exact List.Subset.refl _
  · have smaller := sizeOf_lt_of_mem_children below
    intro other member
    exact mem_subnodes.mpr (Or.inr ⟨child, below, subnodes_subset inside member⟩)
termination_by sizeOf root

theorem occurs_of_mem_subnodes {node root : Node} (h : node ∈ root.subnodes) : root.Occurs node := by
  rcases mem_subnodes.mp h with rfl | ⟨child, below, inside⟩
  · exact .root
  · have smaller := sizeOf_lt_of_mem_children below
    exact (Occurs.root.part (mem_children.mp below)).trans (occurs_of_mem_subnodes inside)
termination_by sizeOf root

/-- A walk over a tree meets every node that stands in it. -/
theorem mem_subnodes_iff {node root : Node} : node ∈ root.subnodes ↔ root.Occurs node := by
  refine ⟨occurs_of_mem_subnodes, fun occurs => ?_⟩
  induction occurs with
  | root => exact mem_subnodes.mpr (Or.inl rfl)
  | part _ member ih =>
    refine subnodes_subset ih (mem_subnodes.mpr (Or.inr ⟨_, mem_children.mpr member, ?_⟩))
    exact mem_subnodes.mpr (Or.inl rfl)

end Node

/-- What the productions of the language make. -/
inductive Category where
  | name | key | expression | item | property | declarator | specifier | declaration | block
  | statement | program
  deriving DecidableEq, Repr

section

variable (stands : Position → String → Prop)

/-- The trees of each category, one constructor for a production. A name stands only where `stands`
lets it, and what is an expression by itself has a free name. -/
inductive IsFormedWith : Category → Node → Prop
  | name (p : Position) {text : String} (spelled : stands p text) :
    IsFormedWith .name (.identifier p text)
  | nameKey {node : Node} (name : IsFormedWith .name node) : IsFormedWith .key node
  | stringKey (p : Position) (text : String) : IsFormedWith .key (.literal p (.str text))
  | numberKey (p : Position) (value : Binary64) : IsFormedWith .key (.literal p (.number value))
  | reference (p : Position) {text : String} (spelled : stands p text) (free : IsFree text) :
    IsFormedWith .expression (.identifier p text)
  | literal (p : Position) (value : Scalar) : IsFormedWith .expression (.literal p value)
  | template (p : Position) (raw : String) : IsFormedWith .expression (.template p raw)
  | array (p : Position) {elements : List Node} (items : ∀ e ∈ elements, IsFormedWith .item e) :
    IsFormedWith .expression (.array p elements)
  | object (p : Position) {properties : List Node}
      (items : ∀ q ∈ properties, IsFormedWith .property q) :
    IsFormedWith .expression (.object p properties)
  | functionValue (p : Position) {id : Option Node} {params : List Node} {body : Node}
      (name : ∀ n, id = some n → IsFormedWith .name n)
      (names : ∀ n ∈ params, IsFormedWith .name n) (block : IsFormedWith .block body) :
    IsFormedWith .expression (.function p false id params body)
  | arrow (p : Position) {params : List Node} {body : Node} {category : Category}
      (names : ∀ n ∈ params, IsFormedWith .name n)
      (either : category = .block ∨ category = .expression) (inside : IsFormedWith category body) :
    IsFormedWith .expression (.arrow p params body)
  | unary (p : Position) (operator : UnaryOperator) {argument : Node}
      (operand : IsFormedWith .expression argument) :
    IsFormedWith .expression (.unary p operator argument)
  | update (p : Position) (operator : Operator) (before : Bool) {argument : Node}
      (operand : IsFormedWith .expression argument) :
    IsFormedWith .expression (.update p operator before argument)
  | binary (p : Position) (operator : Operator) {left right : Node}
      (first : IsFormedWith .expression left) (second : IsFormedWith .expression right) :
    IsFormedWith .expression (.binary p operator left right)
  | assignment (p : Position) (operator : Operator) {left right : Node}
      (target : IsFormedWith .expression left) (value : IsFormedWith .expression right) :
    IsFormedWith .expression (.assignment p operator left right)
  | conditional (p : Position) {test consequent alternate : Node}
      (condition : IsFormedWith .expression test) (yes : IsFormedWith .expression consequent)
      (no : IsFormedWith .expression alternate) :
    IsFormedWith .expression (.conditional p test consequent alternate)
  | member (p : Position) {owner field : Node} (target : IsFormedWith .expression owner)
      (name : IsFormedWith .name field) :
    IsFormedWith .expression (.member p owner field false)
  | index (p : Position) {owner field : Node} (target : IsFormedWith .expression owner)
      (place : IsFormedWith .expression field) :
    IsFormedWith .expression (.member p owner field true)
  | call (p : Position) {callee : Node} {arguments : List Node}
      (target : IsFormedWith .expression callee) (items : ∀ a ∈ arguments, IsFormedWith .item a) :
    IsFormedWith .expression (.call p callee arguments)
  | construct (p : Position) {callee : Node} {arguments : List Node}
      (target : IsFormedWith .expression callee) (items : ∀ a ∈ arguments, IsFormedWith .item a) :
    IsFormedWith .expression (.construct p callee arguments)
  | item {node : Node} (value : IsFormedWith .expression node) : IsFormedWith .item node
  | spreadItem (p : Position) {argument : Node} (value : IsFormedWith .expression argument) :
    IsFormedWith .item (.spread p argument)
  | property (p : Position) {key value : Node} (shorthand : Bool) (named : IsFormedWith .key key)
      (bound : IsFormedWith .expression value) :
    IsFormedWith .property (.property p key value shorthand)
  | spreadProperty (p : Position) {argument : Node} (value : IsFormedWith .expression argument) :
    IsFormedWith .property (.spread p argument)
  | declarator (p : Position) {id : Node} {init : Option Node} (name : IsFormedWith .name id)
      (value : ∀ v, init = some v → IsFormedWith .expression v) :
    IsFormedWith .declarator (.declarator p id init)
  | defaultSpecifier (p : Position) {binding : Node} (name : IsFormedWith .name binding) :
    IsFormedWith .specifier (.defaultSpecifier p binding)
  | namespaceSpecifier (p : Position) {binding : Node} (name : IsFormedWith .name binding) :
    IsFormedWith .specifier (.namespaceSpecifier p binding)
  | namedSpecifier (p : Position) {imported binding : Node} (source : IsFormedWith .name imported)
      (name : IsFormedWith .name binding) :
    IsFormedWith .specifier (.namedSpecifier p imported binding)
  | bindings (p : Position) (kind : DeclarationKind) {declarators : List Node}
      (each : ∀ d ∈ declarators, IsFormedWith .declarator d) :
    IsFormedWith .declaration (.declarations p kind declarators)
  | function (p : Position) {id : Node} {params : List Node} {body : Node}
      (name : IsFormedWith .name id) (names : ∀ n ∈ params, IsFormedWith .name n)
      (block : IsFormedWith .block body) :
    IsFormedWith .declaration (.function p true (some id) params body)
  | block (p : Position) {body : List Node} (statements : ∀ s ∈ body, IsFormedWith .statement s) :
    IsFormedWith .block (.block p body)
  | declared {node : Node} (declaration : IsFormedWith .declaration node) :
    IsFormedWith .statement node
  | nested {node : Node} (block : IsFormedWith .block node) : IsFormedWith .statement node
  | imports (p q : Position) {specifiers : List Node} (source : String)
      (each : ∀ s ∈ specifiers, IsFormedWith .specifier s) :
    IsFormedWith .statement (.imports p specifiers (.literal q (.str source)))
  | exported (p : Position) {node : Node} (declaration : IsFormedWith .declaration node) :
    IsFormedWith .statement (.exported p node)
  | returned (p : Position) {argument : Option Node}
      (value : ∀ v, argument = some v → IsFormedWith .expression v) :
    IsFormedWith .statement (.returned p argument)
  | branching (p : Position) {test consequent : Node} {alternate : Option Node}
      (condition : IsFormedWith .expression test) (yes : IsFormedWith .statement consequent)
      (no : ∀ s, alternate = some s → IsFormedWith .statement s) :
    IsFormedWith .statement (.branching p test consequent alternate)
  | empty (p : Position) : IsFormedWith .statement (.empty p)
  | expression (p : Position) {node : Node} (value : IsFormedWith .expression node) :
    IsFormedWith .statement (.expression p node)
  | program (p : Position) {body : List Node} (statements : ∀ s ∈ body, IsFormedWith .statement s) :
    IsFormedWith .program (.program p body)

end

/-- The trees whose names are spelled as the lexer cuts them. -/
abbrev IsFormed : Category → Node → Prop := IsFormedWith fun _ => IsName

namespace IsFormedWith

variable {stands : Position → String → Prop} {category : Category} {node child root : Node}

/-- A part is no declarator, or it stands in a declaration. -/
theorem of_mem_parts (h : IsFormedWith stands category node) (member : child ∈ node.parts) :
    (∃ inner, inner ≠ .declarator ∧ IsFormedWith stands inner child) ∨
      ∃ p kind declarators, node = .declarations p kind declarators ∧ child ∈ declarators ∧
        IsFormedWith stands .declarator child := by
  have scalar (p : Position) (value : Scalar) :
      IsFormedWith stands .expression (.literal p value) := .literal p value
  induction h
  case bindings p kind declarators each ih =>
    exact Or.inr ⟨p, kind, declarators, rfl, member, each _ member⟩
  -- These productions make no node of their own.
  case nameKey ih | item ih | declared ih | nested ih => exact ih member
  all_goals
    left
    simp only [Node.parts, List.mem_append, List.mem_cons, List.not_mem_nil, or_false,
      Option.mem_toList] at member <;> grind

theorem category_eq {p : Position} {id : Node} {init : Option Node}
    (h : IsFormedWith stands category (.declarator p id init)) : category = .declarator := by
  generalize shape : Node.declarator p id init = node at h
  induction h with
  | declarator => rfl
  | nameKey _ ih | item _ ih | declared _ ih | nested _ ih => cases ih shape
  | _ => cases shape

theorem of_declarator {p : Position} {id : Node} {init : Option Node}
    (h : IsFormedWith stands category (.declarator p id init)) :
    IsFormedWith stands .name id ∧
      ∀ value, init = some value → IsFormedWith stands .expression value := by
  obtain rfl := h.category_eq
  cases h with
  | declarator _ name value => exact ⟨name, value⟩

/-- A node of a tree is no declarator, or it stands in one of the declarations of the tree. -/
theorem of_occurs (h : IsFormedWith stands category root) (other : category ≠ .declarator)
    (occurs : root.Occurs node) :
    (∃ inner, inner ≠ .declarator ∧ IsFormedWith stands inner node) ∨
      (IsFormedWith stands .declarator node ∧
        ∃ p kind declarators, root.Occurs (.declarations p kind declarators) ∧
          node ∈ declarators) := by
  induction occurs with
  | root => exact Or.inl ⟨_, other, h⟩
  | part above member placed =>
    obtain ⟨_, formed⟩ : ∃ inner, IsFormedWith stands inner _ :=
      placed.elim (fun ⟨_, _, formed⟩ => ⟨_, formed⟩) fun ⟨formed, _⟩ => ⟨_, formed⟩
    rcases formed.of_mem_parts member with found | ⟨p, kind, _, rfl, inside, formed⟩
    · exact Or.inl found
    · exact Or.inr ⟨formed, p, kind, _, above, inside⟩

theorem exists_of_occurs (h : IsFormedWith stands category root) (other : category ≠ .declarator)
    (occurs : root.Occurs node) : ∃ inner, IsFormedWith stands inner node := by
  rcases h.of_occurs other occurs with ⟨_, -, formed⟩ | ⟨formed, -⟩
  · exact ⟨_, formed⟩
  · exact ⟨_, formed⟩

theorem declarator_mem (h : IsFormedWith stands category root) (other : category ≠ .declarator)
    {p : Position} {id : Node} {init : Option Node} (occurs : root.Occurs (.declarator p id init)) :
    ∃ q kind declarators, root.Occurs (.declarations q kind declarators) ∧
      .declarator p id init ∈ declarators := by
  rcases h.of_occurs other occurs with ⟨_, ne, formed⟩ | ⟨-, found⟩
  · exact absurd formed.category_eq ne
  · exact found

theorem of_declarations {p : Position} {kind : DeclarationKind} {declarators : List Node}
    (h : IsFormedWith stands category (.declarations p kind declarators)) :
    ∀ d ∈ declarators, IsFormedWith stands .declarator d := by
  generalize shape : Node.declarations p kind declarators = node at h
  induction h with
  | bindings _ _ each =>
    cases shape
    exact each
  | nameKey _ ih | item _ ih | declared _ ih | nested _ ih => exact ih shape
  | _ => cases shape

theorem of_call {p : Position} {callee : Node} {arguments : List Node}
    (h : IsFormedWith stands category (.call p callee arguments)) :
    IsFormedWith stands .expression callee := by
  generalize shape : Node.call p callee arguments = node at h
  induction h with
  | call _ target =>
    cases shape
    exact target
  | nameKey _ ih | item _ ih | declared _ ih | nested _ ih => exact ih shape
  | _ => cases shape

theorem of_identifier {p : Position} {name : String}
    (h : IsFormedWith stands category (.identifier p name)) : stands p name := by
  generalize shape : Node.identifier p name = node at h
  induction h with
  | name _ spelled | reference _ spelled =>
    cases shape
    exact spelled
  | nameKey _ ih | item _ ih | declared _ ih | nested _ ih => exact ih shape
  | _ => cases shape

end IsFormedWith

end Dashboard.Script
