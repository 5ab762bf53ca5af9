import Dashboard.Markup.Parser
import Dashboard.Proofs.Script.Parsing

/-!
Trees of documents without their places, and what a parsed tree promises: expressions are plain, they
are what their raw texts parse to, and there are so many levels of elements and blocks at most.
-/
namespace Dashboard.Markup

def Mustache.unplaced (tag : Mustache) : Mustache := ⟨.start, tag.raw, tag.expression.unplaced⟩

def AttributeValue.unplaced : AttributeValue → AttributeValue
  | .bare => .bare
  | .text _ data => .text .start data
  | .mustache tag => .mustache tag.unplaced

def Attribute.unplaced (a : Attribute) : Attribute := ⟨.start, a.name, a.value.unplaced⟩

mutual

/-- The tree with every node at the start of a text. -/
def Node.unplaced : Node → Node
  | .element _ name attributes children =>
    .element .start name (attributes.map Attribute.unplaced) (unplacedAll children)
  | .text _ data => .text .start data
  | .mustache tag => .mustache tag.unplaced
  | .ifBlock _ raw condition children alternative =>
    .ifBlock .start raw condition.unplaced (unplacedAll children) alternative.unplaced
  | .comment _ data => .comment .start data
  | .style _ attributes raw => .style .start (attributes.map Attribute.unplaced) raw

def Alternative.unplaced : Alternative → Alternative
  | .absent => .absent
  | .otherwise _ children => .otherwise .start (unplacedAll children)
  | .elseIf _ block => .elseIf .start block.unplaced

def unplacedAll : List Node → List Node
  | [] => []
  | first :: more => first.unplaced :: unplacedAll more

end

theorem unplacedAll_append (front back : List Node) :
    unplacedAll (front ++ back) = unplacedAll front ++ unplacedAll back := by
  induction front with
  | nil => rfl
  | cons first more ih => rw [List.cons_append, unplacedAll, ih, unplacedAll, List.cons_append]

/-- The expression is plain, and it is what the text parses to, up to blanks around the text. -/
structure IsRead (raw : String) (expression : Script.Node) : Prop where
  plain : expression.IsPlain maxNesting
  source : ∃ content place, Text.trimmed raw = Text.trimmed content ∧
    Script.parseExpression content place = .ok expression

def Mustache.IsSound (tag : Mustache) : Prop := IsRead tag.raw tag.expression

def Attribute.IsSound (a : Attribute) : Prop := ∀ tag, a.value = .mustache tag → tag.IsSound

mutual

/-- What a node of a parsed tree promises where so many levels are left. -/
def Node.IsSound : Node → Nat → Prop
  | .element _ name attributes children, levels =>
    (∀ a ∈ attributes, a.IsSound) ∧
      (children = [] ∨ ∃ inner, levels = inner + 1 ∧ AreSound children inner) ∧
      ∀ c ∈ name.toList, Parser.isNameChar c = true
  | .ifBlock _ raw condition children alternative, levels =>
    ∃ inner, levels = inner + 1 ∧ IsRead raw condition ∧ AreSound children inner ∧
      alternative.IsSound inner
  | .mustache tag, _ => tag.IsSound
  | .text .., _ | .comment .., _ | .style .., _ => True

def Alternative.IsSound : Alternative → Nat → Prop
  | .absent, _ => True
  | .otherwise _ children, levels => AreSound children levels
  | .elseIf _ block, levels => block.IsSound levels

def AreSound : List Node → Nat → Prop
  | [], _ => True
  | first :: more, levels => first.IsSound levels ∧ AreSound more levels

end

theorem areSound_append {front back : List Node} {levels : Nat} (hf : AreSound front levels)
    (hb : AreSound back levels) : AreSound (front ++ back) levels := by
  induction front with
  | nil => exact hb
  | cons first more ih => exact ⟨hf.1, ih hf.2⟩

/-- The same up to places, and sound. -/
structure Agree {α : Type} (unplaced : α → α) (sound : α → Prop) (v w : α) : Prop where
  same : unplaced v = unplaced w
  sound : sound v

abbrev AgreeTag : Mustache → Mustache → Prop := Agree Mustache.unplaced Mustache.IsSound

abbrev AgreeAttribute : Attribute → Attribute → Prop := Agree Attribute.unplaced Attribute.IsSound

abbrev AgreeAttributes : List Attribute → List Attribute → Prop := List.Forall₂ AgreeAttribute

abbrev AgreeNode (levels : Nat) : Node → Node → Prop := Agree Node.unplaced (·.IsSound levels)

abbrev AgreeNodes (levels : Nat) : List Node → List Node → Prop :=
  Agree unplacedAll (AreSound · levels)

theorem agreeAttributes_same {vs ws : List Attribute} (agree : AgreeAttributes vs ws) :
    vs.map Attribute.unplaced = ws.map Attribute.unplaced := by
  induction agree with
  | nil => rfl
  | cons first _ ih => rw [List.map_cons, List.map_cons, first.same, ih]

theorem agreeAttributes_sound {vs ws : List Attribute} (agree : AgreeAttributes vs ws) :
    ∀ a ∈ vs, a.IsSound := by
  induction agree with
  | nil => simp
  | cons first _ ih => exact List.forall_mem_cons.mpr ⟨first.sound, ih⟩

theorem AgreeNodes.nil (levels : Nat) : AgreeNodes levels [] [] := ⟨rfl, trivial⟩

theorem AgreeNodes.append {levels : Nat} {vs ws vs' ws' : List Node} (h : AgreeNodes levels vs ws)
    (h' : AgreeNodes levels vs' ws') : AgreeNodes levels (vs ++ vs') (ws ++ ws') where
  same := by rw [unplacedAll_append, unplacedAll_append, h.same, h'.same]
  sound := areSound_append h.sound h'.sound

theorem AgreeNode.single {levels : Nat} {v w : Node} (h : AgreeNode levels v w) :
    AgreeNodes levels [v] [w] where
  same := by rw [unplacedAll, unplacedAll, h.same]; rfl
  sound := ⟨h.sound, trivial⟩

theorem AgreeNode.element {levels : Nat} {p q : Position} {name : String}
    {found found' : List Attribute} {children children' : List Node}
    (named : ∀ c ∈ name.toList, Parser.isNameChar c = true)
    (attributes : AgreeAttributes found found')
    (inner : (children = [] ∧ children' = []) ∨
      ∃ inner, levels = inner + 1 ∧ AgreeNodes inner children children') :
    AgreeNode levels (.element p name found children) (.element q name found' children') := by
  constructor
  · have same : unplacedAll children = unplacedAll children' := by
      rcases inner with ⟨rfl, rfl⟩ | ⟨_, -, agree⟩
      · rfl
      · exact agree.same
    rw [Node.unplaced, Node.unplaced, agreeAttributes_same attributes, same]
  · refine ⟨agreeAttributes_sound attributes, ?_, named⟩
    rcases inner with ⟨rfl, -⟩ | ⟨deeper, rfl, agree⟩
    · exact Or.inl rfl
    · exact Or.inr ⟨deeper, rfl, agree.sound⟩

abbrev AgreeAlternative (levels : Nat) : Alternative → Alternative → Prop :=
  Agree Alternative.unplaced (·.IsSound levels)

theorem AgreeNode.ifBlock {levels : Nat} {p q : Position} {raw : String}
    {condition condition' : Script.Node} {children children' : List Node}
    {alternative alternative' : Alternative}
    (test : Agree Script.Node.unplaced (IsRead raw) condition condition')
    (inner : AgreeNodes levels children children')
    (other : AgreeAlternative levels alternative alternative') :
    AgreeNode (levels + 1) (.ifBlock p raw condition children alternative)
      (.ifBlock q raw condition' children' alternative') where
  same := by
    rw [Node.unplaced, Node.unplaced, test.same, inner.same, other.same]
  sound := ⟨levels, rfl, test.sound, inner.sound, other.sound⟩

/-- The same end of a run of children up to places. -/
inductive SameEnd : Terminator → Terminator → Prop
  | endOfText : SameEnd .endOfText .endOfText
  | closingTag (name : String) (p q : Position) : SameEnd (.closingTag name p) (.closingTag name q)
  | otherwise (p q : Position) : SameEnd (.otherwise p) (.otherwise q)
  | elseIf (condition : String) (p q : Position) : SameEnd (.elseIf condition p) (.elseIf condition q)
  | endIf (p q : Position) : SameEnd (.endIf p) (.endIf q)

end Dashboard.Markup
