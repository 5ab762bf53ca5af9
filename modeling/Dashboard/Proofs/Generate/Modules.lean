import Dashboard.Proofs.Generate.Attributes
import Dashboard.Proofs.Registry
import Dashboard.Proofs.Sandbox.Building
import Dashboard.Proofs.Sandbox.Rendering

/-!
What the nodes of a document are generated into. `Generates` says it once, node by node; that the
instructions are plain, build their content and nest no deeper than the document, and that the
content shows what the document means, follow from it by induction.
-/
namespace Dashboard

open Dashboard.Module (Instruction IsWord Builds nestingFrom depthAfter le_nestingFrom)

namespace Generate

open Dashboard.Json (relayedEntries)
open Dashboard.Markup (Node AreSound)

/-- What follows when the condition of a block does not hold, as nodes. -/
def content? : Markup.Alternative → Option (List Node)
  | .absent => none
  | .otherwise _ children => some children
  | .elseIf _ block => some [block]

/-- The props of a display, with the type that its tag may imply. -/
def displayed (b : Bindings) (implied : Option String) (attributes : List Markup.Attribute) :
    Dictionary Json :=
  Component.withImpliedType implied (Meaning.props b.constants attributes)

/-- Nodes, the parameters and instructions that they are generated into, and the content that these
build when they are read back. -/
inductive Generates (b : Bindings) :
    List Node → List Instruction → List Instruction → List Content → Prop
  | nil : Generates b [] [] [] []
  | input {p tag attributes children spec nodes ps is cs} (found : Registry.lookup tag = .input spec)
    (usable : AreUsable b attributes) (rest : Generates b nodes ps is cs) :
    Generates b (.element p tag attributes children :: nodes)
      (.param spec.name spec.generates (Meaning.props b.constants attributes) :: ps) is cs
  | mount {p tag attributes children spec implied nodes ps is cs}
    (found : Registry.lookup tag = .display spec implied) (usable : AreUsable b attributes)
    (imported : b.isImported spec.name = true) (blank : children.all isBlankNode = true)
    (rest : Generates b nodes ps is cs) :
    Generates b (.element p tag attributes children :: nodes) ps
      (.mount spec.name (displayed b implied attributes) :: is)
      (.mount spec.name (relayedEntries (displayed b implied attributes)) [] :: cs)
  | widget {p tag attributes children spec implied qs inner ds nodes ps is cs}
    (found : Registry.lookup tag = .display spec implied) (usable : AreUsable b attributes)
    (imported : b.isImported spec.name = true) (filled : children.all isBlankNode = false)
    (inside : Generates b children qs inner ds) (rest : Generates b nodes ps is cs) :
    Generates b (.element p tag attributes children :: nodes) (qs ++ ps)
      (.openWidget spec.name (displayed b implied attributes) :: (inner ++ .closeWidget :: is))
      (.mount spec.name (relayedEntries (displayed b implied attributes)) ds :: cs)
  | blank {p data nodes ps is cs} (blank : Text.isAllBlank data = true)
    (rest : Generates b nodes ps is cs) : Generates b (.text p data :: nodes) ps is cs
  | text {p data nodes ps is cs} (visible : Text.isAllBlank data = false)
    (rest : Generates b nodes ps is cs) :
    Generates b (.text p data :: nodes) ps (.text (Text.collapsed data) :: is)
      (.text (Text.collapsed data) :: cs)
  | shown {tag name nodes ps is cs} (named : tag.expression.inputName? = some name)
    (rest : Generates b nodes ps is cs) :
    Generates b (.mustache tag :: nodes) ps (.shown name :: is) (.shown name :: cs)
  | literal {tag text nodes ps is cs} (unnamed : tag.expression.inputName? = none)
    (value : tag.expression.literal? = some (.str text)) (rest : Generates b nodes ps is cs) :
    Generates b (.mustache tag :: nodes) ps (.text text :: is) (.text text :: cs)
  | choice {p raw condition children name qs first ds nodes ps is cs}
    (named : condition.inputName? = some name) (inside : Generates b children qs first ds)
    (rest : Generates b nodes ps is cs) :
    Generates b (.ifBlock p raw condition children .absent :: nodes) (qs ++ ps)
      (.whenInput name :: (first ++ .endWhen :: is)) (.choice name ds [] :: cs)
  | choiceElse {p raw condition children alternative others name qs first ds rs second es nodes ps is cs}
    (named : condition.inputName? = some name) (inside : Generates b children qs first ds)
    (content : content? alternative = some others) (other : Generates b others rs second es)
    (rest : Generates b nodes ps is cs) :
    Generates b (.ifBlock p raw condition children alternative :: nodes) (qs ++ rs ++ ps)
      (.whenInput name :: (first ++ .otherwise :: (second ++ .endWhen :: is)))
      (.choice name ds es :: cs)
  | comment {p data nodes ps is cs} (rest : Generates b nodes ps is cs) :
    Generates b (.comment p data :: nodes) ps is cs

variable {b : Bindings} {others : List Node} {ps is : List Instruction} {cs : List Content}

/-- The imports are displays under their own names. -/
def Bindings.IsConfined (b : Bindings) : Prop := b.imports = [] ∨ b.imports = Bindings.standard

theorem mem_displayNames_of_isImported (confined : b.IsConfined) {name : String}
    (h : b.isImported name = true) : name ∈ Registry.displayNames := by
  rcases confined with none | all
  · rw [Bindings.isImported, none] at h
    cases h
  · rw [Bindings.isImported, all] at h
    simpa [Bindings.standard] using h

theorem displayBinding_of_lookup {tag : String} {spec : DisplaySpec} {implied : Option String}
    (known : Registry.lookup tag = .display spec implied) (found : Dictionary Json) :
    displayBinding tag found = (spec.name, Component.withImpliedType implied found) := by
  rw [displayBinding, known]
  cases implied with
  | some kind => rfl
  | none =>
    rw [Registry.name_of_lookup known]
    rfl

/-- What is mounted under an imported name is a display of the registry. -/
theorem displayBinding_of_isImported (confined : b.IsConfined) {tag : String}
    {found : Dictionary Json} (other : ∀ spec, Registry.lookup tag ≠ .input spec)
    (imported : b.isImported (displayBinding tag found).1 = true) :
    ∃ spec implied, Registry.lookup tag = .display spec implied ∧
      displayBinding tag found = (spec.name, Component.withImpliedType implied found) := by
  cases known : Registry.lookup tag with
  | input spec => exact absurd known (other spec)
  | unknown =>
    rw [displayBinding, known] at imported
    exact absurd known (Registry.lookup_displayName (mem_displayNames_of_isImported confined imported))
  | display spec implied => exact ⟨spec, implied, rfl, displayBinding_of_lookup known found⟩

/-- What an element that is no input is generated into, mounted under a name with some props. -/
def Mounts (b : Bindings) (depth : Nat) (mounted : String × Dictionary Json) (children : List Node)
    (out : Output) : Prop :=
  b.isImported mounted.1 = true ∧
    (children.all isBlankNode = true ∧ out = emit depth (.mount mounted.1 mounted.2) ∨
      children.all isBlankNode = false ∧ ∃ inner, Generate.nodes b (depth + 1) children = .ok inner ∧
        out = ((emit depth (.openWidget mounted.1 mounted.2)).append inner).append
          (emit depth .closeWidget))

/-- What an element is generated into, and when. -/
theorem element_eq_ok {depth : Nat} {position : Position} {tag : String}
    {attributes : List Markup.Attribute} {children : List Node} {out : Output} :
    node b depth (.element position tag attributes children) = .ok out ↔
      Markup.isComponentName tag = true ∧ AreUsable b attributes ∧
        ((∃ spec, Registry.lookup tag = .input spec ∧ out =
            ⟨[.param spec.name spec.generates (Meaning.props b.constants attributes)], [],
              if children.isEmpty then [] else [.childrenIgnored tag position]⟩) ∨
          (∀ spec, Registry.lookup tag ≠ .input spec) ∧ Mounts b depth
            (displayBinding tag (Meaning.props b.constants attributes)) children out) := by
  by_cases component : Markup.isComponentName tag = true
  swap
  · rw [node, if_neg component]
    simp [component]
  rw [node, if_pos component, bind_eq_ok]
  simp only [props_eq_ok]
  constructor
  · rintro ⟨_, ⟨usable, rfl⟩, built⟩
    refine ⟨component, usable, ?_⟩
    split at built
    · next spec known =>
      cases built
      exact Or.inl ⟨spec, known, rfl⟩
    · next other =>
      refine Or.inr ⟨other, ?_⟩
      by_cases imported : b.isImported (displayBinding tag (Meaning.props b.constants attributes)).1 = true
      swap
      · rw [if_pos (by simpa using imported)] at built
        cases built
      rw [if_neg (by simpa using imported)] at built
      refine ⟨imported, ?_⟩
      by_cases blank : children.all isBlankNode = true
      · rw [if_pos blank] at built
        cases built
        exact Or.inl ⟨blank, rfl⟩
      · rw [if_neg blank] at built
        obtain ⟨inner, inside, last⟩ := bind_eq_ok.mp built
        cases last
        exact Or.inr ⟨by simpa using blank, inner, inside, rfl⟩
  · rintro ⟨-, usable, ⟨spec, known, rfl⟩ | ⟨other, imported, built⟩⟩
    · refine ⟨_, ⟨usable, rfl⟩, ?_⟩
      rw [known]
      rfl
    · refine ⟨_, ⟨usable, rfl⟩, ?_⟩
      split
      · next spec known => exact absurd known (other spec)
      · rcases built with ⟨blank, rfl⟩ | ⟨filled, inner, inside, rfl⟩
        · simp only [imported, blank]
          rfl
        · simp only [imported, filled, inside]
          rfl

/-- Where displays are imported under their own names, nothing else is mounted. -/
theorem mounts_iff (confined : b.IsConfined) {depth : Nat} {tag : String}
    {attributes : List Markup.Attribute} {children : List Node} {out : Output} :
    (∀ spec, Registry.lookup tag ≠ .input spec) ∧ Mounts b depth
        (displayBinding tag (Meaning.props b.constants attributes)) children out ↔
      ∃ spec implied, Registry.lookup tag = .display spec implied ∧
        Mounts b depth (spec.name, displayed b implied attributes) children out := by
  constructor
  · rintro ⟨other, mounts⟩
    obtain ⟨spec, implied, known, shape⟩ := displayBinding_of_isImported confined other mounts.1
    exact ⟨spec, implied, known, shape ▸ mounts⟩
  · rintro ⟨spec, implied, known, mounts⟩
    rw [displayBinding_of_lookup known, known]
    exact ⟨by rintro _ ⟨⟩, mounts⟩

/-- What a conditional block is generated into, and when. -/
theorem ifBlock_eq_ok {depth : Nat} {position : Position} {raw : String} {condition : Script.Node}
    {children : List Node} {alternative : Markup.Alternative} {out : Output} :
    node b depth (.ifBlock position raw condition children alternative) = .ok out ↔
      ∃ name, condition.inputName? = some name ∧
        ∃ first, Generate.nodes b (depth + 1) children = .ok first ∧
          ∃ second, alternativeNodes b depth alternative = .ok second ∧
            out = (((emit depth (.whenInput name)).append first).append second).append
              (emit depth .endWhen) := by
  rw [node]
  cases condition.inputName? with
  | none =>
    constructor
    · rintro ⟨⟩
    · rintro ⟨_, ⟨⟩, _⟩
  | some name =>
    dsimp only
    rw [bind_eq_ok]
    constructor
    · rintro ⟨first, inside, rest⟩
      obtain ⟨second, other, last⟩ := bind_eq_ok.mp rest
      cases last
      exact ⟨name, rfl, first, inside, second, other, rfl⟩
    · rintro ⟨_, ⟨⟩, first, inside, second, other, rfl⟩
      exact ⟨first, inside, bind_eq_ok.mpr ⟨second, other, rfl⟩⟩

theorem reference_eq_ok {depth : Nat} {tag : Markup.Mustache} {out : Output}
    (h : reference depth tag = .ok out) (rest : Generates b others ps is cs) :
    ∃ ds, Generates b (.mustache tag :: others) (out.params ++ ps)
      (out.body.map Module.Line.instruction ++ is) ds := by
  unfold reference at h
  split at h
  · next name named =>
    cases h
    exact ⟨_, .shown named rest⟩
  · next text unnamed value =>
    cases h
    exact ⟨_, .literal unnamed value rest⟩
  · cases h

theorem plainText_generates (depth : Nat) (p : Position) (data : String)
    (rest : Generates b others ps is cs) :
    ∃ ds, Generates b (.text p data :: others) ((plainText depth data).params ++ ps)
      ((plainText depth data).body.map Module.Line.instruction ++ is) ds := by
  simp only [plainText, Text.isEmpty_collapsed]
  split_ifs with blank
  · exact ⟨_, .blank blank rest⟩
  · exact ⟨_, .text (by simpa using blank) rest⟩

mutual

theorem generates_of_node (confined : b.IsConfined) (depth : Nat) (n : Node) (out : Output)
    (h : node b depth n = .ok out) {others : List Node} {ps is : List Instruction}
    {cs : List Content} (rest : Generates b others ps is cs) :
    ∃ ds, Generates b (n :: others) (out.params ++ ps)
      (out.body.map Module.Line.instruction ++ is) ds := by
  match n with
  | .element position tag attributes children =>
    obtain ⟨-, usable, ⟨spec, known, rfl⟩ | mounted⟩ := element_eq_ok.mp h
    · exact ⟨_, .input known usable rest⟩
    · obtain ⟨spec, implied, known, imported, built⟩ := (mounts_iff confined).mp mounted
      rcases built with ⟨blank, rfl⟩ | ⟨filled, inner, inside, rfl⟩
      · exact ⟨_, .mount known usable imported blank rest⟩
      · obtain ⟨ds, generated⟩ := generates_of_nodes confined _ children inner inside
        refine ⟨.mount spec.name (relayedEntries (displayed b implied attributes)) ds :: cs, ?_⟩
        simpa [Output.append, emit] using
          Generates.widget known usable imported filled generated rest
  | .text position data =>
    cases h
    exact plainText_generates depth position data rest
  | .mustache tag =>
    exact reference_eq_ok h rest
  | .ifBlock position raw condition children alternative =>
    obtain ⟨name, named, first, inside, second, other, rfl⟩ := ifBlock_eq_ok.mp h
    obtain ⟨ds, generated⟩ := generates_of_nodes confined _ children first inside
    have alternate := generates_of_alternative confined depth alternative second other
    cases content : content? alternative with
    | none =>
      obtain rfl : alternative = .absent := by
        cases alternative <;> first | rfl | cases content
      cases other
      refine ⟨.choice name ds [] :: cs, ?_⟩
      simpa [Output.append, emit] using Generates.choice named generated rest
    | some others =>
      rw [content] at alternate
      obtain ⟨qs, inner, es, generated', params, body⟩ := alternate
      refine ⟨.choice name ds es :: cs, ?_⟩
      simpa [Output.append, emit, params, body] using
        Generates.choiceElse named generated content generated' rest
  | .comment .. =>
    cases h
    exact ⟨_, .comment rest⟩
  | .style .. => cases h

theorem generates_of_nodes (confined : b.IsConfined) (depth : Nat) (all : List Node)
    (out : Output) (h : nodes b depth all = .ok out) :
    ∃ cs, Generates b all out.params (out.body.map Module.Line.instruction) cs := by
  match all with
  | [] =>
    cases h
    exact ⟨_, .nil⟩
  | first :: more =>
    obtain ⟨here, read, rest⟩ := bind_eq_ok.mp h
    obtain ⟨later, others, last⟩ := bind_eq_ok.mp rest
    cases last
    obtain ⟨cs, generated⟩ := generates_of_nodes confined depth more later others
    rw [Output.append, List.map_append]
    exact generates_of_node confined depth first here read generated

theorem generates_of_alternative (confined : b.IsConfined) (depth : Nat)
    (alternative : Markup.Alternative) (out : Output)
    (h : alternativeNodes b depth alternative = .ok out) :
    match content? alternative with
    | none => True
    | some others => ∃ ps is cs, Generates b others ps is cs ∧ out.params = ps ∧
      out.body.map Module.Line.instruction = .otherwise :: is := by
  match alternative with
  | .absent => trivial
  | .otherwise _ children =>
    obtain ⟨inner, read, last⟩ := bind_eq_ok.mp h
    cases last
    obtain ⟨cs, generated⟩ := generates_of_nodes confined _ children inner read
    exact ⟨_, _, _, generated, rfl, rfl⟩
  | .elseIf _ block =>
    obtain ⟨inner, read, last⟩ := bind_eq_ok.mp h
    cases last
    obtain ⟨cs, generated⟩ := generates_of_node confined _ block inner read .nil
    rw [List.append_nil, List.append_nil] at generated
    exact ⟨_, _, _, generated, rfl, rfl⟩

end

/-! What follows from it. -/

variable {nodes : List Node}

theorem areSound_content {alternative : Markup.Alternative} {others : List Node} {levels : Nat}
    (content : content? alternative = some others) (sound : alternative.IsSound levels) :
    AreSound others levels := by
  cases alternative with
  | absent => cases content
  | otherwise position children =>
    cases content
    exact sound
  | elseIf position block =>
    cases content
    exact ⟨sound, trivial⟩

/-- The instructions build the content. -/
theorem Generates.builds (h : Generates b nodes ps is cs) :
    Builds (is.map Instruction.relayed) cs := by
  induction h with
  | nil => exact .nil
  | input _ _ _ ih | blank _ _ ih | comment _ ih => exact ih
  | mount _ _ _ _ _ ih => exact .mount _ _ ih
  | widget _ _ _ _ _ _ ihInside ihRest =>
    simpa [Instruction.relayed] using Builds.widget _ _ ihInside ihRest
  | text _ _ ih => exact .text _ ih
  | shown _ _ ih => exact .shown _ ih
  | literal _ _ _ ih => exact .text _ ih
  | choice _ _ _ ihInside ihRest =>
    simpa [Instruction.relayed] using Builds.choice _ ihInside ihRest
  | choiceElse _ _ _ _ _ ihInside ihOther ihRest =>
    simpa [Instruction.relayed] using Builds.choiceElse _ ihInside ihOther ihRest

/-- The instructions can be read back from their lines. -/
theorem Generates.plain (h : Generates b nodes ps is cs) (sound : b.IsSound) {levels : Nat}
    (read : AreSound nodes levels) : (∀ i ∈ ps, i.IsPlain) ∧ ∀ i ∈ is, i.IsPlain := by
  have display {tag : String} {spec : DisplaySpec} {implied : Option String}
      {attributes : List Markup.Attribute} (found : Registry.lookup tag = .display spec implied)
      (attributesRead : ∀ a ∈ attributes, a.IsSound) : IsWord spec.name ∧
        Json.IsStandard Json.maxNesting (.obj (displayed b implied attributes)) :=
    ⟨Registry.isWord_of_lookup_display found, isStandard_props sound attributesRead implied⟩
  induction h generalizing levels with
  | nil => simp
  | input found _ _ ih =>
    obtain ⟨⟨here, -⟩, later⟩ := read
    obtain ⟨params, body⟩ := ih later
    exact ⟨List.forall_mem_cons.mpr
      ⟨⟨Registry.isWord_of_lookup_input found, isStandard_props sound here none⟩, params⟩, body⟩
  | mount found _ _ _ _ ih =>
    obtain ⟨⟨here, -⟩, later⟩ := read
    obtain ⟨params, body⟩ := ih later
    exact ⟨params, List.forall_mem_cons.mpr ⟨display found here, body⟩⟩
  | widget found _ _ filled _ _ ihInside ihRest =>
    obtain ⟨⟨here, rfl | ⟨inner, -, children⟩, -⟩, later⟩ := read
    · cases filled
    · simp only [List.forall_mem_cons, List.forall_mem_append]
      exact ⟨⟨(ihInside children).1, (ihRest later).1⟩, display found here,
        (ihInside children).2, trivial, (ihRest later).2⟩
  | blank _ _ ih | comment _ ih => exact ih read.2
  | text _ _ ih | literal _ _ _ ih =>
    obtain ⟨params, body⟩ := ih read.2
    exact ⟨params, List.forall_mem_cons.mpr ⟨trivial, body⟩⟩
  | shown named _ ih =>
    obtain ⟨params, body⟩ := ih read.2
    exact ⟨params, List.forall_mem_cons.mpr ⟨read.1.plain.reference _ named, body⟩⟩
  | choice named _ _ ihInside ihRest =>
    obtain ⟨⟨inner, -, condition, children, -⟩, later⟩ := read
    simp only [List.forall_mem_cons, List.forall_mem_append]
    exact ⟨⟨(ihInside children).1, (ihRest later).1⟩, condition.plain.reference _ named,
      (ihInside children).2, trivial, (ihRest later).2⟩
  | choiceElse named _ content _ _ ihInside ihOther ihRest =>
    obtain ⟨⟨inner, -, condition, children, alternative⟩, later⟩ := read
    have second := ihOther (areSound_content content alternative)
    simp only [List.forall_mem_cons, List.forall_mem_append]
    exact ⟨⟨⟨(ihInside children).1, second.1⟩, (ihRest later).1⟩, condition.plain.reference _ named,
      (ihInside children).2, trivial, second.2, trivial, (ihRest later).2⟩

/-- Inputs become parameters. -/
theorem Generates.params (h : Generates b nodes ps is cs) :
    ∀ i ∈ ps, ∃ component valueType props, i = .param component valueType props := by
  induction h with
  | nil => simp
  | input _ _ _ ih => exact List.forall_mem_cons.mpr ⟨⟨_, _, _, rfl⟩, ih⟩
  | mount _ _ _ _ _ ih | blank _ _ ih | text _ _ ih | shown _ _ ih | literal _ _ _ ih
  | comment _ ih => exact ih
  | widget _ _ _ _ _ _ ihInside ihRest | choice _ _ _ ihInside ihRest =>
    exact List.forall_mem_append.mpr ⟨ihInside, ihRest⟩
  | choiceElse _ _ _ _ _ ihInside ihOther ihRest =>
    exact List.forall_mem_append.mpr ⟨List.forall_mem_append.mpr ⟨ihInside, ihOther⟩, ihRest⟩

/-- Only imported widgets are mounted. -/
theorem Generates.imported (h : Generates b nodes ps is cs) :
    ∀ i ∈ is, ∀ binding, i.binding? = some binding → b.isImported binding = true := by
  induction h with
  | nil => simp
  | input _ _ _ ih | blank _ _ ih | comment _ ih => exact ih
  | mount _ _ imported _ _ ih =>
    simp only [List.forall_mem_cons]
    refine ⟨?_, ih⟩
    rintro binding ⟨⟩
    exact imported
  | text _ _ ih | shown _ _ ih | literal _ _ _ ih =>
    simp only [List.forall_mem_cons]
    exact ⟨by rintro _ ⟨⟩, ih⟩
  | widget _ _ imported _ _ _ ihInside ihRest =>
    simp only [List.forall_mem_cons, List.forall_mem_append]
    refine ⟨?_, ihInside, by rintro _ ⟨⟩, ihRest⟩
    rintro binding ⟨⟩
    exact imported
  | choice _ _ _ ihInside ihRest =>
    simp only [List.forall_mem_cons, List.forall_mem_append]
    exact ⟨by rintro _ ⟨⟩, ihInside, by rintro _ ⟨⟩, ihRest⟩
  | choiceElse _ _ _ _ _ ihInside ihOther ihRest =>
    simp only [List.forall_mem_cons, List.forall_mem_append]
    exact ⟨by rintro _ ⟨⟩, ihInside, by rintro _ ⟨⟩, ihOther, by rintro _ ⟨⟩, ihRest⟩

/-- Blocks nest no deeper than the document does. -/
theorem Generates.nestingFrom_le (h : Generates b nodes ps is cs) {levels : Nat}
    (read : AreSound nodes levels) (depth : Nat) :
    nestingFrom depth (is.map Instruction.relayed) ≤ depth + levels := by
  induction h generalizing levels depth with
  | nil => simp [nestingFrom]
  | input _ _ _ ih | blank _ _ ih | comment _ ih => exact ih read.2 depth
  | mount _ _ _ _ _ ih | text _ _ ih | shown _ _ ih | literal _ _ _ ih =>
    have later := ih read.2 depth
    simpa [nestingFrom, Instruction.relayed, depthAfter] using later
  | widget _ _ _ filled inside _ ihInside ihRest =>
    obtain ⟨⟨here, rfl | ⟨inner, rfl, children⟩⟩, later⟩ := read
    · cases filled
    · have first := ihInside children (depth + 1)
      have last := ihRest later depth
      simp [nestingFrom, Instruction.relayed, depthAfter, inside.builds.nestingFrom_append]
      omega
  | choice _ inside _ ihInside ihRest =>
    obtain ⟨⟨inner, rfl, -, children, -⟩, later⟩ := read
    have first := ihInside children (depth + 1)
    have last := ihRest later depth
    simp [nestingFrom, Instruction.relayed, depthAfter, inside.builds.nestingFrom_append]
    omega
  | choiceElse _ inside content other _ ihInside ihOther ihRest =>
    obtain ⟨⟨inner, rfl, -, children, alternative⟩, later⟩ := read
    have first := ihInside children (depth + 1)
    have second := ihOther (areSound_content content alternative) (depth + 1)
    have last := ihRest later depth
    simp [nestingFrom, Instruction.relayed, depthAfter, inside.builds.nestingFrom_append,
      other.builds.nestingFrom_append]
    omega

/-! What the content shows. -/

theorem evaluateAll_blank {constants : Dictionary Json} (state : InputState) {nodes : List Node}
    (blank : nodes.all isBlankNode = true) : Meaning.evaluateAll constants state nodes = [] := by
  induction nodes with
  | nil => rfl
  | cons first more ih =>
    rw [List.all_cons, Bool.and_eq_true] at blank
    rw [Meaning.evaluateAll, ih blank.2, List.append_nil]
    cases first with
    | text position data => simpa [Meaning.evaluate, isBlankNode] using blank.1
    | comment => rfl
    | _ => simp [isBlankNode] at blank

theorem evaluateAlternative_content {constants : Dictionary Json} (state : InputState)
    {alternative : Markup.Alternative} {others : List Node}
    (content : content? alternative = some others) :
    Meaning.evaluateAlternative constants state alternative =
      Meaning.evaluateAll constants state others := by
  cases alternative with
  | absent => cases content
  | otherwise position children =>
    cases content
    rfl
  | elseIf position block =>
    cases content
    rw [Meaning.evaluateAlternative, Meaning.evaluateAll, Meaning.evaluateAll, List.append_nil]

/-- A mounted display shows what its element means. -/
theorem renderContent_mount {imports : Dictionary Widget} (state : InputState) {spec : DisplaySpec}
    (bound : Dictionary.find? imports spec.name = some ⟨spec.name, true⟩) {tag : String}
    {implied : Option String} (found : Registry.lookup tag = .display spec implied) {p : Position}
    {attributes : List Markup.Attribute} {children : List Node} {ds : List Content}
    (inside : LoadedModule.renderAll imports state ds =
      RenderNode.relayedAll (Meaning.evaluateAll b.constants state children)) :
    LoadedModule.renderContent imports state
        (.mount spec.name (relayedEntries (displayed b implied attributes)) ds) =
      RenderNode.relayedAll
        (Meaning.evaluate b.constants state (.element p tag attributes children)) := by
  rw [LoadedModule.renderContent, bound, Meaning.evaluate, found, inside,
    LoadedModule.resolveEntries_relayed]
  simp only [Widget.render, Widget.hides_relayed, Bool.true_and, displayed]
  split_ifs <;> rfl

/-- The content shows what the document means, its doubles as they are read back. -/
theorem Generates.render (h : Generates b nodes ps is cs) {imports : Dictionary Widget}
    (bound : ∀ name, b.isImported name = true →
      Dictionary.find? imports name = some ⟨name, true⟩) (state : InputState) :
    LoadedModule.renderAll imports state cs =
      RenderNode.relayedAll (Meaning.evaluateAll b.constants state nodes) := by
  induction h with
  | nil => rfl
  | input found _ _ ih =>
    rw [Meaning.evaluateAll, Meaning.evaluate, found, ih]
    rfl
  | mount found _ imported blank _ ih =>
    have inside : LoadedModule.renderAll imports state [] = RenderNode.relayedAll _ :=
      congrArg RenderNode.relayedAll (@evaluateAll_blank b.constants state _ blank).symm
    rw [LoadedModule.renderAll, Meaning.evaluateAll, RenderNode.relayedAll_append, ih,
      renderContent_mount state (bound _ imported) found inside]
  | widget found _ imported _ _ _ ihInside ihRest =>
    rw [LoadedModule.renderAll, Meaning.evaluateAll, RenderNode.relayedAll_append, ihRest,
      renderContent_mount state (bound _ imported) found ihInside]
  | blank blank _ ih =>
    rw [Meaning.evaluateAll, Meaning.evaluate, if_pos blank, ih]
    rfl
  | text visible _ ih =>
    rw [LoadedModule.renderAll, Meaning.evaluateAll, Meaning.evaluate, if_neg (by simp [visible]), ih]
    rfl
  | shown named _ ih =>
    rw [LoadedModule.renderAll, Meaning.evaluateAll, Meaning.evaluate, named, ih]
    rfl
  | literal unnamed value _ ih =>
    rw [LoadedModule.renderAll, Meaning.evaluateAll, Meaning.evaluate, unnamed, value, ih]
    rfl
  | choice named _ _ ihInside ihRest =>
    rw [LoadedModule.renderAll, Meaning.evaluateAll, Meaning.evaluate, named, ihRest,
      RenderNode.relayedAll_append, LoadedModule.renderContent, ihInside, Option.any_some]
    split_ifs <;> rfl
  | choiceElse named _ content _ _ ihInside ihOther ihRest =>
    rw [LoadedModule.renderAll, Meaning.evaluateAll, Meaning.evaluate, named, ihRest,
      RenderNode.relayedAll_append, LoadedModule.renderContent, ihInside, ihOther, Option.any_some,
      evaluateAlternative_content state content]
    split_ifs <;> rfl
  | comment _ ih => exact ih

end Generate

end Dashboard
