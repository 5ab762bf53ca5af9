import Dashboard.Proofs.Compiler.Stages
import Dashboard.Proofs.Generate.Elements
import Dashboard.Proofs.Script.Yielding

/-!
What is printed into a module. Whatever a document holds, also one that no gate has let pass and that
brings its own imports, its module consists of the lines of its instructions, each of which is read
back from its own line as it was written.
-/
namespace Dashboard

open Dashboard.Module (Instruction Line IsWord)

namespace Script.IsFormedWith

variable {stands : Position → String → Prop} {category : Category}

theorem of_imports {p : Position} {specifiers : List Node} {source : Node}
    (h : IsFormedWith stands category (.imports p specifiers source)) :
    ∀ s ∈ specifiers, IsFormedWith stands .specifier s := by
  generalize shape : Node.imports p specifiers source = node at h
  induction h with
  | imports _ _ _ each =>
    cases shape
    exact each
  | nameKey _ ih | item _ ih | declared _ ih | nested _ ih => exact ih shape
  | _ => cases shape

theorem of_program {p : Position} {body : List Node}
    (h : IsFormedWith stands category (.program p body)) :
    ∀ s ∈ body, IsFormedWith stands .statement s := by
  generalize shape : Node.program p body = node at h
  induction h with
  | program _ statements =>
    cases shape
    exact statements
  | nameKey _ ih | item _ ih | declared _ ih | nested _ ih => exact ih shape
  | _ => cases shape

theorem isWord {p : Position} {name : String} (h : IsFormed .name (.identifier p name)) :
    IsWord name := by
  cases h with
  | name _ spelled => exact spelled.isWord

end Script.IsFormedWith

namespace Generate

open Dashboard.Markup (Node Alternative outerAll)

/-! What a script binds. -/

namespace Bindings

/-- Everything that is bound can be printed: the names are words, and so are those of imports. -/
structure ArePrintable (b : Bindings) : Prop where
  constants : b.IsSound
  imports : ∀ entry ∈ b.imports, IsWord entry.1

variable {b b' : Bindings}

theorem arePrintable_empty : ArePrintable {} where
  constants := isSound_empty []
  imports := by simp

theorem arePrintable_addSpecifier {source : String} {specifier : Script.Node}
    (h : addSpecifier source b specifier = .ok b') (printable : b.ArePrintable)
    (formed : Script.IsFormed .specifier specifier) : b'.ArePrintable := by
  unfold addSpecifier at h
  split at h
  · next position place name =>
    obtain ⟨-, -, last⟩ := bind_eq_ok.mp h
    cases last
    have word : IsWord name := by
      cases formed with
      | defaultSpecifier _ formed => exact formed.isWord
    exact ⟨printable.constants, List.forall_mem_append.mpr
      ⟨printable.imports, List.forall_mem_singleton.mpr word⟩⟩
  · cases h

theorem arePrintable_addSpecifiers {source : String} {specifiers : List Script.Node}
    (h : specifiers.foldlM (addSpecifier source) b = .ok b') (printable : b.ArePrintable)
    (formed : ∀ s ∈ specifiers, Script.IsFormed .specifier s) : b'.ArePrintable :=
  foldlM_induction ArePrintable h printable fun s member _ _ added before =>
    arePrintable_addSpecifier added before (formed s member)

theorem arePrintable_addStatement {node : Script.Node} (h : addStatement b node = .ok b')
    (printable : b.ArePrintable) (plain : node.IsPlain maxNesting)
    (formed : Script.IsFormed .statement node) : b'.ArePrintable := by
  cases other : isImport node with
  | false =>
    obtain ⟨sound, same⟩ := addStatement_eq_ok h printable.constants plain other
    exact ⟨sound, same ▸ printable.imports⟩
  | true =>
    cases node with
    | imports p specifiers source =>
      have each := formed.of_imports
      cases source with
      | literal q value =>
        cases value with
        | str text => exact arePrintable_addSpecifiers h printable each
        | _ => cases h
      | _ => cases h
    | _ => cases other

theorem arePrintable_addStatements {body : List Script.Node}
    (h : body.foldlM addStatement b = .ok b') (printable : b.ArePrintable)
    (plain : ∀ node ∈ body, node.IsPlain maxNesting)
    (formed : ∀ node ∈ body, Script.IsFormed .statement node) : b'.ArePrintable :=
  foldlM_induction ArePrintable h printable fun node member _ _ added before =>
    arePrintable_addStatement added before (plain node member) (formed node member)

/-- What the script of a document binds can be printed. -/
theorem arePrintable_of_document {document : Markup.Document} {program : Option Script.Node}
    (read : document.scriptProgram? = .ok program)
    (bound : (match program with
      | some node => ofProgram node
      | none => .ok {}) = .ok b) : b.ArePrintable := by
  rw [Markup.Document.scriptProgram?] at read
  split at read
  · cases read
    cases bound
    exact arePrintable_empty
  · next region _ =>
    obtain ⟨node, parsed, rfl⟩ := map_eq_ok.mp read
    obtain ⟨body, rfl⟩ := Script.eq_program_of_parseScript parsed
    exact arePrintable_addStatements bound arePrintable_empty (Script.isPlain_of_parseScript parsed)
      (Script.isFormed_of_parseScript parsed).of_program

end Bindings

/-! What nodes add to a module. -/

/-- Instructions that build content. -/
def IsContent : Instruction → Prop
  | .title _ | .bind .. | .param .. | .constant .. => False
  | _ => True

/-- Elements declare their parameters in order, and what is added to the body builds content; all of
it can be read back. -/
structure Prints (b : Bindings) (elements : List (String × List Markup.Attribute)) (out : Output) :
    Prop where
  params : out.params = elements.filterMap (paramOf? b.constants)
  plainParams : ∀ i ∈ out.params, i.IsPlain
  body : ∀ line ∈ out.body, line.instruction.IsPlain ∧ IsContent line.instruction

namespace Prints

variable {b : Bindings} {first second : List (String × List Markup.Attribute)} {out more : Output}

theorem nil : Prints b [] {} := ⟨rfl, by simp, by simp⟩

theorem append (h : Prints b first out) (k : Prints b second more) :
    Prints b (first ++ second) (out.append more) where
  params := by rw [Output.append, h.params, k.params, List.filterMap_append]
  plainParams := List.forall_mem_append.mpr ⟨h.plainParams, k.plainParams⟩
  body := List.forall_mem_append.mpr ⟨h.body, k.body⟩

theorem emit (depth : Nat) {i : Instruction} (plain : i.IsPlain) (content : IsContent i) :
    Prints b [] (Generate.emit depth i) :=
  ⟨rfl, by simp [Generate.emit], List.forall_mem_singleton.mpr ⟨plain, content⟩⟩

/-- An element that is no input declares nothing. -/
theorem skip {e : String × List Markup.Attribute}
    (other : ∀ spec, Registry.lookup e.1 ≠ .input spec) (h : Prints b first out) :
    Prints b (e :: first) out := by
  refine ⟨?_, h.plainParams, h.body⟩
  have none : paramOf? b.constants e = none := by
    unfold paramOf?
    split
    · next spec found => exact absurd found (other spec)
    · rfl
    · rfl
  rw [List.filterMap_cons_none none, h.params]

end Prints

variable {b : Bindings}

theorem isWord_of_isImported (printable : b.ArePrintable) {name : String} (h : b.isImported name = true) : IsWord name := by
  obtain ⟨entry, member, same⟩ := List.any_eq_true.mp h
  obtain rfl : entry.1 = name := by simpa using same
  exact printable.imports entry member

/-- Whatever a display is mounted as, its props are those of its attributes, with a type or
without. -/
theorem displayBinding_eq (tag : String) (found : Dictionary Json) :
    ∃ binding implied, displayBinding tag found =
      (binding, Component.withImpliedType implied found) := by
  rw [displayBinding]
  split
  · next spec implied _ => exact ⟨spec.name, some implied, rfl⟩
  · exact ⟨tag, none, rfl⟩

theorem prints_of_mounts (printable : b.ArePrintable) {depth : Nat} {tag : String}
    {attributes : List Markup.Attribute} {children : List Node} {out : Output}
    (read : ∀ a ∈ attributes, a.IsSound)
    (inside : ∀ inner, nodes b (depth + 1) children = .ok inner → Prints b (outerAll children) inner)
    (mounts : Mounts b depth (displayBinding tag (Meaning.props b.constants attributes)) children out) :
    Prints b (outerAll children) out := by
  obtain ⟨binding, implied, shape⟩ := displayBinding_eq tag (Meaning.props b.constants attributes)
  rw [shape] at mounts
  obtain ⟨imported, built⟩ := mounts
  have plain : IsWord binding ∧ Json.IsStandard Json.maxNesting
      (.obj (Component.withImpliedType implied (Meaning.props b.constants attributes))) :=
    ⟨isWord_of_isImported printable imported, isStandard_props printable.constants read implied⟩
  rcases built with ⟨blank, rfl⟩ | ⟨-, inner, filled, rfl⟩
  · rw [outerAll_blank blank]
    exact .emit depth plain trivial
  · have opening : Prints b [] (Generate.emit depth (.openWidget binding
        (Component.withImpliedType implied (Meaning.props b.constants attributes)))) :=
      .emit depth plain trivial
    have closing : Prints b [] (Generate.emit depth .closeWidget) := .emit depth trivial trivial
    have whole := (opening.append (inside inner filled)).append closing
    rwa [List.nil_append, List.append_nil] at whole

theorem prints_of_element (printable : b.ArePrintable) {depth : Nat} {position : Position} {tag : String}
    {attributes : List Markup.Attribute} {children : List Node} {out : Output}
    (read : ∀ a ∈ attributes, a.IsSound)
    (inside : ∀ inner, nodes b (depth + 1) children = .ok inner → Prints b (outerAll children) inner)
    (h : node b depth (.element position tag attributes children) = .ok out) :
    Prints b (Node.outer (.element position tag attributes children)) out := by
  obtain ⟨-, -, ⟨spec, known, rfl⟩ | ⟨other, mounts⟩⟩ := element_eq_ok.mp h
  · have parameter : paramOf? b.constants (tag, attributes) =
        some (.param spec.name spec.generates (Meaning.props b.constants attributes)) := by
      rw [paramOf?, known]
    have plain : Instruction.IsPlain
        (.param spec.name spec.generates (Meaning.props b.constants attributes)) :=
      ⟨Registry.isWord_of_lookup_input known, isStandard_props printable.constants read none⟩
    rw [Node.outer, known]
    exact ⟨by rw [List.filterMap_cons_some parameter, List.filterMap_nil],
      List.forall_mem_singleton.mpr plain, by simp⟩
  · have below : Node.outer (.element position tag attributes children) =
        (tag, attributes) :: outerAll children := by
      rw [Node.outer]
      split
      · next spec known => exact absurd known (other spec)
      · rfl
    rw [below]
    exact Prints.skip other (prints_of_mounts printable read inside mounts)

mutual

theorem prints_of_node (printable : b.ArePrintable) (depth levels : Nat) (n : Node) (read : n.IsSound levels) (out : Output)
    (h : node b depth n = .ok out) : Prints b n.outer out := by
  match n with
  | .element position tag attributes children =>
    obtain ⟨here, below, -⟩ := read
    refine prints_of_element printable here (fun inner inside => ?_) h
    rcases below with rfl | ⟨deeper, rfl, read⟩
    · cases inside
      exact .nil
    · exact prints_of_nodes printable _ deeper children read inner inside
  | .text position data =>
    cases h
    rw [plainText]
    split_ifs
    · exact .nil
    · exact .emit depth trivial trivial
  | .mustache tag =>
    change reference depth tag = .ok out at h
    rw [reference] at h
    split at h
    · next name named =>
      cases h
      exact .emit depth (read.plain.reference name named) trivial
    · cases h
      exact .emit depth trivial trivial
    · cases h
  | .ifBlock position raw condition children alternative =>
    obtain ⟨inner, rfl, test, deeper, other⟩ := read
    obtain ⟨name, named, first, inside, second, alternate, rfl⟩ := ifBlock_eq_ok.mp h
    have opening : Prints b [] (Generate.emit depth (.whenInput name)) :=
      .emit depth (test.plain.reference name named) trivial
    have ending : Prints b [] (Generate.emit depth .endWhen) := .emit depth trivial trivial
    have whole := ((opening.append (prints_of_nodes printable _ _ children deeper first inside)).append
      (prints_of_alternative printable depth inner alternative other second alternate)).append ending
    rwa [List.nil_append, List.append_nil] at whole
  | .comment .. =>
    cases h
    exact .nil
  | .style .. => cases h

theorem prints_of_nodes (printable : b.ArePrintable) (depth levels : Nat) (all : List Node) (read : Markup.AreSound all levels)
    (out : Output) (h : nodes b depth all = .ok out) : Prints b (outerAll all) out := by
  match all with
  | [] =>
    cases h
    exact .nil
  | first :: more =>
    obtain ⟨here, front, rest⟩ := bind_eq_ok.mp h
    obtain ⟨later, back, last⟩ := bind_eq_ok.mp rest
    cases last
    exact (prints_of_node printable depth levels first read.1 here front).append
      (prints_of_nodes printable depth levels more read.2 later back)

theorem prints_of_alternative (printable : b.ArePrintable) (depth levels : Nat) (alternative : Alternative)
    (read : alternative.IsSound levels) (out : Output)
    (h : alternativeNodes b depth alternative = .ok out) : Prints b alternative.outer out := by
  have opening : Prints b [] (Generate.emit depth .otherwise) := .emit depth trivial trivial
  match alternative with
  | .absent =>
    cases h
    exact .nil
  | .otherwise _ children =>
    obtain ⟨inner, inside, last⟩ := bind_eq_ok.mp h
    cases last
    exact opening.append (prints_of_nodes printable _ levels children read inner inside)
  | .elseIf _ block =>
    obtain ⟨inner, inside, last⟩ := bind_eq_ok.mp h
    cases last
    exact opening.append (prints_of_node printable _ levels block read inner inside)

end

/-! The module. -/

/-- A line that holds an instruction, whose operator and operands are those that were written, and
which is read as the instruction with its values as they come out of their text. -/
structure IsReadBack (line : Line) : Prop where
  holds : Module.holdsInstruction (Text.trim line.text.toList) = true
  split : Module.splitSpace (Text.trim line.text.toList) =
    (line.instruction.parts.1.toList, line.instruction.parts.2)
  read : ∀ isBound number, Instruction.read isBound number (Text.trim line.text.toList) =
    line.instruction.relayed.allow isBound number

theorem isReadBack {line : Line} (plain : line.instruction.IsPlain) : IsReadBack line := by
  have trimmed := Module.trim_lineText plain
  refine ⟨?_, ?_, fun isBound number => ?_⟩
  · rw [trimmed, Instruction.holdsInstruction_line]
  · rw [trimmed, Instruction.splitSpace_line]
  · rw [trimmed, Instruction.read_line isBound number plain]

/-- The lines of a module are a comment, its name, its imports, the parameters of the inputs that no
other input holds, the constants, and content; each is read back as it was written, so the module
is loaded by running its own instructions. -/
theorem lines_of_generate {source filename : String} {g : GeneratedModule}
    (h : generate source filename = .ok g) : ∃ document program b out,
      Markup.parse source = .ok document ∧ document.scriptProgram? = .ok program ∧
      (match program with
        | some node => Bindings.ofProgram node
        | none => .ok {}) = .ok b ∧
      nodes b 0 document.children = .ok out ∧
      Text.lines g.code.toList = ("// dashc module" :: g.lines.map Line.text).map String.toList ∧
      g.lines.map Line.instruction =
        .title filename :: (b.imports.map fun entry => .bind entry.1 entry.2) ++
          (outerAll document.children).filterMap (paramOf? b.constants) ++
          (b.constants.map fun entry => .constant entry.1 entry.2) ++
          out.body.map Line.instruction ∧
      (∀ line ∈ out.body, IsContent line.instruction) ∧
      (∀ line ∈ g.lines, IsReadBack line) ∧
      ∀ s : Sandbox, s.load g.code =
        (Loader.run s.capabilities s.limits 2 {}
          (g.lines.map fun line => line.instruction.relayed)).bind Loader.finish := by
  obtain ⟨document, program, b, out, parsed, read, bound, built, rfl⟩ := generate_eq_ok.mp h
  have printable := Bindings.arePrintable_of_document read bound
  have prints := prints_of_nodes printable 0 maxNesting document.children
    (Markup.areSound_of_parse parsed) out built
  have plain : ∀ line ∈ lines filename b out, line.instruction.IsPlain :=
    List.forall_mem_map.mp (isPlain_instructions filename printable.imports printable.constants
      prints.plainParams fun line member => (prints.body line member).1)
  refine ⟨document, program, b, out, parsed, read, bound, built, Module.lines_text plain, ?_,
    fun line member => (prints.body line member).2, fun line member => isReadBack (plain line member),
    fun s => Sandbox.load_text s _ plain⟩
  show instructions filename b out = _
  rw [instructions_eq, declarations, prints.params]

/-- Line feeds in the name of the file and in a title stay within their lines. -/
theorem lines_of_generate_lineFeeds : ∃ g,
    generate "<script>import Chart from \"Chart\";</script><Chart title=\"a\nmount Chart\" />"
        "a\nparam" = .ok g ∧
      Text.lines g.code.toList = ["// dashc module", "module \"a\\nparam\"",
        "import Chart from \"Chart\"",
        "mount Chart \x7b\"title\":\"a\\nmount Chart\"\x7d"].map String.toList := by
  obtain ⟨g, made, texts⟩ := Option.map_eq_some_iff.mp (by decide +kernel :
    (generate "<script>import Chart from \"Chart\";</script><Chart title=\"a\nmount Chart\" />"
      "a\nparam").toOption.map (fun g => g.lines.map Line.text) =
        some ["module \"a\\nparam\"", "import Chart from \"Chart\"",
          "mount Chart \x7b\"title\":\"a\\nmount Chart\"\x7d"])
  have generated := toOption_eq_some.mp made
  obtain ⟨-, -, -, -, -, -, -, -, lines, -⟩ := lines_of_generate generated
  exact ⟨g, generated, by rw [lines, texts]⟩

end Generate

end Dashboard
