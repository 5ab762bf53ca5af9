import Dashboard.Proofs.Generate.Refusals

/-!
The elements of a document that a module shows. The parameters and the mounts of a module are those of
the elements outside of inputs, in document order.
-/
namespace Dashboard.Generate

open Dashboard.Component (withImpliedType)
open Dashboard.Markup (Node Attribute outerAll)
open Dashboard.Module (Instruction)

/-- The widget that an instruction mounts or opens, with its props. -/
def mounted? : Instruction → Option (String × Dictionary Json)
  | .mount binding props | .openWidget binding props => some (binding, props)
  | _ => none

/-- What an element is mounted as, if it is a display. -/
def mountOf? (constants : Dictionary Json) (e : String × List Attribute) :
    Option (String × Dictionary Json) :=
  match Registry.lookup e.1 with
  | .display spec implied => some (spec.name, withImpliedType implied (Meaning.props constants e.2))
  | .input _ | .unknown => none

/-- The parameter that an element declares, if it is an input. -/
def paramOf? (constants : Dictionary Json) (e : String × List Attribute) : Option Instruction :=
  match Registry.lookup e.1 with
  | .input spec => some (.param spec.name spec.generates (Meaning.props constants e.2))
  | .display .. | .unknown => none

variable {b : Bindings} {nodes : List Node} {ps is : List Instruction} {cs : List Content}

theorem Generates.mounted (h : Generates b nodes ps is cs) :
    is.filterMap mounted? = (outerAll nodes).filterMap (mountOf? b.constants) := by
  induction h with
  | nil => rfl
  | input found _ _ ih =>
    simp only [outerAll, Node.outer, found, List.cons_append, List.nil_append, List.filterMap_cons,
      mountOf?, ih]
  | mount found _ _ blank _ ih =>
    simp only [outerAll, Node.outer, found, outerAll_blank blank, List.cons_append, List.nil_append,
      List.filterMap_cons, mountOf?, mounted?, displayed, ih]
  | widget found _ _ _ _ _ ihInside ihRest =>
    simp only [outerAll, Node.outer, found, List.cons_append, List.filterMap_cons,
      List.filterMap_append, mountOf?, mounted?, displayed, ihInside, ihRest]
  | blank _ _ ih | comment _ ih => exact ih
  | text _ _ ih | shown _ _ ih | literal _ _ _ ih => exact ih
  | choice _ _ _ ihInside ihRest =>
    simp only [outerAll, Node.outer, Markup.Alternative.outer, List.append_nil, List.filterMap_cons,
      List.filterMap_append, mounted?, ihInside, ihRest]
  | choiceElse _ _ content _ _ ihInside ihOther ihRest =>
    simp only [outerAll, Node.outer, outer_content content, List.filterMap_cons,
      List.filterMap_append, mounted?, ihInside, ihOther, ihRest, List.append_assoc]

theorem Generates.params_eq (h : Generates b nodes ps is cs) :
    ps = (outerAll nodes).filterMap (paramOf? b.constants) := by
  induction h with
  | nil => rfl
  | input found _ _ ih =>
    simp only [outerAll, Node.outer, found, List.cons_append, List.nil_append, List.filterMap_cons,
      paramOf?, ← ih]
  | mount found _ _ blank _ ih =>
    simp only [outerAll, Node.outer, found, outerAll_blank blank, List.cons_append, List.nil_append,
      List.filterMap_cons, paramOf?, ← ih]
  | widget found _ _ _ _ _ ihInside ihRest =>
    simp only [outerAll, Node.outer, found, List.cons_append, List.filterMap_cons,
      List.filterMap_append, paramOf?, ← ihInside, ← ihRest]
  | blank _ _ ih | comment _ ih => exact ih
  | text _ _ ih | shown _ _ ih | literal _ _ _ ih => exact ih
  | choice _ _ _ ihInside ihRest =>
    simp only [outerAll, Node.outer, Markup.Alternative.outer, List.append_nil,
      List.filterMap_append, ← ihInside, ← ihRest]
  | choiceElse _ _ content _ _ ihInside ihOther ihRest =>
    simp only [outerAll, Node.outer, outer_content content, List.filterMap_append, ← ihInside,
      ← ihOther, ← ihRest]

/-- The mounts of a module are those of the displays outside of inputs. -/
theorem IsGenerated.mounted {document : Markup.Document} {out : Output}
    (h : IsGenerated document b out cs) (filename : String) :
    (instructions filename b out).filterMap mounted? =
      (outerAll document.children).filterMap (mountOf? b.constants) := by
  have declared : (declarations filename b out).filterMap mounted? = [] := by
    refine List.filterMap_eq_nil_iff.mpr fun i member => ?_
    have declares := h.isDeclaration filename i member
    cases i with
    | mount | openWidget => exact declares.elim
    | _ => rfl
  rw [instructions_eq, List.filterMap_append, declared, List.nil_append, h.generates.mounted]

end Dashboard.Generate
