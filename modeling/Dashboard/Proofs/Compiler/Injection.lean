import Dashboard.Proofs.Markup.Documents

/-!
Injection of the standard imports. Preprocessing leaves the markup of a document as it is and puts the
imports before the statements of its script. A script region whose tag closes itself is the exception: the
imports are put behind the tag, where they are text.
-/
namespace Dashboard

open Dashboard.Markup (Document HasOpenScript SameMarkup ScriptRegion importing)
open Dashboard.Script (importNode)

/-- The statements of a script, if there is one. -/
def ownStatements : Option Script.Node → List Script.Node
  | some (.program _ body) => body
  | _ => []

/-- The script of a document is the imports of all displays and these statements, up to places. -/
def HasImported (processed : Document) (own : List Script.Node) : Prop :=
  ∃ position body, processed.scriptProgram? = .ok (some (.program position body)) ∧
    Script.Node.unplacedAll body =
      Registry.displayNames.map importNode ++ Script.Node.unplacedAll own

theorem Script.unplacedAll_append (front back : List Script.Node) :
    Node.unplacedAll (front ++ back) = Node.unplacedAll front ++ Node.unplacedAll back := by
  simp only [Node.unplacedAll_eq_map, List.map_append]

/-- A region that holds the imports and nothing behind them. -/
theorem hasImported_alone {processed : Document} {region : ScriptRegion}
    (met : processed.script = some region) (raw : region.raw.toList = importing) :
    HasImported processed [] := by
  obtain ⟨front, read, same⟩ := Script.parseScript_standardImports_alone region.origin raw
  refine ⟨region.origin, front, ?_, ?_⟩
  · rw [Document.scriptProgram?, met]
    dsimp only
    rw [ScriptRegion.program, read]
    rfl
  · rw [same, Script.Node.unplacedAll, List.append_nil]

/-- A region that holds the imports in front of what another one holds. -/
theorem hasImported_before {processed : Document} {old region : ScriptRegion} {program : Script.Node}
    (met : processed.script = some region) (raw : region.raw.toList = importing ++ old.raw.toList)
    (read : old.program = .ok program) : HasImported processed (ownStatements (some program)) := by
  have shape : region.raw.toList = '\n' :: (standardImports.toList ++ '\n' :: old.raw.toList) := by
    rw [raw, Markup.importing_append]
  obtain ⟨body, front, rest, rfl, parsed, same, agree⟩ :=
    @Script.parseScript_standardImports _ _ _ region.origin _ shape read
  refine ⟨region.origin, front ++ rest, ?_, ?_⟩
  · rw [Document.scriptProgram?, met]
    dsimp only
    rw [ScriptRegion.program, parsed]
    rfl
  · rw [Script.unplacedAll_append, same, ownStatements, agree.same]

/-- Unless the tag of its script region closes itself, a document is preprocessed into one with the same
markup, whose script is the imports of all displays and then the statements of its own. -/
theorem preprocess_isTransparent {source : String} {document : Document} {program : Option Script.Node}
    (parsed : Markup.parse source = .ok document) (read : document.scriptProgram? = .ok program)
    (isOpen : HasOpenScript source document) :
    ∃ text processed, preprocess source = .ok text ∧ Markup.parse text = .ok processed ∧
      SameMarkup processed.children document.children ∧
      HasImported processed (ownStatements program) := by
  obtain ⟨text, processed, region, prepared, again, same, met, raw⟩ :=
    Markup.exists_preprocessed parsed isOpen
  refine ⟨text, processed, prepared, again, same, ?_⟩
  obtain ⟨script, children⟩ := document
  cases script with
  | none =>
    cases read
    exact hasImported_alone met (raw.trans (List.append_nil _))
  | some old =>
    obtain ⟨own, ownRead, rfl⟩ := map_eq_ok.mp read
    exact hasImported_before met raw ownRead

/-- A script with a constant, and a chart that names it. -/
def titled : String := "<script>let chartTitle = 'Sales';</script><Chart title=\x7bchartTitle\x7d />"

theorem preprocess_isTransparent_titled : ∃ document program,
    Markup.parse titled = .ok document ∧ document.scriptProgram? = .ok program ∧
      HasOpenScript titled document ∧ ∃ text processed,
        preprocess titled = .ok text ∧ Markup.parse text = .ok processed ∧
        SameMarkup processed.children document.children ∧
        HasImported processed (ownStatements program) := by
  have parses : ((Markup.parse titled).toOption.bind fun document =>
      document.scriptProgram?.toOption.filter fun _ => HasOpenScript titled document).isSome = true := by
    have chars : titled.toList = _ := String.toList_ofList
    rw [Markup.parse_of_toList chars]
    decide +kernel
  obtain ⟨program, found⟩ := Option.isSome_iff_exists.mp parses
  obtain ⟨document, parsed, read⟩ := Option.bind_eq_some_iff.mp found
  obtain ⟨read, isOpen⟩ := Option.filter_eq_some_iff.mp read
  exact ⟨document, program, toOption_eq_some.mp parsed, toOption_eq_some.mp read,
    of_decide_eq_true isOpen, preprocess_isTransparent (toOption_eq_some.mp parsed)
      (toOption_eq_some.mp read) (of_decide_eq_true isOpen)⟩

/-- A script tag that closes itself, and a chart. -/
def selfClosing : String := "<script /><Chart />"

/-- Behind a script tag that closes itself the imports are text of the markup, and the script has none. -/
theorem preprocess_selfClosing : ∃ document program text processed,
    Markup.parse selfClosing = .ok document ∧ document.scriptProgram? = .ok program ∧
      preprocess selfClosing = .ok text ∧ Markup.parse text = .ok processed ∧
      processed.children.length = document.children.length + 1 ∧
      ¬ HasImported processed (ownStatements program) := by
  have shown : ((Markup.parse selfClosing).toOption.bind fun document =>
      document.scriptProgram?.toOption.bind fun program =>
        (preprocess selfClosing).toOption.bind fun text => (Markup.parse text).toOption.map
          fun processed => (processed.children.length, document.children.length,
            processed.script.map Markup.ScriptRegion.raw)) = some (2, 1, some "") := by
    have chars : selfClosing.toList = _ := String.toList_ofList
    rw [preprocess, Markup.parse_of_toList chars, chars]
    decide +kernel
  obtain ⟨document, parsed, shown⟩ := Option.bind_eq_some_iff.mp shown
  obtain ⟨program, read, shown⟩ := Option.bind_eq_some_iff.mp shown
  obtain ⟨text, prepared, shown⟩ := Option.bind_eq_some_iff.mp shown
  obtain ⟨processed, again, shown⟩ := Option.map_eq_some_iff.mp shown
  obtain ⟨two, one, empty⟩ : processed.children.length = 2 ∧ document.children.length = 1 ∧
      processed.script.map Markup.ScriptRegion.raw = some "" := by
    simpa only [Prod.mk.injEq] using shown
  refine ⟨document, program, text, processed, toOption_eq_some.mp parsed, toOption_eq_some.mp read,
    toOption_eq_some.mp prepared, toOption_eq_some.mp again, by omega, ?_⟩
  rintro ⟨position, body, script, imported⟩
  obtain ⟨region, met, raw⟩ := Option.map_eq_some_iff.mp empty
  rw [Document.scriptProgram?, met] at script
  dsimp only at script
  rw [Markup.ScriptRegion.program, raw, Script.parseScript_empty] at script
  cases script
  cases imported

end Dashboard
