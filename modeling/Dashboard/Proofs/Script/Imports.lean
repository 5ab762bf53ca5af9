import Dashboard.Proofs.Script.Texts

/-!
A script with the standard imports in front. Nothing of the script is read in another way behind them:
it is parsed as by itself or refused as by itself, and its statements stand further down.
-/
namespace Dashboard.Script

open Node (unplaced moved movedAll_eq_map unplacedAll_eq_map)

/-- Behind the imports and a line feed, a script is parsed exactly if it is parsed by itself. First
comes one import for each display, then the statements of the script, each node of them at its place
behind the imports. -/
theorem parseScript_imports (own : String) (origin : Position) :
    ((∃ program, parseScript (standardImports ++ "\n" ++ own) origin = .ok program) ↔
      ∃ program, parseScript own origin = .ok program) ∧
    ∀ program, parseScript own origin = .ok program →
      ∃ body front, program = .program origin body ∧
        front.map unplaced = Registry.displayNames.map importNode ∧
        parseScript (standardImports ++ "\n" ++ own) origin = .ok (.program origin (front ++
          body.map (moved (.shift origin (origin.behind (standardImports ++ "\n").toList))))) := by
  have shape : (standardImports ++ "\n" ++ own).toList =
      standardImports.toList ++ ['\n'] ++ own.toList := by
    rw [String.toList_append, String.toList_append]
    rfl
  have place : origin.behind (standardImports ++ "\n").toList =
      origin.advance (standardImports.toList ++ ['\n']) := by
    rw [String.toList_append, Position.advance_eq_behind]
    rfl
  obtain ⟨front, same, behind⟩ := parseScript_behind (cuts_standardImports own.toList) shape origin
  rw [place]
  refine ⟨⟨?_, ?_⟩, ?_⟩
  · rintro ⟨program, parsed⟩
    obtain ⟨body, -, further⟩ := (behind program).mp parsed
    exact ⟨_, (parseScript_moved further origin).1⟩
  · rintro ⟨program, parsed⟩
    obtain ⟨body, rfl⟩ := eq_program_of_parseScript parsed
    exact ⟨_, (behind _).mpr ⟨_, rfl, (parseScript_moved parsed _).1⟩⟩
  · intro program parsed
    obtain ⟨body, rfl⟩ := eq_program_of_parseScript parsed
    refine ⟨body, front, rfl, by rw [← unplacedAll_eq_map, same], ?_⟩
    rw [← movedAll_eq_map]
    exact (behind _).mpr ⟨_, rfl, (parseScript_moved parsed _).1⟩

/-- The name that ends the clause of an import begins a script of its own. -/
theorem parseScript_imports_from : ∃ body front,
    parseScript "from\n+ 1" ⟨4, 9, 30⟩ = .ok (.program ⟨4, 9, 30⟩ body) ∧
    body.map Node.kind = ["ExpressionStatement"] ∧
    front.map unplaced = Registry.displayNames.map importNode ∧
    parseScript (standardImports ++ "\n" ++ "from\n+ 1") ⟨4, 9, 30⟩ =
      .ok (.program ⟨4, 9, 30⟩ (front ++ body.map (moved
        (.shift ⟨4, 9, 30⟩ (Position.behind ⟨4, 9, 30⟩ (standardImports ++ "\n").toList))))) := by
  have shown : (parseScript "from\n+ 1" ⟨4, 9, 30⟩).toOption.map
      (fun program => program.children.map Node.kind) = some ["ExpressionStatement"] := by
    decide +kernel
  obtain ⟨program, parsed, kinds⟩ := Option.map_eq_some_iff.mp shown
  have parsed := toOption_eq_some.mp parsed
  obtain ⟨body, front, rfl, same, further⟩ := (parseScript_imports _ _).2 program parsed
  exact ⟨body, front, parsed, by simpa [Node.children, Node.view, Branch.many] using kinds, same,
    further⟩

end Dashboard.Script
