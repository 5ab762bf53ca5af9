import Dashboard.Proofs.Outcome
import Dashboard.Proofs.Sandbox.Running
import Dashboard.Proofs.Sandbox.Steps

/-!
What a run builds. Blocks that are opened and closed in pairs build the content they enclose; a run
succeeds exactly when its instructions and their nesting keep to the limits.
-/
namespace Dashboard

open Dashboard.Module (Instruction LoadError)

namespace Module

/-- The depth of open blocks behind an instruction. -/
def depthAfter (depth : Nat) : Instruction → Nat
  | .openWidget .. | .whenInput _ => depth + 1
  | .closeWidget | .endWhen => depth - 1
  | _ => depth

/-- The greatest depth of open blocks from here on. -/
def nestingFrom (depth : Nat) : List Instruction → Nat
  | [] => depth
  | first :: more => max depth (nestingFrom (depthAfter depth first) more)

/-- How deep the blocks of a module nest. -/
def nesting (is : List Instruction) : Nat := nestingFrom 0 is

theorem le_nestingFrom (depth : Nat) (is : List Instruction) : depth ≤ nestingFrom depth is := by
  cases is with
  | nil => exact le_refl _
  | cons first more => exact le_max_left _ _

/-- Instructions behind which the depth is what it was in front of them. -/
def IsLevel (is : List Instruction) : Prop := ∀ (depth : Nat) (more : List Instruction),
  nestingFrom depth (is ++ more) = max (nestingFrom depth is) (nestingFrom depth more)

theorem IsLevel.append {is js : List Instruction} (h : IsLevel is) (h' : IsLevel js) :
    IsLevel (is ++ js) := by
  intro depth more
  rw [List.append_assoc, h, h', h, max_assoc]

theorem isLevel_otherwise : IsLevel [.otherwise] := by
  intro depth more
  simp [nestingFrom, depthAfter, le_nestingFrom]

/-- Instructions and the content that they build on one level. -/
inductive Builds : List Instruction → List Content → Prop
  | nil : Builds [] []
  | mount {is cs} (binding : String) (props : Dictionary Json) (rest : Builds is cs) :
    Builds (.mount binding props :: is) (.mount binding props [] :: cs)
  | text {is cs} (data : String) (rest : Builds is cs) : Builds (.text data :: is) (.text data :: cs)
  | shown {is cs} (name : String) (rest : Builds is cs) :
    Builds (.shown name :: is) (.shown name :: cs)
  | widget {inner children is cs} (binding : String) (props : Dictionary Json)
    (inside : Builds inner children) (rest : Builds is cs) :
    Builds (.openWidget binding props :: (inner ++ .closeWidget :: is))
      (.mount binding props children :: cs)
  | choice {first consequent is cs} (name : String) (inside : Builds first consequent)
    (rest : Builds is cs) :
    Builds (.whenInput name :: (first ++ .endWhen :: is)) (.choice name consequent [] :: cs)
  | choiceElse {first consequent second alternate is cs} (name : String)
    (inside : Builds first consequent) (other : Builds second alternate) (rest : Builds is cs) :
    Builds (.whenInput name :: (first ++ .otherwise :: (second ++ .endWhen :: is)))
      (.choice name consequent alternate :: cs)

/-- Behind a complete stretch the depth is what it was. -/
theorem Builds.nestingFrom_append {is : List Instruction} {cs : List Content} (h : Builds is cs)
    (depth : Nat) (more : List Instruction) :
    nestingFrom depth (is ++ more) = max (nestingFrom depth is) (nestingFrom depth more) := by
  induction h generalizing depth more with
  | nil => simp [nestingFrom, le_nestingFrom]
  | mount | text | shown => simp_all [nestingFrom, depthAfter, max_assoc]
  | widget binding props inside rest ihInside ihRest =>
    simp [nestingFrom, depthAfter, ihInside, ihRest, max_assoc]
  | choice name inside rest ihInside ihRest =>
    simp [nestingFrom, depthAfter, ihInside, ihRest, max_assoc]
  | choiceElse name inside other rest ihInside ihOther ihRest =>
    simp [nestingFrom, depthAfter, ihInside, ihOther, ihRest, max_assoc]

end Module

open Dashboard.Module (Builds IsLevel nestingFrom depthAfter nesting le_nestingFrom isLevel_otherwise)

namespace Loader

variable {capabilities : Capabilities} {limits : SandboxLimits}

def pushAll (l : Loader) (contents : List Content) : Loader := contents.foldl push l

theorem push_counted (l : Loader) (n : Nat) (content : Content) :
    (l.counted n).push content = (l.push content).counted n := by
  unfold push
  simp only [counted_stack]
  split <;> rfl

theorem pushAll_counted (l : Loader) (n : Nat) (contents : List Content) :
    (l.counted n).pushAll contents = (l.pushAll contents).counted n := by
  induction contents generalizing l with
  | nil => rfl
  | cons first more ih => simp only [pushAll, List.foldl_cons, push_counted] at ih ⊢; exact ih _

theorem push_imports (l : Loader) (content : Content) :
    (l.push content).loaded.imports = l.loaded.imports := by
  unfold push
  split <;> rfl

theorem push_instructions (l : Loader) (content : Content) :
    (l.push content).instructions = l.instructions := by
  unfold push
  split <;> rfl

theorem push_stack_length (l : Loader) (content : Content) :
    (l.push content).stack.length = l.stack.length := by
  unfold push
  split
  · simp_all
  · simp_all

theorem pushAll_widget (l : Loader) (binding : String) (props : Dictionary Json)
    (done contents : List Content) (outer : List Frame) :
    pushAll { l with stack := .widget binding props done :: outer } contents =
      { l with stack := .widget binding props (done ++ contents) :: outer } := by
  induction contents generalizing done with
  | nil => simp [pushAll]
  | cons first more ih =>
    have step := ih (done ++ [first])
    rw [List.append_assoc] at step
    exact step

theorem pushAll_consequent (l : Loader) (name : String) (done contents : List Content)
    (outer : List Frame) :
    pushAll { l with stack := .choice name done none :: outer } contents =
      { l with stack := .choice name (done ++ contents) none :: outer } := by
  induction contents generalizing done with
  | nil => simp [pushAll]
  | cons first more ih =>
    have step := ih (done ++ [first])
    rw [List.append_assoc] at step
    exact step

theorem pushAll_alternate (l : Loader) (name : String) (consequent done contents : List Content)
    (outer : List Frame) :
    pushAll { l with stack := .choice name consequent (some done) :: outer } contents =
      { l with stack := .choice name consequent (some (done ++ contents)) :: outer } := by
  induction contents generalizing done with
  | nil => simp [pushAll]
  | cons first more ih =>
    have step := ih (done ++ [first])
    rw [List.append_assoc] at step
    exact step

theorem pushAll_body (l : Loader) (contents : List Content) (h : l.stack = []) :
    l.pushAll contents =
      { l with loaded := { l.loaded with body := l.loaded.body ++ contents } } := by
  induction contents generalizing l with
  | nil => simp [pushAll]
  | cons first more ih =>
    have step : l.push first =
        { l with loaded := { l.loaded with body := l.loaded.body ++ [first] } } := by
      unfold push
      rw [h]
    have later := ih (l.push first) (by rw [step]; exact h)
    rw [step, List.append_assoc] at later
    rw [pushAll, List.foldl_cons, step]
    exact later

/-- All widgets that the instructions name are imported, and all inputs have names. -/
def Knows (l : Loader) (is : List Instruction) : Prop :=
  ∀ i ∈ is, i.IsAllowed (Dictionary.contains l.loaded.imports)

theorem Knows.of_imports {l other : Loader} {is : List Instruction} (h : l.Knows is)
    (same : other.loaded.imports = l.loaded.imports) : other.Knows is := by
  unfold Knows
  rw [same]
  exact h

theorem knows_cons {l : Loader} {i : Instruction} {is : List Instruction} :
    l.Knows (i :: is) ↔ l.Knows [i] ∧ l.Knows is := by
  simp [Knows]

theorem knows_append {l : Loader} {is js : List Instruction} :
    l.Knows (is ++ js) ↔ l.Knows is ∧ l.Knows js := by
  simp [Knows, or_imp, forall_and]

/-- One instruction that is allowed and executed within the limit. -/
theorem run_step {number : Nat} {l next : Loader} {i : Instruction} (known : l.Knows [i])
    (room : l.instructions < limits.maxInstructions)
    (executed : execute capabilities limits number (l.counted 1) i = .ok next)
    (more : List Instruction) :
    run capabilities limits number l (i :: more) =
      run capabilities limits (number + 1) next more := by
  have allowed : i.allow (Dictionary.contains l.loaded.imports) number = .ok i :=
    Instruction.allow_eq_ok.mpr ⟨rfl, known i (by simp)⟩
  rw [run, if_neg (by omega), allowed]
  show (execute capabilities limits number (l.counted 1) i).bind _ = _
  rw [executed]
  rfl

section Runs

variable (capabilities limits)

/-- Within the limits, running the instructions adds the content. -/
def Runs (is : List Instruction) (cs : List Content) : Prop :=
  ∀ (number : Nat) (l : Loader) (more : List Instruction), l.Knows is →
    l.instructions + is.length ≤ limits.maxInstructions →
    nestingFrom l.stack.length is ≤ limits.maxDepth →
    run capabilities limits number l (is ++ more) =
      run capabilities limits (number + is.length) ((l.pushAll cs).counted is.length) more

/-- Within the limits, running the instructions turns the frame on top into another one. -/
def Fills (frame : Frame) (is : List Instruction) (filled : Frame) : Prop :=
  ∀ (number : Nat) (l : Loader) (more : List Instruction), l.Knows is →
    l.instructions + is.length ≤ limits.maxInstructions →
    nestingFrom (l.stack.length + 1) is ≤ limits.maxDepth →
    run capabilities limits number { l with stack := frame :: l.stack } (is ++ more) =
      run capabilities limits (number + is.length)
        (counted { l with stack := filled :: l.stack } is.length) more

end Runs

/-- What follows on the same level after some content has been added. -/
theorem Runs.after {is : List Instruction} {cs : List Content}
    (runs : Runs capabilities limits is cs) (number : Nat) (l : Loader) (content : Content)
    (count : Nat) (more : List Instruction) (known : l.Knows is)
    (room : l.instructions + count + is.length ≤ limits.maxInstructions)
    (shallow : nestingFrom l.stack.length is ≤ limits.maxDepth) :
    run capabilities limits number ((l.push content).counted count) (is ++ more) =
      run capabilities limits (number + is.length)
        ((l.pushAll (content :: cs)).counted (count + is.length)) more := by
  have same : ((l.push content).counted count).loaded.imports = l.loaded.imports :=
    push_imports l content
  rw [runs number _ more (known.of_imports same) (by simpa [push_instructions] using room)
    (by simpa [push_stack_length] using shallow), pushAll_counted, counted_counted]
  rfl

/-- A single instruction that adds content. -/
theorem Runs.push {i : Instruction} {content : Content} {is : List Instruction} {cs : List Content}
    (executed : ∀ number l, execute capabilities limits number l i = .ok (l.push content))
    (same : ∀ depth, depthAfter depth i = depth) (runs : Runs capabilities limits is cs) :
    Runs capabilities limits (i :: is) (content :: cs) := by
  intro number l more known room shallow
  obtain ⟨here, later⟩ := knows_cons.mp known
  rw [List.length_cons] at room
  rw [nestingFrom, same] at shallow
  have first : execute capabilities limits number (l.counted 1) i =
      .ok ((l.push content).counted 1) := by
    rw [executed, push_counted]
  rw [List.cons_append, run_step here (by omega) first, runs.after _ l content 1 more later
    (by omega) (le_trans (le_max_right _ _) shallow), List.length_cons]
  congr 1
  · omega
  · congr 1
    omega

/-- Instructions that fill the frame on top one after the other. -/
theorem Fills.append {frame middle filled : Frame} {is js : List Instruction} (level : IsLevel is)
    (first : Fills capabilities limits frame is middle)
    (second : Fills capabilities limits middle js filled) :
    Fills capabilities limits frame (is ++ js) filled := by
  intro number l more known room shallow
  obtain ⟨here, later⟩ := knows_append.mp known
  rw [List.length_append] at room
  rw [level, max_le_iff] at shallow
  rw [List.append_assoc, first number l _ here (by omega) shallow.1]
  refine (second (number + is.length) (l.counted is.length) more later
    (by rw [counted_instructions]; omega) shallow.2).trans ?_
  rw [List.length_append, Nat.add_assoc]
  simp only [counted, Nat.add_assoc]

/-- What adds content to the frame on top fills it. -/
theorem Runs.fills {frame filled : Frame} {is : List Instruction} {cs : List Content}
    (runs : Runs capabilities limits is cs)
    (adds : ∀ (l : Loader) (outer : List Frame),
      pushAll { l with stack := frame :: outer } cs = { l with stack := filled :: outer }) :
    Fills capabilities limits frame is filled := by
  intro number l more known room shallow
  rw [runs number { l with stack := frame :: l.stack } more known room shallow, adds]

/-- Between the branches the frame goes over from the first to the second. -/
theorem fills_otherwise (name : String) (consequent : List Content) :
    Fills capabilities limits (.choice name consequent none) [.otherwise]
      (.choice name consequent (some [])) := by
  intro number l more known room _
  exact run_step (l := { l with stack := .choice name consequent none :: l.stack }) known room rfl more

/-- A block that is entered, filled and closed adds one piece of content to what is around it. -/
theorem Runs.block {i close : Instruction} {frame filled : Frame} {content : Content}
    {inner is : List Instruction} {cs : List Content}
    (opens : ∀ number l, execute capabilities limits number l i = l.enter limits frame)
    (closes : ∀ number (l : Loader) (outer : List Frame), execute capabilities limits number
      { l with stack := filled :: outer } close = .ok (Loader.push { l with stack := outer } content))
    (deeper : ∀ depth, depthAfter depth i = depth + 1)
    (back : ∀ depth, depthAfter (depth + 1) close = depth) (level : IsLevel inner)
    (fills : Fills capabilities limits frame inner filled) (runs : Runs capabilities limits is cs) :
    Runs capabilities limits (i :: (inner ++ close :: is)) (content :: cs) := by
  intro number l more known room shallow
  obtain ⟨here, others⟩ := knows_cons.mp known
  obtain ⟨known, others⟩ := knows_append.mp others
  obtain ⟨last, later⟩ := knows_cons.mp others
  simp only [List.length_cons, List.length_append] at room
  simp only [nestingFrom, deeper, back, level _ _, max_le_iff] at shallow
  have entered : execute capabilities limits number (l.counted 1) i =
      .ok (counted { l with stack := frame :: l.stack } 1) := by
    rw [opens]
    exact enter_eq_ok.mpr ⟨le_trans (le_nestingFrom _ _) shallow.2.1, rfl⟩
  have closed : execute capabilities limits (number + 1 + inner.length)
      (counted { l with stack := filled :: l.stack } (1 + inner.length + 1)) close =
        .ok ((l.push content).counted (1 + inner.length + 1)) := by
    rw [← push_counted]
    exact closes _ (l.counted (1 + inner.length + 1)) l.stack
  have places : number + 1 + inner.length + 1 + is.length =
      number + (i :: (inner ++ close :: is)).length := by
    simp only [List.length_cons, List.length_append]
    omega
  have total : 1 + inner.length + 1 + is.length = (i :: (inner ++ close :: is)).length := by
    simp only [List.length_cons, List.length_append]
    omega
  calc run capabilities limits number l (i :: (inner ++ close :: is) ++ more)
      = run capabilities limits (number + 1) (counted { l with stack := frame :: l.stack } 1)
          (inner ++ close :: (is ++ more)) := by
        rw [List.cons_append, List.append_assoc, List.cons_append]
        exact run_step here (by omega) entered _
    _ = run capabilities limits (number + 1 + inner.length)
          (counted { l with stack := filled :: l.stack } (1 + inner.length))
          (close :: (is ++ more)) := by
        refine (fills (number + 1) (l.counted 1) _ known
          (by rw [counted_instructions]; omega) shallow.2.1).trans ?_
        simp only [counted, Nat.add_assoc]
    _ = run capabilities limits (number + 1 + inner.length + 1)
          ((l.push content).counted (1 + inner.length + 1)) (is ++ more) := by
        refine run_step (l := counted { l with stack := filled :: l.stack } (1 + inner.length)) last ?_
          closed _
        show l.instructions + (1 + inner.length) < _
        omega
    _ = run capabilities limits (number + 1 + inner.length + 1 + is.length)
          ((l.pushAll (content :: cs)).counted (1 + inner.length + 1 + is.length)) more :=
        runs.after _ l content _ more later (by omega) shallow.2.2.2
    _ = run capabilities limits (number + (i :: (inner ++ close :: is)).length)
          ((l.pushAll (content :: cs)).counted (i :: (inner ++ close :: is)).length) more := by
        rw [places, total]

/-- Running a complete stretch adds the content that it builds. -/
theorem runs_of_builds {is : List Instruction} {cs : List Content} (h : Builds is cs) :
    Runs capabilities limits is cs := by
  induction h with
  | nil => intro number l more _ _ _; rfl
  | mount binding props rest ih => exact Runs.push (fun _ _ => rfl) (fun _ => rfl) ih
  | text data rest ih => exact Runs.push (fun _ _ => rfl) (fun _ => rfl) ih
  | shown name rest ih => exact Runs.push (fun _ _ => rfl) (fun _ => rfl) ih
  | @widget inner children is cs binding props inside rest ihInside ihRest =>
    have fills : Fills capabilities limits (.widget binding props []) inner
        (.widget binding props children) :=
      ihInside.fills fun l outer => pushAll_widget l binding props [] children outer
    exact Runs.block (fun _ _ => rfl) (fun _ _ _ => rfl) (fun _ => rfl) (fun _ => rfl)
      inside.nestingFrom_append fills ihRest
  | @choice first consequent is cs name inside rest ihInside ihRest =>
    have fills : Fills capabilities limits (.choice name [] none) first
        (.choice name consequent none) :=
      ihInside.fills fun l outer => pushAll_consequent l name [] consequent outer
    exact Runs.block (fun _ _ => rfl) (fun _ _ _ => rfl) (fun _ => rfl) (fun _ => rfl)
      inside.nestingFrom_append fills ihRest
  | @choiceElse first consequent second alternate is cs name inside other rest ihInside ihOther
      ihRest =>
    have shape : Instruction.whenInput name :: (first ++ .otherwise :: (second ++ .endWhen :: is)) =
        .whenInput name :: ((first ++ ([.otherwise] ++ second)) ++ .endWhen :: is) := by simp
    have start : Fills capabilities limits (.choice name [] none) first
        (.choice name consequent none) :=
      ihInside.fills fun l outer => pushAll_consequent l name [] consequent outer
    have switched : Fills capabilities limits (.choice name consequent none)
        ([.otherwise] ++ second) (.choice name consequent (some alternate)) :=
      (fills_otherwise name consequent).append isLevel_otherwise
        (ihOther.fills fun l outer => pushAll_alternate l name consequent [] alternate outer)
    rw [shape]
    exact Runs.block (fun _ _ => rfl) (fun _ _ _ => rfl) (fun _ => rfl) (fun _ => rfl)
      (IsLevel.append inside.nestingFrom_append
        (isLevel_otherwise.append other.nestingFrom_append))
      (start.append inside.nestingFrom_append switched) ihRest

/-! What a successful run tells. -/

/-- An instruction moves the depth as `depthAfter` says, never beyond the limit, and leaves the
count alone. -/
theorem Executes.depth {l next : Loader} {i : Instruction}
    (h : Executes capabilities limits l i next) :
    next.stack.length = depthAfter l.stack.length i ∧
      (l.stack.length ≤ limits.maxDepth → next.stack.length ≤ limits.maxDepth) ∧
      next.instructions = l.instructions := by
  cases h with
  | title | bind | param | constant => exact ⟨rfl, id, rfl⟩
  | mount | text | shown =>
    exact ⟨push_stack_length _ _, (push_stack_length _ _).trans_le, push_instructions _ _⟩
  | openWidget _ _ room => exact ⟨rfl, fun _ => room, rfl⟩
  | whenInput _ room => exact ⟨rfl, fun _ => room, rfl⟩
  | closeWidget shape | endWhen shape =>
    refine ⟨(push_stack_length _ _).trans ?_, fun small => (push_stack_length _ _).trans_le ?_,
      push_instructions _ _⟩
    · simp [shape, depthAfter]
    · rw [shape] at small
      exact (Nat.le_succ _).trans small
  | otherwise shape =>
    exact ⟨by simp [shape, depthAfter], fun small => by simpa [shape] using small, rfl⟩

/-- The first step of a run that succeeds. -/
theorem run_cons_eq_ok {number : Nat} {l last : Loader} {i : Instruction} {more : List Instruction}
    (h : run capabilities limits number l (i :: more) = .ok last) :
    l.instructions + 1 ≤ limits.maxInstructions ∧ l.Knows [i] ∧
      ∃ next, Executes capabilities limits (l.counted 1) i next ∧
        run capabilities limits (number + 1) next more = .ok last := by
  rw [run] at h
  split_ifs at h with full
  obtain ⟨j, allowed, rest⟩ := bind_eq_ok.mp h
  obtain ⟨rfl, known⟩ := Instruction.allow_eq_ok.mp allowed
  obtain ⟨next, executed, later⟩ := bind_eq_ok.mp rest
  exact ⟨not_lt.mp full, by simpa [Knows] using known, next, execute_eq_ok.mp executed, later⟩

/-- A run that succeeds has kept to the limits. -/
theorem limits_of_run {is : List Instruction} {number : Nat} {l last : Loader}
    (h : run capabilities limits number l is = .ok last)
    (room : l.instructions ≤ limits.maxInstructions) (shallow : l.stack.length ≤ limits.maxDepth) :
    l.instructions + is.length ≤ limits.maxInstructions ∧
      nestingFrom l.stack.length is ≤ limits.maxDepth := by
  induction is generalizing number l with
  | nil => exact ⟨room, shallow⟩
  | cons i more ih =>
    obtain ⟨here, -, next, executed, rest⟩ := run_cons_eq_ok h
    obtain ⟨depth, kept, count⟩ := executed.depth
    obtain ⟨total, nested⟩ := ih rest (count.trans_le here) (kept shallow)
    rw [count, counted_instructions] at total
    rw [depth] at nested
    refine ⟨?_, max_le shallow nested⟩
    rw [List.length_cons]
    omega

/-! Declarations, which stand in front of the content. -/

/-- What a module declares before its content. -/
def declare (m : LoadedModule) : Instruction → LoadedModule
  | .title filename => { m with filename := filename }
  | .bind name source =>
    match Dictionary.find? Capabilities.standard source with
    | some widget => { m with imports := Dictionary.insert name widget m.imports }
    | none => m
  | .param component valueType props => { m with params := m.params ++ [⟨component, valueType, props⟩] }
  | .constant name value => { m with constants := Dictionary.insert name value m.constants }
  | _ => m

/-- A declaration of a widget of the sandbox, or of anything else than content. -/
def IsDeclaration : Instruction → Prop
  | .title _ | .param .. | .constant .. => True
  | .bind _ source => Dictionary.contains Capabilities.standard source = true
  | _ => False

theorem execute_declaration (number : Nat) (l : Loader) {i : Instruction} (h : IsDeclaration i) :
    execute .standard limits number l i = .ok { l with loaded := declare l.loaded i } := by
  cases i with
  | title | param | constant => rfl
  | bind name source =>
    obtain ⟨widget, found⟩ := Option.isSome_iff_exists.mp h
    simp only [execute, declare, found]
  | mount | openWidget | closeWidget | whenInput | otherwise | endWhen | text | shown =>
    exact h.elim

theorem isAllowed_of_isDeclaration {i : Instruction} (h : IsDeclaration i)
    (isBound : String → Bool) : i.IsAllowed isBound := by
  cases i with
  | title | bind | param | constant => exact ⟨by rintro _ ⟨⟩, by rintro _ ⟨⟩⟩
  | _ => exact h.elim

theorem run_declarations (is : List Instruction) (declared : ∀ i ∈ is, IsDeclaration i)
    (number : Nat) (l : Loader) (more : List Instruction)
    (room : l.instructions + is.length ≤ limits.maxInstructions) :
    run .standard limits number l (is ++ more) =
      run .standard limits (number + is.length)
        { l with loaded := is.foldl declare l.loaded, instructions := l.instructions + is.length }
        more := by
  induction is generalizing number l with
  | nil => rfl
  | cons i others ih =>
    have here : l.Knows [i] := by
      intro j member
      obtain rfl : j = i := by simpa using member
      exact isAllowed_of_isDeclaration (declared j (by simp)) _
    rw [List.length_cons] at room
    rw [List.cons_append, run_step here (by omega) (execute_declaration _ _ (declared i (by simp))),
      ih (fun j member => declared j (List.mem_cons_of_mem _ member)) _ _ (by
        show l.instructions + 1 + others.length ≤ _
        omega)]
    have places : number + 1 + others.length = number + (others.length + 1) := by omega
    have total : l.instructions + 1 + others.length = l.instructions + (others.length + 1) := by
      omega
    simp only [List.foldl_cons, List.length_cons, counted, places, total]

theorem declare_body (m : LoadedModule) (i : Instruction) : (declare m i).body = m.body := by
  unfold declare
  split
  · rfl
  · split <;> rfl
  · rfl
  · rfl
  · rfl

theorem foldl_declare_body (is : List Instruction) (m : LoadedModule) :
    (is.foldl declare m).body = m.body := by
  induction is generalizing m with
  | nil => rfl
  | cons i more ih => rw [List.foldl_cons, ih, declare_body]

theorem nestingFrom_declarations {is : List Instruction} (declared : ∀ i ∈ is, IsDeclaration i)
    (depth : Nat) (more : List Instruction) :
    nestingFrom depth (is ++ more) = nestingFrom depth more := by
  induction is with
  | nil => rfl
  | cons i others ih =>
    have here := declared i (by simp)
    have same : depthAfter depth i = depth := by
      cases i <;> first | rfl | exact here.elim
    rw [List.cons_append, nestingFrom, same, ih fun j member =>
      declared j (List.mem_cons_of_mem _ member)]
    exact max_eq_right (le_nestingFrom depth more)

/-- A module of declarations and content within the limits is loaded as what it declares, with the
content that it builds. -/
theorem run_module {head body : List Instruction} {cs : List Content}
    (declared : ∀ i ∈ head, IsDeclaration i) (builds : Builds body cs)
    (known : ∀ i ∈ body, i.IsAllowed (Dictionary.contains (head.foldl declare {}).imports))
    (room : head.length + body.length ≤ limits.maxInstructions)
    (shallow : nesting (head ++ body) ≤ limits.maxDepth) :
    (run .standard limits 2 {} (head ++ body)).bind finish =
      .ok { head.foldl declare {} with body := cs } := by
  rw [nesting, nestingFrom_declarations declared] at shallow
  have first := @run_declarations limits head declared 2 {} body (by
    show 0 + head.length ≤ _
    omega)
  have second := @runs_of_builds .standard limits _ _ builds (2 + head.length)
    { loaded := head.foldl declare {}, instructions := 0 + head.length } []
    known (by show 0 + head.length + body.length ≤ _; omega) shallow
  rw [List.append_nil] at second
  rw [first, second, pushAll_body _ _ rfl]
  show Except.ok _ = _
  have empty : (head.foldl declare {}).body = [] := foldl_declare_body head {}
  simp [counted, empty]

/-- A run that succeeds has refused no reference. -/
theorem references_of_run {is : List Instruction} {number : Nat} {l last : Loader}
    (h : run capabilities limits number l is = .ok last) :
    ∀ i ∈ is, ∀ name, i.reference? = some name → Placeholder.isIdentifier name.toList = true := by
  induction is generalizing number l with
  | nil => simp
  | cons i more ih =>
    obtain ⟨-, known, next, -, rest⟩ := run_cons_eq_ok h
    exact List.forall_mem_cons.mpr ⟨(known i (by simp)).reference, ih rest⟩

/-- A module that is loaded has kept to the limits. -/
theorem limits_of_load {is : List Instruction} {m : LoadedModule}
    (h : (run capabilities limits 2 {} is).bind finish = .ok m) :
    is.length ≤ limits.maxInstructions ∧ nesting is ≤ limits.maxDepth := by
  obtain ⟨last, ran, -⟩ := bind_eq_ok.mp h
  have kept := limits_of_run ran (Nat.zero_le _) (Nat.zero_le _)
  rw [show ({} : Loader).instructions = 0 from rfl, Nat.zero_add] at kept
  exact kept

end Loader

end Dashboard
