import Dashboard.Proofs.Sandbox.Building
import Dashboard.Proofs.Sandbox.References

/-!
What the lines of a module say about loading it. A text loads within limits exactly when it loads
with room to spare and its lines keep to the limits, and both give the same module. A walk through
the loaded content meets the lines that bring content, each once and in their order.
-/
namespace Dashboard

open Dashboard.Module (Instruction LoadError)

namespace Module

/-- The operator of a line that holds an instruction. -/
def operator? (line : List Char) : Option String :=
  if holdsInstruction (Text.trim line) then some (String.ofList (splitSpace (Text.trim line)).1)
  else none

def opensBlock (line : List Char) : Bool := (operator? line).any ["open", "if"].contains

def closesBlock (line : List Char) : Bool := (operator? line).any ["close", "end"].contains

def bringsContent (line : List Char) : Bool :=
  (operator? line).any ["mount", "open", "if", "text", "expr"].contains

/-- The instruction as it stands in the content, where an opened block is a mount. -/
def Instruction.node? : Instruction → Option Instruction
  | .mount binding props | .openWidget binding props => some (.mount binding props)
  | .whenInput name => some (.whenInput name)
  | .text data => some (.text data)
  | .shown name => some (.shown name)
  | .title _ | .bind _ _ | .param _ _ _ | .constant _ _ | .closeWidget | .otherwise | .endWhen =>
    none

def node? (line : List Char) : Option Instruction :=
  (instruction? (Text.trim line)).bind Instruction.node?

theorem operator?_of_read {isBound : String → Bool} {number : Nat} {line : List Char}
    {i : Instruction} (holds : holdsInstruction (Text.trim line) = true)
    (h : Instruction.read isBound number (Text.trim line) = .ok i) :
    operator? line = some i.parts.1 := by
  rw [operator?, if_pos holds, Instruction.operator_of_read h]

theorem node?_of_read {isBound : String → Bool} {number : Nat} {line : List Char}
    {i : Instruction} (holds : holdsInstruction (Text.trim line) = true)
    (h : Instruction.read isBound number (Text.trim line) = .ok i) : node? line = i.node? := by
  rw [node?, instruction?, if_pos holds, Instruction.read_any h 0]
  rfl

end Module

mutual

/-- The instructions of a piece of content in pre-order, each before what it encloses and a
consequent before its alternate. -/
def Content.listing : Content → List Instruction
  | .mount binding props children => .mount binding props :: listingAll children
  | .choice name consequent alternate =>
    .whenInput name :: (listingAll consequent ++ listingAll alternate)
  | .text data => [.text data]
  | .shown name => [.shown name]

def listingAll : List Content → List Instruction
  | [] => []
  | first :: more => first.listing ++ listingAll more

end

theorem listingAll_append (front back : List Content) :
    listingAll (front ++ back) = listingAll front ++ listingAll back := by
  induction front with
  | nil => rfl
  | cons first more ih => rw [List.cons_append, listingAll, listingAll, ih, List.append_assoc]

theorem listingAll_singleton (content : Content) : listingAll [content] = content.listing :=
  List.append_nil _

namespace Frame

def listing : Frame → List Instruction
  | .widget binding props children => .mount binding props :: listingAll children
  | .choice name consequent alternate =>
    .whenInput name :: (listingAll consequent ++ listingAll (alternate.getD []))

theorem listing_add (content : Content) (frame : Frame) :
    (frame.add content).listing = frame.listing ++ content.listing := by
  cases frame with
  | widget binding props children =>
    simp [add, listing, listingAll_append, listingAll_singleton]
  | choice name consequent alternate =>
    cases alternate <;> simp [add, listing, listingAll_append, listingAll]

end Frame

namespace Loader

/-- The instructions in everything that a loader has built so far, the open blocks from the outside
to the inside. -/
def listing (l : Loader) : List Instruction :=
  listingAll l.loaded.body ++ l.stack.reverse.flatMap Frame.listing

variable {capabilities : Capabilities} {limits : SandboxLimits} {number : Nat} {l next : Loader}

/-! What the content lists. -/

theorem listing_push (l : Loader) (content : Content) :
    (l.push content).listing = l.listing ++ content.listing := by
  unfold push
  split
  · next shape => simp [listing, shape, listingAll_append, listingAll_singleton]
  · next frame outer shape => simp [listing, shape, Frame.listing_add]

theorem listing_open (l : Loader) (frame : Frame) :
    listing { l with stack := frame :: l.stack } = l.listing ++ frame.listing := by
  simp [listing]

/-- A block that closes lists what its frame did. -/
theorem listing_close {frame : Frame} {outer : List Frame} (shape : l.stack = frame :: outer)
    {content : Content} (same : content.listing = frame.listing) :
    (push { l with stack := outer } content).listing = l.listing := by
  rw [listing_push, same]
  simp [listing, shape]

/-- One instruction adds itself to the content and takes nothing away. -/
theorem Executes.listing {i : Instruction} (h : Executes capabilities limits l i next) :
    next.listing = l.listing ++ i.node?.toList := by
  cases h with
  | title | bind | param | constant => exact (List.append_nil _).symm
  | mount binding props => exact listing_push l (.mount binding props [])
  | text data => exact listing_push l (.text data)
  | shown name => exact listing_push l (.shown name)
  | openWidget | whenInput => exact listing_open l _
  | closeWidget shape | endWhen shape => exact (listing_close shape rfl).trans (List.append_nil _).symm
  | otherwise shape => simp [Loader.listing, shape, Frame.listing, Instruction.node?]

theorem listing_line {text : List Char}
    (h : line capabilities limits number l (Text.trim text) = .ok next) :
    next.listing.map some =
      l.listing.map some ++ ([text].filter Module.bringsContent).map Module.node? := by
  rcases line_eq_ok.mp h with ⟨blank, rfl⟩ | ⟨holds, -, i, read, executed⟩
  · have passed : Module.bringsContent text = false := by
      rw [Module.bringsContent, Module.operator?, blank]
      rfl
    rw [List.filter_singleton, passed]
    exact (List.append_nil _).symm
  · have listed : next.listing = l.listing ++ i.node?.toList := executed.listing
    have brings : Module.bringsContent text = i.node?.isSome := by
      rw [Module.bringsContent, Module.operator?_of_read holds read]
      cases i <;> rfl
    have same := Module.node?_of_read holds read
    rw [listed, List.filter_singleton, brings, List.map_append]
    cases node : i.node? with
    | none => rfl
    | some shown =>
      rw [node] at same
      exact congrArg (l.listing.map some ++ [·]) same.symm

/-- However far a text is loaded, what is built so far lists the lines so far that bring content. -/
theorem listing_lines {texts : List (List Char)} {last : Loader}
    (h : lines capabilities limits number l texts = .ok last) :
    last.listing.map some =
      l.listing.map some ++ (texts.filter Module.bringsContent).map Module.node? := by
  induction texts generalizing l number with
  | nil =>
    obtain rfl := Except.ok.inj h
    exact (List.append_nil _).symm
  | cons first more ih =>
    obtain ⟨next, here, later⟩ := bind_eq_ok.mp h
    have split : (first :: more).filter Module.bringsContent =
        [first].filter Module.bringsContent ++ more.filter Module.bringsContent :=
      List.filter_append [first] more
    rw [ih later, listing_line here, split, List.map_append, List.append_assoc]

/-! What the limits decide. -/

/-- Opened and closed blocks balance what is on the stack. -/
theorem Executes.blocks {i : Instruction} (h : Executes capabilities limits l i next) :
    next.stack.length + (if i.parts.1 ∈ ["close", "end"] then 1 else 0) =
      l.stack.length + (if i.parts.1 ∈ ["open", "if"] then 1 else 0) := by
  obtain ⟨depth, -, -⟩ := h.depth
  cases h with
  | closeWidget shape | endWhen shape =>
    rw [depth, shape]
    rfl
  | _ => rw [depth]; rfl

theorem counts_of_line {text : List Char}
    (h : line capabilities limits number l (Text.trim text) = .ok next) :
    next.instructions = l.instructions + (if Module.holdsInstruction (Text.trim text) then 1 else 0) ∧
      next.stack.length + (if Module.closesBlock text then 1 else 0) =
        l.stack.length + (if Module.opensBlock text then 1 else 0) := by
  rcases line_eq_ok.mp h with ⟨blank, rfl⟩ | ⟨holds, -, i, read, executed⟩
  · simp [Module.closesBlock, Module.opensBlock, Module.operator?, blank]
  · obtain ⟨-, -, count⟩ := executed.depth
    have blocks := executed.blocks
    have operator := Module.operator?_of_read holds read
    refine ⟨?_, ?_⟩
    · rw [count, holds]
      rfl
    · simpa [Module.closesBlock, Module.opensBlock, operator] using blocks

/-- Only the depth of the blocks can tell two limits apart. -/
theorem executes_iff {wide : SandboxLimits} (room : l.stack.length < wide.maxDepth)
    (shallow : l.stack.length ≤ limits.maxDepth) {i : Instruction} :
    Executes capabilities limits l i next ↔
      Executes capabilities wide l i next ∧ next.stack.length ≤ limits.maxDepth := by
  constructor
  · intro h
    refine ⟨?_, h.depth.2.1 shallow⟩
    cases h with
    | openWidget binding props => exact .openWidget binding props room
    | whenInput name => exact .whenInput name room
    | _ => constructor <;> assumption
  · rintro ⟨h, below⟩
    cases h with
    | openWidget binding props => exact .openWidget binding props below
    | whenInput name => exact .whenInput name below
    | _ => constructor <;> assumption

theorem line_eq_ok_iff (wide : SandboxLimits) (many : l.instructions < wide.maxInstructions)
    (room : l.stack.length < wide.maxDepth) (few : l.instructions ≤ limits.maxInstructions)
    (shallow : l.stack.length ≤ limits.maxDepth) {text : List Char} :
    line capabilities limits number l text = .ok next ↔
      line capabilities wide number l text = .ok next ∧
        next.instructions ≤ limits.maxInstructions ∧ next.stack.length ≤ limits.maxDepth := by
  rw [line_eq_ok, line_eq_ok]
  constructor
  · rintro (⟨blank, rfl⟩ | ⟨holds, below, i, read, executed⟩)
    · exact ⟨.inl ⟨blank, rfl⟩, few, shallow⟩
    · obtain ⟨-, -, count⟩ := executed.depth
      obtain ⟨also, inside⟩ := (executes_iff (l := l.counted 1) room shallow).mp executed
      exact ⟨.inr ⟨holds, many, i, read, also⟩, count.trans_le below, inside⟩
  · rintro ⟨⟨blank, rfl⟩ | ⟨holds, -, i, read, executed⟩, below, inside⟩
    · exact .inl ⟨blank, rfl⟩
    · obtain ⟨-, -, count⟩ := executed.depth
      rw [count] at below
      exact .inr ⟨holds, below, i, read,
        (executes_iff (l := l.counted 1) room shallow).mpr ⟨executed, inside⟩⟩

/-- The lines load within limits exactly when they load with room to spare, and neither their number
nor the depth behind any of them exceeds the limits. -/
theorem lines_eq_ok_iff {wide : SandboxLimits} {texts : List (List Char)} {last : Loader}
    (many : l.instructions + texts.length < wide.maxInstructions)
    (room : l.stack.length + texts.length < wide.maxDepth)
    (few : l.instructions ≤ limits.maxInstructions) (shallow : l.stack.length ≤ limits.maxDepth) :
    lines capabilities limits number l texts = .ok last ↔
      lines capabilities wide number l texts = .ok last ∧
        l.instructions + texts.countP (fun text => Module.holdsInstruction (Text.trim text)) ≤
          limits.maxInstructions ∧
        ∀ k, l.stack.length + (texts.take k).countP Module.opensBlock ≤
          (texts.take k).countP Module.closesBlock + limits.maxDepth := by
  induction texts generalizing l number with
  | nil => simp [lines, few, shallow]
  | cons first more ih =>
    rw [List.length_cons] at many room
    have step {next : Loader} (here : line capabilities wide number l (Text.trim first) = .ok next)
        (few : next.instructions ≤ limits.maxInstructions)
        (shallow : next.stack.length ≤ limits.maxDepth) :=
      @ih (number + 1) next
        (by have := (counts_of_line here).1; split_ifs at this <;> omega)
        (by have := (counts_of_line here).2; split_ifs at this <;> omega) few shallow
    rw [lines, lines, bind_eq_ok, bind_eq_ok]
    constructor
    · rintro ⟨next, here, later⟩
      obtain ⟨here, few, shallow⟩ :=
        (line_eq_ok_iff wide (by omega) (by omega) few shallow).mp here
      obtain ⟨later, total, depths⟩ := (step here few shallow).mp later
      obtain ⟨count, blocks⟩ := counts_of_line here
      refine ⟨⟨next, here, later⟩, ?_, fun k => ?_⟩
      · rw [List.countP_cons]
        omega
      · cases k with
        | zero => simpa
        | succ k =>
          have behind := depths k
          rw [List.take_succ_cons, List.countP_cons, List.countP_cons]
          omega
    · rintro ⟨⟨next, here, later⟩, total, depths⟩
      obtain ⟨count, blocks⟩ := counts_of_line here
      rw [List.countP_cons] at total
      have behind (k : Nat) : next.stack.length + (more.take k).countP Module.opensBlock ≤
          (more.take k).countP Module.closesBlock + limits.maxDepth := by
        have next := depths (k + 1)
        rw [List.take_succ_cons, List.countP_cons, List.countP_cons] at next
        omega
      have fewer : next.instructions ≤ limits.maxInstructions := by omega
      have inside : next.stack.length ≤ limits.maxDepth := by simpa using behind 0
      have narrow := (line_eq_ok_iff wide (by omega) (by omega) few shallow).mpr
        ⟨here, fewer, inside⟩
      exact ⟨next, narrow, (step here fewer inside).mpr ⟨later, by omega, behind⟩⟩

end Loader

/-- Loading is exact about its limits and loses nothing. With `wide` beyond what the lines can reach,
a module loads within `limits` exactly when it loads within `wide`, as the same module, and no more
than that many lines hold instructions and no more than that many blocks are open behind any line;
and what is loaded lists the lines that mount, open, choose, write or show, in their order. -/
theorem Sandbox.load_exact {capabilities : Capabilities} {limits wide : SandboxLimits} {code : String}
    (many : (Text.lines code.toList).length < wide.maxInstructions)
    (deep : (Text.lines code.toList).length < wide.maxDepth) (m : LoadedModule) :
    (load ⟨capabilities, limits⟩ code = .ok m ↔
      load ⟨capabilities, wide⟩ code = .ok m ∧
        (Text.lines code.toList).countP (fun line => Module.holdsInstruction (Text.trim line)) ≤
          limits.maxInstructions ∧
        ∀ k, ((Text.lines code.toList).take k).countP Module.opensBlock ≤
          ((Text.lines code.toList).take k).countP Module.closesBlock + limits.maxDepth) ∧
      (load ⟨capabilities, limits⟩ code = .ok m →
        (listingAll m.body).map some =
          ((Text.lines code.toList).filter Module.bringsContent).map Module.node?) := by
  have within (last : Loader) := @Loader.lines_eq_ok_iff capabilities limits 1 {} wide
    (Text.lines code.toList) last (by simpa using many) (by simpa using deep) (Nat.zero_le _)
    (Nat.zero_le _)
  simp only [List.length_nil, Nat.zero_add] at within
  constructor
  · rw [load, load, bind_eq_ok, bind_eq_ok]
    constructor
    · rintro ⟨last, read, finished⟩
      obtain ⟨also, few, shallow⟩ := (within last).mp read
      exact ⟨⟨last, also, finished⟩, few, shallow⟩
    · rintro ⟨⟨last, read, finished⟩, few, shallow⟩
      exact ⟨last, (within last).mpr ⟨read, few, shallow⟩, finished⟩
  · intro h
    obtain ⟨last, read, finished⟩ := bind_eq_ok.mp h
    rw [Loader.finish] at finished
    split_ifs at finished with closed
    obtain rfl := Except.ok.inj finished
    have listed := Loader.listing_lines read
    simpa [Loader.listing, List.isEmpty_iff.mp closed, listingAll] using listed

/-- Four instructions and one block are just within the limits here. -/
theorem Sandbox.load_exact_badge :
    (Text.lines badge.toList).length < 5 ∧
      ∃ m, load ⟨.ofWidgets [⟨"Badge", false⟩], ⟨4, 1⟩⟩ badge = .ok m ∧
        (load ⟨.ofWidgets [⟨"Badge", false⟩], ⟨4, 1⟩⟩ badge = .ok m ↔
          load ⟨.ofWidgets [⟨"Badge", false⟩], ⟨5, 5⟩⟩ badge = .ok m ∧
            (Text.lines badge.toList).countP (fun line => Module.holdsInstruction (Text.trim line)) ≤
              4 ∧
            ∀ k, ((Text.lines badge.toList).take k).countP Module.opensBlock ≤
              ((Text.lines badge.toList).take k).countP Module.closesBlock + 1) ∧
        (listingAll m.body).map some =
          ((Text.lines badge.toList).filter Module.bringsContent).map Module.node? := by
  have code : badge.toList = _ :=
    String.toList_append.trans (congrArg₂ (· ++ ·) String.toList_ofList String.toList_ofList)
  have few : (Text.lines badge.toList).length < 5 := by
    rw [code]
    decide
  have loads :
      (load ⟨.ofWidgets [⟨"Badge", false⟩], ⟨4, 1⟩⟩ badge).toOption.isSome = true := by
    rw [load, code]
    decide +kernel
  obtain ⟨m, found⟩ := Option.isSome_iff_exists.mp loads
  have loaded := toOption_eq_some.mp found
  obtain ⟨within, listed⟩ :=
    @load_exact (.ofWidgets [⟨"Badge", false⟩]) ⟨4, 1⟩ ⟨5, 5⟩ badge few few m
  exact ⟨few, m, loaded, within, listed loaded⟩

end Dashboard
