import Dashboard.Query

/-!
Data sources: rows by name, fetched from the queries of a document and cached until invalidated.
Requests for one key share a fetch while it is under way. A fetch makes its calls one after the
other and waits for each to be answered; only a request that waits for it moves it on.
-/
namespace Dashboard

/-- What answers calls: query files by document, result sets by query. -/
structure Backend where
  queryFile : String → Option String
  resultSet : String → Option ResultSet
  /-- Whether calls are answered as they are made. -/
  isImmediate : Bool

namespace DataSource

def labelled (rows : List (String × Int)) : Rows :=
  rows.map fun row => .obj [("name", .str row.1), ("value", .int row.2)]

/-- The rows that every document can use. -/
def samples : Dictionary Rows :=
  [("growthData", labelled [("Q1", 150), ("Q2", 280), ("Q3", 220), ("Q4", 320)]),
    ("marketData", labelled [("Desktop", 1048), ("Mobile", 735), ("Tablet", 580), ("Other", 484)]),
    ("productData", labelled [("Product A", 120), ("Product B", 200), ("Product C", 150),
      ("Product D", 80), ("Product E", 90)]),
    ("regionData", labelled [("North America", 450), ("Europe", 380), ("Asia Pacific", 290),
      ("Latin America", 120)]),
    ("salesData", labelled [("Jan", 820), ("Feb", 932), ("Mar", 901), ("Apr", 934), ("May", 1200),
      ("Jun", 1100)])]

inductive CallKind where
  | load | execute
  deriving DecidableEq, Repr

/-- A call to the backend, and whether it has been answered. -/
structure Call where
  kind : CallKind
  subject : String
  isAnswered : Bool
  deriving DecidableEq, Repr

inductive Stage where
  | idle
  | loading (call : Nat)
  | executing (call : Nat)
  | finished (rows : Rows)
  deriving Repr

structure Fetch where
  source : String
  document : Option String
  stage : Stage
  deriving Repr

/-- A request that waits for a fetch. -/
structure Request where
  number : Nat
  key : String
  fetch : Nat
  deriving DecidableEq, Repr

/-- Fetches, calls and requests are numbered in the order in which they begin. -/
structure Cache where
  cached : Dictionary Rows := []
  pending : Dictionary Nat := []
  fetches : List Fetch := []
  calls : List Call := []
  waiting : List Request := []
  requests : Nat := 0
  deriving Repr

inductive Event where
  | get (source : String) (document : Option String)
  | settle (call : Nat)
  | drop (request : Nat)
  | invalidate (document : Option String)
  deriving DecidableEq, Repr

/-- The key of a source, under its document if it has one. -/
def cacheKey (source : String) : Option String → String
  | some document => document ++ ":" ++ source
  | none => source

/-- Whether a key belongs to a document; every key belongs to all documents. -/
def covers (document : Option String) (key : String) : Bool :=
  match document with
  | none => true
  | some d => (d ++ ":").toList.isPrefixOf key.toList

namespace Cache

section Backend

variable (backend : Backend)

def startCall (c : Cache) (kind : CallKind) (subject : String) : Cache × Nat :=
  ({ c with calls := c.calls ++ [⟨kind, subject, backend.isImmediate⟩] }, c.calls.length)

def isAnswered (c : Cache) (call : Nat) : Bool :=
  c.calls[call]?.any Call.isAnswered

/-- A source outside all documents has no rows. -/
def begin (c : Cache) (document : Option String) : Cache × Stage :=
  match document with
  | none => (c, .finished [])
  | some d =>
    let (c, call) := startCall backend c .load d
    (c, .loading call)

/-- The query file is there: a source without a query has no rows. -/
def afterLoad (c : Cache) (source : String) (document : Option String) : Cache × Stage :=
  match (document.bind backend.queryFile).bind fun text =>
      Dictionary.find? (Query.parseFile text) source with
  | none => (c, .finished [])
  | some query =>
    let (c, call) := startCall backend c .execute query
    (c, .executing call)

/-- The result is there: no rows where it is none or does not give rows. -/
def afterExecute (c : Cache) (call : Nat) : Rows :=
  match (c.calls[call]?.bind fun made => backend.resultSet made.subject).map ResultSet.rows with
  | some (.ok rows) => rows
  | _ => []

/-- One move of a fetch, if it is not waiting for an answer. -/
def moveStage (c : Cache) (fetch : Fetch) : Cache × Stage :=
  match fetch.stage with
  | .idle => begin backend c fetch.document
  | .loading call =>
    if c.isAnswered call then afterLoad backend c fetch.source fetch.document
    else (c, fetch.stage)
  | .executing call =>
    if c.isAnswered call then (c, .finished (afterExecute backend c call)) else (c, fetch.stage)
  | .finished _ => (c, fetch.stage)

def move (c : Cache) (id : Nat) : Cache :=
  match c.fetches[id]? with
  | none => c
  | some fetch =>
    let (c, stage) := moveStage backend c fetch
    { c with fetches := c.fetches.set id { fetch with stage := stage } }

/-- As far as a fetch can go: it has three moves at most. -/
def drive (c : Cache) (id : Nat) : Cache :=
  move backend (move backend (move backend c id) id) id

def rowsOf? (c : Cache) (id : Nat) : Option Rows :=
  match c.fetches[id]?.map Fetch.stage with
  | some (.finished rows) => some rows
  | _ => none

/-- The rows enter the cache only while their fetch is the pending one of its key. -/
def keep (c : Cache) (request : Request) (rows : Rows) : Cache :=
  if Dictionary.find? c.pending request.key = some request.fetch then
    { c with
      pending := Dictionary.erase c.pending request.key
      cached := Dictionary.insert request.key rows c.cached }
  else c

/-- A waiting request drives its fetch, and gets the rows if there are any. -/
def poll (c : Cache) (request : Request) : Cache × Option Rows :=
  let c := drive backend c request.fetch
  match c.rowsOf? request.fetch with
  | none => (c, none)
  | some rows =>
    let c := c.keep request rows
    ({ c with waiting := c.waiting.filter (· ≠ request) }, some rows)

/-- All waiting requests are polled, the oldest first. -/
def advance (c : Cache) : Cache × List (Nat × Rows) :=
  c.waiting.foldl (fun acc request =>
    match poll backend acc.1 request with
    | (c, none) => (c, acc.2)
    | (c, some rows) => (c, acc.2 ++ [(request.number, rows)])) (c, [])

end Backend

/-- Joins the pending fetch of the key, or begins one. -/
def join (c : Cache) (source : String) (document : Option String) : Cache × Nat :=
  let key := cacheKey source document
  match Dictionary.find? c.pending key with
  | some id => (c, id)
  | none =>
    let id := c.fetches.length
    ({ c with
      fetches := c.fetches ++ [⟨source, document, .idle⟩]
      pending := Dictionary.insert key id c.pending }, id)

/-- Static rows are given at once, and so are cached ones. -/
def get (statics : Dictionary Rows) (c : Cache) (source : String) (document : Option String) :
    Cache × Option Rows :=
  let number := c.requests
  let c := { c with requests := number + 1 }
  let key := cacheKey source document
  match Dictionary.find? statics source, Dictionary.find? c.cached key with
  | some rows, _ => (c, some rows)
  | none, some rows => (c, some rows)
  | none, none =>
    let (c, fetch) := c.join source document
    ({ c with waiting := c.waiting ++ [⟨number, key, fetch⟩] }, none)

def settle (c : Cache) (call : Nat) : Cache :=
  { c with calls := c.calls.modify call fun made => { made with isAnswered := true } }

def drop (c : Cache) (request : Nat) : Cache :=
  { c with waiting := c.waiting.filter fun waiting => waiting.number ≠ request }

/-- A fetch that is no longer pending goes on for the requests that wait for it. -/
def invalidate (c : Cache) (document : Option String) : Cache :=
  { c with
    cached := c.cached.filter fun entry => !covers document entry.1
    pending := c.pending.filter fun entry => !covers document entry.1 }

/-- What an event changes at once, and the request it answers. -/
def apply (statics : Dictionary Rows) (c : Cache) : Event → Cache × List (Nat × Rows)
  | .get source document =>
    match c.get statics source document with
    | (next, some rows) => (next, [(c.requests, rows)])
    | (next, none) => (next, [])
  | .settle call => (c.settle call, [])
  | .drop request => (c.drop request, [])
  | .invalidate document => (c.invalidate document, [])

/-- An event, and then all that can go on after it; the answered requests in order. -/
def step (backend : Backend) (statics : Dictionary Rows) (c : Cache) (event : Event) :
    Cache × List (Nat × Rows) :=
  let (c, first) := c.apply statics event
  let (c, more) := advance backend c
  (c, first ++ more)

end Cache

end DataSource

end Dashboard
