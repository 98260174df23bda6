/-
Questions answered by language servers.

A question about a document goes to the server of its language, which is first told
the text that the document has now. Nothing is asked twice: a fault is the answer.
-/
import SymbolQuery.Answer.Hierarchy
import SymbolQuery.Answer.Hover
import SymbolQuery.Answer.Locations
import SymbolQuery.Answer.Symbols
import SymbolQuery.Workspace.Basic

set_option autoImplicit false

namespace SymbolQuery.Workspace

/-! ## Documents -/

/-- Goes on only if there is still patience for something that takes time. -/
def takeTime : Call Unit := do
  let ws ← get
  match ws.giveUpAt with
  | some limit => if limit ≤ ws.clock then throw .abandoned
  | none => return

/-- The text of a file; the empty path leads to none. -/
def readPath (ws : Workspace) (path : String) : Except FileFault String :=
  if path.isEmpty then .error .notFound else ws.files.readText (Path.join ws.directory path)

/-- The text of the document of a uri. -/
def readDocument (uri : String) : Call String := do
  takeTime
  let ws ← get
  match ws.readPath (Uri.toPath uri) with
  | .ok text => return text
  | .error fault => throw (.fault (.io fault.message))

/-- The language of a path, if it has a known one. -/
def languageOf (path : String) : Call Language :=
  match Language.ofPath path with
  | .unknown => throw (.fault (.unsupportedLanguage ((Path.extension? path).getD "unknown")))
  | l => return l

/-- Does something with the connection of a client. -/
def withConnection {α : Type} (i : Nat) (f : Connection → α × Connection) : Call α := do
  let ws ← get
  match ws.connections[i]? with
  | none => throw (.fault .notConnected)
  | some k =>
    let (a, k) := f k
    set (ws.setConnection i k)
    return a

/-- Sees to it that the server of a client knows a text. -/
def syncDocument (i : Nat) (uri text : String) : Call Unit := do
  let result ← withConnection i fun k =>
    let (result, c) := k.client.sync uri text
    (result, { k with client := c }.exchange)
  match result with
  | .ok _ => return
  | .error fault => throw (.fault fault)

/-- Does something with a client whose server knows the current text of a document. A server that
went away in this round had been asked before, and the question was lost with it. -/
def withDocument {α : Type} (uri : String) (f : Nat → Call α) : Call α := do
  let l ← languageOf (Uri.toPath uri)
  let text ← readDocument uri
  let i ← acquire l
  let lost ← withConnection i fun k => (k.client.terminated, k)
  if lost then throw (.fault (.serverTerminated l))
  syncDocument i uri text
  f i

/-! ## Requests -/

/-- Ends the wait for an answer that is not going to come. -/
def giveUp {α : Type} (i id : Nat) (method : String) (since : Nat) : Call α := do
  let ws ← get
  let deadline := since + ws.requestLimit
  let stop : Stop × Nat ←
    match ws.giveUpAt with
    | some limit =>
      if limit < deadline then pure (Stop.abandoned, limit) else pure (late ws, deadline)
    | none => pure (late ws, deadline)
  set { ws with clock := max ws.clock stop.2 }
  withConnection i fun k => ((), k.cancel id)
  throw stop.1
where
  /-- The fault of an answer that is late. -/
  late (ws : Workspace) : Stop :=
    let language := (ws.connections[i]?.map fun k => k.client.language).getD .unknown
    .fault (Client.lateFault language method ws.requestLimit)

/-- Asks the server of a client, and reads what it answers. -/
def request {α : Type} (i : Nat) (method : String) (params : Json) (read : Json → Json.Decoded α) :
    Call α := do
  let since := (← get).clock
  match ← withConnection i fun k => k.ask method (some params) with
  | .silence id => giveUp i id method since
  | .come (.error fault) => throw (.fault fault)
  | .come (.ok v) =>
    match Client.decodeAs read v with
    | .ok a => return a
    | .error fault => throw (.fault fault)

/-- Goes on only if the server of a client has a capability that a method needs. -/
def need (i : Nat) (method : String) (pick : Answer.Capabilities → Option Json) : Call Unit := do
  let has ← withConnection i fun k => (k.client.supports pick, k)
  if has then return
  throw (.fault (.friendly ServerError.methodNotFound s!"Unhandled method {method}"))

/-! ## Answers -/

/-- The parameters of a request about a position. -/
def positionParams (uri : String) (p : Position) : List (String × Json) :=
  [("textDocument", Answer.DocumentPosition.documentJson uri), ("position", p.toJson)]

/-- The parameters of a query for places; references are wanted with the declaration. -/
def locationParams (query : LocationQuery) (uri : String) (p : Position) : Json :=
  .obj (positionParams uri p ++
    match query with
    | .references => [("context", .obj [("includeDeclaration", .bool true)])]
    | _ => [])

/-- The method that prepares a hierarchy. -/
def prepareMethod : HierarchyKind → String
  | .call => "textDocument/prepareCallHierarchy"
  | .type => "textDocument/prepareTypeHierarchy"

/-- The capability that a hierarchy needs. -/
def hierarchyCapability : HierarchyKind → Answer.Capabilities → Option Json
  | .call, c => c.callHierarchy
  | .type, c => c.typeHierarchy

/-- A list, for which a server may also answer null. -/
def listOrNull {α : Type} (read : Json → Json.Decoded α) (v : Json) : Json.Decoded (List α) :=
  (Json.asOption (Json.asList read) v).map fun found => found.getD []

/-- The method that asks for one side of a hierarchy, and the reader of its answer. -/
def sideOf : HierarchyKind → Direction → String × (Json → Json.Decoded (List Edge))
  | .call, .incoming =>
    ("callHierarchy/incomingCalls",
      listOrNull fun v => (Answer.Call.ofJson .incoming v).map Answer.Call.toEdge)
  | .call, .outgoing =>
    ("callHierarchy/outgoingCalls",
      listOrNull fun v => (Answer.Call.ofJson .outgoing v).map Answer.Call.toEdge)
  | .type, .incoming => ("typeHierarchy/supertypes", listOrNull bareEdge)
  | .type, .outgoing => ("typeHierarchy/subtypes", listOrNull bareEdge)
where
  /-- An edge to a type. -/
  bareEdge (v : Json) : Json.Decoded Edge :=
    (Answer.HierarchyEntry.ofJson v).map fun e => { counterpart := e.toItem }

/-- The answer to a question. -/
def answer : (q : Question) → Call q.Reply
  | .symbols uri => withDocument uri fun i => do
    let found ← request i "textDocument/documentSymbol"
      (.obj [("textDocument", Answer.DocumentPosition.documentJson uri)])
      (Json.asOption Answer.Symbols.ofJson)
    return (found.map Answer.Symbols.toForest).getD []
  | .document uri => readDocument uri
  | .locations query uri p => withDocument uri fun i => do
    let found ← request i query.method (locationParams query uri p)
      (Json.asOption Answer.Locations.ofJson)
    return (found.map Answer.Locations.toList).getD []
  | .hover uri p => withDocument uri fun i => do
    let found ← request i "textDocument/hover" (.obj (positionParams uri p))
      (Json.asOption Answer.Hover.ofJson)
    return found.bind Answer.Hover.toInfo?
  | .prepare kind uri p => withDocument uri fun i => do
    need i (prepareMethod kind) (hierarchyCapability kind)
    let found ← request i (prepareMethod kind) (.obj (positionParams uri p))
      (listOrNull Answer.HierarchyEntry.ofJson)
    return found.map Answer.HierarchyEntry.toItem
  | .neighbours kind direction item => withDocument item.uri fun i =>
    let (method, read) := sideOf kind direction
    request i method (.obj [("item", item.toJson)]) read

/-- The end of a call that nobody runs out of patience for. -/
def outcome {α : Type} : Except Stop α → Except ServiceFault α
  | .ok a => .ok a
  | .error (.fault fault) => .error fault
  | .error .abandoned => .error .requestCancelled

/-- Makes a call in a round of its own. -/
def call {α : Type} (ws : Workspace) (c : Call α) : Except ServiceFault α × Workspace :=
  let (r, ws) := c.run.run ws
  (outcome r, { ws with round := ws.round + 1 })

/-- Makes two calls in the same round. -/
def callBoth {α β : Type} (ws : Workspace) (c : Call α) (d : Call β) :
    (Except ServiceFault α × Except ServiceFault β) × Workspace :=
  let (r, after) := ws.call c
  let (s, done) := { after with clock := ws.clock, round := ws.round }.call d
  ((r, s), { done with clock := max after.clock done.clock })

end SymbolQuery.Workspace
