/-
Language servers written down as data.

A script lists, for a method, the turns that the server takes when it is asked, one
after the other; the last one repeats. A list for a method at one position counts
before the one for the method. What is not listed has an answer too: the server
introduces itself, lets itself be shut down, and knows nothing else.
-/
import SymbolQuery.Fault
import SymbolQuery.Rpc.Message

set_option autoImplicit false

namespace SymbolQuery

/-! ## Scripts -/

/-- How a server takes one request. -/
inductive ServerTurn
  /-- It sends some messages and then a response with the given fields. -/
  | respond (body : List (String × Json)) (idAsText : Bool) (before : List Json)
  | ignore
  /-- It ends. -/
  | leave
  deriving Repr, Inhabited

/-- The turns of a server, by method or by method and position. -/
abbrev ServerScript := List (String × List ServerTurn)

namespace ServerTurn

/-- A response with a result. -/
def result (v : Json) : ServerTurn := .respond [("result", v)] false []

/-- What a server can do that says no more of itself. -/
def plainHandshake : Json :=
  .obj [("capabilities", .obj
    [("callHierarchyProvider", .bool true), ("typeHierarchyProvider", .bool true)])]

/-- The turn of a server that has nothing listed for a method. -/
def unlisted (method : String) : ServerTurn :=
  match method with
  | "initialize" => result plainHandshake
  | "shutdown" => result .null
  | _ =>
    .respond [("error", .obj [("code", .ofInt ServerError.methodNotFound),
      ("message", .str s!"Unhandled method {method}")])] false []

/-- Reads a turn. -/
def ofJson (v : Json) : ServerTurn :=
  if (v.get? "ignore").isSome then .ignore
  else if (v.get? "exit").isSome then .leave
  else
    .respond (((v.fields?).getD []).filter fun e => e.1 == "result" || e.1 == "error")
      (((v.get? "asString").bind Json.bool?).getD false)
      (((v.get? "before").bind Json.items?).getD [])

end ServerTurn

/-- Reads a script. -/
def ServerScript.ofJson (v : Json) : ServerScript :=
  ((v.fields?).getD []).map fun e => (e.1, (e.2.items?.getD []).map ServerTurn.ofJson)

/-! ## Servers at work -/

/-- A server that follows a script. -/
structure ScriptedServer where
  script : ServerScript
  /-- How many turns have been taken of each list. -/
  taken : List (String × Nat) := []
  running : Bool := true
  deriving Repr, Inhabited

namespace ScriptedServer

/-- The text of a position in the parameters of a request. -/
def positionText (params : Json) : Option String :=
  match params.path? ["position", "line"], params.path? ["position", "character"] with
  | some (.num (.int line)), some (.num (.int character)) =>
    some (toString line ++ ":" ++ toString character)
  | _, _ => none

/-- The key under which a request is listed: with its position if that is listed. -/
def keyOf (s : ScriptedServer) (method : String) (params : Json) : String :=
  match positionText params with
  | some p =>
    let key := method ++ "@" ++ p
    if (s.script.lookup key).isSome then key else method
  | none => method

/-- The next turn for a request. -/
def nextTurn (s : ScriptedServer) (method : String) (params : Json) :
    ServerTurn × ScriptedServer :=
  let key := s.keyOf method params
  match (s.script.lookup key).getD [] with
  | [] => (.unlisted method, s)
  | turn :: more =>
    let done := (s.taken.lookup key).getD 0
    ((turn :: more).getD (min done more.length) turn,
      { s with taken := (key, done + 1) :: s.taken.filter fun e => e.1 != key })

/-- The id of a response, as text where a turn says so. -/
def responseId (idAsText : Bool) (id : Json) : Json :=
  match idAsText, id with
  | true, .num (.int i) => .str (toString i)
  | _, id => id

/-- Takes a message of the client: what the server sends, and what becomes of it. -/
def hear (s : ScriptedServer) (m : Json) : List Json × ScriptedServer :=
  match m.get? "method", m.get? "id" with
  | some (.str method), some id =>
    match s.nextTurn method ((m.get? "params").getD .null) with
    | (.respond body idAsText before, s) =>
      (before ++ [.obj ([("jsonrpc", .str "2.0"), ("id", responseId idAsText id)] ++ body)], s)
    | (.ignore, s) => ([], s)
    | (.leave, s) => ([], { s with running := false })
  | some (.str "exit"), none => ([], { s with running := false })
  | _, _ => ([], s)

end ScriptedServer

end SymbolQuery
