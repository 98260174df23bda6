/-
What a client says of itself in its first request: who it is, where it works, and what
it can make use of.
-/
import SymbolQuery.Answer.Handshake
import SymbolQuery.Uri

set_option autoImplicit false

namespace SymbolQuery.Client

/-- The name and the version of this program. -/
def programInfo : Answer.ProgramInfo := { name := "symlens", version := some "0.1.0" }

/-- An object of objects with no fields of their own. -/
def emptyObject : Json := .obj []

/-- A query whose answers may be links. -/
def linkSupport : Json := .obj [("linkSupport", .bool true)]

/-- What the client makes use of: only what its queries need. -/
def ownCapabilities : Json :=
  .obj [
    ("general", .obj [("positionEncodings", .arr [.str "utf-16"])]),
    ("textDocument", .obj [
      ("callHierarchy", emptyObject),
      ("declaration", linkSupport),
      ("definition", linkSupport),
      ("documentSymbol", .obj [
        ("hierarchicalDocumentSymbolSupport", .bool true),
        ("symbolKind", .obj [("valueSet", .arr ((List.range' 1 26).map Json.ofNat))])]),
      ("hover", .obj [("contentFormat", .arr [.str "markdown", .str "plaintext"])]),
      ("implementation", linkSupport),
      ("references", emptyObject),
      ("synchronization", .obj [("didSave", .bool false)]),
      ("typeDefinition", linkSupport),
      ("typeHierarchy", emptyObject)]),
    ("window", .obj [("workDoneProgress", .bool false)]),
    ("workspace", .obj [("configuration", .bool true), ("workspaceFolders", .bool false)])]

/-- The parameters of the first request: the number of this process and the directory it works
in. -/
def greeting (processId : Nat) (root : String) : Json :=
  .obj [
    ("capabilities", ownCapabilities),
    ("clientInfo", programInfo.toJson),
    ("processId", .ofNat processId),
    ("rootUri", .str (Uri.ofPath root))]

end SymbolQuery.Client
