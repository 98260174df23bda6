/-
Which documents a server has been told about.

A document is opened once, with version 1; each further text raises the version. The
same text is not sent again. A new text of a known document is noted even where it
could not be sent, an unknown document only once it has been.
-/
import SymbolQuery.Rpc.Message

set_option autoImplicit false

namespace SymbolQuery

/-! ## Documents and news of them -/

/-- A document as the server was last told. -/
structure Document where
  uri : String
  version : Nat
  text : String
  deriving DecidableEq, Repr, Inhabited

/-- The documents of a connection. -/
abbrev Documents := List Document

/-- What a server is told about a document. -/
inductive DocumentNews
  | opened (uri text : String)
  | changed (uri : String) (version : Nat) (text : String)
  deriving DecidableEq, Repr

namespace DocumentNews

/-- The document that the news is about. -/
def uri : DocumentNews → String
  | .opened uri _ => uri
  | .changed uri _ _ => uri

/-- The version that is told; opening tells the first. -/
def version : DocumentNews → Nat
  | .opened _ _ => 1
  | .changed _ version _ => version

/-- The text that is told. -/
def text : DocumentNews → String
  | .opened _ text => text
  | .changed _ _ text => text

/-- The notification with the news, for documents of the named language. -/
def notification (languageId : String) : DocumentNews → Rpc.Notification
  | .opened uri text =>
    { method := "textDocument/didOpen"
      params := some (.obj [("textDocument", .obj
        [("languageId", .str languageId), ("text", .str text), ("uri", .str uri),
          ("version", .ofNat 1)])]) }
  | .changed uri version text =>
    { method := "textDocument/didChange"
      params := some (.obj [
        ("contentChanges", .arr [.obj [("text", .str text)]]),
        ("textDocument", .obj [("uri", .str uri), ("version", .ofNat version)])]) }

end DocumentNews

/-! ## Keeping a server up to date -/

namespace Documents

/-- The document of a uri. -/
def find? (ds : Documents) (uri : String) : Option Document :=
  List.find? (fun d => d.uri == uri) ds

/-- What the server has to be told so that it knows a text; nothing if it is the last one noted. -/
def news (ds : Documents) (uri text : String) : Option DocumentNews :=
  match ds.find? uri with
  | none => some (.opened uri text)
  | some d => if d.text = text then none else some (.changed uri (d.version + 1) text)

/-- Notes a document in place of what was known of it. -/
def put (ds : Documents) (d : Document) : Documents :=
  d :: ds.filter fun e => e.uri != d.uri

/-- Notes news that was sent, or could not be: an opening counts only if it was. -/
def note (ds : Documents) (n : DocumentNews) (sent : Bool) : Documents :=
  match n with
  | .opened uri text => if sent then ds.put ⟨uri, 1, text⟩ else ds
  | .changed uri version text => ds.put ⟨uri, version, text⟩

/-- A document that is noted replaces the one of its uri and no other. -/
theorem find?_put (ds : Documents) (d : Document) (uri : String) :
    (ds.put d).find? uri = if uri = d.uri then some d else ds.find? uri := by
  by_cases huri : uri = d.uri
  · rw [if_pos huri, put, find?, List.find?_cons_of_pos]
    rw [huri, beq_self_eq_true]
  · have hkept : (fun e : Document => decide ((e.uri != d.uri) = true ∧ (e.uri == uri) = true))
        = fun e => e.uri == uri := by
      funext e
      rw [Bool.eq_iff_iff, decide_eq_true_iff, bne_iff_ne, beq_iff_eq]
      exact ⟨And.right, fun he => ⟨fun hd => huri (he.symm.trans hd), he⟩⟩
    have hhead : (d.uri == uri) = false := beq_eq_false_iff_ne.mpr fun h => huri h.symm
    rw [if_neg huri, put, find?, find?, List.find?_cons, hhead, List.find?_filter, hkept]

end Documents

end SymbolQuery
