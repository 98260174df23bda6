/-
What a client notes while it talks to its server, for whoever watches over it.
-/
import SymbolQuery.Language
import SymbolQuery.Rpc.Frame

set_option autoImplicit false

namespace SymbolQuery

/-- Something worth a warning. -/
inductive Notice
  /-- The stream of the server ended or held no message. -/
  | unreadable (language : Language) (fault : Rpc.FrameFault)
  /-- The server reported an error of its own. -/
  | serverSaid (language : Language) (text : String)
  /-- The server is gone and a new one is to be started. -/
  | restarting (language : Language)

/-- The wording of a notice. -/
def Notice.message : Notice → String
  | .unreadable language fault => s!"{language.id} LSP read error: {fault.message}"
  | .serverSaid language text => s!"LSP {language.id}: {text}"
  | .restarting language => s!"{language.id} language server died, restarting"

end SymbolQuery
