/-
What can go wrong between a caller and a language server.

A `ServiceFault` is what a provider answers instead of a result. A `CallFault` is
what a guarded call makes of it, together with the two ways in which the guard itself
ends a call. Errors that servers report with one of a few codes are worded anew, so
that a caller learns what to try instead.
-/
import SymbolQuery.Language
import SymbolQuery.Text.LowerCase

set_option autoImplicit false

namespace SymbolQuery

/-! ## Faults of a provider -/

/-- Why a provider has no answer. -/
inductive ServiceFault
  | serverStart (text : String)
  | notConnected
  | serverNotInstalled (name hint : String)
  | unsupportedLanguage (name : String)
  | serverTerminated (language : Language)
  | timeout (text : String)
  | requestCancelled
  | serverError (code : Int) (message : String)
  | protocol (text : String)
  | io (text : String)
  | json (text : String)
  deriving DecidableEq, Repr, Inhabited

namespace ServiceFault

/-- The name of the kind of fault. -/
def kind : ServiceFault → String
  | .serverStart _ => "ServerStart"
  | .notConnected => "NotConnected"
  | .serverNotInstalled _ _ => "ServerNotInstalled"
  | .unsupportedLanguage _ => "UnsupportedLanguage"
  | .serverTerminated _ => "ServerTerminated"
  | .timeout _ => "Timeout"
  | .requestCancelled => "RequestCancelled"
  | .serverError _ _ => "ServerError"
  | .protocol _ => "Protocol"
  | .io _ => "Io"
  | .json _ => "Json"

/-- The wording of a fault. -/
def message : ServiceFault → String
  | .serverStart text => s!"Failed to start server: {text}"
  | .notConnected => "Server not connected"
  | .serverNotInstalled name hint => s!"Server not installed: {name}. Install: {hint}"
  | .unsupportedLanguage name => s!"Unsupported language: {name}"
  | .serverTerminated language => s!"{language.id} language server terminated unexpectedly"
  | .timeout text => text
  | .requestCancelled => "Request cancelled"
  | .serverError code text => s!"Server error [{code}]: {text}"
  | .protocol text => s!"Protocol error: {text}"
  | .io text => text
  | .json text => text

end ServiceFault

/-! ## Wording of server errors -/

namespace ServerError

/-- The code of a method that the server does not have. -/
def methodNotFound : Int := -32601

/-- The code of a server that is not ready. -/
def notInitialized : Int := -32002

/-- The code of an internal error. -/
def internal : Int := -32603

/-- The code of a document that changed meanwhile. -/
def contentModified : Int := -32801

/-- The code of a cancelled request. -/
def requestCancelled : Int := -32800

/-- The code that stands for the end of the server. -/
def serverTerminated : Int := -32099

/-- The wording of a missing method, by what its name says. -/
def missingMethodText (message : String) : String :=
  let lower := Text.lower message
  if Text.contains lower "callhierarchy" then
    "Call hierarchy not supported. Try: symlens refs <reference>"
  else if Text.contains lower "typehierarchy" then
    "Type hierarchy not supported. Try: symlens impl <reference>"
  else if Text.contains lower "implementation" then
    "Find implementations not supported. Try: symlens refs <reference>"
  else if Text.contains lower "typedefinition" || Text.contains lower "declaration" then
    "Not supported by this server. Try: symlens def <reference>"
  else s!"Feature not supported: {message}"

/-- The wording of an internal error, by what its message mentions. -/
def internalText (message : String) : String :=
  let trimmed := Text.trim message
  let lower := Text.lower trimmed
  if trimmed.isEmpty || lower == "internal error" || lower == "internal error." then
    "Operation failed. The position may be invalid."
  else if Text.contains lower "invalid offset" || Text.contains lower "out of bounds" then
    "Invalid position: line or column exceeds file bounds."
  else if Text.contains lower "content modified" || Text.contains lower "version mismatch" then
    "File changed during operation. Please retry."
  else if Text.contains lower "not found" || Text.contains lower "no such file" then
    "File not found or inaccessible."
  else trimmed

/-- The wording of a server error of the given code. -/
def friendlyText (code : Int) (message : String) : String :=
  if code = methodNotFound then missingMethodText message
  else if code = notInitialized then "Server initializing. Try again in a moment."
  else if code = internal ∨ code = contentModified then internalText message
  else message

end ServerError

/-- The fault that a server's error becomes. -/
def ServiceFault.friendly (code : Int) (message : String) : ServiceFault :=
  .serverError code (ServerError.friendlyText code message)

/-! ## Faults of a guarded call -/

/-- Why a guarded call of the named operation gave no result. -/
inductive CallFault
  | timedOut (operation : String) (after : Nat)
  | cancelled (operation : String)
  | failed (operation : String) (source : ServiceFault)
  deriving DecidableEq, Repr

/-- The wording of a fault. -/
def CallFault.message : CallFault → String
  | .timedOut operation after => s!"{operation} timed out after {after}ms"
  | .cancelled operation => s!"{operation} was cancelled"
  | .failed operation source => s!"{operation} failed: {source.message}"

end SymbolQuery
