/-
A directory of sources with the servers that were started for it.

The clock of a workspace moves only where nothing but waiting is left. What is begun
at one moment belongs to one round: who finds in a round that a server went away in
that same round had asked it before it went.
-/
import SymbolQuery.Files
import SymbolQuery.Lookup.Question
import SymbolQuery.Pool.Caller
import SymbolQuery.ServerCommand
import SymbolQuery.Workspace.Connection

set_option autoImplicit false

namespace SymbolQuery

/-- The start of a server. -/
structure ServerStart where
  ticket : Nat
  language : Language
  /-- When its outcome is known. -/
  ends : Nat
  outcome : Except ServiceFault Nat

/-- The clients in use and the starts under way. -/
structure Manager where
  pool : Pool := {}
  starts : List ServerStart := []

/-- A directory of sources, its settings, and all that runs for it. -/
structure Workspace where
  root : String
  /-- The directory that relative paths of documents start from. -/
  directory : String := root
  files : Files := {}
  commands : ServerCommands := {}
  /-- How long a request may take, in milliseconds. -/
  requestLimit : Nat
  /-- The programs that can be started. -/
  programs : List String := []
  /-- What the servers do, in the order of their starts; the last script repeats. -/
  scripts : List ServerScript := []
  /-- All servers that were ever started, by the numbers of their clients. -/
  connections : List Connection := []
  manager : Manager := {}
  clock : Nat := 0
  round : Nat := 0
  /-- When the one who asks loses patience, if ever. -/
  giveUpAt : Option Nat := none
  notices : List Notice := []
  /-- What lookups noted. -/
  warnings : List Warning := []

/-- Why a call has no result. -/
inductive Stop
  | fault (fault : ServiceFault)
  /-- The one who asked did not wait for it. -/
  | abandoned

/-- Something done in a workspace that may have no result. -/
abbrev Call := ExceptT Stop (StateM Workspace)

namespace Workspace

/-! ## Connections -/

/-- Replaces the connection of a number, and notes the round if it was lost just now. -/
def setConnection (ws : Workspace) (i : Nat) (k : Connection) : Workspace :=
  let k := if k.client.terminated && k.lostIn.isNone then { k with lostIn := some ws.round } else k
  { ws with connections := ws.connections.set i k }

/-- Whether the server of a client is gone, to someone who looks in this round. -/
def isGone (ws : Workspace) (i : Nat) : Bool :=
  match ws.connections[i]? with
  | some k => k.client.terminated && k.lostIn != some ws.round
  | none => true

/-- All notices of a workspace and its clients. -/
def allNotices (ws : Workspace) : List Notice :=
  ws.notices ++ ws.connections.flatMap fun k => k.client.notices

/-- What the server that is started next does. -/
def nextScript (ws : Workspace) : ServerScript :=
  (ws.scripts.drop (min ws.connections.length (ws.scripts.length - 1))).headD []

/-- The number of the process of a client. -/
def processId : Nat := 1

/-- Why a program can not be started in the root, if it can not. A name is looked up among the
programs; a path leads to a file, and no file of a workspace is a program. -/
def programFault? (ws : Workspace) (command : ServerCommand) : Option ServiceFault :=
  let missing : ServiceFault := .serverNotInstalled command.name command.installHint
  let barred (fault : FileFault) : ServiceFault :=
    .serverStart s!"{command.program}: {fault.message}"
  if !ws.files.isDirectory (Path.components ws.root) then some (barred .notDirectory)
  else if ws.programs.contains command.program then none
  else if command.program.toList.contains '/' then
    match ws.files.realComponents (Path.join ws.root command.program) with
    | .ok _ => some (barred .denied)
    | .error .notFound => some missing
    | .error fault => some (barred fault)
  else some missing

/-- Starts the server of a language. Returns the number of its client, or why there is none, and
the time after which that is known. -/
def launch (ws : Workspace) (l : Language) : (Except ServiceFault Nat × Nat) × Workspace :=
  match ServerCommand.resolve l ws.commands with
  | .error fault => ((.error fault, 0), ws)
  | .ok command =>
    match ws.programFault? command with
    | some fault => ((.error fault, 0), ws)
    | none =>
      let i := ws.connections.length
      let k : Connection := { client := { language := l }, server := { script := ws.nextScript } }
      let ((r, time), k) := k.greet (Client.greeting processId ws.root) command.initTimeout
      ((r.map fun _ => i, time), { ws with connections := ws.connections ++ [k] })

/-! ## Starts under way -/

/-- Notes the outcome of a start. -/
def publish (ws : Workspace) (s : ServerStart) : Workspace :=
  { ws with
    manager :=
      { pool := ws.manager.pool.publish s.language s.outcome.toOption
        starts := ws.manager.starts.filter fun t => t.ticket != s.ticket } }

/-- Notes the outcomes that are known by now. -/
def publishDue (ws : Workspace) : Workspace :=
  (ws.manager.starts.filter fun s => decide (s.ends ≤ ws.clock)).foldl publish ws

/-- Begins a start. -/
def beginStart (ws : Workspace) (l : Language) (ticket : Nat) : Workspace :=
  let ((outcome, time), ws) := ws.launch l
  let s : ServerStart := ⟨ticket, l, ws.clock + time, outcome⟩
  { ws with manager := { ws.manager with starts := ws.manager.starts ++ [s] } }

/-- Waits for a time, unless patience ends before. -/
def waitUntil (time : Nat) : Call Unit := do
  let ws ← get
  match ws.giveUpAt with
  | some limit =>
    if limit < time then
      set { ws with clock := max ws.clock limit }
      throw .abandoned
    else set { ws with clock := max ws.clock time }
  | none => set { ws with clock := max ws.clock time }

/-- Waits until a start has come to its end. -/
def awaitStart (ticket : Nat) (c : Caller) : Call Caller := do
  match (← get).manager.starts.find? fun s => s.ticket == ticket with
  | none => return c.hear ticket
  | some s => do
    waitUntil s.ends
    modify fun ws => ws.publish s
    return (c.hear ticket).learn ticket s.outcome

/-- A caller acts until it has its answer, at most the given number of times. -/
def acquireUpTo (l : Language) : Nat → Caller → Call Nat
  | _, .served i => return i
  | _, .refused fault => throw (.fault fault)
  | 0, _ => throw .abandoned
  | fuel + 1, .starting ticket => do
    acquireUpTo l fuel (← awaitStart ticket (.starting ticket))
  | fuel + 1, .waiting ticket false => do
    acquireUpTo l fuel (← awaitStart ticket (.waiting ticket false))
  | fuel + 1, c => do
    let ws := (← get).publishDue
    let (next, pool) := c.step l ws.isGone ws.manager.pool
    let ws := { ws with manager := { ws.manager with pool := pool } }
    match next with
    | .starting ticket => set (ws.beginStart l ticket)
    | .evicting _ => set { ws with notices := ws.notices ++ [Notice.restarting l] }
    | _ => set ws
    acquireUpTo l fuel next

/-- The number of a client for a language; its server is started if need be. One caller alone is
done after a handful of steps, for a start that it waits for ends before it looks again. -/
def acquire (l : Language) : Call Nat := acquireUpTo l 32 .looking

/-! ## The end -/

/-- Shuts the connection of a client down. -/
def shutdownClient (ws : Workspace) (i : Nat) : Workspace :=
  match ws.connections[i]? with
  | some k =>
    let (time, k) := k.shutdown
    { ws with clock := ws.clock + time }.setConnection i k
  | none => ws

/-- Shuts all clients in use down. -/
def shutdownAll (ws : Workspace) : Workspace :=
  let (clients, pool) := ws.manager.pool.drain
  clients.foldl shutdownClient { ws with manager := { ws.manager with pool := pool } }

end Workspace

end SymbolQuery
