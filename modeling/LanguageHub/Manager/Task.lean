import LanguageHub.Manager.Basic

/-!
# Tasks of the manager

A `Task` is what a caller asks of the manager, and how far it has come. `Manager.step` is
one stage of one task. A task with several branches, which asks several sessions at
once, can go on in any branch that is not waiting; a branch is chosen by its number.

`Task.refs` and `Task.slotRefs` name the sessions and slots that a task still uses. A
session that neither a task nor the table leads to is given up.
-/

namespace LanguageHub

/-- What a caller wants of the session that owns a document. -/
inductive RoutedAction where
  | change (text : String)
  | close
  /-- Ask a question about the document. -/
  | ask (query : Uri → Lsp.Query) (cancelAt : Option Nat)

/-- How far an assurance of a session has come. -/
inductive EnsureStage where
  | begin (path : Path)
  | rooted (uri : Uri) (key : SessionKey)
  /-- An ended session is disposed of. -/
  | replacing (uri : Uri) (key : SessionKey) (slot old : Nat) (op : Operation)
  /-- It comes to its slot. -/
  | entering (uri : Uri) (key : SessionKey) (slot : Nat)
  /-- It waits at its slot. -/
  | queued (uri : Uri) (key : SessionKey) (slot : Nat)
  /-- It creates the session: it installs the server, -/
  | installing (uri : Uri) (key : SessionKey) (slot : Nat) (server : Server)
      (stage : InstallStage)
  /-- launches it, -/
  | launching (uri : Uri) (key : SessionKey) (slot : Nat) (server : Server) (executable : Path)
  /-- and shakes hands. -/
  | handshaking (uri : Uri) (key : SessionKey) (slot session : Nat) (op : Operation)
  /-- The creation has failed. -/
  | failing (key : SessionKey) (slot : Nat) (e : LspError)
  /-- The document is opened in the session. -/
  | opening (session : Nat) (op : Operation)

/-- How far a routed action has come. -/
inductive RoutedStage where
  | begin (path : Path)
  /-- The sessions whose root contains the path are asked one after the other. -/
  | asking (path : Path) (uri : Uri) (known : List Manager.Candidate) (session : Nat)
      (op : Operation) (rest : List Nat)
  | choosing (path : Path) (uri : Uri) (known : List Manager.Candidate)
  | running (session : Nat) (op : Operation)

/-- What a task yields. -/
inductive Answer where
  | outcome (o : Outcome)
  | symbols (found : List Lsp.SymbolInformation)
deriving Repr, Inhabited

/-- What a task yields, as a value. -/
def Answer.toJson : Answer → Json
  | .outcome o => o.toJson
  | .symbols found => .arr (found.map Lsp.SymbolInformation.toJson)

/-- What a caller asks of the manager, and how far it has come. -/
inductive Task where
  /-- Have a session for a document, and the document open in it. -/
  | ensure (language text : String) (stage : EnsureStage)
  /-- Do something with the session that owns a document. -/
  | routed (action : RoutedAction) (stage : RoutedStage)
  /-- Find symbols in all sessions that are ready; no branches yet before it begins. -/
  | symbols (query : String) (cancelAt : Option Nat) (branches : Option (List (Nat × Operation)))
  /-- Dispose of all sessions. -/
  | shutdown (branches : Option (List (Nat × Operation)))
  /-- Do something with a known session. -/
  | direct (session : Nat) (op : Operation)
  /-- Wait for an instant. -/
  | pause (until_ : Nat)
  | returned (result : Except LspError Answer)
deriving Inhabited

namespace Task

/-- A task that ends well. -/
def finish : Task := .returned (.ok (.outcome .done))

/-- A task that fails. -/
def fail (e : LspError) : Task := .returned (.error e)

/-- The result of a task that has ended. -/
def result? : Task → Option (Except LspError Answer)
  | .returned r => some r
  | _ => none

/-- The operations of a task, with their sessions. -/
def operations : Task → List (Nat × Operation)
  | .ensure _ _ (.replacing _ _ _ old op) => [(old, op)]
  | .ensure _ _ (.handshaking _ _ _ session op) => [(session, op)]
  | .ensure _ _ (.opening session op) => [(session, op)]
  | .routed _ (.asking _ _ _ session op _) => [(session, op)]
  | .routed _ (.running session op) => [(session, op)]
  | .symbols _ _ (some branches) => branches
  | .shutdown (some branches) => branches
  | .direct session op => [(session, op)]
  | _ => []

/-- The sessions that a task uses. -/
def refs : Task → List Nat
  | .routed _ (.asking _ _ known session _ rest) => known.map (·.session) ++ session :: rest
  | .routed _ (.choosing _ _ known) => known.map (·.session)
  | t => t.operations.map (·.1)

/-- The slots that a task uses. -/
def slotRefs : Task → List Nat
  | .ensure _ _ (.replacing _ _ slot _ _) | .ensure _ _ (.entering _ _ slot)
  | .ensure _ _ (.queued _ _ slot) | .ensure _ _ (.installing _ _ slot _ _)
  | .ensure _ _ (.launching _ _ slot _ _) | .ensure _ _ (.handshaking _ _ slot _ _)
  | .ensure _ _ (.failing _ slot _) => [slot]
  | _ => []

/-- When a task that waits can go on at the latest, as far as it knows. -/
def wakeTimes (t : Task) : List Nat :=
  match t with
  | .pause until_ => [until_]
  | t => t.operations.filterMap fun b => b.2.wakeTime?

end Task

namespace Manager

/-- What a stage of a task makes of a manager. -/
abbrev Progress := Option (Manager × Task × List LogEntry)

/-- One stage of an operation on one of the sessions. -/
def stepSession (env : ManagerEnvironment) (now id session : Nat) (op : Operation)
    (m : Manager) : Option (Manager × Operation × List LogEntry) :=
  match m.sessions[session]? with
  | some s => (s.stepOperation env.host now id op).map fun (s, op, log) =>
      (m.setSession session s, op, log)
  | none => none

/-! ### Assuring a session -/

/-- The slot for a key. A session that has ended is replaced: its slot leaves the table,
and the session is to be disposed of. -/
def slotFor (m : Manager) (uri : Uri) (key : SessionKey) :
    Manager × EnsureStage × List LogEntry :=
  match m.slotOf key with
  | none =>
    let (m, slot) := m.newSlot
    (m.bind key slot, .entering uri key slot, [])
  | some slot =>
    match m.sessionIn slot with
    | some old =>
      if (m.stateOf old).isTerminal then
        let (m, fresh) := m.newSlot
        (m.bind key fresh, .replacing uri key fresh old .startDispose,
          [.info "Replacing stopped session"])
      else (m, .entering uri key slot, [])
    | none => (m, .entering uri key slot, [])

/-- The slot without its first task. -/
def leaveSlot (m : Manager) (slot : Nat) : Manager :=
  match m.slots[slot]? with
  | some s => m.setSlot slot { s with queue := s.queue.drop 1 }
  | none => m

/-- The slot with one more task. -/
def enterSlot (m : Manager) (slot id : Nat) : Manager :=
  match m.slots[slot]? with
  | some s => m.setSlot slot { s with queue := s.queue ++ [id] }
  | none => m

/-- Whether a task is the creator at a slot. -/
def isCreator (m : Manager) (slot id : Nat) : Bool :=
  ((m.slots[slot]?).bind (·.queue.head?)) == some id

/-- What a creator does first: it finds the server for the language. -/
def beginCreation (env : ManagerEnvironment) (uri : Uri) (key : SessionKey) (slot : Nat) :
    EnsureStage :=
  match env.installer.catalog.resolve key.language with
  | some server => .installing uri key slot server (.begin key.language)
  | none => .failing key slot (.notConfigured key.language)

/-- Launches a server. -/
def launchServer (env : ManagerEnvironment) (uri : Uri) (key : SessionKey) (slot : Nat)
    (server : Server) (executable : Path) (m : Manager) :
    Manager × EnsureStage × List LogEntry :=
  match Template.arguments server.arguments key.root env.host.processId with
  | .error e =>
    (m, .failing key slot (.launchFailed executable ("bad argument template: " ++ e.message)), [])
  | .ok arguments =>
    let spec : LaunchSpec := ⟨server.name, executable, arguments, key.root⟩
    let log : List LogEntry := [.info "Starting language server"]
    let m := { m with attempts := m.attempts + 1 }
    match env.launch (m.attempts - 1) spec with
    | .error reason => (m, .failing key slot (.launchFailed executable reason), log)
    | .ok killFault =>
      let (m, session) := m.newSession (.launched key server.name env.timeouts killFault)
      ({ m with launches := m.launches ++ [spec] },
        .handshaking uri key slot session .startHandshake, log)

/-- The document of an assurance is opened in its session. -/
def openIn (uri : Uri) (language text : String) (session : Nat) : EnsureStage :=
  .opening session (.startDocument (.openText uri language text))

/-- One stage of an assurance of a session. -/
def stepEnsure (env : ManagerEnvironment) (now id : Nat) (language text : String)
    (stage : EnsureStage) (m : Manager) : Progress :=
  let go (m : Manager) (stage : EnsureStage) (log : List LogEntry) : Progress :=
    some (m, .ensure language text stage, log)
  match stage with
  | .begin path =>
    let path := path.absolute env.host.directory
    match path.toUri? env.host.directory with
    | none => some (m, .fail (.invalidPath path), [])
    | some uri =>
      let marked := Workspace.markedRoot? env.markers m.install.files env.host.directory path
      let root := marked.getD (Workspace.startOf env.host.directory path)
      go m (.rooted uri ⟨root, language⟩)
        (if marked.isSome then [.trace "Found workspace root"] else [])
  | .rooted uri key =>
    let (m, stage, log) := m.slotFor uri key
    go m stage log
  | .replacing uri key slot old op =>
    match op with
    | .returned _ => go m (.entering uri key slot) []
    | op => (m.stepSession env now id old op).bind fun (m, op, log) =>
        go m (.replacing uri key slot old op) log
  | .entering uri key slot =>
    match m.sessionIn slot with
    | some session => go m (openIn uri language text session) []
    | none => go (m.enterSlot slot id) (.queued uri key slot) []
  | .queued uri key slot =>
    match m.sessionIn slot with
    | some session => go m (openIn uri language text session) []
    | none => if m.isCreator slot id then go m (beginCreation env uri key slot) [] else none
  | .installing uri key slot server stage =>
    match stage with
    | .returned (.ok executable) => go m (.launching uri key slot server executable) []
    | .returned (.error e) => go m (.failing key slot (.ofInstall e)) []
    | stage => (env.installer.step env.web id stage m.install).bind fun (state, stage, log) =>
        go { m with install := state } (.installing uri key slot server stage) log
  | .launching uri key slot server executable =>
    let (m, stage, log) := m.launchServer env uri key slot server executable
    go m stage log
  | .handshaking uri key slot session op =>
    match op with
    | .returned (.ok _) =>
      let m := m.setSlot slot ⟨some session, []⟩
      go m (openIn uri language text session) []
    | .returned (.error e) => go m (.failing key slot e) []
    | op => (m.stepSession env now id session op).bind fun (m, op, log) =>
        go m (.handshaking uri key slot session op) log
  | .failing key slot e =>
    let m := m.leaveSlot slot
    let m := if m.slotOf key == some slot && (m.sessionIn slot).isNone then m.unbind key else m
    some (m, .fail e, [])
  | .opening session op =>
    match op with
    | .returned (.ok o) => some (m, .returned (.ok (.outcome o)), [])
    | .returned (.error e) => some (m, .fail e, [])
    | op => (m.stepSession env now id session op).bind fun (m, op, log) =>
        go m (.opening session op) log

/-! ### Routed actions -/

/-- The candidate that a session is. -/
def candidate (m : Manager) (session : Nat) (isOpen : Bool) : Candidate :=
  let key := ((m.sessions[session]?).map (·.key)).getD default
  ⟨session, isOpen, key.depth, key.language⟩

/-- Asks the next session whether it has a document open. -/
def askNext (path : Path) (uri : Uri) (known : List Candidate) : List Nat → RoutedStage
  | [] => .choosing path uri known
  | session :: rest => .asking path uri known session (.startDocument (.query uri)) rest

/-- The operation that a routed action is. -/
def RoutedAction.operation (uri : Uri) : RoutedAction → Operation
  | .change text => .startDocument (.changeText uri text)
  | .close => .startDocument (.close uri)
  | .ask query cancelAt => .startQuery (query uri) cancelAt

/-- One stage of a routed action. -/
def stepRouted (env : ManagerEnvironment) (now id : Nat) (action : RoutedAction)
    (stage : RoutedStage) (m : Manager) : Progress :=
  let go (m : Manager) (stage : RoutedStage) (log : List LogEntry) : Progress :=
    some (m, .routed action stage, log)
  match stage with
  | .begin path =>
    let path := path.absolute env.host.directory
    match path.toUri? env.host.directory with
    | none => some (m, .fail (.invalidPath path), [])
    | some uri => go m (askNext path uri [] (m.owners path)) []
  | .asking path uri known session op rest =>
    match op with
    | .returned result =>
      let isOpen := match result with
        | .ok (.flag b) => b
        | _ => false
      go m (askNext path uri (known ++ [m.candidate session isOpen]) rest) []
    | op => (m.stepSession env now id session op).bind fun (m, op, log) =>
        go m (.asking path uri known session op rest) log
  | .choosing path uri known =>
    match choose known with
    | some session => go m (.running session (RoutedAction.operation uri action)) []
    | none => some (m, .fail (.sessionNotFound path), [])
  | .running session op =>
    match op with
    | .returned (.ok o) => some (m, .returned (.ok (.outcome o)), [])
    | .returned (.error e) => some (m, .fail e, [])
    | op => (m.stepSession env now id session op).bind fun (m, op, log) =>
        go m (.running session op) log

/-! ### Tasks with branches -/

/-- Whether all branches have ended. -/
def allReturned (branches : List (Nat × Operation)) : Bool :=
  branches.all fun b => b.2.result?.isSome

/-- One stage of one branch. -/
def stepBranch (env : ManagerEnvironment) (now id branch : Nat)
    (branches : List (Nat × Operation)) (m : Manager) :
    Option (Manager × List (Nat × Operation) × List LogEntry) :=
  match branches[branch]? with
  | some (session, op) => (m.stepSession env now id session op).map fun (m, op, log) =>
      (m, branches.set branch (session, op), log)
  | none => none

/-- The symbols that a branch has found. -/
def foundBy : Nat × Operation → List Lsp.SymbolInformation
  | (_, .returned (.ok (.value j))) => Lsp.SymbolResponse.flatten (Lsp.SymbolResponse.of? j)
  | _ => []

/-- What is logged about a branch: a failure. -/
def failureOf : Nat × Operation → List LogEntry
  | (_, .returned (.error e)) => [.warn ("Workspace symbol query failed: " ++ e.message)]
  | _ => []

/-- One stage of a search for symbols. -/
def stepSymbols (env : ManagerEnvironment) (now id branch : Nat) (query : String)
    (cancelAt : Option Nat) (branches : Option (List (Nat × Operation))) (m : Manager) :
    Progress :=
  match branches with
  | none =>
    let ready := m.listed.filter fun i => m.stateOf i == .ready
    some (m, .symbols query cancelAt (some (ready.map fun i =>
      (i, .startQuery (.workspaceSymbols query) cancelAt))), [])
  | some branches =>
    if allReturned branches then
      some (m, .returned (.ok (.symbols (branches.flatMap foundBy))), branches.flatMap failureOf)
    else (m.stepBranch env now id branch branches).map fun (m, branches, log) =>
      (m, .symbols query cancelAt (some branches), log)

/-- One stage of a shutdown. The table is emptied first. -/
def stepShutdown (env : ManagerEnvironment) (now id branch : Nat)
    (branches : Option (List (Nat × Operation))) (m : Manager) : Progress :=
  match branches with
  | none =>
    let sessions := m.listed
    let m := { m with table := [] }
    if sessions.isEmpty then some (m, .finish, [])
    else some (m, .shutdown (some (sessions.map fun i => (i, .startDispose))),
      [.info "Shutting down language server sessions"])
  | some branches =>
    if allReturned branches then some (m, .finish, [])
    else (m.stepBranch env now id branch branches).map fun (m, branches, log) =>
      (m, .shutdown (some branches), log)

/-! ### Any task -/

/-- One stage of one branch of a task, known by a number of its own; nothing while the
branch has to wait or the task has ended. A task without branches goes on in any. -/
def step (env : ManagerEnvironment) (now id branch : Nat) (t : Task) (m : Manager) : Progress :=
  match t with
  | .ensure language text stage => m.stepEnsure env now id language text stage
  | .routed action stage => m.stepRouted env now id action stage
  | .symbols query cancelAt branches => m.stepSymbols env now id branch query cancelAt branches
  | .shutdown branches => m.stepShutdown env now id branch branches
  | .direct session op =>
    match op with
    | .returned r => some (m, .returned (r.map .outcome), [])
    | op => (m.stepSession env now id session op).map fun (m, op, log) =>
        (m, .direct session op, log)
  | .pause until_ => if until_ ≤ now then some (m, .finish, []) else none
  | .returned _ => none

/-- One step of the background of a session. -/
def stepBackground (session : Nat) (m : Manager) : Option (Manager × List LogEntry) :=
  match (m.sessions[session]?).bind (·.stepBackground) with
  | some b => some ({ m.setSession session b.session with
      hub := b.published.foldl Hub.publish m.hub }, b.log)
  | none => none

/-- The sessions that the table or a task leads to. -/
def inUse (m : Manager) (tasks : List Task) : List Nat :=
  let slots := m.table.map (·.2) ++ tasks.flatMap Task.slotRefs
  slots.filterMap m.sessionIn ++ tasks.flatMap Task.refs

/-- Gives up the sessions that nothing leads to. -/
def releaseUnused (m : Manager) (tasks : List Task) : Manager :=
  let used := m.inUse tasks
  { m with sessions := m.sessions.mapIdx fun i s =>
      if s.held && !used.contains i then s.release else s }

end Manager

end LanguageHub
