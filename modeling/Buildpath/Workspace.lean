import Buildpath.Lockfile.Resolve
import Buildpath.Project

/-! A workspace is a disk and a heap with names for what was made on them:
configurations, copies of dependency lists, contexts, resolvers and views. Requests
change it one at a time; a request that fails makes nothing, but what it did before it
failed stays. A name that is given again stands for the new thing. -/
namespace Buildpath

/-- A backend with the number of times it was asked. -/
structure Resolver where
  backend : Backend
  calls : Nat := 0

/-- A question to a backend counts even if it is not answered. -/
def Resolver.ask (heap : Heap) (h : Handle) : StateM Resolver (Except ResolveError BackendView) :=
  fun r => (r.backend heap h, { r with calls := r.calls + 1 })

/-- A view as it is kept: merged with the configuration's own files, or the backend's alone. -/
inductive KeptView where
  | merged (view : View)
  | plain (view : BackendView)

structure Workspace where
  disk : Disk
  heap : Heap := {}
  configurations : List (String × Handle) := []
  snapshots : List (String × List Dependency) := []
  contexts : List (String × Context) := []
  resolvers : List (String × Resolver) := []
  views : List (String × KeptView) := []

namespace Workspace

/-- A dependency in a request, which knows configurations by name. -/
inductive Addition where
  | files (collection : Collection)
  | module (coordinate : Coordinate) (override : Option Bool)
  /-- A coordinate that still has to be read. -/
  | moduleText (text : String) (override : Option Bool)
  | project (name : String) (configuration : String) (artifacts : Collection) (override : Option Bool)

inductive ResolverSource where
  | lock (lockfile : Lockfile) (repository : Path)
  | lockAt (path : Path) (repository : Path)
  | backend (backend : Backend)

inductive Request where
  | write (path : Path) (entry : Disk.Entry)
  | remove (path : Path)
  | enumerate (collection : Collection)
  | configure (id : String) (name : String) (transitive : Bool)
  | alias (id : String) (other : String)
  | add (configuration : String) (addition : Addition)
  | setTransitive (configuration : String) (transitive : Bool)
  | info (configuration : String)
  | same (left : String) (right : String)
  | snapshot (id : String) (configuration : String)
  | snapshotInfo (id : String)
  | load (id : String) (root : Path) (name : String)
  | describe (configuration : String)
  | child (id : String) (configuration : String) (index : Nat)
  | published (root : Path)
  | openContext (id : String) (transitive : Bool)
  | addToContext (context : String) (collection : Collection) (transitive : Option Bool)
  | contribute (context : String) (configuration : String) (index : Option Nat)
  | contextEntries (context : String)
  | contextFiles (context : String)
  | makeResolver (id : String) (source : ResolverSource)
  | calls (resolver : String)
  | resolve (id : String) (resolver : String) (configuration : String) (plain : Bool)
  | files (view : String) (filter : Filter)
  | backendFiles (view : String) (filter : Filter)
  | selfFiles (view : String)
  | viewOf (view : String) (configuration : String)
  | firstLevel (view : String)
  | artifacts (view : String)

inductive Reply where
  | done
  | number (n : Nat)
  | flag (b : Bool)
  | paths (paths : List Path)
  | configuration (c : Configuration)
  | dependencies (list : List Dependency)
  | handle (h : Handle)
  | project (name : String) (configuration : String) (override : Option Bool)
  | collection (empty : Bool) (files : Except FileError (List Path))
  | entries (transitive : Bool) (entries : List (Bool × Except FileError (List Path)))
  | trees (trees : List Tree)
  | artifacts (artifacts : List Artifact)

inductive Problem where
  | unknownName (name : String)
  | disk (fault : Disk.Fault)
  | resolve (error : ResolveError)

abbrev Answer := Except Problem Reply

/-- Gives a name to a thing. -/
def named (id : String) (a : α) (table : List (String × α)) : List (String × α) :=
  (id, a) :: table.filter (·.1 ≠ id)

def find (table : List (String × α)) (id : String) : Except Problem α :=
  match table.lookup id with
  | some a => .ok a
  | none => .error (.unknownName id)

def handle (ws : Workspace) (id : String) : Except Problem Handle := find ws.configurations id

/-- The dependency a request means. -/
def dependency (ws : Workspace) : Addition → Except Problem Dependency
  | .files collection => .ok (.files collection)
  | .module coordinate override => .ok (.module coordinate override)
  | .moduleText text override =>
    match Coordinate.parse text with
    | .ok coordinate => .ok (.module coordinate override)
    | .error e => .error (.resolve (.coordinate e))
  | .project name configuration artifacts override =>
    (ws.handle configuration).map (.project name · artifacts override)

def backendOf (ws : Workspace) : ResolverSource → Except Problem Backend
  | .lock lockfile repository => .ok (lockfile.backend repository)
  | .lockAt path repository =>
    match Lockfile.load ws.disk path with
    | .ok lockfile => .ok (lockfile.backend repository)
    | .error e => .error (.resolve (.lockfile e))
  | .backend backend => .ok backend

/-- A question changes nothing. -/
def ask (ws : Workspace) (answer : Answer) : Workspace × Answer := (ws, answer)

/-- The changed workspace, or the old one with the reason why nothing was made. -/
def change (ws : Workspace) : Except Problem (Workspace × Reply) → Workspace × Answer
  | .ok (next, reply) => (next, .ok reply)
  | .error problem => (ws, .error problem)

def resolved (answer : Except ResolveError α) : Except Problem α := answer.mapError .resolve

def filesOf (ws : Workspace) (filter : Filter) : KeptView → Except ResolveError (List Path)
  | .merged view => view.files ws.heap ws.disk filter
  | .plain view => view.files filter

def backendPart : KeptView → BackendView
  | .merged view => view.backend
  | .plain view => view

def mergedView (ws : Workspace) (id : String) : Except Problem View := do
  match ← find ws.views id with
  | .merged view => return view
  | .plain _ => .error (.unknownName id)

/-- Lets dependencies contribute to a context, in order, up to the first failure. -/
def contribute (ws : Workspace) (id : String) (configuration : String) (index : Option Nat) :
    Workspace × Answer :=
  let found : Except Problem (Context × List Dependency) := do
    let ctx ← find ws.contexts id
    let all := ws.heap.dependencies (← ws.handle configuration)
    return (ctx, match index with
      | some i => (all[i]?).toList
      | none => all)
  match found with
  | .error problem => (ws, .error problem)
  | .ok (ctx, deps) =>
    let (ctx, outcome) := ctx.contribute ws.heap deps
    let ws := { ws with contexts := named id ctx ws.contexts }
    match outcome with
    | .ok () => (ws, .ok (.number ctx.entries.length))
    | .error cycle => (ws, .error (.resolve (.cycle cycle)))

/-- Asks a resolver for a view. -/
def resolve (ws : Workspace) (id resolver configuration : String) (plain : Bool) : Workspace × Answer :=
  match find ws.resolvers resolver, ws.handle configuration with
  | .error problem, _ | _, .error problem => (ws, .error problem)
  | .ok r, .ok h =>
    let (outcome, r) := (View.resolveWith Resolver.ask ws.heap h).run r
    let ws := { ws with resolvers := named resolver r ws.resolvers }
    match outcome with
    | .error e => (ws, .error (.resolve e))
    | .ok view =>
      let kept := if plain then .plain view.backend else .merged view
      ({ ws with views := named id kept ws.views }, .ok .done)

def run (ws : Workspace) : Request → Workspace × Answer
  | .write path entry => ws.change do
    let disk ← (ws.disk.write path entry).mapError .disk
    return ({ ws with disk }, .done)
  | .remove path => ws.change do
    let disk ← (ws.disk.remove path).mapError .disk
    return ({ ws with disk }, .done)
  | .enumerate collection => ws.ask do
    return .paths (← resolved ((collection.files ws.disk).mapError .file))
  | .configure id name transitive =>
    let (heap, h) := ws.heap.alloc { name, transitive }
    ({ ws with heap, configurations := named id h ws.configurations }, .ok .done)
  | .alias id other => ws.change do
    let h ← ws.handle other
    return ({ ws with configurations := named id h ws.configurations }, .done)
  | .add configuration addition => ws.change do
    let h ← ws.handle configuration
    let heap := ws.heap.addDependency h (← ws.dependency addition)
    return ({ ws with heap }, .number (heap.dependencies h).length)
  | .setTransitive configuration transitive => ws.change do
    let h ← ws.handle configuration
    return ({ ws with heap := ws.heap.setTransitive h transitive }, .done)
  | .info configuration => ws.ask do
    let h ← ws.handle configuration
    return .configuration ⟨ws.heap.name h, ws.heap.transitive h, ws.heap.dependencies h⟩
  | .same left right => ws.ask do
    return .flag ((← ws.handle left) = (← ws.handle right))
  | .snapshot id configuration => ws.change do
    let list := ws.heap.dependencies (← ws.handle configuration)
    return ({ ws with snapshots := named id list ws.snapshots }, .done)
  | .snapshotInfo id => ws.ask do
    return .dependencies (← find ws.snapshots id)
  | .load id root name => ws.change do
    let (h, heap) ← resolved (Project.load ws.disk root name ws.heap)
    return ({ ws with heap, configurations := named id h ws.configurations }, .handle h)
  | .describe configuration => ws.ask do
    return .handle (← ws.handle configuration)
  | .child id configuration index => ws.change do
    let h ← ws.handle configuration
    match (ws.heap.dependencies h)[index]? with
    | some (.project name target _ override) =>
      return ({ ws with configurations := named id target ws.configurations },
        .project name (ws.heap.name target) override)
    | _ => .error (.unknownName configuration)
  | .published root => ws.ask do
    let path := root.join Project.manifestName
    let m ← resolved ((Manifest.load ws.disk path).mapError .manifest)
    let published := Project.published root m
    return .collection published.isEmptyUnion (published.files ws.disk)
  | .openContext id transitive =>
    ({ ws with contexts := named id { transitive } ws.contexts }, .ok .done)
  | .addToContext id collection transitive => ws.change do
    let ctx ← find ws.contexts id
    let ctx := ctx.add collection (transitive.getD ctx.transitive)
    return ({ ws with contexts := named id ctx ws.contexts }, .done)
  | .contribute id configuration index => ws.contribute id configuration index
  | .contextEntries id => ws.ask do
    let ctx ← find ws.contexts id
    return .entries ctx.transitive (ctx.entries.map fun e => (e.transitive, e.files.files ws.disk))
  | .contextFiles id => ws.ask do
    let ctx ← find ws.contexts id
    return .paths (← resolved ((ctx.files ws.disk).mapError .file))
  | .makeResolver id source => ws.change do
    let backend ← ws.backendOf source
    return ({ ws with resolvers := named id { backend } ws.resolvers }, .done)
  | .calls resolver => ws.ask do
    return .number (← find ws.resolvers resolver).calls
  | .resolve id resolver configuration plain => ws.resolve id resolver configuration plain
  | .files view filter => ws.ask do
    return .paths (← resolved (ws.filesOf filter (← find ws.views view)))
  | .backendFiles view filter => ws.ask do
    return .paths (← resolved ((← ws.mergedView view).backend.files filter))
  | .selfFiles view => ws.ask do
    return .paths (← resolved ((← ws.mergedView view).selfResolved ws.heap ws.disk))
  | .viewOf view configuration => ws.ask do
    return .flag ((← ws.mergedView view).configuration = (← ws.handle configuration))
  | .firstLevel view => ws.ask do
    return .trees (← resolved (backendPart (← find ws.views view)).firstLevel)
  | .artifacts view => ws.ask do
    return .artifacts (← resolved (backendPart (← find ws.views view)).artifacts)

/-- One request after the other, with the answers in order. -/
def runAll (ws : Workspace) : List Request → Workspace × List Answer
  | [] => (ws, [])
  | request :: rest =>
    let (next, answer) := ws.run request
    let (final, answers) := next.runAll rest
    (final, answer :: answers)

end Workspace
end Buildpath
