import Buildpath.Error
import Buildpath.Module

/-! Views of a resolved configuration. A backend looks at a configuration once and
answers with a view of the module graph; the merged view puts the files that the
configuration contributes by itself in front of the backend's. The backend's part is
fixed when the view is made, the other part is found anew for every question. -/
namespace Buildpath

/-- Chooses artifacts; it may fail on one. -/
abbrev Filter := Artifact → Except ResolveError Bool

namespace Filter

def all : Filter := fun _ => .ok true

def none : Filter := fun _ => .ok false

def when (p : Artifact → Bool) : Filter := fun a => .ok (p a)

end Filter

/-- The artifacts a filter accepts, up to the first on which it fails. -/
def accepted (filter : Filter) : List Artifact → Except ResolveError (List Artifact)
  | [] => .ok []
  | a :: rest =>
    match filter a with
    | .error e => .error e
    | .ok take => (accepted filter rest).map (if take then (a :: ·) else id)

/-- The files of the accepted artifacts, each once. -/
def acceptedFiles (filter : Filter) (artifacts : List Artifact) : Except ResolveError (List Path) :=
  (accepted filter artifacts).map fun as => distinctBy Path.components (as.map (·.file))

/-- The answers of a backend for one configuration. -/
structure BackendView where
  files : Filter → Except ResolveError (List Path)
  firstLevel : Except ResolveError (List Tree)
  artifacts : Except ResolveError (List Artifact)

abbrev Backend := Heap → Handle → Except ResolveError BackendView

/-- The files that a configuration contributes without the module graph. -/
def selfResolvedFiles (heap : Heap) (d : Disk) (h : Handle) : Except ResolveError (List Path) :=
  let (ctx, outcome) :=
    Context.contribute heap { transitive := heap.transitive h } (heap.dependencies h)
  match outcome with
  | .error cycle => .error (.cycle cycle)
  | .ok () => (ctx.files d).mapError .file

/-- A backend's view in front of which the configuration's own files are put. -/
structure View where
  configuration : Handle
  backend : BackendView

namespace View

/-- Asks a backend, which may have effects of its own, and keeps what it answers. -/
def resolveWith [Monad m] (ask : Heap → Handle → m (Except ResolveError BackendView))
    (heap : Heap) (h : Handle) : m (Except ResolveError View) := do
  match ← ask heap h with
  | .error e => return .error e
  | .ok view => return .ok ⟨h, view⟩

def resolve (backend : Backend) (heap : Heap) (h : Handle) : Except ResolveError View :=
  Id.run (resolveWith (m := Id) backend heap h)

theorem resolve_eq (backend : Backend) (heap : Heap) (h : Handle) :
    resolve backend heap h = (backend heap h).map fun view => ⟨h, view⟩ := by
  unfold resolve resolveWith
  cases backend heap h <;> rfl

def selfResolved (v : View) (heap : Heap) (d : Disk) : Except ResolveError (List Path) :=
  selfResolvedFiles heap d v.configuration

/-- A backend file that was contributed already keeps its earlier place. -/
def files (v : View) (heap : Heap) (d : Disk) (filter : Filter) : Except ResolveError (List Path) :=
  match v.selfResolved heap d with
  | .error e => .error e
  | .ok own =>
    match v.backend.files filter with
    | .error e => .error e
    | .ok more => .ok (own ++ distinctFrom Path.components (own.map Path.components) more)

end View
end Buildpath
