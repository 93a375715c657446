import Buildpath.Configuration
import Buildpath.Distinct

/-! What a list of dependencies contributes without the module graph. A context takes
the contributed collections in order and knows the project configurations that are
being entered, from the inside out. A project dependency that is followed contributes
what its target's dependencies contribute and then its own artifacts. Entering a
configuration that is being entered already is a cycle.

The walk ends because each configuration can be entered only once on the way, and it
leaves the way as it found it, also when it fails. -/
namespace Buildpath

structure Contribution where
  files : Collection
  transitive : Bool

structure Context where
  /-- Whether project dependencies without an override are followed. -/
  transitive : Bool
  /-- What was contributed, the newest first. -/
  added : List Contribution := []
  /-- The configurations being entered, each with its label, the innermost first. -/
  way : List (Handle × String) := []

/-- The labels of a cycle, the first one again at the end. -/
structure Cycle where
  labels : List String
deriving DecidableEq, Repr

def Cycle.text (c : Cycle) : String := String.intercalate " -> " c.labels

namespace Context

/-- What was contributed, in order. -/
def entries (ctx : Context) : List Contribution := ctx.added.reverse

def add (ctx : Context) (files : Collection) (transitive : Bool) : Context :=
  { ctx with added := ⟨files, transitive⟩ :: ctx.added }

def enter (ctx : Context) (h : Handle) (label : String) : Except Cycle Context :=
  if h ∈ ctx.way.map (·.1) then
    .error ⟨(ctx.way.reverse.dropWhile (·.1 ≠ h)).map (·.2) ++ [label]⟩
  else .ok { ctx with way := (h, label) :: ctx.way }

def leave (ctx : Context) : Context := { ctx with way := ctx.way.tail }

theorem enter_eq_ok {ctx entered : Context} {h : Handle} {label : String}
    (ok : ctx.enter h label = .ok entered) :
    h ∉ ctx.way.map (·.1) ∧ entered.way = (h, label) :: ctx.way := by
  unfold enter at ok
  split at ok
  · simp at ok
  · rename_i new
    cases ok
    exact ⟨new, rfl⟩

/-- How far a walk from `start` came: the context it leaves, on the same way as
before, and the cycle if it ran into one. -/
structure Walked (start : Context) where
  context : Context
  outcome : Except Cycle Unit
  way_eq : context.way = start.way

def Walked.from {start next : Context} (w : Walked next) (h : next.way = start.way) : Walked start :=
  ⟨w.context, w.outcome, w.way_eq.trans h⟩

/-- Walks the dependencies in order, up to the first cycle. -/
def walk (heap : Heap) (ctx : Context) : List Dependency → Walked ctx
  | [] => ⟨ctx, .ok (), rfl⟩
  | .files collection :: rest => (walk heap (ctx.add collection ctx.transitive) rest).from rfl
  | .module .. :: rest => walk heap ctx rest
  | .project name target artifacts override :: rest =>
    if override.getD ctx.transitive then
      match h : ctx.enter target (name ++ ":" ++ heap.name target) with
      | .error cycle => ⟨ctx, .error cycle, rfl⟩
      | .ok entered =>
        let inner := walk heap entered (heap.dependencies target)
        have back : inner.context.leave.way = ctx.way := by
          simp [leave, inner.way_eq, (enter_eq_ok h).2]
        match inner.outcome with
        | .error cycle => ⟨inner.context.leave, .error cycle, back⟩
        | .ok () => (walk heap (inner.context.leave.add artifacts true) rest).from back
    else (walk heap (ctx.add artifacts false) rest).from rfl
termination_by deps => (heap.outside (ctx.way.map (·.1)), deps.length)
decreasing_by
  · exact Prod.Lex.right _ (by simp)
  · exact Prod.Lex.right _ (by simp)
  · have entered := enter_eq_ok h
    rw [entered.2, List.map_cons]
    by_cases lt : target < heap.size
    · exact Prod.Lex.left _ _ (Heap.outside_cons_lt lt entered.1)
    · rcases Nat.lt_or_eq_of_le (Heap.outside_cons_le heap target (ctx.way.map (·.1))) with lt' | eq
      · exact Prod.Lex.left _ _ lt'
      · rw [eq]
        exact Prod.Lex.right _ (by simp [Heap.dependencies_of_size_le (Nat.le_of_not_lt lt)])
  · have same : (inner.context.leave.add artifacts true).way = ctx.way := back
    rw [same]
    exact Prod.Lex.right _ (by simp)
  · exact Prod.Lex.right _ (by simp)

/-- The context after the dependencies have contributed, and how that ended. Entries
added before a cycle was found stay. -/
def contribute (heap : Heap) (ctx : Context) (deps : List Dependency) : Context × Except Cycle Unit :=
  let walked := walk heap ctx deps
  (walked.context, walked.outcome)

section
variable (heap : Heap) (ctx : Context) (rest : List Dependency)

@[simp] theorem way_contribute (deps : List Dependency) :
    (contribute heap ctx deps).1.way = ctx.way := (walk heap ctx deps).way_eq

@[simp] theorem contribute_nil : contribute heap ctx [] = (ctx, .ok ()) := by simp [contribute, walk]

@[simp] theorem contribute_files (collection : Collection) :
    contribute heap ctx (.files collection :: rest) =
      contribute heap (ctx.add collection ctx.transitive) rest := by
  simp [contribute, walk, Walked.from]

@[simp] theorem contribute_module (coordinate : Coordinate) (override : Option Bool) :
    contribute heap ctx (.module coordinate override :: rest) = contribute heap ctx rest := by
  simp [contribute, walk]

/-- A project that is not followed gives its artifacts only. -/
theorem contribute_passed {name : String} {target : Handle} {artifacts : Collection}
    {override : Option Bool} (h : override.getD ctx.transitive = false) :
    contribute heap ctx (.project name target artifacts override :: rest) =
      contribute heap (ctx.add artifacts false) rest := by
  simp [contribute, walk, h, Walked.from]

/-- A project that is followed gives what its target gives, and then its artifacts. -/
theorem contribute_followed {name : String} {target : Handle} {artifacts : Collection}
    {override : Option Bool} (h : override.getD ctx.transitive = true) :
    contribute heap ctx (.project name target artifacts override :: rest) =
      match ctx.enter target (name ++ ":" ++ heap.name target) with
      | .error cycle => (ctx, .error cycle)
      | .ok entered =>
        match contribute heap entered (heap.dependencies target) with
        | (inner, .error cycle) => (inner.leave, .error cycle)
        | (inner, .ok ()) => contribute heap (inner.leave.add artifacts true) rest := by
  unfold contribute
  rw [walk]
  simp only [h, if_true]
  split
  · rename_i he; simp [he]
  · rename_i entered he
    simp only [he]
    split
    · rename_i hi; simp [hi]
    · rename_i hi; simp [hi, Walked.from]

end

/-- The files of all entries, each once. -/
def files (d : Disk) (ctx : Context) : Except FileError (List Path) :=
  (ctx.entries.mapM fun (e : Contribution) => e.files.files d).map fun each =>
    distinctBy Path.components each.flatten

end Context
end Buildpath
