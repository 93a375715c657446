import Buildpath.Proofs.Lockfile.Unfolding
import Buildpath.Proofs.View.Frame

/-! Modules on the one side, files and projects on the other. Both go through the same lists
of dependencies: a lock document is asked for the modules of one configuration, a walk passes
over the modules of every configuration it comes to. So neither can tell how the two kinds are
mixed, and what is wrong with one kind is no fault of the other. -/
namespace Buildpath

open Relation

/-- What is left to the module graph. -/
def modulesAmong (deps : List Dependency) : List Dependency := deps.filter (!·.selfResolving)

/-- What finds its files by itself. -/
def ownAmong (deps : List Dependency) : List Dependency := deps.filter (·.selfResolving)

structure SameModules (heap : Heap) (h : Handle) (other : Heap) (k : Handle) : Prop where
  name : other.name k = heap.name h
  transitive : other.transitive k = heap.transitive h
  modules : modulesAmong (other.dependencies k) = modulesAmong (heap.dependencies h)

structure SameOwn (heap other : Heap) : Prop where
  name : ∀ k, other.name k = heap.name k
  own : ∀ k, ownAmong (other.dependencies k) = ownAmong (heap.dependencies k)

theorem Lockfile.declaredTrees_modulesAmong (l : Lockfile) (repository : Path)
    (configuration : String) (t : Bool) (deps : List Dependency) :
    l.declaredTrees repository configuration t (modulesAmong deps) =
      l.declaredTrees repository configuration t deps := by
  induction deps with
  | nil => rfl
  | cons d rest ih =>
    cases d with
    | files => exact ih
    | project => exact ih
    | module c override =>
      have kept : modulesAmong (.module c override :: rest) =
          .module c override :: modulesAmong rest := rfl
      rw [kept, declaredTrees, declaredTrees, ih]

/-- A lock document is asked for modules only. -/
theorem SameModules.resolve_eq {heap other : Heap} {h k : Handle} (same : SameModules heap h other k)
    (l : Lockfile) (repository : Path) : l.resolve repository other k = l.resolve repository heap h := by
  have trees := l.declaredTrees_modulesAmong repository (heap.name h) (heap.transitive h)
  rw [Lockfile.resolve, Lockfile.resolve, same.name, same.transitive, ← trees (other.dependencies k),
    same.modules, trees]

namespace Heap

def withoutModules (heap : Heap) : Heap :=
  ⟨heap.configurations.map fun c => { c with dependencies := ownAmong c.dependencies }⟩

theorem get?_withoutModules (heap : Heap) (h : Handle) : heap.withoutModules.get? h =
    (heap.get? h).map fun c => { c with dependencies := ownAmong c.dependencies } := by
  simp only [get?, withoutModules, List.getElem?_map]

@[simp] theorem name_withoutModules (heap : Heap) (h : Handle) :
    heap.withoutModules.name h = heap.name h := by
  rw [name, name, get?_withoutModules, Option.map_map]
  rfl

@[simp] theorem dependencies_withoutModules (heap : Heap) (h : Handle) :
    heap.withoutModules.dependencies h = ownAmong (heap.dependencies h) := by
  rw [dependencies, dependencies, get?_withoutModules]
  cases heap.get? h <;> rfl

end Heap

/-- A walk goes the same way if there are no modules anywhere. -/
theorem Walks.withoutModules {heap : Heap} {t : Bool} {way : List (Handle × String)}
    {deps : List Dependency} {entries : List Contribution} {outcome : Except Cycle Unit}
    (walks : Walks heap t way deps entries outcome) :
    Walks heap.withoutModules t way (ownAmong deps) entries outcome := by
  induction walks with
  | nil => exact .nil
  | files _ ih => exact .files ih
  | module _ ih => exact ih
  | passed pass _ ih => exact .passed pass ih
  | refused follow mem =>
    rw [← Heap.name_withoutModules]
    exact .refused follow mem
  | broken follow new _ ih =>
    rw [← Heap.name_withoutModules, ← Heap.dependencies_withoutModules] at ih
    exact .broken follow new ih
  | followed follow new _ _ ihInner ihRest =>
    rw [← Heap.name_withoutModules, ← Heap.dependencies_withoutModules] at ihInner
    exact .followed follow new ihInner ihRest

/-- Walks over the same files and projects go the same way, whatever modules are among them. -/
theorem SameOwn.walks {heap other : Heap} (same : SameOwn heap other) {t : Bool}
    {deps deps' : List Dependency} (own : ownAmong deps' = ownAmong deps)
    {entries entries' : List Contribution} {outcome outcome' : Except Cycle Unit}
    (walks : Walks heap t [] deps entries outcome) (walks' : Walks other t [] deps' entries' outcome') :
    entries' = entries ∧ outcome' = outcome := by
  have bare : Walks other.withoutModules t [] (ownAmong deps) entries outcome :=
    walks.withoutModules.frame fun _ _ _ h _ _ => by simp [same.name h, same.own h]
  have bare' := walks'.withoutModules
  rw [own] at bare'
  have run := bare.contribute_eq { transitive := t } rfl rfl
  rw [bare'.contribute_eq { transitive := t } rfl rfl] at run
  have added := congrArg (fun result => result.1.entries) run
  simp only [Context.entries_extend] at added
  exact ⟨List.append_cancel_left added, congrArg Prod.snd run⟩

theorem SameOwn.selfResolvedFiles_eq {heap other : Heap} {h : Handle} (same : SameOwn heap other)
    (flag : other.transitive h = heap.transitive h) (d : Disk) :
    selfResolvedFiles other d h = selfResolvedFiles heap d h := by
  obtain ⟨entries, outcome, walks⟩ :=
    exists_walks heap { transitive := heap.transitive h } (heap.dependencies h)
  obtain ⟨entries', outcome', walks'⟩ :=
    exists_walks other { transitive := other.transitive h } (other.dependencies h)
  rw [walks.selfResolvedFiles_eq, walks'.selfResolvedFiles_eq]
  rw [flag] at walks'
  obtain ⟨rfl, rfl⟩ := same.walks (same.own h) walks walks'
  rfl

/-- Modules and what finds its files by itself keep out of each other's way. Where a root has
the same modules, and all configurations the same files and projects, views of it answer alike,
in whatever order the two kinds are declared and whatever modules the others have. And with the
same modules alone resolving, first level and artifacts come out alike: no file, no project and
no cycle of projects, in this heap or another, is ever a reason for them to fail. -/
theorem modules_apart_from_files (l : Lockfile) (repository : Path) :
    (∀ (heap other : Heap) (h : Handle), SameModules heap h other h → SameOwn heap other →
      SameOutcome (fun v w => w.backend.firstLevel = v.backend.firstLevel ∧
          w.backend.artifacts = v.backend.artifacts ∧
          ∀ d, w.selfResolved other d = v.selfResolved heap d ∧
            ∀ filter, w.files other d filter = v.files heap d filter)
        (View.resolve (l.backend repository) heap h) (View.resolve (l.backend repository) other h)) ∧
    ∀ (heap other : Heap) (h k : Handle), SameModules heap h other k →
      SameOutcome (fun v w => w.backend = v.backend ∧
          ∃ trees artifacts, v.backend.firstLevel = .ok trees ∧ v.backend.artifacts = .ok artifacts)
        (View.resolve (l.backend repository) heap h) (View.resolve (l.backend repository) other k) := by
  constructor
  · intro heap other h modules own
    rw [View.resolve_eq, View.resolve_eq, Lockfile.backend, Lockfile.backend,
      modules.resolve_eq l repository]
    apply SameOutcome.map
    intro view _
    have files := own.selfResolvedFiles_eq modules.transitive
    exact ⟨rfl, rfl, fun d => ⟨files d, View.files_congr (files d)⟩⟩
  · intro heap other h k modules
    rw [View.resolve_eq, View.resolve_eq, Lockfile.backend, Lockfile.backend,
      modules.resolve_eq l repository]
    apply SameOutcome.map
    intro view asked
    obtain ⟨r, _, rfl⟩ := map_eq_ok_iff.mp asked
    exact ⟨rfl, r.firstLevel, r.artifacts, rfl, rfl⟩

/-- Modules that are moved, lost and added, and a root that depends on itself. -/
theorem modules_apart_from_files_mixed :
    let l : Lockfile := ⟨[⟨"g:a:1", [], []⟩]⟩
    let a : Dependency := .module ⟨"g", "a", "1", "jar"⟩ none
    let unknown : Dependency := .module ⟨"g", "x", "1", "jar"⟩ none
    let own : Dependency := .files (.list [⟨"own"⟩])
    let core : Dependency := .project "core" 1 (.list [⟨"core.jar"⟩]) none
    let heap : Heap := ⟨[⟨"compile", true, [own, a, core]⟩, ⟨"core", true, [unknown, own]⟩]⟩
    let other : Heap := ⟨[⟨"compile", true, [a, own, core]⟩, ⟨"core", false, [own, a, unknown]⟩]⟩
    let looped : Heap := ⟨[⟨"compile", true, [.project "self" 0 (.list []) none, a]⟩]⟩
    ∃ v w x, View.resolve (l.backend ⟨"r"⟩) heap 0 = .ok v ∧
      View.resolve (l.backend ⟨"r"⟩) other 0 = .ok w ∧
      v.files heap {} .all = .ok [⟨"own"⟩, ⟨"core.jar"⟩, ⟨"r/g/a/1/a-1.jar"⟩] ∧
      w.files other {} .all = v.files heap {} .all ∧
      View.resolve (l.backend ⟨"r"⟩) looped 0 = .ok x ∧ x.backend = v.backend ∧
      x.selfResolved looped {} = .error (.cycle ⟨["self:compile", "self:compile"]⟩) := by
  intro l a unknown own core heap other looped
  have unfolds : Lockfile.Unfolds l ⟨"r"⟩ "compile" [⟨⟨"g", "a", "1", "jar"⟩, true⟩] _ :=
    .of_locked rfl rfl .nil .nil
  have locked : l.resolve ⟨"r"⟩ heap 0 = .ok _ := Lockfile.resolve_eq_ok_iff.mpr ⟨_, unfolds, rfl⟩
  have inner : Listing heap true (heap.dependencies 1) _ := .module (.files .nil)
  have listing : Listing heap true (heap.dependencies 0) _ :=
    .files (.module (.followed rfl inner .nil))
  have gathers : Gathers heap {} 0 (.ok [[⟨"own"⟩], [⟨"own"⟩], [⟨"core.jar"⟩]].flatten) :=
    .files listing (.cons rfl (.cons rfl (.cons rfl .nil)))
  obtain ⟨v, resolved, files⟩ : ∃ v, View.resolve (l.backend ⟨"r"⟩) heap 0 = .ok v ∧
      v.files heap {} .all = .ok [⟨"own"⟩, ⟨"core.jar"⟩, ⟨"r/g/a/1/a-1.jar"⟩] :=
    ⟨_, View.resolve_eq_ok_iff.mpr ⟨_, locked, rfl⟩,
      View.files_eq_ok_iff.mpr ⟨_, _, gathers, rfl, by decide⟩⟩
  have mixed := (modules_apart_from_files l ⟨"r"⟩).1 heap other 0 ⟨rfl, rfl, rfl⟩
    ⟨fun | 0 | 1 | _ + 2 => rfl, fun | 0 | 1 | _ + 2 => rfl⟩
  have loops := (modules_apart_from_files l ⟨"r"⟩).2 heap looped 0 0 ⟨rfl, rfl, rfl⟩
  have cycle : selfResolvedFiles looped {} 0 = .error (.cycle ⟨["self:compile", "self:compile"]⟩) := by
    have walks : Walks looped (looped.transitive 0) [] (looped.dependencies 0) _ _ :=
      .broken rfl (by simp) (.refused rfl (by simp))
    exact walks.selfResolvedFiles_eq
  rw [resolved] at mixed loops
  obtain ⟨w, again, alike⟩ := mixed.of_ok
  obtain ⟨x, third, same⟩ := loops.of_ok
  obtain ⟨_, _, rfl⟩ := View.resolve_eq_ok_iff.mp third
  exact ⟨v, w, _, resolved, again, files, (alike.2.2 {}).2 .all, third, same.1, cycle⟩

end Buildpath
