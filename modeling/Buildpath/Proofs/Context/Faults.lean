import Buildpath.Proofs.Context.Listing
import Buildpath.Proofs.Ring

/-! Why a list of dependencies cannot contribute. A walk only comes to dependencies that followed
projects lead to, and it fails where one of them leads back to a configuration on the way. What is
reported is the way from there on. It is a cycle of handles: the labels are written on its steps,
but no label is ever compared. -/
namespace Buildpath

open Relation

structure Followed (t : Bool) where
  name : String
  target : Handle
  artifacts : Collection
  override : Option Bool
  follow : override.getD t = true

namespace Followed

variable {t : Bool}

def dependency (step : Followed t) : Dependency :=
  .project step.name step.target step.artifacts step.override

def label (heap : Heap) (step : Followed t) : String := step.name ++ ":" ++ heap.name step.target

def Precedes (heap : Heap) (step next : Followed t) : Prop :=
  next.dependency ∈ heap.dependencies step.target

theorem followed?_dependency (step : Followed t) : step.dependency.followed? t = some step.target :=
  Dependency.followed?_project step.follow

theorem Precedes.leads {heap : Heap} {step next : Followed t} (precedes : step.Precedes heap next) :
    heap.Leads (Dependency.followed? t) step.target next.target :=
  ⟨next.dependency, precedes, next.followed?_dependency⟩

end Followed

/-- A cycle of followed dependencies, each declared by what the one before leads to, that can be
reached from the list. -/
structure FollowedCycle (heap : Heap) (deps : List Dependency) (steps : List (Followed t)) : Prop where
  ring : Ring Followed.target (Followed.Precedes heap) steps
  reached : ∀ step ∈ steps, ∃ first : Followed t, first.dependency ∈ deps ∧
    ReflTransGen (Followed.Precedes heap) first step

def Dependency.renamed (call : String → String) : Dependency → Dependency
  | .project name target artifacts override => .project (call name) target artifacts override
  | d => d

def Heap.renamed (call : String → String) (heap : Heap) : Heap :=
  ⟨heap.configurations.map fun c =>
    { c with name := call c.name, dependencies := c.dependencies.map (.renamed call) }⟩

namespace Followed

def entered (heap : Heap) (way : List (Followed t)) : List (Handle × String) :=
  way.map fun step => (step.target, step.label heap)

variable {heap : Heap} {t : Bool} {deps start : List Dependency} {way : List (Followed t)}
  {d : Dependency} {step : Followed t}

theorem map_fst_entered : (entered heap way).map (·.1) = way.map (·.target) := by
  simp only [entered, List.map_map, Function.comp_def]

abbrev Led (heap : Heap) (deps : List Dependency) : List (Followed t) → Followed t → Prop :=
  Trail Followed.target (Followed.Precedes heap) (·.dependency ∈ deps)

/-- A walk that fails has come to a dependency that leads back to its way. -/
theorem led_of_fails {atWay : List (Handle × String)} {entries : List Contribution}
    {outcome : Except Cycle Unit} {c : Cycle} (walks : Walks heap t atWay deps entries outcome)
    (failed : outcome = .error c) (stands : atWay = entered heap way)
    (led : ∀ step : Followed t, step.dependency ∈ deps → Led heap start way step) :
    ∃ (way : List (Followed t)) (last : Followed t), Led heap start way last ∧
      last.target ∈ way.map (·.target) ∧
      c.labels = (way.reverse.dropWhile (·.target ≠ last.target) ++ [last]).map (·.label heap) := by
  induction walks generalizing way with
  | nil => cases failed
  | files _ ih | module _ ih | passed _ _ ih | followed _ _ _ _ _ ih =>
    exact ih failed stands fun step mem => led step (List.mem_cons_of_mem _ mem)
  | @refused target _ name artifacts override _ follow met =>
    subst stands
    cases failed
    rw [map_fst_entered] at met
    refine ⟨way, ⟨name, target, artifacts, override, follow⟩, led _ List.mem_cons_self, met, ?_⟩
    simp only [entered, ← List.map_reverse, List.dropWhile_map, List.map_map, Function.comp_def,
      List.map_append, List.map_singleton, Followed.label]
  | @broken target name _ _ _ artifacts override _ follow new _ ih =>
    subst stands
    rw [map_fst_entered] at new
    let step : Followed t := ⟨name, target, artifacts, override, follow⟩
    have here : Led heap start way step := led step List.mem_cons_self
    exact ih failed rfl fun _ mem => here.enter new mem

/-- What a fresh walk reports is a cycle of followed dependencies, with their labels. -/
theorem followedCycle_of_error {c : Cycle}
    (failed : (Context.contribute heap { transitive := t } deps).2 = .error c) :
    ∃ steps : List (Followed t), FollowedCycle heap deps steps ∧
      c.labels = steps.map (·.label heap) := by
  obtain ⟨entries, outcome, walks⟩ := exists_walks heap { transitive := t } deps
  rw [walks.contribute_eq _ rfl rfl] at failed
  obtain ⟨way, last, led, met, labels⟩ := led_of_fails walks failed rfl fun _ mem => .start mem
  exact ⟨_, ⟨led.ring met, fun step mem => led.reached step (mem_of_mem_reported mem)⟩, labels⟩

end Followed

/-- What can be reached from the list is behind the list. -/
theorem FollowedCycle.cyclic {heap : Heap} {deps : List Dependency} {steps : List (Followed t)}
    (cycle : FollowedCycle heap deps steps) : heap.Cyclic (Dependency.followed? t) deps := by
  obtain ⟨step, mem, loop⟩ := cycle.ring.loop Followed.Precedes.leads
  obtain ⟨first, listed, path⟩ := cycle.reached step mem
  have targets := path.lift Followed.target fun _ _ => Followed.Precedes.leads
  exact ⟨_, listed, _, _, first.followed?_dependency, targets, loop⟩

/-! Names. -/

section
variable (call : String → String) (heap : Heap) (t : Bool)

theorem Dependency.followed?_renamed (d : Dependency) : (d.renamed call).followed? t = d.followed? t := by
  cases d <;> rfl

theorem Heap.dependencies_renamed (h : Handle) :
    (heap.renamed call).dependencies h = (heap.dependencies h).map (.renamed call) := by
  simp only [renamed, dependencies, get?, List.getElem?_map, Option.map_map]
  cases heap.configurations[h]? <;> rfl

theorem Heap.leads_renamed :
    (heap.renamed call).Leads (Dependency.followed? t) = heap.Leads (Dependency.followed? t) := by
  funext h k
  simp [Leads, dependencies_renamed, Dependency.followed?_renamed]

theorem Heap.cyclic_renamed (deps : List Dependency) :
    (heap.renamed call).Cyclic (Dependency.followed? t) (deps.map (.renamed call)) ↔
      heap.Cyclic (Dependency.followed? t) deps := by
  simp [Cyclic, leads_renamed, Dependency.followed?_renamed]

end

/-- A fresh walk over dependencies fails exactly where followed ones lead back to a configuration
that they have come from. Such a cycle can be reached from the list, and its labels are reported,
in order. What projects and configurations are called does not matter: under other names, even if
all are alike, the walk fails where it did before. -/
theorem contribute_cycle_followed (heap : Heap) (t : Bool) (deps : List Dependency) :
    (∀ c, (Context.contribute heap { transitive := t } deps).2 = .error c →
      ∃ steps : List (Followed t), FollowedCycle heap deps steps ∧
        c.text = String.intercalate " -> " (steps.map (·.label heap))) ∧
    (∀ steps : List (Followed t), FollowedCycle heap deps steps →
      ∃ c, (Context.contribute heap { transitive := t } deps).2 = .error c) ∧
    ∀ call, (Context.contribute (heap.renamed call) { transitive := t } (deps.map (.renamed call))).2 =
        .ok () ↔ (Context.contribute heap { transitive := t } deps).2 = .ok () := by
  refine ⟨?sound, ?complete, ?names⟩
  case sound =>
    intro c failed
    obtain ⟨steps, cycle, labels⟩ := Followed.followedCycle_of_error failed
    exact ⟨steps, cycle, by rw [Cycle.text, labels]⟩
  case complete =>
    intro steps cycle
    cases run : (Context.contribute heap { transitive := t } deps).2 with
    | error c => exact ⟨c, rfl⟩
    | ok => exact absurd cycle.cyclic ((contribute_ok_iff heap t deps).mp run)
  case names =>
    intro call
    rw [contribute_ok_iff, contribute_ok_iff, Heap.cyclic_renamed]

/-- Two configurations share a label and the walk goes on. It comes back to the first of them by
another label, which closes the cycle. -/
theorem contribute_cycle_labels :
    let heap : Heap := ⟨[⟨"c", true, [.project "core" 1 (.list []) none]⟩,
      ⟨"c", false, [.project "core" 2 (.list []) none]⟩,
      ⟨"c", false, [.project "lib" 1 (.list []) (some true)]⟩]⟩
    (Context.contribute heap { transitive := true } (heap.dependencies 0)).2 =
        .error ⟨["core:c", "core:c", "lib:c"]⟩ ∧
      ∃ steps : List (Followed true), FollowedCycle heap (heap.dependencies 0) steps ∧
        "core:c -> core:c -> lib:c" = String.intercalate " -> " (steps.map (·.label heap)) ∧
        ∃ c, (Context.contribute heap { transitive := true } (heap.dependencies 0)).2 = .error c := by
  intro heap
  have back : Walks heap true [(2, "core:c"), (1, "core:c")] (heap.dependencies 2) [] _ :=
    .refused rfl (by decide)
  have below : Walks heap true [(1, "core:c")] (heap.dependencies 1) [] _ :=
    .broken rfl (by decide) back
  have walks : Walks heap true [] (heap.dependencies 0) [] _ := .broken rfl (by decide) below
  have failed : (Context.contribute heap { transitive := true } (heap.dependencies 0)).2 =
      .error ⟨["core:c", "core:c", "lib:c"]⟩ := congrArg Prod.snd (walks.contribute_eq _ rfl rfl)
  obtain ⟨reported, fails, -⟩ := contribute_cycle_followed heap true (heap.dependencies 0)
  obtain ⟨steps, cycle, text⟩ := reported _ failed
  exact ⟨failed, steps, cycle, text, fails steps cycle⟩

end Buildpath
