import Buildpath.Proofs.View.Files

/-! What the files of a configuration are read from. A walk comes to the configurations that
followed project dependencies lead to, under the flag of the one it starts at, and reads
nothing but their names and their dependencies. A name belongs to its handle for good; it
shows in the labels of a cycle and nowhere else. -/
namespace Buildpath

open Relation

/-- A walk over what `h` depends on comes to `k`, if it is not stopped before. -/
def Heap.Follows (heap : Heap) (h k : Handle) : Prop :=
  ReflTransGen (heap.Leads (Dependency.followed? (heap.transitive h))) h k

def ResolveError.unlabelled : ResolveError → ResolveError
  | .cycle _ => .cycle ⟨[]⟩
  | e => e

variable {heap other : Heap} {t : Bool} {h : Handle} {d : Disk}

theorem handles_cons {way way' : List (Handle × String)} (handles : way'.map (·.1) = way.map (·.1))
    (h : Handle) (label' label : String) :
    ((h, label') :: way').map (·.1) = ((h, label) :: way).map (·.1) :=
  congrArg (h :: ·) handles

/-- A walk that is not given the names adds the same entries, and it ends alike. -/
theorem Walks.frame_unnamed {way way' : List (Handle × String)} {deps : List Dependency}
    {entries : List Contribution} {outcome : Except Cycle Unit}
    (walks : Walks heap t way deps entries outcome)
    (agree : ∀ d ∈ deps, ∀ k h, d.followed? t = some k →
      ReflTransGen (heap.Leads (Dependency.followed? t)) k h →
      other.dependencies h = heap.dependencies h)
    (handles : way'.map (·.1) = way.map (·.1)) :
    ∃ outcome', Walks other t way' deps entries outcome' ∧ outcome'.isOk = outcome.isOk := by
  induction walks generalizing way' with
  | nil => exact ⟨_, .nil, rfl⟩
  | files _ ih =>
    obtain ⟨outcome', rest, alike⟩ := ih (fun d mem => agree d (List.mem_cons_of_mem _ mem)) handles
    exact ⟨_, .files rest, alike⟩
  | module _ ih =>
    obtain ⟨outcome', rest, alike⟩ := ih (fun d mem => agree d (List.mem_cons_of_mem _ mem)) handles
    exact ⟨_, .module rest, alike⟩
  | passed pass _ ih =>
    obtain ⟨outcome', rest, alike⟩ := ih (fun d mem => agree d (List.mem_cons_of_mem _ mem)) handles
    exact ⟨_, .passed pass rest, alike⟩
  | refused follow mem => exact ⟨_, .refused follow (handles ▸ mem), rfl⟩
  | @broken target name _ _ _ artifacts override _ follow new _ ih =>
    have edge : (Dependency.project name target artifacts override).followed? t = some target :=
      Dependency.followed?_project follow
    obtain ⟨outcome', inner, alike⟩ := ih
      (fun d mem k h leads path => agree _ List.mem_cons_self _ _ edge (.head ⟨d, mem, leads⟩ path))
      (handles_cons handles target (name ++ ":" ++ other.name target) _)
    rw [← agree _ List.mem_cons_self _ _ edge .refl] at inner
    cases outcome' with
    | ok => cases alike
    | error cycle => exact ⟨_, .broken follow (handles ▸ new) inner, rfl⟩
  | @followed target name _ _ _ _ _ artifacts override follow new _ _ ihInner ihRest =>
    have edge : (Dependency.project name target artifacts override).followed? t = some target :=
      Dependency.followed?_project follow
    obtain ⟨inside, inner, ok⟩ := ihInner
      (fun d mem k h leads path => agree _ List.mem_cons_self _ _ edge (.head ⟨d, mem, leads⟩ path))
      (handles_cons handles target (name ++ ":" ++ other.name target) _)
    obtain ⟨outcome', rest, alike⟩ :=
      ihRest (fun d mem => agree d (List.mem_cons_of_mem _ mem)) handles
    rw [← agree _ List.mem_cons_self _ _ edge .refl] at inner
    cases inside with
    | ok => exact ⟨_, .followed follow (handles ▸ new) inner rest, alike⟩
    | error cycle => cases ok

def walkedFiles (d : Disk) (entries : List Contribution) :
    Except Cycle Unit → Except ResolveError (List Path)
  | .error cycle => .error (.cycle cycle)
  | .ok () => (Context.files d (.extend { transitive := true } entries)).mapError .file

theorem Walks.selfResolvedFiles_eq {entries : List Contribution} {outcome : Except Cycle Unit}
    (walks : Walks heap (heap.transitive h) [] (heap.dependencies h) entries outcome) :
    selfResolvedFiles heap d h = walkedFiles d entries outcome := by
  unfold selfResolvedFiles
  rw [walks.contribute_eq _ rfl rfl]
  cases outcome <;> rfl

theorem Heap.Follows.of_dependency {dep : Dependency} {k l : Handle} (mem : dep ∈ heap.dependencies h)
    (edge : dep.followed? (heap.transitive h) = some k)
    (path : ReflTransGen (heap.Leads (Dependency.followed? (heap.transitive h))) k l) :
    heap.Follows h l :=
  .head ⟨dep, mem, edge⟩ path

theorem selfResolvedFiles_frame (flag : other.transitive h = heap.transitive h)
    (agree : ∀ k, heap.Follows h k →
      other.name k = heap.name k ∧ other.dependencies k = heap.dependencies k) :
    selfResolvedFiles other d h = selfResolvedFiles heap d h := by
  obtain ⟨entries, outcome, walks⟩ :=
    exists_walks heap { transitive := heap.transitive h } (heap.dependencies h)
  have same : Walks other (heap.transitive h) [] (heap.dependencies h) entries outcome :=
    walks.frame fun dep mem k l edge path => agree l (.of_dependency mem edge path)
  rw [← flag, ← (agree h .refl).2] at same
  rw [walks.selfResolvedFiles_eq, same.selfResolvedFiles_eq]

theorem selfResolvedFiles_frame_unnamed (flag : other.transitive h = heap.transitive h)
    (agree : ∀ k, heap.Follows h k → other.dependencies k = heap.dependencies k) :
    (selfResolvedFiles other d h).mapError ResolveError.unlabelled =
      (selfResolvedFiles heap d h).mapError ResolveError.unlabelled := by
  obtain ⟨entries, outcome, walks⟩ :=
    exists_walks heap { transitive := heap.transitive h } (heap.dependencies h)
  obtain ⟨outcome', same, alike⟩ : ∃ outcome', Walks other (heap.transitive h) []
      (heap.dependencies h) entries outcome' ∧ outcome'.isOk = outcome.isOk :=
    walks.frame_unnamed (fun dep mem k l edge path => agree l (.of_dependency mem edge path)) rfl
  rw [← flag, ← agree h .refl] at same
  rw [walks.selfResolvedFiles_eq, same.selfResolvedFiles_eq]
  cases outcome <;> cases outcome' <;> first | rfl | cases alike

namespace View

/-- Of heap and disk a view reads what its configuration contributes by itself. -/
theorem files_congr {v : View} {d' : Disk} (own : v.selfResolved other d' = v.selfResolved heap d)
    (filter : Filter) : v.files other d' filter = v.files heap d filter := by
  rw [files, files, own]

end View

/-- Two heaps with one flag for `h` give it the same files, or the same error, if they agree on
the dependencies of all that is followed from it; where they call something else by another
name, only the labels of a cycle can tell. So no change elsewhere and no flag but its own has
a say in what a view of `h` lists. -/
theorem files_read_from_followed :
    (∀ (heap other : Heap) (d : Disk) (h : Handle), other.transitive h = heap.transitive h →
      (∀ k, heap.Follows h k → other.dependencies k = heap.dependencies k) →
      (selfResolvedFiles other d h).mapError ResolveError.unlabelled =
        (selfResolvedFiles heap d h).mapError ResolveError.unlabelled ∧
      ((∀ k, heap.Follows h k → other.name k = heap.name k) →
        selfResolvedFiles other d h = selfResolvedFiles heap d h)) ∧
    (∀ (v : View) (heap other : Heap) (d : Disk),
      (∀ k, heap.Follows v.configuration k → other.get? k = heap.get? k) →
      v.selfResolved other d = v.selfResolved heap d ∧
      ∀ filter, v.files other d filter = v.files heap d filter) ∧
    ∀ (v : View) (heap : Heap) (d : Disk) (flags : List (Handle × Bool)),
      (∀ flag ∈ flags, flag.1 ≠ v.configuration) →
      v.selfResolved (heap.assign flags) d = v.selfResolved heap d ∧
      ∀ filter, v.files (heap.assign flags) d filter = v.files heap d filter := by
  refine ⟨?heaps, ?elsewhere, ?flags⟩
  case heaps =>
    intro heap other d h flag agree
    exact ⟨selfResolvedFiles_frame_unnamed flag agree, fun names =>
      selfResolvedFiles_frame flag fun k follows => ⟨names k follows, agree k follows⟩⟩
  case elsewhere =>
    intro v heap other d agree
    have own : v.selfResolved other d = v.selfResolved heap d := by
      refine selfResolvedFiles_frame ?_ fun k follows => ?_
      · rw [Heap.transitive, agree _ .refl, Heap.transitive]
      · rw [Heap.name, Heap.dependencies, agree k follows]
        exact ⟨rfl, rfl⟩
    exact ⟨own, View.files_congr own⟩
  case flags =>
    intro v heap d flags apart
    have own : v.selfResolved (heap.assign flags) d = v.selfResolved heap d :=
      selfResolvedFiles_frame (Heap.transitive_assign_of_ne apart) fun k _ =>
        ⟨Heap.name_assign heap flags k, Heap.dependencies_assign heap flags k⟩
    exact ⟨own, View.files_congr own⟩

/-- A project that is not followed comes to depend on itself, and one that is followed gets
another flag. -/
theorem files_read_from_followed_passed :
    let passed : Dependency := .project "util" 2 (.list [⟨"util.jar"⟩]) (some false)
    let heap : Heap := ⟨[⟨"compile", true, [.project "core" 1 (.list [⟨"core.jar"⟩]) none, passed]⟩,
      ⟨"compile", true, [.files (.list [⟨"a"⟩]), passed]⟩, ⟨"compile", true, []⟩]⟩
    let other := (heap.addDependency 2 (.project "util" 2 (.list []) (some true))).setTransitive 1 false
    (other.dependencies 2).length = 1 ∧ other.transitive 1 = false ∧
      selfResolvedFiles other {} 0 = selfResolvedFiles heap {} 0 ∧
      selfResolvedFiles other {} 0 = .ok [⟨"a"⟩, ⟨"util.jar"⟩, ⟨"core.jar"⟩] := by
  intro passed heap other
  have followed : ∀ k, heap.Follows 0 k → k = 0 ∨ k = 1 := by
    intro k follows
    induction follows with
    | refl => exact .inl rfl
    | tail _ leads ih =>
      obtain ⟨dep, mem, edge⟩ := leads
      rcases ih with rfl | rfl
      all_goals
        simp only [heap, passed, Heap.dependencies, Heap.get?, List.getElem?_cons_zero,
          List.getElem?_cons_succ, Option.map_some, Option.getD_some, List.mem_cons,
          List.not_mem_nil, or_false] at mem
        rcases mem with rfl | rfl <;> simp [Dependency.followed?, Heap.transitive, heap, Heap.get?] at edge
      exact .inr edge.symm
  have same : selfResolvedFiles other {} 0 = selfResolvedFiles heap {} 0 := by
    refine (files_read_from_followed.1 heap other {} 0 rfl ?_).2 ?_
    · intro k follows
      rcases followed k follows with rfl | rfl <;> rfl
    · intro k follows
      rcases followed k follows with rfl | rfl <;> rfl
  have core : Listing heap true (heap.dependencies 1) _ := .files (.passed rfl .nil)
  have listing : Listing heap true (heap.dependencies 0) _ := .followed rfl core (.passed rfl .nil)
  have gathers : Gathers heap {} 0 (.ok [[⟨"a"⟩], [⟨"util.jar"⟩], [⟨"core.jar"⟩], [⟨"util.jar"⟩]].flatten) :=
    .files listing (.cons rfl (.cons rfl (.cons rfl (.cons rfl .nil))))
  refine ⟨rfl, rfl, same, ?_⟩
  rw [same, gathers.selfResolvedFiles_eq]
  exact congrArg Except.ok (by decide)

end Buildpath
