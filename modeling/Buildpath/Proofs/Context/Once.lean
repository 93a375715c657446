import Buildpath.Proofs.Context.Listing
import Buildpath.Proofs.Repeats

/-! Walks that pass over projects they have completed. What a followed project contributes depends
on its target and its artifacts alone, so when it is met again all of that was contributed before.
The walk that remembers is shortened at every level, also inside what it passes over later. So the
two walks are compared by what the whole one has contributed when it comes to the same place. -/
namespace Buildpath

/-- A project dependency, by all that what it contributes depends on. -/
structure Completed where
  target : Handle
  artifacts : Collection
  followed : Bool
deriving DecidableEq

/-- What a walk added, what it completed, also before it began, and how it ended. -/
structure Course where
  added : List Contribution
  completed : List Completed
  outcome : Except Cycle Unit

def Course.behind (course : Course) (entries : List Contribution) : Course :=
  { course with added := entries ++ course.added }

theorem Heap.outside_descends (heap : Heap) {target : Handle} {handles : List Handle}
    (new : target ∉ handles) (n : Nat) : Prod.Lex (· < ·) (· < ·)
      (heap.outside (target :: handles), (heap.dependencies target).length)
      (heap.outside handles, n + 1) := by
  by_cases lt : target < heap.size
  · exact Prod.Lex.left _ _ (outside_cons_lt lt new)
  · rw [dependencies_of_size_le (Nat.le_of_not_lt lt)]
    rcases Nat.lt_or_eq_of_le (outside_cons_le heap target handles) with less | same
    · exact Prod.Lex.left _ _ less
    · rw [same]
      exact Prod.Lex.right _ (by simp)

/-- Walks the dependencies in order, up to the first cycle, and passes over each project that was
completed before. -/
def walkOnce (heap : Heap) (t : Bool) (way : List (Handle × String)) (completed : List Completed) :
    List Dependency → Course
  | [] => ⟨[], completed, .ok ()⟩
  | .files collection :: rest => (walkOnce heap t way completed rest).behind [⟨collection, t⟩]
  | .module .. :: rest => walkOnce heap t way completed rest
  | .project name target artifacts override :: rest =>
    let project : Completed := ⟨target, artifacts, override.getD t⟩
    if project ∈ completed then walkOnce heap t way completed rest
    else if override.getD t then
      let label := name ++ ":" ++ heap.name target
      if _new : target ∈ way.map (·.1) then
        ⟨[], completed, .error ⟨(way.reverse.dropWhile (·.1 ≠ target)).map (·.2) ++ [label]⟩⟩
      else
        let below := walkOnce heap t ((target, label) :: way) completed (heap.dependencies target)
        match below.outcome with
        | .error _ => below
        | .ok () => (walkOnce heap t way (project :: below.completed) rest).behind
            (below.added ++ [⟨artifacts, true⟩])
    else (walkOnce heap t way (project :: completed) rest).behind [⟨artifacts, false⟩]
termination_by deps => (heap.outside (way.map (·.1)), deps.length)
decreasing_by
  all_goals first
    | exact Prod.Lex.right _ (by simp)
    | exact heap.outside_descends _new _

def Context.contributeOnce (heap : Heap) (ctx : Context) (deps : List Dependency) :
    Context × Except Cycle Unit :=
  let course := walkOnce heap ctx.transitive ctx.way [] deps
  (ctx.extend course.added, course.outcome)

section
variable {heap : Heap} {t : Bool} {way : List (Handle × String)} {completed : List Completed}
  {name : String} {target : Handle} {artifacts : Collection} {override : Option Bool}
  {rest : List Dependency}

@[simp] theorem walkOnce_nil : walkOnce heap t way completed [] = ⟨[], completed, .ok ()⟩ := by
  rw [walkOnce]

theorem walkOnce_files {collection : Collection} :
    walkOnce heap t way completed (.files collection :: rest) =
      (walkOnce heap t way completed rest).behind [⟨collection, t⟩] := by
  rw [walkOnce]

theorem walkOnce_module {coordinate : Coordinate} :
    walkOnce heap t way completed (.module coordinate override :: rest) =
      walkOnce heap t way completed rest := by
  rw [walkOnce]

theorem walkOnce_completed (mem : ⟨target, artifacts, override.getD t⟩ ∈ completed) :
    walkOnce heap t way completed (.project name target artifacts override :: rest) =
      walkOnce heap t way completed rest := by
  rw [walkOnce, if_pos mem]

theorem walkOnce_passed (new : ⟨target, artifacts, override.getD t⟩ ∉ completed)
    (pass : override.getD t = false) :
    walkOnce heap t way completed (.project name target artifacts override :: rest) =
      (walkOnce heap t way (⟨target, artifacts, false⟩ :: completed) rest).behind
        [⟨artifacts, false⟩] := by
  rw [walkOnce, if_neg new, pass]
  rfl

theorem walkOnce_followed (new : ⟨target, artifacts, override.getD t⟩ ∉ completed)
    (follow : override.getD t = true) (apart : target ∉ way.map (·.1))
    {below : Course} (inner : walkOnce heap t ((target, name ++ ":" ++ heap.name target) :: way)
      completed (heap.dependencies target) = below) (ok : below.outcome = .ok ()) :
    walkOnce heap t way completed (.project name target artifacts override :: rest) =
      (walkOnce heap t way (⟨target, artifacts, true⟩ :: below.completed) rest).behind
        (below.added ++ [⟨artifacts, true⟩]) := by
  rw [walkOnce, if_neg new]
  simp only [follow, if_true, dif_neg apart, inner, ok]

end

variable {heap : Heap} {t : Bool} {deps : List Dependency}

structure Completed.Within (heap : Heap) (t : Bool) (p : Completed) (seen : List Contribution) :
    Prop where
  own : ⟨p.artifacts, p.followed⟩ ∈ seen
  below : p.followed = true → ∃ entries,
    Listing heap t (heap.dependencies p.target) entries ∧ entries ⊆ seen

theorem Completed.Within.mono {p : Completed} {seen more : List Contribution}
    (within : p.Within heap t seen) (subset : seen ⊆ more) : p.Within heap t more where
  own := subset within.own
  below followed := by
    obtain ⟨entries, listing, part⟩ := within.below followed
    exact ⟨entries, listing, List.Subset.trans part subset⟩

/-- A followed project that is met again lists what is there. -/
theorem Completed.Within.block_subset {target : Handle} {artifacts : Collection}
    {entries seen : List Contribution} (within : Completed.Within heap t ⟨target, artifacts, true⟩ seen)
    (listing : Listing heap t (heap.dependencies target) entries) :
    entries ++ [⟨artifacts, true⟩] ⊆ seen := by
  obtain ⟨others, again, part⟩ := within.below rfl
  obtain rfl := listing.unique again
  exact List.append_subset.mpr ⟨part, List.cons_subset.mpr ⟨within.own, List.nil_subset _⟩⟩

/-- Behind `seen` a course adds `entries`, or fewer that come to the same. -/
structure Course.Shortens (heap : Heap) (t : Bool) (seen entries : List Contribution)
    (course : Course) : Prop where
  ok : course.outcome = .ok ()
  thinned : Thinned seen entries course.added
  within : ∀ p ∈ course.completed, p.Within heap t (entries ++ seen)

namespace Course.Shortens

variable {course : Course} {seen entries : List Contribution}

/-- What is there already may be passed over. -/
theorem passing {old : List Contribution} (shortens : course.Shortens heap t seen entries)
    (there : old ⊆ seen) : course.Shortens heap t seen (old ++ entries) where
  ok := shortens.ok
  thinned := shortens.thinned.drop_append there
  within p mem := (shortens.within p mem).mono (by grind)

theorem behind {first fewer : List Contribution}
    (shortens : course.Shortens heap t (first ++ seen) entries) (thinned : Thinned seen first fewer) :
    (course.behind fewer).Shortens heap t seen (first ++ entries) where
  ok := shortens.ok
  thinned := thinned.append shortens.thinned
  within p mem := (shortens.within p mem).mono (by grind)

end Course.Shortens

/-- Where the walk succeeds the one that remembers adds the same, less repeated entries. -/
theorem Walks.shortens {way : List (Handle × String)} {entries : List Contribution}
    {outcome : Except Cycle Unit} (walks : Walks heap t way deps entries outcome)
    (ok : outcome = .ok ()) {completed : List Completed} {seen : List Contribution}
    (within : ∀ p ∈ completed, p.Within heap t seen) :
    (walkOnce heap t way completed deps).Shortens heap t seen entries := by
  induction walks generalizing completed seen with
  | nil =>
    rw [walkOnce_nil]
    exact ⟨rfl, .nil, within⟩
  | @files _ _ _ _ collection _ ih =>
    have alone : Thinned seen [⟨collection, t⟩] [⟨collection, t⟩] := .refl _ _
    have rest := ih ok fun p mem => (within p mem).mono (List.subset_append_right [⟨collection, t⟩] seen)
    rw [walkOnce_files]
    exact rest.behind alone
  | module _ ih =>
    rw [walkOnce_module]
    exact ih ok within
  | @passed _ _ _ _ _ target artifacts override pass _ ih =>
    let own : Contribution := ⟨artifacts, false⟩
    by_cases old : ⟨target, artifacts, override.getD t⟩ ∈ completed
    · have there : own ∈ seen := by
        have there := (within _ old).own
        rwa [pass] at there
      rw [walkOnce_completed old]
      exact (ih ok within).passing (List.cons_subset.mpr ⟨there, List.nil_subset _⟩)
    · have more : ∀ p ∈ ⟨target, artifacts, false⟩ :: completed, p.Within heap t ([own] ++ seen) :=
        List.forall_mem_cons.mpr ⟨⟨List.mem_cons_self, nofun⟩,
          fun p mem => (within p mem).mono (List.subset_append_right _ _)⟩
      rw [walkOnce_passed old pass]
      exact (ih ok more).behind (.refl _ _)
  | refused => cases ok
  | broken => cases ok
  | @followed target name way below _ _ _ artifacts override follow apart inner _ ihInner ihRest =>
    let own : Contribution := ⟨artifacts, true⟩
    let course := walkOnce heap t ((target, name ++ ":" ++ heap.name target) :: way) completed
      (heap.dependencies target)
    rw [List.append_cons]
    by_cases old : ⟨target, artifacts, override.getD t⟩ ∈ completed
    · have again := within _ old
      rw [follow] at again
      rw [walkOnce_completed old]
      exact (ihRest ok within).passing (again.block_subset (inner.listing rfl))
    · have inside : course.Shortens heap t seen below := ihInner rfl within
      have done : Completed.Within heap t ⟨target, artifacts, true⟩ (below ++ [own] ++ seen) :=
        ⟨by simp [own], fun _ => ⟨below, inner.listing rfl, by grind⟩⟩
      have more : ∀ p ∈ ⟨target, artifacts, true⟩ :: course.completed,
          p.Within heap t (below ++ [own] ++ seen) :=
        List.forall_mem_cons.mpr ⟨done, fun p mem => (inside.within p mem).mono (by grind)⟩
      rw [walkOnce_followed old follow apart rfl inside.ok]
      exact (ihRest ok more).behind (inside.thinned.append (.refl _ _))

inductive Heap.Meets (heap : Heap) (t : Bool) (deps : List Dependency) : Dependency → Prop
  | listed : dep ∈ deps → Meets heap t deps dep
  | behind : Meets heap t deps outer → outer.followed? t = some h → dep ∈ heap.dependencies h →
      Meets heap t deps dep

namespace Listing

variable {entries : List Contribution}

theorem append {more : List Dependency} {others : List Contribution}
    (listing : Listing heap t deps entries) (rest : Listing heap t more others) :
    Listing heap t (deps ++ more) (entries ++ others) := by
  induction listing with
  | nil => exact rest
  | files _ ih => exact .files ih
  | module _ ih => exact .module ih
  | passed pass _ ih => exact .passed pass ih
  | followed follow below _ _ ih =>
    rw [List.append_assoc, List.cons_append]
    exact .followed follow below ih

/-- One of the dependencies by itself lists nothing else. -/
theorem of_mem {dep : Dependency} (listing : Listing heap t deps entries) (mem : dep ∈ deps) :
    ∃ alone, Listing heap t [dep] alone ∧ alone ⊆ entries := by
  induction listing with
  | nil => cases mem
  | files _ ih =>
    rcases List.mem_cons.mp mem with rfl | mem
    · exact ⟨_, .files .nil, by grind⟩
    · obtain ⟨alone, listed, part⟩ := ih mem
      exact ⟨alone, listed, List.subset_cons_of_subset _ part⟩
  | module _ ih =>
    rcases List.mem_cons.mp mem with rfl | mem
    · exact ⟨_, .module .nil, List.nil_subset _⟩
    · exact ih mem
  | passed pass _ ih =>
    rcases List.mem_cons.mp mem with rfl | mem
    · exact ⟨_, .passed pass .nil, by grind⟩
    · obtain ⟨alone, listed, part⟩ := ih mem
      exact ⟨alone, listed, List.subset_cons_of_subset _ part⟩
  | followed follow below _ _ ih =>
    rcases List.mem_cons.mp mem with rfl | mem
    · exact ⟨_, .followed follow below .nil, by grind⟩
    · obtain ⟨alone, listed, part⟩ := ih mem
      exact ⟨alone, listed, by grind⟩

theorem of_meets {dep : Dependency} (listing : Listing heap t deps entries)
    (meets : heap.Meets t deps dep) : ∃ alone, Listing heap t [dep] alone ∧ alone ⊆ entries := by
  induction meets with
  | listed mem => exact listing.of_mem mem
  | behind _ edge mem ih =>
    obtain ⟨outer, listed, part⟩ := ih
    cases listed with
    | files => cases edge
    | module => cases edge
    | passed pass => simp [Dependency.followed?, pass] at edge
    | followed follow inner _ =>
      obtain rfl := Option.some.inj ((Dependency.followed?_project follow).symm.trans edge)
      obtain ⟨alone, listed, within⟩ := inner.of_mem mem
      exact ⟨alone, listed, by grind⟩

/-- Dependencies that are met again list nothing else, however many they are. -/
theorem exists_again (listing : Listing heap t deps entries) {more : List Dependency}
    (met : ∀ dep ∈ more, heap.Meets t deps dep) :
    ∃ others, Listing heap t more others ∧ others ⊆ entries := by
  induction more with
  | nil => exact ⟨[], .nil, List.nil_subset _⟩
  | cons dep rest ih =>
    obtain ⟨first, rest⟩ := List.forall_mem_cons.mp met
    obtain ⟨alone, listed, part⟩ := listing.of_meets first
    obtain ⟨others, listing, parts⟩ := ih rest
    exact ⟨alone ++ others, listed.append listing, List.append_subset.mpr ⟨part, parts⟩⟩

end Listing

/-- Entries that repeat earlier ones add no file, and no reason to have none. -/
theorem Thinned.files_eq {whole short : List Contribution} (thinned : Thinned [] whole short)
    {ctx : Context} (fresh : ctx.entries = []) (d : Disk) :
    (ctx.extend short).files d = (ctx.extend whole).files d := by
  rw [Context.files, Context.files, Context.entries_extend, Context.entries_extend, fresh,
    List.nil_append, List.nil_append]
  exact thinned.mapM_distinctFrom (by simp)

/-- Where a walk succeeds, so does the one that passes over each project equal to one it has
completed. On every disk what that one adds has the same files in the same order, or the same fault
is met first. And whatever dependencies a walk comes to may be contributed again behind it, any
number of times: no file is added, lost or moved. -/
theorem contributeOnce_files {heap : Heap} {t : Bool} {deps : List Dependency}
    (ok : (Context.contribute heap { transitive := t } deps).2 = .ok ()) :
    let whole := (Context.contribute heap { transitive := t } deps).1
    let once := Context.contributeOnce heap { transitive := t } deps
    once.2 = .ok () ∧ once.1.entries.Sublist whole.entries ∧
    (∀ d, once.1.files d = whole.files d) ∧
    ∀ more, (∀ dep ∈ more, heap.Meets t deps dep) →
      (Context.contribute heap { transitive := t } (deps ++ more)).2 = .ok () ∧
      ∀ d, (Context.contribute heap { transitive := t } (deps ++ more)).1.files d = whole.files d := by
  obtain ⟨entries, outcome, walks⟩ := exists_walks heap { transitive := t } deps
  have run := walks.contribute_eq { transitive := t } rfl rfl
  have nothing : ∀ p ∈ ([] : List Completed), p.Within heap t [] := nofun
  rw [run] at ok
  have shortens := walks.shortens ok nothing
  simp only [run, Context.contributeOnce]
  refine ⟨shortens.ok, ?_, shortens.thinned.files_eq rfl, fun more met => ?_⟩
  · rw [Context.entries_extend, Context.entries_extend]
    exact shortens.thinned.sublist.append_left _
  · have listing := walks.listing ok
    obtain ⟨others, again, part⟩ := listing.exists_again met
    obtain ⟨okAgain, added⟩ := contribute_entries_iff.mpr (listing.append again)
    refine ⟨okAgain, fun d => ?_⟩
    rw [(Thinned.again part).files_eq rfl d, Context.files, Context.files, added,
      Context.entries_extend]
    rfl

/-- Two projects share a third, and one of them is met again below the other. Of nine entries four
are left. With both met once more nothing changes. -/
theorem contributeOnce_files_diamond :
    let left : Dependency := .project "left" 0 (.list [⟨"left.jar"⟩]) none
    let right : Dependency := .project "right" 1 (.list [⟨"right.jar"⟩]) (some true)
    let shared : Dependency := .project "shared" 2 (.list [⟨"shared.jar"⟩, ⟨"dep.jar/."⟩]) none
    let heap : Heap := ⟨[⟨"c", true, [shared]⟩, ⟨"c", false, [shared, left]⟩,
      ⟨"c", true, [.files (.list [⟨"dep.jar"⟩])]⟩]⟩
    let whole := (Context.contribute heap { transitive := true } [left, right]).1
    let once := Context.contributeOnce heap { transitive := true } [left, right]
    let more := Context.contribute heap { transitive := true } ([left, right] ++ [shared, left, right])
    let paths : List Path := [⟨"dep.jar"⟩, ⟨"shared.jar"⟩, ⟨"left.jar"⟩, ⟨"right.jar"⟩]
    (Context.contribute heap { transitive := true } [left, right]).2 = .ok () ∧
      whole.entries.length = 9 ∧ once.1.entries.length = 4 ∧ once.2 = .ok () ∧ more.2 = .ok () ∧
      whole.files {} = .ok paths ∧ once.1.files {} = .ok paths ∧ more.1.files {} = .ok paths := by
  intro left right shared heap whole once more paths
  have below : Listing heap true (heap.dependencies 2) _ := .files .nil
  have leftBelow : Listing heap true (heap.dependencies 0) _ := .followed rfl below .nil
  have rightBelow : Listing heap true (heap.dependencies 1) _ :=
    .followed rfl below (.followed rfl leftBelow .nil)
  have listing : Listing heap true [left, right] _ :=
    .followed rfl leftBelow (.followed rfl rightBelow .nil)
  obtain ⟨ok, entries⟩ := contribute_entries_iff.mpr listing
  have resolved : whole.files {} = .ok paths := by
    rw [Context.files, entries]
    decide
  have fewer : once.1.entries.length = 4 := by
    simp [once, Context.contributeOnce, Context.entries, Context.extend, walkOnce, Course.behind,
      heap, Heap.dependencies, Heap.get?, left, right, shared]
  have met : ∀ dep ∈ [shared, left, right], heap.Meets true [left, right] dep := by
    rw [List.forall_mem_cons]
    exact ⟨.behind (.listed List.mem_cons_self) rfl List.mem_cons_self, fun _ => .listed⟩
  obtain ⟨okOnce, _, same, again⟩ := contributeOnce_files ok
  obtain ⟨okMore, sameMore⟩ := again _ met
  exact ⟨ok, congrArg List.length entries, fewer, okOnce, okMore, resolved, (same {}).trans resolved,
    (sameMore {}).trans resolved⟩

end Buildpath
