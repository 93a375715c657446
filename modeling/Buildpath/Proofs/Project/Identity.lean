import Buildpath.Proofs.Configuration.Graph
import Buildpath.Proofs.Project.Loading

/-! Which loaded configurations are the same. A handle is made when a pair of a directory and a
configuration name is loaded, and the pair is remembered with it; so handles and pairs stand
for each other, and how a path to a directory was spelled or by which way it was come to leaves
no trace. That a pair cannot be loaded below itself keeps it from getting a second handle while
the first is on its way. -/
namespace Buildpath.Project

open Relation

variable {d : Disk}

theorem demand_eq_load_iff {key target : Key} {declaration : Manifest.Declaration}
    {override : Option Bool} : demand d key declaration = .ok (.load target override) ↔
      ∃ path configuration root, declaration.source = .ok (.project path configuration) ∧
        rootOf d key.1 path = .ok root ∧ target = (root, configuration.getD key.2) ∧
        override = declaration.transitive := by
  unfold demand
  constructor
  · intro asked
    split at asked
    · cases asked
    · cases asked
    · cases asked
    · split at asked <;> cases asked
    · rename_i source
      split at asked
      · cases asked
      · rename_i root found
        cases asked
        exact ⟨_, _, root, source, found, rfl, rfl⟩
  · rintro ⟨path, configuration, root, source, found, rfl, rfl⟩
    simp only [source, found]

/-- The handles that are met in what was loaded, each with the pair it was loaded for. The
declaration of a project and the dependency that came of it stand at the same place. -/
inductive Met (d : Disk) (heap : Heap) (first : Handle) (start : Key) : Handle → Key → Prop
  | first : Met d heap first start first start
  | project {declaration : Manifest.Declaration} {dep : Dependency} {configuration : Option String} :
      Met d heap first start h key →
      manifestAt d key.1 = .ok m → m.configuration key.2 = .ok s →
      (declaration, dep) ∈ s.dependencies.zip (heap.dependencies h) →
      declaration.source = .ok (.project path configuration) → rootOf d key.1 path = .ok root →
      dep.target? = some k → Met d heap first start k (root, configuration.getD key.2)

/-- What became of a declaration, by the table of loaded pairs. -/
inductive Links (d : Disk) (table : List (Key × Loaded)) (key : Key) :
    Manifest.Declaration → Dependency → Prop
  | plain : (∀ target override, demand d key declaration ≠ .ok (.load target override)) →
      dep.target? = none → Links d table key declaration dep
  | project : demand d key declaration = .ok (.load target override) → (target, found) ∈ table →
      Links d table key declaration (found.dependency override)

theorem Links.mono {table larger : List (Key × Loaded)} (subset : table ⊆ larger) {key : Key}
    {declaration : Manifest.Declaration} {dep : Dependency} (links : Links d table key declaration dep) :
    Links d larger key declaration dep := by
  cases links with
  | plain unloading none => exact .plain unloading none
  | project asked mem => exact .project asked (subset mem)

structure Identified (d : Disk) (way : List Step) (st : State) : Prop where
  made : ∀ entry ∈ st.loaded, entry.2.configuration < st.heap.size
  unique : ∀ entry ∈ st.loaded, ∀ other ∈ st.loaded,
    entry.2.configuration = other.2.configuration ↔ entry.1 = other.1
  apart : ∀ entry ∈ st.loaded, entry.1 ∉ way.map (·.key)
  links : ∀ entry ∈ st.loaded, ∃ m s, manifestAt d entry.1.1 = .ok m ∧
    m.configuration entry.1.2 = .ok s ∧ List.Forall₂ (Links d st.loaded entry.1) s.dependencies
      (st.heap.dependencies entry.2.configuration)

section
variable {way : List Step} {key : Key} {st : State}

theorem identified_initial (heap : Heap) : Identified d way { heap } := by
  constructor <;> simp

theorem Identified.enter (identified : Identified d way st) (memo : st.loaded.lookup key = none)
    (label : String) : Identified d (⟨key, label⟩ :: way) st where
  made := identified.made
  unique := identified.unique
  links := identified.links
  apart := by
    intro entry mem
    rw [List.map_cons, List.mem_cons, not_or]
    refine ⟨?_, identified.apart entry mem⟩
    rintro rfl
    simpa using List.lookup_eq_none_iff.mp memo entry mem

/-- The handle that is made last belongs to the pair that was not loaded before. -/
theorem Identified.finish {label : String} {m : Manifest} {s : Manifest.Section}
    {deps : List Dependency} (identified : Identified d (⟨key, label⟩ :: way) st)
    (entered : enterPair d way key = .ok (m, s))
    (links : List.Forall₂ (Links d st.loaded key) s.dependencies deps) :
    Identified d way (st.finish key m s deps).2 := by
  obtain ⟨read, new, declared⟩ := enterPair_eq_ok_iff.mp entered
  have grown : st.loaded ⊆ (st.finish key m s deps).2.loaded := List.subset_cons_self _ _
  have old : ∀ entry ∈ st.loaded, entry.2.configuration ≠ st.heap.size ∧ entry.1 ≠ key := by
    intro entry mem
    refine ⟨Nat.ne_of_lt (identified.made entry mem), ?_⟩
    rintro rfl
    exact identified.apart entry mem List.mem_cons_self
  refine ⟨?made, ?unique, ?apart, ?links⟩
  case made =>
    have size : (st.finish key m s deps).2.heap.size = st.heap.size + 1 := Heap.size_alloc _ _
    intro entry mem
    rw [size]
    rcases List.mem_cons.mp mem with rfl | mem
    · exact Nat.lt_succ_self _
    · exact Nat.lt_succ_of_lt (identified.made entry mem)
  case unique =>
    intro entry mem other member
    rcases List.mem_cons.mp mem with rfl | mem <;> rcases List.mem_cons.mp member with rfl | member
    · exact ⟨fun _ => rfl, fun _ => rfl⟩
    · exact iff_of_false (old other member).1.symm (old other member).2.symm
    · exact iff_of_false (old entry mem).1 (old entry mem).2
    · exact identified.unique entry mem other member
  case apart =>
    intro entry mem
    rcases List.mem_cons.mp mem with rfl | mem
    · exact new
    · exact fun on => identified.apart entry mem (List.mem_cons_of_mem _ on)
  case links =>
    intro entry mem
    rw [State.finish, Heap.dependencies_alloc]
    rcases List.mem_cons.mp mem with rfl | mem
    · rw [if_pos rfl]
      exact ⟨m, s, read, declared, links.imp fun _ _ => Links.mono grown⟩
    · obtain ⟨m', s', read', declared', links'⟩ := identified.links entry mem
      rw [if_neg (old entry mem).1]
      exact ⟨m', s', read', declared', links'.imp fun _ _ => Links.mono grown⟩

end

theorem keptOk_identified (d : Disk) : KeptOk d
    (fun way key st found after => Identified d way st → Identified d way after ∧
      st.loaded ⊆ after.loaded ∧ (key, found) ∈ after.loaded)
    (fun way key declarations st deps after => Identified d way st → Identified d way after ∧
      st.loaded ⊆ after.loaded ∧ List.Forall₂ (Links d after.loaded key) declarations deps) where
  hit memo identified := ⟨identified, List.Subset.refl _, mem_of_lookup memo⟩
  finished memo entered each identified := by
    obtain ⟨inner, grows, links⟩ := each (identified.enter memo _)
    exact ⟨inner.finish entered links, List.Subset.trans grows (List.subset_cons_self _ _), List.mem_cons_self⟩
  nil identified := ⟨identified, List.Subset.refl _, .nil⟩
  files asked each identified := by
    obtain ⟨rest, grows, links⟩ := each identified
    exact ⟨rest, grows, .cons (.plain (by simp [asked]) rfl) links⟩
  module asked each identified := by
    obtain ⟨rest, grows, links⟩ := each identified
    exact ⟨rest, grows, .cons (.plain (by simp [asked]) rfl) links⟩
  loaded asked pair each identified := by
    obtain ⟨middle, first, mem⟩ := pair identified
    obtain ⟨rest, grows, links⟩ := each middle
    exact ⟨rest, List.Subset.trans first grows, .cons (.project asked (grows mem)) links⟩

variable {way : List Step} {st : State} {first h : Handle} {start key : Key}

/-- Every handle that is met is in the table, under the pair it is met for. -/
theorem Identified.met (identified : Identified d way st) {found : Loaded}
    (loaded : (start, found) ∈ st.loaded)
    (met : Met d st.heap found.configuration start h key) :
    ∃ other, (key, other) ∈ st.loaded ∧ other.configuration = h := by
  induction met with
  | first => exact ⟨found, loaded, rfl⟩
  | project _ read declared at_ source located edge ih =>
    obtain ⟨other, mem, rfl⟩ := ih
    obtain ⟨m, s, read', declared', links⟩ := identified.links _ mem
    obtain rfl := Except.ok.inj (read.symm.trans read')
    obtain rfl := Except.ok.inj (declared.symm.trans declared')
    have asked := demand_eq_load_iff.mpr ⟨_, _, _, source, located, rfl, rfl⟩
    cases (List.forall₂_iff_zip.mp links).2 at_ with
    | plain unloading => exact absurd asked (unloading _ _)
    | project asked' member =>
      cases asked.symm.trans asked'
      exact ⟨_, member, Option.some.inj edge⟩

/-- Every handle that project dependencies lead to is met. -/
theorem Identified.exists_met (identified : Identified d way st) {found : Loaded}
    (loaded : (start, found) ∈ st.loaded)
    (path : ReflTransGen (st.heap.Leads Dependency.target?) found.configuration h) :
    ∃ key, Met d st.heap found.configuration start h key := by
  induction path with
  | refl => exact ⟨start, .first⟩
  | tail _ leads ih =>
    obtain ⟨key, met⟩ := ih
    obtain ⟨dep, mem, edge⟩ := leads
    obtain ⟨other, member, rfl⟩ := identified.met loaded met
    obtain ⟨m, s, read, declared, links⟩ := identified.links _ member
    obtain ⟨i, bound, here⟩ := List.mem_iff_getElem.mp mem
    have inside : i < (s.dependencies.zip (st.heap.dependencies other.configuration)).length := by
      rw [List.length_zip, links.length_eq, Nat.min_self]
      exact bound
    have at_ : (_, dep) ∈ s.dependencies.zip (st.heap.dependencies other.configuration) :=
      List.mem_iff_getElem.mpr ⟨i, inside, by rw [List.getElem_zip, here]⟩
    cases (List.forall₂_iff_zip.mp links).2 at_ with
    | plain _ none => rw [none] at edge; cases edge
    | project asked =>
      obtain ⟨path, configuration, root, source, located, rfl, _⟩ := demand_eq_load_iff.mp asked
      exact ⟨_, .project met read declared at_ source located edge⟩

/-- Two handles that are met in what was loaded are the same exactly if the pairs are that they
were loaded for, and everything in it is met for some pair. -/
theorem load_same_iff {root : Path} {name : String} {heap heap' : Heap} {h : Handle}
    (run : load d root name heap = .ok (h, heap')) : ∃ l, d.canonicalize root = .ok l ∧
      (∀ k, ReflTransGen (heap'.Leads Dependency.target?) h k → ∃ key, Met d heap' h (l, name) k key) ∧
      ∀ k key k' key', Met d heap' h (l, name) k key → Met d heap' h (l, name) k' key' →
        (k = k' ↔ key = key') := by
  obtain ⟨l, found, after, located, pair, rfl, rfl⟩ := load_eq_ok run
  obtain ⟨identified, _, loaded⟩ := (keptOk_identified d).pair pair (identified_initial heap)
  refine ⟨l, located, fun k path => identified.exists_met loaded path, ?_⟩
  intro k key k' key' met met'
  obtain ⟨entry, mem, rfl⟩ := identified.met loaded met
  obtain ⟨entry', mem', rfl⟩ := identified.met loaded met'
  exact identified.unique _ mem _ mem'

/-- Both spellings of the path to `core` lead to one handle. -/
theorem load_app_same : load twoProjects ⟨"/app"⟩ "c" {} = .ok (1, appHeap) ∧
    rootOf twoProjects ["app"] "../core" = .ok ["core"] ∧
    rootOf twoProjects ["app"] "./../core" = .ok ["core"] ∧
    ∀ k k', (appHeap.dependencies 1).map Dependency.target? = [some k, some k'] → k = k' := by
  refine ⟨load_app, rootOf_core, rootOf_core_again, ?_⟩
  intro k k' targets
  obtain ⟨l, located, _, same⟩ := load_same_iff load_app
  obtain rfl := Except.ok.inj (canonicalize_app.symm.trans located)
  have declared : appManifest.configuration "c" = .ok appSection := rfl
  have met (i : Nat) {dep : Dependency} {declaration : Manifest.Declaration} {path : String} {k : Handle}
      (at_ : (appSection.dependencies.zip (appHeap.dependencies 1))[i]? = some (declaration, dep))
      (source : declaration.source = .ok (.project path none))
      (found : rootOf twoProjects ["app"] path = .ok ["core"]) (edge : dep.target? = some k) :
      Met twoProjects appHeap 1 (["app"], "c") k (["core"], "c") :=
    .project .first manifestAt_app declared (List.mem_of_getElem? at_) source found edge
  obtain ⟨first, second⟩ : some 0 = some k ∧ some 0 = some k' := by
    simpa [appHeap, Heap.dependencies, Heap.get?, Dependency.target?] using targets
  exact (same _ _ _ _ (met 0 rfl rfl rootOf_core first) (met 1 rfl rfl rootOf_core_again second)).mpr rfl

end Buildpath.Project
