import Buildpath.Lockfile.Resolve
import Buildpath.Proofs.FirstFault
import Mathlib.Logic.Relation

/-! The course of unfolding modules from a lock document as a relation. It takes what is asked
for in order, with the ids on its way, and says how that ends; every unfolding has one course,
and two documents that agree on the entries it looks at have the same. -/
namespace Buildpath

open Relation

/-- A module, alone or with all that it depends on. -/
structure Wanted where
  coordinate : Coordinate
  transitive : Bool
deriving DecidableEq, Repr

def Wanted.ofId (id : String) : Except Coordinate.Malformed Wanted :=
  (Coordinate.parse id).map fun c => ⟨c, true⟩

/-- The modules that a list of dependencies declares. Their dependencies are wanted too if
neither the flag `t` nor an override says otherwise. -/
def declaredModules (t : Bool) : List Dependency → List Wanted
  | [] => []
  | .module c override :: rest => ⟨c, t && override.getD true⟩ :: declaredModules t rest
  | _ :: rest => declaredModules t rest

theorem mem_declaredModules {t : Bool} {deps : List Dependency} {w : Wanted} :
    w ∈ declaredModules t deps ↔ ∃ override,
      .module w.coordinate override ∈ deps ∧ w.transitive = (t && override.getD true) := by
  induction deps with
  | nil => simp [declaredModules]
  | cons d rest ih =>
    cases d with
    | files => simp [declaredModules, ih]
    | project => simp [declaredModules, ih]
    | module c override =>
      obtain ⟨coordinate, transitive⟩ := w
      simp only [declaredModules, List.mem_cons, Wanted.mk.injEq, ih, Dependency.module.injEq]
      constructor
      · rintro (⟨rfl, rfl⟩ | ⟨other, mem, eq⟩)
        · exact ⟨override, .inl ⟨rfl, rfl⟩, rfl⟩
        · exact ⟨other, .inr mem, eq⟩
      · rintro ⟨other, ⟨rfl, rfl⟩ | mem, eq⟩
        · exact .inl ⟨rfl, eq⟩
        · exact .inr ⟨other, mem, eq⟩

namespace Lockfile

/-- The ids of an entry that are looked at: none for a module that is wanted alone. -/
def LockedModule.listed (m : LockedModule) (transitive : Bool) : List String :=
  if transitive then m.dependencies else []

def LockedModule.asks (m : LockedModule) (transitive : Bool) :
    List (Except Coordinate.Malformed Wanted) :=
  (m.listed transitive).map Wanted.ofId

def Locks (l : Lockfile) (id : String) : Prop := ∃ m ∈ l.modules, m.id = id

theorem locks_iff {l : Lockfile} {id : String} : l.Locks id ↔ ∃ m, l.module? id = some m := by
  simp [Locks, module?, ← Option.isSome_iff_exists]

def FirstEntry (l : Lockfile) (id : String) (m : LockedModule) : Prop :=
  ∃ before after, l.modules = before ++ m :: after ∧ m.id = id ∧ ∀ other ∈ before, other.id ≠ id

theorem firstEntry_iff {l : Lockfile} {id : String} {m : LockedModule} :
    l.FirstEntry id m ↔ l.module? id = some m := by
  rw [module?, List.find?_eq_some_iff_append]
  simp only [FirstEntry, decide_eq_true_eq, Bool.not_eq_true', decide_eq_false_iff_not]
  constructor
  · rintro ⟨before, after, split, same, others⟩
    exact ⟨same, before, after, split, others⟩
  · rintro ⟨same, before, after, split, others⟩
    exact ⟨before, after, split, same, others⟩

/-- The entry of `id` lists an id that reads as a coordinate with id `other`. -/
def Leads (l : Lockfile) (id other : String) : Prop :=
  ∃ m text c, l.module? id = some m ∧ text ∈ m.dependencies ∧
    Coordinate.parse text = .ok c ∧ c.id = other

theorem ofId_eq_ok {id : String} {w : Wanted} :
    Wanted.ofId id = .ok w ↔ ∃ c, Coordinate.parse id = .ok c ∧ w = ⟨c, true⟩ := by
  rw [Wanted.ofId, map_eq_ok_iff]
  simp only [@eq_comm _ w]

theorem mem_asks {m : LockedModule} {transitive : Bool} {ask : Except Coordinate.Malformed Wanted} :
    ask ∈ m.asks transitive ↔ transitive = true ∧ ∃ id ∈ m.dependencies, Wanted.ofId id = ask := by
  cases transitive <;> simp [LockedModule.asks, LockedModule.listed]

/-- Of what was read, an id that is listed is found under its coordinate. -/
theorem mem_of_listed {m : LockedModule} {below : List Wanted} {id : String} {c : Coordinate}
    (asks : m.asks true = below.map .ok) (listed : id ∈ m.dependencies)
    (parsed : Coordinate.parse id = .ok c) : ⟨c, true⟩ ∈ below := by
  have asked : .ok ⟨c, true⟩ ∈ m.asks true :=
    mem_asks.mpr ⟨rfl, id, listed, ofId_eq_ok.mpr ⟨c, parsed, rfl⟩⟩
  rw [asks] at asked
  obtain ⟨v, mem, eq⟩ := List.mem_map.mp asked
  exact Except.ok.inj eq ▸ mem

/-- The course of unfolding what is asked for, behind the ids on `way`. -/
inductive Runs (l : Lockfile) (repository : Path) (configuration : String) :
    List String → List (Except Coordinate.Malformed Wanted) → Except ResolveError (List Tree) → Prop
  | nil : Runs l repository configuration way [] (.ok [])
  | misread : Runs l repository configuration way (.error e :: rest) (.error (.coordinate e))
  | met : w.coordinate.id ∈ way → Runs l repository configuration way (.ok w :: rest)
      (.error (.cycle ⟨way.reverse.dropWhile (· ≠ w.coordinate.id) ++ [w.coordinate.id]⟩))
  | missing : w.coordinate.id ∉ way → l.module? w.coordinate.id = none →
      Runs l repository configuration way (.ok w :: rest)
        (.error (.unresolvedModule w.coordinate.id configuration))
  | broken : w.coordinate.id ∉ way → l.module? w.coordinate.id = some m →
      Runs l repository configuration (w.coordinate.id :: way) (m.asks w.transitive) (.error e) →
      Runs l repository configuration way (.ok w :: rest) (.error e)
  | node : w.coordinate.id ∉ way → l.module? w.coordinate.id = some m →
      Runs l repository configuration (w.coordinate.id :: way) (m.asks w.transitive) (.ok children) →
      Runs l repository configuration way rest result →
      Runs l repository configuration way (.ok w :: rest) (result.map
        (.node w.coordinate.moduleId configuration (artifactsOf repository w.coordinate m) children :: ·))

variable {l : Lockfile} {repository : Path} {configuration : String}

theorem unfold_eq {way : List String} {c : Coordinate} {transitive : Bool} :
    l.unfold repository configuration way c transitive =
    if c.id ∈ way then .error (.cycle ⟨way.reverse.dropWhile (· ≠ c.id) ++ [c.id]⟩)
    else match l.module? c.id with
      | none => .error (.unresolvedModule c.id configuration)
      | some m => (l.unfoldEach repository configuration (c.id :: way) (m.listed transitive)).map
          (.node c.moduleId configuration (artifactsOf repository c m)) := by
  rw [unfold]
  split
  · rfl
  · split
    · rename_i missing
      simp only [missing]
    · rename_i m locked
      simp only [locked]
      cases transitive with
      | true => rfl
      | false =>
        have none_listed : m.listed false = [] := rfl
        rw [none_listed, unfoldEach]
        rfl

theorem unfoldEach_cons {way : List String} {id : String} {rest : List String} :
    l.unfoldEach repository configuration way (id :: rest) =
    match Wanted.ofId id with
    | .error e => .error (.coordinate e)
    | .ok w =>
      match l.unfold repository configuration way w.coordinate w.transitive with
      | .error e => .error e
      | .ok tree => (l.unfoldEach repository configuration way rest).map (tree :: ·) := by
  rw [unfoldEach, Wanted.ofId]
  cases Coordinate.parse id <;> rfl

mutual
/-- Every unfolding takes its course, whatever comes after it. -/
theorem runs_unfold (l : Lockfile) (repository : Path) (configuration : String)
    (way : List String) (w : Wanted) {rest : List (Except Coordinate.Malformed Wanted)}
    {result : Except ResolveError (List Tree)}
    (others : Runs l repository configuration way rest result) :
    Runs l repository configuration way (.ok w :: rest)
      (match l.unfold repository configuration way w.coordinate w.transitive with
        | .error e => .error e
        | .ok tree => result.map (tree :: ·)) := by
  rw [unfold_eq]
  by_cases met : w.coordinate.id ∈ way
  · rw [if_pos met]
    exact .met met
  · rw [if_neg met]
    cases locked : l.module? w.coordinate.id with
    | none => exact .missing met locked
    | some m =>
      have inner := runs_unfoldEach l repository configuration (w.coordinate.id :: way)
        (m.listed w.transitive)
      dsimp only
      cases below : l.unfoldEach repository configuration (w.coordinate.id :: way)
          (m.listed w.transitive) with
      | error e =>
        rw [below] at inner
        exact .broken met locked inner
      | ok children =>
        rw [below] at inner
        exact .node met locked inner others
termination_by (l.outside way, 0)
decreasing_by exact Prod.Lex.left _ _ (outside_cons_lt locked met)

theorem runs_unfoldEach (l : Lockfile) (repository : Path) (configuration : String)
    (way ids : List String) : Runs l repository configuration way (ids.map Wanted.ofId)
      (l.unfoldEach repository configuration way ids) := by
  cases ids with
  | nil =>
    rw [unfoldEach]
    exact .nil
  | cons id rest =>
    rw [unfoldEach_cons, List.map_cons]
    cases Wanted.ofId id with
    | error e => exact .misread
    | ok w =>
      exact runs_unfold l repository configuration way w
        (runs_unfoldEach l repository configuration way rest)
termination_by (l.outside way, ids.length)
decreasing_by all_goals exact Prod.Lex.right _ (by simp)
end

theorem runs_declaredTrees (l : Lockfile) (repository : Path) (configuration : String) (t : Bool)
    (deps : List Dependency) : Runs l repository configuration [] ((declaredModules t deps).map .ok)
      (l.declaredTrees repository configuration t deps) := by
  induction deps with
  | nil => exact .nil
  | cons d rest ih =>
    cases d with
    | files => exact ih
    | project => exact ih
    | module c override => exact runs_unfold l repository configuration [] ⟨c, _⟩ ih

/-- One run of what is asked for has one outcome. -/
theorem Runs.unique {way : List String} {asked : List (Except Coordinate.Malformed Wanted)}
    {result other : Except ResolveError (List Tree)}
    (runs : Runs l repository configuration way asked result)
    (again : Runs l repository configuration way asked other) : result = other := by
  induction runs generalizing other with
  | nil =>
    cases again
    rfl
  | misread =>
    cases again
    rfl
  | met onWay =>
    cases again with
    | met => rfl
    | missing new => exact absurd onWay new
    | broken new => exact absurd onWay new
    | node new => exact absurd onWay new
  | missing new missing =>
    cases again with
    | met onWay => exact absurd onWay new
    | missing => rfl
    | broken _ locked => cases missing.symm.trans locked
    | node _ locked => cases missing.symm.trans locked
  | broken new locked _ ih =>
    cases again with
    | met onWay => exact absurd onWay new
    | missing _ missing => cases locked.symm.trans missing
    | broken _ locked' below =>
      obtain rfl := Option.some.inj (locked.symm.trans locked')
      cases ih below
      rfl
    | node _ locked' below =>
      obtain rfl := Option.some.inj (locked.symm.trans locked')
      cases ih below
  | node new locked _ _ ihBelow ihRest =>
    cases again with
    | met onWay => exact absurd onWay new
    | missing _ missing => cases locked.symm.trans missing
    | broken _ locked' below =>
      obtain rfl := Option.some.inj (locked.symm.trans locked')
      cases ihBelow below
    | node _ locked' below rest =>
      obtain rfl := Option.some.inj (locked.symm.trans locked')
      cases ihBelow below
      rw [ihRest rest]

/-- Another document has the entries that `l` has for a module and, if more than the module
itself is wanted, for all that it leads to. Of the module's own entry only the artifacts
count otherwise. -/
structure Agrees (l other : Lockfile) (w : Wanted) : Prop where
  entry : (other.module? w.coordinate.id).map (·.artifacts) =
    (l.module? w.coordinate.id).map (·.artifacts)
  below : w.transitive = true → ∀ id, ReflTransGen l.Leads w.coordinate.id id →
    other.module? id = l.module? id

theorem Agrees.missing {other : Lockfile} {w : Wanted} (agrees : l.Agrees other w)
    (missing : l.module? w.coordinate.id = none) : other.module? w.coordinate.id = none := by
  have entry := agrees.entry
  rw [missing] at entry
  simpa using entry

theorem Agrees.locked {other : Lockfile} {w : Wanted} {m : LockedModule} (agrees : l.Agrees other w)
    (locked : l.module? w.coordinate.id = some m) : ∃ m', other.module? w.coordinate.id = some m' ∧
      m'.artifacts = m.artifacts ∧ m'.asks w.transitive = m.asks w.transitive := by
  have entry := agrees.entry
  rw [locked] at entry
  obtain ⟨m', locked', artifacts⟩ := Option.map_eq_some_iff.mp entry
  refine ⟨m', locked', artifacts, ?_⟩
  cases transitive : w.transitive with
  | false => rfl
  | true =>
    have same := agrees.below transitive _ .refl
    obtain rfl := Option.some.inj (locked'.symm.trans (same.trans locked))
    rfl

theorem Agrees.asked {other : Lockfile} {w v : Wanted} {m : LockedModule} (agrees : l.Agrees other w)
    (locked : l.module? w.coordinate.id = some m) (mem : .ok v ∈ m.asks w.transitive) :
    l.Agrees other v := by
  obtain ⟨transitive, id, listed, read⟩ := mem_asks.mp mem
  obtain ⟨c, parsed, rfl⟩ := ofId_eq_ok.mp read
  have step : l.Leads w.coordinate.id c.id := ⟨m, id, c, locked, listed, parsed, rfl⟩
  have below : ∀ k, ReflTransGen l.Leads c.id k → other.module? k = l.module? k :=
    fun k path => agrees.below transitive k (.head step path)
  exact ⟨congrArg _ (below c.id .refl), fun _ => below⟩

theorem artifactsOf_congr {c : Coordinate} {m m' : LockedModule} (same : m'.artifacts = m.artifacts) :
    artifactsOf repository c m' = artifactsOf repository c m := by
  simp only [artifactsOf, same]

/-- A run looks at no more entries than agreement is about. -/
theorem Runs.frame {other : Lockfile} {way : List String}
    {asked : List (Except Coordinate.Malformed Wanted)} {result : Except ResolveError (List Tree)}
    (runs : Runs l repository configuration way asked result)
    (agree : ∀ w, .ok w ∈ asked → l.Agrees other w) :
    Runs other repository configuration way asked result := by
  induction runs with
  | nil => exact .nil
  | misread => exact .misread
  | met onWay => exact .met onWay
  | missing new missing => exact .missing new ((agree _ List.mem_cons_self).missing missing)
  | broken new locked _ ih =>
    have first := agree _ List.mem_cons_self
    obtain ⟨m', locked', _, asks⟩ := first.locked locked
    have inner := ih fun v mem => first.asked locked mem
    exact .broken new locked' (asks ▸ inner)
  | node new locked _ _ ihBelow ihRest =>
    have first := agree _ List.mem_cons_self
    obtain ⟨m', locked', artifacts, asks⟩ := first.locked locked
    have inner := ihBelow fun v mem => first.asked locked mem
    have others := ihRest fun v mem => agree v (List.mem_cons_of_mem _ mem)
    rw [← artifactsOf_congr artifacts]
    exact .node new locked' (asks ▸ inner) others

theorem declaredTrees_congr {other : Lockfile} {t : Bool} {deps : List Dependency}
    (agree : ∀ w ∈ declaredModules t deps, l.Agrees other w) :
    other.declaredTrees repository configuration t deps =
      l.declaredTrees repository configuration t deps := by
  have runs := runs_declaredTrees l repository configuration t deps
  have moved : Runs other repository configuration [] _ _ := runs.frame fun w mem => by
    obtain ⟨v, declared, eq⟩ := List.mem_map.mp mem
    exact Except.ok.inj eq ▸ agree v declared
  exact (runs_declaredTrees other repository configuration t deps).unique moved

end Lockfile
end Buildpath
