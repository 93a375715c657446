import Buildpath.Proofs.Configuration.Graph
import Buildpath.Proofs.Distinct
import Buildpath.Proofs.Lockfile.Places
import Buildpath.Proofs.Lockfile.Runs

/-! When modules can be resolved and what they unfold to. `Unfolds` says what the trees are
without looking out for cycles, and `Settled` of which ids there is one: a tree is finite, so
nothing below an unfolded module lies on a cycle, and where no cycle can be reached no id is
met below itself. -/
namespace Buildpath.Lockfile

open Relation

/-- All that can be reached from an id lists locked modules only and lies on no cycle. -/
structure Settled (l : Lockfile) (id : String) : Prop where
  listed : ∀ k m, ReflTransGen l.Leads id k → l.module? k = some m →
    ∀ text ∈ m.dependencies, ∃ c, Coordinate.parse text = .ok c ∧ l.Locks c.id
  acyclic : ∀ k, ReflTransGen l.Leads id k → ¬ TransGen l.Leads k k

theorem Settled.step {l : Lockfile} {id other : String} (settled : l.Settled id)
    (step : l.Leads id other) : l.Settled other where
  listed k m path := settled.listed k m (.head step path)
  acyclic k path := settled.acyclic k (.head step path)

/-- The trees of a list of modules. A node carries the artifacts of the first entry with its id
and has below it the trees of what that entry asks for, all of which has to be readable. -/
inductive Unfolds (l : Lockfile) (repository : Path) (configuration : String) :
    List Wanted → List Tree → Prop
  | nil : Unfolds l repository configuration [] []
  | node : l.FirstEntry w.coordinate.id m → Carries repository w.coordinate m.artifacts artifacts →
      m.asks w.transitive = below.map .ok →
      Unfolds l repository configuration below children →
      Unfolds l repository configuration rest trees →
      Unfolds l repository configuration (w :: rest)
        (.node ⟨w.coordinate.group, w.coordinate.artifact, w.coordinate.version⟩ configuration artifacts
          children :: trees)

variable {l : Lockfile} {repository : Path} {configuration : String}

theorem Unfolds.of_locked {w : Wanted} {m : LockedModule} {below rest : List Wanted}
    {children trees : List Tree} (locked : l.module? w.coordinate.id = some m)
    (asks : m.asks w.transitive = below.map .ok)
    (unfolds : Unfolds l repository configuration below children)
    (more : Unfolds l repository configuration rest trees) :
    Unfolds l repository configuration (w :: rest)
      (.node w.coordinate.moduleId configuration (artifactsOf repository w.coordinate m) children :: trees) :=
  .node (firstEntry_iff.mpr locked) (carries_iff.mpr rfl) asks unfolds more

/-- A run that succeeds has read all that was asked for and unfolded it. -/
theorem Runs.unfolds {way : List String} {asked : List (Except Coordinate.Malformed Wanted)}
    {result : Except ResolveError (List Tree)} {trees : List Tree}
    (runs : Runs l repository configuration way asked result) (ok : result = .ok trees) :
    ∃ todo, asked = todo.map .ok ∧ Unfolds l repository configuration todo trees := by
  induction runs generalizing trees with
  | nil =>
    cases ok
    exact ⟨[], rfl, .nil⟩
  | misread => simp at ok
  | met => simp at ok
  | missing => simp at ok
  | broken => simp at ok
  | @node _ _ _ _ result w _ locked _ _ ihBelow ihRest =>
    cases result with
    | error e => simp [Except.map] at ok
    | ok others =>
      cases ok
      obtain ⟨below, asks, unfolds⟩ := ihBelow rfl
      obtain ⟨todo, rfl, more⟩ := ihRest rfl
      exact ⟨w :: todo, rfl, .of_locked locked asks unfolds more⟩

/-- What may be asked for behind `way`. Only what is wanted with its dependencies has to be
settled, and below it the ids on the way lead to it. -/
def Sound (l : Lockfile) (way : List String) (ask : Except Coordinate.Malformed Wanted) : Prop :=
  ∃ w, ask = .ok w ∧ l.Locks w.coordinate.id ∧
    (w.transitive = true → l.Settled w.coordinate.id) ∧
    ∀ id ∈ way, w.transitive = true ∧ TransGen l.Leads id w.coordinate.id

theorem Sound.below {way : List String} {w : Wanted} {m : LockedModule} (sound : l.Sound way (.ok w))
    (locked : l.module? w.coordinate.id = some m) :
    ∀ ask ∈ m.asks w.transitive, l.Sound (w.coordinate.id :: way) ask := by
  obtain ⟨_, eq, _, settled, above⟩ := sound
  cases eq
  intro ask mem
  obtain ⟨transitive, id, listed, rfl⟩ := mem_asks.mp mem
  obtain ⟨c, parsed, locks⟩ := (settled transitive).listed _ m .refl locked id listed
  have step : l.Leads w.coordinate.id c.id := ⟨m, id, c, locked, listed, parsed, rfl⟩
  refine ⟨⟨c, true⟩, ofId_eq_ok.mpr ⟨c, parsed, rfl⟩, locks, fun _ => (settled transitive).step step, ?_⟩
  intro k onWay
  rcases List.mem_cons.mp onWay with rfl | onWay
  · exact ⟨rfl, .single step⟩
  · exact ⟨rfl, (above k onWay).2.tail step⟩

/-- A run over what may be asked for succeeds: an id that is met again would lie on a cycle. -/
theorem Runs.succeeds {way : List String} {asked : List (Except Coordinate.Malformed Wanted)}
    {result : Except ResolveError (List Tree)} (runs : Runs l repository configuration way asked result)
    (sound : ∀ ask ∈ asked, l.Sound way ask) : ∃ trees, result = .ok trees := by
  induction runs with
  | nil => exact ⟨[], rfl⟩
  | misread =>
    obtain ⟨w, eq, _⟩ := sound _ List.mem_cons_self
    cases eq
  | met onWay =>
    obtain ⟨w, eq, _, settled, above⟩ := sound _ List.mem_cons_self
    cases eq
    obtain ⟨transitive, loop⟩ := above _ onWay
    exact absurd loop ((settled transitive).acyclic _ .refl)
  | missing _ missing =>
    obtain ⟨w, eq, locks, _⟩ := sound _ List.mem_cons_self
    cases eq
    obtain ⟨m, locked⟩ := locks_iff.mp locks
    rw [missing] at locked
    cases locked
  | broken _ locked _ ih =>
    obtain ⟨trees, eq⟩ := ih ((sound _ List.mem_cons_self).below locked)
    cases eq
  | node _ locked _ _ _ ihRest =>
    obtain ⟨trees, rfl⟩ := ihRest fun ask mem => sound ask (List.mem_cons_of_mem _ mem)
    exact ⟨_, rfl⟩

/-- What an unfolded module is made of. -/
theorem Unfolds.entry {todo : List Wanted} {trees : List Tree} {w : Wanted}
    (unfolds : Unfolds l repository configuration todo trees) (mem : w ∈ todo) :
    ∃ m below children, l.module? w.coordinate.id = some m ∧ m.asks w.transitive = below.map .ok ∧
      Unfolds l repository configuration below children := by
  induction unfolds with
  | nil => simp at mem
  | node first _ asks unfolds _ _ ih =>
    rcases List.mem_cons.mp mem with rfl | mem
    · exact ⟨_, _, _, firstEntry_iff.mp first, asks, unfolds⟩
    · exact ih mem

/-- Whatever an unfolded module leads to is unfolded, too. -/
theorem Unfolds.reach {todo : List Wanted} {trees : List Tree} {w : Wanted} {id : String}
    (unfolds : Unfolds l repository configuration todo trees) (mem : w ∈ todo)
    (transitive : w.transitive = true) (path : ReflTransGen l.Leads w.coordinate.id id) :
    ∃ m below children, l.module? id = some m ∧ m.asks true = below.map .ok ∧
      Unfolds l repository configuration below children := by
  induction path with
  | refl => exact transitive ▸ unfolds.entry mem
  | tail _ step ih =>
    obtain ⟨m, below, children, locked, asks, inner⟩ := ih
    obtain ⟨m', text, c, locked', listed, parsed, rfl⟩ := step
    obtain rfl := Option.some.inj (locked.symm.trans locked')
    have found := inner.entry (mem_of_listed asks listed parsed)
    exact found

/-- Below an unfolded module every descent ends. -/
theorem Unfolds.acc {todo : List Wanted} {trees : List Tree} {w : Wanted}
    (unfolds : Unfolds l repository configuration todo trees) (mem : w ∈ todo)
    (transitive : w.transitive = true) : Acc (fun k id => l.Leads id k) w.coordinate.id := by
  induction unfolds generalizing w with
  | nil => simp at mem
  | node first _ asks _ _ ihBelow ihRest =>
    rcases List.mem_cons.mp mem with rfl | mem
    · rw [transitive] at asks
      constructor
      rintro k ⟨m', text, c, locked', listed, parsed, rfl⟩
      obtain rfl := Option.some.inj ((firstEntry_iff.mp first).symm.trans locked')
      have inner := ihBelow (mem_of_listed asks listed parsed) rfl
      exact inner
    · exact ihRest mem transitive

theorem Unfolds.locks {todo : List Wanted} {trees : List Tree} {w : Wanted}
    (unfolds : Unfolds l repository configuration todo trees) (mem : w ∈ todo) :
    l.Locks w.coordinate.id := by
  obtain ⟨m, _, _, locked, _⟩ := unfolds.entry mem
  exact locks_iff.mpr ⟨m, locked⟩

theorem Unfolds.settled {todo : List Wanted} {trees : List Tree} {w : Wanted}
    (unfolds : Unfolds l repository configuration todo trees) (mem : w ∈ todo)
    (transitive : w.transitive = true) : l.Settled w.coordinate.id where
  listed k m path locked text listed := by
    obtain ⟨m', below, children, locked', asks, inner⟩ := unfolds.reach mem transitive path
    obtain rfl := Option.some.inj (locked.symm.trans locked')
    have asked : Wanted.ofId text ∈ m.asks true := mem_asks.mpr ⟨rfl, text, listed, rfl⟩
    rw [asks] at asked
    obtain ⟨v, member, eq⟩ := List.mem_map.mp asked
    obtain ⟨c, parsed, rfl⟩ := ofId_eq_ok.mp eq.symm
    have locks := inner.locks member
    exact ⟨c, parsed, locks⟩
  acyclic k path := not_transGen_of_acc (unfolds.acc mem transitive) path

theorem Unfolds.unique {todo : List Wanted} {trees others : List Tree}
    (unfolds : Unfolds l repository configuration todo trees)
    (other : Unfolds l repository configuration todo others) : trees = others := by
  induction unfolds generalizing others with
  | nil =>
    cases other
    rfl
  | node first carries asks _ _ ihBelow ihRest =>
    cases other with
    | node first' carries' asks' below' rest' =>
      have locked := firstEntry_iff.mp first
      obtain rfl := Option.some.inj (locked.symm.trans (firstEntry_iff.mp first'))
      obtain rfl := (List.map_inj_right fun _ _ => Except.ok.inj).mp (asks.symm.trans asks')
      rw [ihBelow below', ihRest rest', ← carries_iff.mp carries, ← carries_iff.mp carries']

theorem unfolds_of_declaredTrees {t : Bool} {deps : List Dependency} {trees : List Tree}
    (ok : l.declaredTrees repository configuration t deps = .ok trees) :
    Unfolds l repository configuration (declaredModules t deps) trees := by
  obtain ⟨todo, eq, unfolds⟩ := (runs_declaredTrees l repository configuration t deps).unfolds ok
  obtain rfl := (List.map_inj_right fun _ _ => Except.ok.inj).mp eq
  exact unfolds

theorem exists_declaredTrees_iff {t : Bool} {deps : List Dependency} :
    (∃ trees, l.declaredTrees repository configuration t deps = .ok trees) ↔
      ∀ w ∈ declaredModules t deps, l.Locks w.coordinate.id ∧
        (w.transitive = true → l.Settled w.coordinate.id) := by
  constructor
  · rintro ⟨trees, ok⟩ w mem
    have unfolds := unfolds_of_declaredTrees ok
    exact ⟨unfolds.locks mem, unfolds.settled mem⟩
  · intro fine
    apply (runs_declaredTrees l repository configuration t deps).succeeds
    intro ask mem
    obtain ⟨w, declared, rfl⟩ := List.mem_map.mp mem
    exact ⟨w, rfl, (fine w declared).1, (fine w declared).2, by simp⟩

theorem declaredTrees_eq_ok_iff {t : Bool} {deps : List Dependency} {trees : List Tree} :
    l.declaredTrees repository configuration t deps = .ok trees ↔
      Unfolds l repository configuration (declaredModules t deps) trees := by
  refine ⟨unfolds_of_declaredTrees, fun given => ?_⟩
  obtain ⟨others, ok⟩ : ∃ others, l.declaredTrees repository configuration t deps = .ok others :=
    exists_declaredTrees_iff.mpr fun w mem => ⟨given.locks mem, given.settled mem⟩
  rw [ok, (unfolds_of_declaredTrees ok).unique given]

theorem resolve_eq_ok_iff {heap : Heap} {h : Handle} {r : Resolved} :
    l.resolve repository heap h = .ok r ↔ ∃ trees,
      Unfolds l repository (heap.name h)
        (declaredModules (heap.transitive h) (heap.dependencies h)) trees ∧
      r.firstLevel = firstOccurrences TreeOf.key trees := by
  obtain ⟨firstLevel⟩ := r
  simp only [← declaredTrees_eq_ok_iff, resolve, map_eq_ok_iff, distinctBy_eq, Resolved.mk.injEq,
    @eq_comm _ firstLevel]

theorem exists_resolve_iff {heap : Heap} {h : Handle} :
    (∃ r, l.resolve repository heap h = .ok r) ↔
      ∀ w ∈ declaredModules (heap.transitive h) (heap.dependencies h), l.Locks w.coordinate.id ∧
        (w.transitive = true → l.Settled w.coordinate.id) := by
  rw [← exists_declaredTrees_iff]
  simp only [resolve_eq_ok_iff, ← declaredTrees_eq_ok_iff]
  constructor
  · rintro ⟨_, trees, ok, _⟩
    exact ⟨trees, ok⟩
  · rintro ⟨trees, ok⟩
    exact ⟨⟨_⟩, trees, ok, rfl⟩

/-- A configuration can be resolved exactly if all modules it declares are locked and those
that are wanted with their dependencies are settled. Its first level is then their trees, in
order and each once. Of a module that is wanted alone nothing is looked at but the artifacts
of its entry, so with any other ids listed there the outcome is the same. -/
theorem resolves_iff_settled (l : Lockfile) (repository : Path) (heap : Heap) (h : Handle) :
    ((∃ r, l.resolve repository heap h = .ok r) ↔
      ∀ c override, .module c override ∈ heap.dependencies h → l.Locks c.id ∧
        (heap.transitive h = true → override ≠ some false → l.Settled c.id)) ∧
    (∀ r, l.resolve repository heap h = .ok r ↔ ∃ trees,
      Unfolds l repository (heap.name h)
        (declaredModules (heap.transitive h) (heap.dependencies h)) trees ∧
      r.firstLevel = firstOccurrences TreeOf.key trees) ∧
    ∀ other, (∀ w ∈ declaredModules (heap.transitive h) (heap.dependencies h), l.Agrees other w) →
      other.resolve repository heap h = l.resolve repository heap h := by
  refine ⟨?_, fun r => resolve_eq_ok_iff, ?_⟩
  · rw [exists_resolve_iff]
    constructor
    · intro fine c override declared
      obtain ⟨locks, settled⟩ := fine ⟨c, heap.transitive h && override.getD true⟩
        (mem_declaredModules.mpr ⟨override, declared, rfl⟩)
      refine ⟨locks, fun flag notOff => settled ?_⟩
      rw [Bool.and_eq_true]
      rcases override with _ | _ | _
      · exact ⟨flag, rfl⟩
      · exact absurd rfl notOff
      · exact ⟨flag, rfl⟩
    · intro fine w mem
      obtain ⟨override, declared, transitive⟩ := mem_declaredModules.mp mem
      obtain ⟨locks, settled⟩ := fine w.coordinate override declared
      refine ⟨locks, fun whole => ?_⟩
      rw [transitive, Bool.and_eq_true] at whole
      apply settled whole.1
      rintro rfl
      exact absurd whole.2 Bool.false_ne_true
  · intro other agree
    simp only [resolve, declaredTrees_congr agree]

/-- The id of `a` is locked twice. `a` is declared twice with all it depends on, which makes one tree,
and alone in two packagings, which makes two more. What is listed for `c` cannot be read, which
matters only if `c` is not declared alone. -/
theorem resolves_iff_settled_overridden :
    let l : Lockfile := ⟨[⟨"org.g:a:1", ["g:b:1"], []⟩,
      ⟨"g:b:1", [], [{ classifier := some "sources" }, { name := some "api", extension := "zip" }]⟩,
      ⟨"org.g:a:1", [], [{ name := some "later" }]⟩, ⟨"g:c:1", ["g:b"], []⟩]⟩
    let a : Coordinate := ⟨"org.g", "a", "1", "war"⟩
    let jar : Coordinate := { a with packaging := "jar" }
    let c : Coordinate := ⟨"g", "c", "1", "jar"⟩
    let heap (override : Option Bool) : Heap := ⟨[⟨"compile", true, [.module a none, .module c override,
      .module a (some true), .module a (some false), .module jar (some false)]⟩]⟩
    let war : Artifact := ⟨⟨"org.g", "a", "1"⟩, "a", "war", none, ⟨"repo/org/g/a/1/a-1.war"⟩⟩
    let archive : Artifact := ⟨⟨"org.g", "a", "1"⟩, "a", "jar", none, ⟨"repo/org/g/a/1/a-1.jar"⟩⟩
    let own : Artifact := ⟨⟨"g", "c", "1"⟩, "c", "jar", none, ⟨"repo/g/c/1/c-1.jar"⟩⟩
    let below : Tree := .node ⟨"g", "b", "1"⟩ "compile"
      [⟨⟨"g", "b", "1"⟩, "b", "jar", some "sources", ⟨"repo/g/b/1/b-1-sources.jar"⟩⟩,
        ⟨⟨"g", "b", "1"⟩, "api", "zip", none, ⟨"repo/g/b/1/api-1.zip"⟩⟩] []
    l.resolve ⟨"repo"⟩ (heap (some false)) 0 = .ok ⟨[
        .node ⟨"org.g", "a", "1"⟩ "compile" [war] [below], .node ⟨"g", "c", "1"⟩ "compile" [own] [],
        .node ⟨"org.g", "a", "1"⟩ "compile" [war] [], .node ⟨"org.g", "a", "1"⟩ "compile" [archive] []]⟩ ∧
      ¬ ∃ r, l.resolve ⟨"repo"⟩ (heap none) 0 = .ok r := by
  intro l a jar c heap war archive own below
  obtain ⟨-, resolves, -⟩ := resolves_iff_settled l ⟨"repo"⟩ (heap (some false)) 0
  obtain ⟨success, -, -⟩ := resolves_iff_settled l ⟨"repo"⟩ (heap none) 0
  have first : l.FirstEntry "org.g:a:1" _ := ⟨[], _, rfl, rfl, by simp⟩
  have second : l.FirstEntry "g:b:1" _ := ⟨[_], _, rfl, rfl, by decide⟩
  have last : l.FirstEntry "g:c:1" _ := ⟨[_, _, _], _, rfl, rfl, by decide⟩
  have main : Carries ⟨"repo"⟩ a [] [war] := .main ⟨rfl, rfl, rfl, rfl, by decide⟩
  have mainJar : Carries ⟨"repo"⟩ jar [] [archive] := .main ⟨rfl, rfl, rfl, rfl, by decide⟩
  have mainOwn : Carries ⟨"repo"⟩ c [] [own] := .main ⟨rfl, rfl, rfl, rfl, by decide⟩
  have inner : Unfolds l ⟨"repo"⟩ "compile" [⟨⟨"g", "b", "1", "jar"⟩, true⟩] [below] := by
    refine .node second (.listed (List.cons_ne_nil _ _) (.cons ?_ (.cons ?_ .nil))) rfl .nil .nil
    · exact ⟨rfl, rfl, rfl, rfl, by decide⟩
    · exact ⟨rfl, rfl, rfl, rfl, by decide⟩
  have packaged : Unfolds l ⟨"repo"⟩ "compile" [⟨jar, false⟩] _ := .node first mainJar rfl .nil .nil
  have again : Unfolds l ⟨"repo"⟩ "compile" [⟨a, true⟩, ⟨a, false⟩, ⟨jar, false⟩] _ :=
    .node first main (by rfl) inner (.node first main rfl .nil packaged)
  have unfolds : Unfolds l ⟨"repo"⟩ "compile" [⟨a, true⟩, ⟨c, false⟩, ⟨a, true⟩, ⟨a, false⟩, ⟨jar, false⟩] _ :=
    .node first main (by rfl) inner (.node last mainOwn rfl .nil again)
  constructor
  · exact (resolves _).mpr ⟨_, unfolds, by decide⟩
  · intro resolved
    obtain ⟨-, settled⟩ := success.mp resolved c none (by simp [heap, Heap.dependencies, Heap.get?])
    have listed := (settled rfl (by simp)).listed c.id ⟨"g:c:1", ["g:b"], []⟩ .refl rfl
    obtain ⟨_, parsed, -⟩ := listed "g:b" (by simp)
    cases parsed

end Buildpath.Lockfile

namespace Buildpath

theorem View.resolve_eq_ok_iff {l : Lockfile} {repository : Path} {heap : Heap} {h : Handle} {v : View} :
    resolve (l.backend repository) heap h = .ok v ↔
      ∃ r, l.resolve repository heap h = .ok r ∧ v = ⟨h, r.view⟩ := by
  rw [resolve_eq, map_eq_ok_iff]
  constructor
  · rintro ⟨_, answered, rfl⟩
    obtain ⟨r, resolved, rfl⟩ := map_eq_ok_iff.mp answered
    exact ⟨r, resolved, rfl⟩
  · rintro ⟨r, resolved, rfl⟩
    exact ⟨r.view, map_eq_ok_iff.mpr ⟨r, resolved, rfl⟩, rfl⟩

end Buildpath
