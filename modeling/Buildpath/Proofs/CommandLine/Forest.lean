import Buildpath.Proofs.CommandLine.Running
import Buildpath.Proofs.Lockfile.Legible
import Buildpath.Proofs.Lockfile.Order
import Buildpath.Proofs.Report.Lines
import Mathlib

/-! The module trees that a command prints. If the ids can stand on lines, the printed text tells
where the nodes lie in the forest and what their ids are as they are written. The ids that a command
looks at were read, so that no part of one has a colon, and the text tells their parts as well. -/
namespace Buildpath.CommandLine

open TreeOf

/-- What a `deps` command shows, and what it prints for that if it is not asked for JSON. -/
structure Shows (d : Disk) (env : Environment) (c : Command) (forest : List Tree) (text : String) : Prop where
  question : c.question = .deps
  plain : c.json = false
  printed : run d env c = .ok text
  listed : ∃ root repository heap view, projectRoot d = .ok root ∧ repositoryOf env c = .ok repository ∧
    resolve d root repository c.configuration false = .ok (heap, view) ∧
    view.backend.firstLevel = .ok forest

variable {d d' : Disk} {env env' : Environment} {c c' : Command} {forest forest' : List Tree} {text : String}

theorem Shows.text_eq (shows : Shows d env c forest text) :
    text = if Report.trees forest = "" then "" else Report.trees forest ++ "\n" := by
  obtain ⟨root, repository, heap, view, place, kept, resolved, listed⟩ := shows.listed
  have ran := run_deps shows.question shows.plain place kept resolved listed
  exact Except.ok.inj (shows.printed.symm.trans ran)

/-- The line end that is put behind an output tells it from no output. -/
theorem eq_of_printed {output output' : String}
    (same : (if output = "" then "" else output ++ "\n") = if output' = "" then "" else output' ++ "\n") :
    output = output' := by
  by_cases empty : output = "" <;> by_cases empty' : output' = "" <;>
    simp only [empty, empty', if_true, if_false] at same ⊢
  · exact absurd same.symm (by simp)
  · exact absurd same (by simp)
  · exact (String.append_left_inj "\n").mp same

theorem Shows.trees_eq (shows : Shows d env c forest text) (shows' : Shows d' env' c' forest' text) :
    Report.trees forest = Report.trees forest' :=
  eq_of_printed (shows.text_eq.symm.trans shows'.text_eq)

/-- The ids of what a command shows were read from the manifests and from the lock document. -/
theorem Shows.parted (shows : Shows d env c forest text) : Every ModuleId.Parted forest := by
  obtain ⟨root, repository, heap, view, -, -, resolved, listed⟩ := shows.listed
  obtain ⟨h, loaded, lockfile, load, -, rfl, viewed⟩ := resolve_eq_ok_iff.mp resolved
  obtain ⟨r, locked, rfl⟩ := View.resolve_eq_ok_iff.mp viewed
  obtain rfl : r.firstLevel = forest := Except.ok.inj listed
  have empty : ({} : Heap).Legible := nofun
  exact Lockfile.parted_of_resolve (Project.legible_load empty load) locked

/-- The lines of a printed forest are its nodes, each once and depth first, with four blanks in front
for every level. Forests that are printed alike have the same places with the same written ids, and
the same ids if no part of one has a colon. Commands that print the same text show the same ids at
the same places. -/
theorem printed_forest_determined :
    (∀ forest : List Tree, Report.Tidy forest → ∃ nodes, Preorder forest nodes ∧
      Text.linesOf (Report.trees forest) = nodes.map fun n =>
        String.ofList (List.replicate (4 * (n.1.length - 1)) ' ') ++ n.2.module.display) ∧
    (∀ forest forest' : List Tree, Report.Tidy forest → Report.Tidy forest' →
      Report.trees forest = Report.trees forest' →
      (∀ place, idAt? forest place = idAt? forest' place) ∧
      (Every ModuleId.Parted forest → Every ModuleId.Parted forest' →
        ∀ place, moduleAt? forest place = moduleAt? forest' place)) ∧
    ∀ d env c forest d' env' c' forest' text,
      Shows d env c forest text → Shows d' env' c' forest' text →
      Report.Tidy forest → Report.Tidy forest' →
      ∀ place, moduleAt? forest place = moduleAt? forest' place := by
  refine ⟨fun forest tidy => Report.exists_preorder_lines tidy, ?forests, ?commands⟩
  case forests =>
    intro forest forest' tidy tidy' same
    have ids := Report.idAt?_of_trees tidy tidy' same
    exact ⟨ids, fun parted parted' place => Report.moduleAt?_of_idAt? parted parted' (ids place)⟩
  case commands =>
    intro d env c forest d' env' c' forest' text shows shows' tidy tidy' place
    have ids := Report.idAt?_of_trees tidy tidy' (shows.trees_eq shows')
    exact Report.moduleAt?_of_idAt? shows.parted shows'.parted (ids place)

/-! A project with one dependency, which is locked together with what it depends on. -/

def lockedProject (manifest : String) : Disk where
  top := [("app", .directory [("ferrule.toml", .file manifest.toUTF8),
    ("ferrule.lock", .file Lockfile.soundText.toUTF8)])]
  cwd := ["app"]

def askDeps : Command := ⟨.deps, "c", false, some "r", false⟩

section
variable (manifest : String)

theorem projectRoot_locked : projectRoot (lockedProject manifest) = .ok ⟨"/app"⟩ := by
  have located : (lockedProject manifest).locate ⟨"/app/ferrule.toml"⟩ =
      .ok ⟨["ferrule.toml", "app"], 0⟩ := by cbv
  have there : (lockedProject manifest).exists? ⟨"/app/ferrule.toml"⟩ = true := by
    rw [Disk.exists?, located, Except.isOk, Except.toBool]
  have cwd : (lockedProject manifest).cwd = ["app"] := rfl
  have path : (Location.path ["app"]).join Project.manifestName = ⟨"/app/ferrule.toml"⟩ := by decide
  simp only [projectRoot, cwd, path, there, if_true]
  rfl

theorem lockfile_locked :
    Lockfile.load (lockedProject manifest) ⟨"/app/ferrule.lock"⟩ = .ok Lockfile.soundLock := by
  have located : (lockedProject manifest).locate ⟨"/app/ferrule.lock"⟩ =
      .ok ⟨["ferrule.lock", "app"], 0⟩ := by cbv
  have decodes := Lockfile.decodes_of_file located rfl Lockfile.parse_sound
  exact Lockfile.load_eq_ok_iff.mpr (.inr ⟨decodes, by decide⟩)

end

def declaring (text : String) : Manifest :=
  ⟨{ name := "app" }, [("c", { dependencies := [{ module := some text }] })]⟩

def lockedTrees (c : Coordinate) : List Tree :=
  [.node c.moduleId "c" (Lockfile.artifactsOf ⟨"r"⟩ c ⟨"g:a:1", ["g:b:1"], []⟩) [
    .node ⟨"g", "b", "1"⟩ "c" (Lockfile.artifactsOf ⟨"r"⟩ ⟨"g", "b", "1", "jar"⟩ ⟨"g:b:1", [], []⟩) []]]

section
variable {manifest text : String} {c : Coordinate}

theorem load_locked (parsed : Manifest.ofText ⟨"/app/ferrule.toml"⟩ manifest = .ok (declaring text))
    (read : Coordinate.parse text = .ok c) : Project.load (lockedProject manifest) ⟨"/app"⟩ "c" {} =
      .ok (0, ⟨[{ name := "c", dependencies := [.module c none] }]⟩) := by
  have canonical : (lockedProject manifest).canonicalize ⟨"/app"⟩ = .ok ["app"] := by cbv
  have child : (lockedProject manifest).child ⟨["app"], 0⟩ Project.manifestName =
      .ok ⟨["ferrule.toml", "app"], 0⟩ := rfl
  have given : Project.manifestAt (lockedProject manifest) ["app"] = .ok (declaring text) :=
    Project.manifestAt_eq_ok child (by decide) (by decide) (Disk.readAt_text rfl) parsed
  have declared : (declaring text).configuration "c" = .ok { dependencies := [{ module := some text }] } := rfl
  have entered : Project.enterPair (lockedProject manifest) [] (["app"], "c") = .ok (declaring text, _) :=
    Project.enterPair_eq_ok_iff.mpr ⟨given, List.not_mem_nil, declared⟩
  have asked : Project.demand (lockedProject manifest) (["app"], "c") { module := some text } =
      .ok (.module c none) := Project.demand_module read
  simp [Project.load, canonical, Project.loadPair_eq, entered, Project.loadEach_cons, asked, Except.map,
    Project.State.finish, Heap.alloc, Heap.size]

theorem resolve_locked (locked : c.id = "g:a:1") :
    Lockfile.soundLock.resolve ⟨"r"⟩ ⟨[{ name := "c", dependencies := [.module c none] }]⟩ 0 =
      .ok ⟨lockedTrees c⟩ := by
  have found : Lockfile.soundLock.module? c.id = some ⟨"g:a:1", ["g:b:1"], []⟩ := by
    rw [locked]
    rfl
  have below : Lockfile.Unfolds Lockfile.soundLock ⟨"r"⟩ "c" [⟨⟨"g", "b", "1", "jar"⟩, true⟩] _ :=
    .of_locked rfl (by rfl) .nil .nil
  have unfolds : Lockfile.Unfolds Lockfile.soundLock ⟨"r"⟩ "c" [⟨c, true⟩] _ := .of_locked found (by rfl) below .nil
  exact Lockfile.resolve_eq_ok_iff.mpr ⟨_, unfolds, rfl⟩

theorem trees_locked (locked : c.id = "g:a:1") : Report.trees (lockedTrees c) = "g:a:1\n    g:b:1" := by
  have display : c.moduleId.display = "g:a:1" := locked
  have text : Report.nodes 0 (lockedTrees c) = "g:a:1\n    g:b:1" ++ "\n" := by
    simp only [lockedTrees, Report.nodes, Report.node, display]
    decide
  have ends : Text.Ends "g:a:1\n    g:b:1" := ⟨'1', by decide, by decide⟩
  rw [Report.trees, text, Text.trimEnd_line ends]

/-- Both ids are written as they are read, without a blank. -/
theorem tidy_locked (locked : c.id = "g:a:1") : Report.Tidy (lockedTrees c) := by
  have display : c.moduleId.display = "g:a:1" := locked
  have top : Text.Trim c.moduleId.display := by
    rw [display]
    decide
  have below : Text.Trim (ModuleId.display ⟨"g", "b", "1"⟩) := by decide
  exact every_cons.mpr ⟨top, every_cons.mpr ⟨below, every_nil, every_nil⟩, every_nil⟩

theorem shows_locked (parsed : Manifest.ofText ⟨"/app/ferrule.toml"⟩ manifest = .ok (declaring text))
    (read : Coordinate.parse text = .ok c) (locked : c.id = "g:a:1") :
    Shows (lockedProject manifest) {} askDeps (lockedTrees c) "g:a:1\n    g:b:1\n" := by
  have viewed : View.resolve (Lockfile.soundLock.backend ⟨"r"⟩)
      ⟨[{ name := "c", dependencies := [.module c none] }]⟩ 0 = .ok ⟨0, Lockfile.Resolved.view ⟨lockedTrees c⟩⟩ :=
    View.resolve_eq_ok_iff.mpr ⟨_, resolve_locked locked, rfl⟩
  have resolved : resolve (lockedProject manifest) ⟨"/app"⟩ ⟨"r"⟩ "c" false = .ok _ :=
    resolve_eq_ok_iff.mpr ⟨_, _, _, load_locked parsed read, lockfile_locked manifest, rfl, viewed⟩
  have place := projectRoot_locked manifest
  refine ⟨rfl, rfl, ?printed, _, _, _, _, place, rfl, resolved, rfl⟩
  rw [run_deps rfl rfl place rfl resolved rfl, trees_locked locked]
  rfl

end

def jarText : String := "package.name=\"app\"\nconfigurations.c.dependencies=[\x7bmodule=\"g:a:1\"\x7d]"

def warText : String := "package.name=\"app\"\nconfigurations.c.dependencies=[\x7bmodule=\"g:a:1:war\"\x7d]"

theorem shows_jar : Shows (lockedProject jarText) {} askDeps (lockedTrees ⟨"g", "a", "1", "jar"⟩)
    "g:a:1\n    g:b:1\n" := by
  have parsed : Manifest.ofText ⟨"/app/ferrule.toml"⟩ jarText = .ok (declaring "g:a:1") := by cbv
  exact shows_locked parsed rfl (by decide)

theorem shows_war : Shows (lockedProject warText) {} askDeps (lockedTrees ⟨"g", "a", "1", "war"⟩)
    "g:a:1\n    g:b:1\n" := by
  have parsed : Manifest.ofText ⟨"/app/ferrule.toml"⟩ warText = .ok (declaring "g:a:1:war") := by cbv
  exact shows_locked parsed rfl (by decide)

/-- The same module is declared with another packaging, so that the trees have other files. The
printed ids do not tell the packaging, and they are the same. -/
theorem printed_forest_determined_packaging :
    let jar := lockedTrees ⟨"g", "a", "1", "jar"⟩
    let war := lockedTrees ⟨"g", "a", "1", "war"⟩
    let text := "g:a:1\n    g:b:1\n"
    Shows (lockedProject jarText) {} askDeps jar text ∧ Shows (lockedProject warText) {} askDeps war text ∧
      Report.Tidy jar ∧ Report.Tidy war ∧ jar ≠ war ∧
      (∃ nodes, Preorder jar nodes ∧ ["g:a:1", "    g:b:1"] = nodes.map fun n =>
        String.ofList (List.replicate (4 * (n.1.length - 1)) ' ') ++ n.2.module.display) ∧
      (∀ place, idAt? jar place = idAt? war place) ∧
      (Every ModuleId.Parted jar ∧ Every ModuleId.Parted war ∧
        ∀ place, moduleAt? jar place = moduleAt? war place) ∧
      ∀ place, moduleAt? jar place = moduleAt? war place := by
  intro jar war text
  have tidy : Report.Tidy jar := tidy_locked (by decide)
  have tidy' : Report.Tidy war := tidy_locked (by decide)
  have other : jar ≠ war := by
    intro same
    have extensions := congrArg (·.map fun tree => tree.artifacts.map (·.extension)) same
    exact absurd extensions (by decide)
  obtain ⟨lines, forests, commands⟩ := printed_forest_determined
  obtain ⟨nodes, preorder, printed⟩ := lines jar tidy
  obtain ⟨ids, modules⟩ := forests jar war tidy tidy' (shows_jar.trees_eq shows_war)
  have parted := shows_jar.parted
  have parted' := shows_war.parted
  refine ⟨shows_jar, shows_war, tidy, tidy', other, ⟨nodes, preorder, ?_⟩, ids,
    ⟨parted, parted', modules parted parted'⟩, ?_⟩
  · rw [← printed, trees_locked (by decide)]
    decide
  · exact commands _ _ _ jar _ _ _ war text shows_jar shows_war tidy tidy'

end Buildpath.CommandLine
