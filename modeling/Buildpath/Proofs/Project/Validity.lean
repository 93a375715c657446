import Buildpath.Proofs.Manifest.Validation
import Buildpath.Proofs.Project.Faults

/-! Where invalid manifests are noticed. A manifest is checked as a whole when it is read, so a
declaration whose source is asked for later on always has one, and an invalid manifest is never
reported but by the check of one that the loader came to. -/
namespace Buildpath.Project

section
variable {d : Disk} {start key : Key} {way : List Step} {place : Option (String × Nat)}
  {fault : Manifest.SourceFault} {declaration : Manifest.Declaration}

theorem definite_of_manifestAt {root : Location} {m : Manifest} (read : manifestAt d root = .ok m) :
    m.Definite := by
  rcases manifestAt_cases d root with ⟨_, _, eq⟩ | ⟨_, _, eq⟩ | ⟨_, -, eq⟩
  · cases read.symm.trans eq
  · cases read.symm.trans eq
  · exact (Manifest.ofText_eq_ok_iff.mp (mapError_eq_ok_iff.mp (eq.symm.trans read))).2

theorem manifestAt_eq_invalid {root : Location}
    (failed : manifestAt d root = .error (.manifest (.invalid place fault))) :
    ∃ text m, ManifestText d root text ∧ Manifest.parse text = .ok m ∧
      m.validate = .error (.invalid place fault) := by
  rcases manifestAt_cases d root with ⟨_, _, eq⟩ | ⟨_, _, eq⟩ | ⟨text, there, eq⟩
  · cases failed.symm.trans eq
  · cases failed.symm.trans eq
  · obtain ⟨_, refused, ⟨⟩⟩ := mapError_eq_error_iff.mp (eq.symm.trans failed)
    obtain ⟨m, decoded, invalid⟩ := Manifest.ofText_eq_invalid refused
    exact ⟨text, m, there, decoded, invalid⟩

/-- What the loader looks at was declared in a manifest that had passed the check. -/
theorem Listed.exists_source (listed : Listed d start way key declaration) :
    ∃ source, declaration.source = .ok source := by
  cases listed with
  | @entered way key m s declaration led entered mem =>
    obtain ⟨read, _, found⟩ := enterPair_eq_ok_iff.mp entered
    have section_ : (key.2, s) ∈ m.configurations := by
      unfold Manifest.configuration at found
      split at found
      · rename_i looked
        cases found
        obtain ⟨before, after, eq, _⟩ := List.lookup_eq_some_iff.mp looked
        rw [eq]
        exact List.mem_append_right _ List.mem_cons_self
      · cases found
    exact Manifest.Declaration.exists_source_iff.mpr (definite_of_manifestAt read _ section_ _ mem)

theorem Listed.demand_ne_invalid (listed : Listed d start way key declaration) :
    demand d key declaration ≠ .error (.manifest (.invalid place fault)) := by
  intro failed
  obtain ⟨source, classified⟩ := listed.exists_source
  rcases demand_eq_error failed with ⟨_, wrong, -⟩ | ⟨_, ⟨⟩⟩ | ⟨_, _, ⟨⟨⟩⟩ | ⟨⟨⟩⟩⟩
  cases classified.symm.trans wrong

theorem enterPair_eq_invalid
    (refused : enterPair d way key = .error (.manifest (.invalid place fault))) :
    manifestAt d key.1 = .error (.manifest (.invalid place fault)) := by
  rcases enterPair_eq_error refused with unread | ⟨_, _, ⟨_, ⟨⟩⟩ | ⟨⟨⟩⟩⟩
  exact unread

theorem Fails.invalid (fails : Fails d start (.manifest (.invalid place fault))) :
    ∃ way key text m, Led d start way key ∧ ManifestText d key.1 text ∧
      Manifest.parse text = .ok m ∧ m.validate = .error (.invalid place fault) := by
  cases fails with
  | misread listed misread => exact absurd misread listed.demand_ne_invalid
  | refused led refused =>
    obtain ⟨text, m, there, decoded, invalid⟩ := manifestAt_eq_invalid (enterPair_eq_invalid refused)
    exact ⟨_, _, text, m, led, there, decoded, invalid⟩

end

/-- Of a manifest that can be decoded the first offending declaration is reported, if there is one.
Behind that check every declaration has a source, and loading reports no invalid manifest but one
that it came to, with what the check says of it. -/
theorem offending_declaration_reported (d : Disk) :
    (∀ path text m, d.readText path = .ok text → Manifest.parse text = .ok m →
      (Manifest.load d path = .ok m ↔ m.Definite) ∧
      (¬ m.Definite → ∃ name position fault,
        Manifest.load d path = .error (.invalid (some (name, position)) fault) ∧
        m.Offends name position fault)) ∧
    ∀ root name heap,
      (∀ l way key declaration, d.canonicalize root = .ok l →
        Listed d (l, name) way key declaration → ∃ source, declaration.source = .ok source) ∧
      ∀ place fault, load d root name heap = .error (.manifest (.invalid place fault)) →
        ∃ l way key text m, d.canonicalize root = .ok l ∧ Led d (l, name) way key ∧
          ManifestText d key.1 text ∧ Manifest.parse text = .ok m ∧
          m.validate = .error (.invalid place fault) := by
  refine ⟨fun path text m read decoded => ⟨?_, fun wrong => ?_⟩, fun root name heap => ⟨?_, ?_⟩⟩
  · rw [Manifest.load_eq_of_readText read, Manifest.ofText_eq_ok_iff, and_iff_right decoded]
  · cases checked : m.validate with
    | ok => exact absurd (Manifest.validate_eq_ok_iff.mp checked) wrong
    | error e =>
      obtain ⟨name, position, fault, rfl, offends⟩ := Manifest.validate_eq_error checked
      refine ⟨name, position, fault, ?_, offends⟩
      rw [Manifest.load_eq_of_readText read, Manifest.ofText_eq decoded, checked]
      rfl
  · exact fun l way key declaration _ listed => listed.exists_source
  · intro place fault failed
    unfold load at failed
    split at failed
    · cases failed
    · rename_i l located
      have fails := (kept_fails d (l, name)).pair [] (l, name) { heap } .requested _
        (map_eq_error_iff.mp failed)
      obtain ⟨way, key, text, m, led, there, decoded, invalid⟩ := fails.invalid
      exact ⟨l, way, key, text, m, located, led, there, decoded, invalid⟩

/-! The project `core` again, with two configurations that offend. -/

def offendingText : String :=
  "package.name=\"core\"\n[configurations]\nc.dependencies=[\x7b\x7d]\n" ++
  "B.dependencies=[\x7bglob=\"*\"\x7d,\x7bfiles=[],module=\"\"\x7d]"

def offendingProjects : Disk where
  top := [("app", .directory [("ferrule.toml", .file appText.toUTF8)]),
    ("core", .directory [("ferrule.toml", .file offendingText.toUTF8)])]

def offendingManifest : Manifest :=
  ⟨{ name := "core" }, [("c", { dependencies := [{}] }),
    ("B", { dependencies := [{ glob := some "*" }, { files := some [], module := some "" }] })]⟩

theorem outline_offending : offendingProjects.outline = twoProjects.outline := outline_projects _ _

theorem validate_offending :
    offendingManifest.validate = .error (.invalid (some ("B", 2)) .several) := by
  have order : ¬ "c" ≤ "B" := by decide
  have sorted : offendingManifest.sorted = offendingManifest.configurations.reverse := by
    simp [Manifest.sorted, offendingManifest, List.mergeSort, List.MergeSort.Internal.splitInTwo, order]
  rw [Manifest.sorted] at sorted
  rw [Manifest.validate, sorted]
  rfl

theorem locate_core (app core : ByteArray) :
    Disk.locate ⟨[("app", .directory [("ferrule.toml", .file app)]),
      ("core", .directory [("ferrule.toml", .file core)])], []⟩ ⟨"/core/ferrule.toml"⟩ =
      .ok ⟨["ferrule.toml", "core"], 0⟩ := by cbv

/-- The capital letter comes first, and of its declarations the second one sets two fields, although
one has no files and the other is empty. It is that one which is reported for `app`. -/
theorem offending_declaration_of_core :
    Manifest.load offendingProjects ⟨"/core/ferrule.toml"⟩ = .error (.invalid (some ("B", 2)) .several) ∧
    (∃ name position fault, Manifest.load offendingProjects ⟨"/core/ferrule.toml"⟩ =
      .error (.invalid (some (name, position)) fault) ∧ offendingManifest.Offends name position fault) ∧
    (∃ source, Manifest.Declaration.source { project := some "../core" } = .ok source) ∧
    load offendingProjects ⟨"/app"⟩ "c" {} = .error (.manifest (.invalid (some ("B", 2)) .several)) ∧
    ∃ l way key text m, offendingProjects.canonicalize ⟨"/app"⟩ = .ok l ∧
      Led offendingProjects (l, "c") way key ∧ ManifestText offendingProjects key.1 text ∧
      Manifest.parse text = .ok m ∧ m.validate = .error (.invalid (some ("B", 2)) .several) := by
  have located : offendingProjects.canonicalize ⟨"/app"⟩ = .ok ["app"] :=
    (Disk.canonicalize_congr outline_offending _).trans canonicalize_app
  have app : manifestAt offendingProjects ["app"] = .ok appManifest := by
    have child : offendingProjects.child ⟨["app"], 0⟩ manifestName =
        .ok ⟨["ferrule.toml", "app"], 0⟩ := rfl
    exact manifestAt_eq_ok child (by decide) (by decide) (Disk.readAt_text rfl) ofText_app
  have decoded : Manifest.parse offendingText = .ok offendingManifest := by cbv
  have refused (path : Path) : Manifest.ofText path offendingText =
      .error (.invalid (some ("B", 2)) .several) := by
    rw [Manifest.ofText_eq decoded, validate_offending]
    rfl
  have text : offendingProjects.readText ⟨"/core/ferrule.toml"⟩ = .ok offendingText := by
    rw [Disk.readText, offendingProjects, locate_core]
    exact Disk.readAt_text rfl
  have core : manifestAt offendingProjects ["core"] =
      .error (.manifest (.invalid (some ("B", 2)) .several)) := by
    have child : offendingProjects.child ⟨["core"], 0⟩ manifestName =
        .ok ⟨["ferrule.toml", "core"], 0⟩ := rfl
    have short : ¬ Disk.maxPath < Location.size [manifestName, "core"] := by decide
    have read : offendingProjects.readAt ["ferrule.toml", "core"] = .ok offendingText :=
      Disk.readAt_text rfl
    simp only [manifestAt, child, if_neg short, read, refused, Except.mapError]
  have down : demand offendingProjects (["app"], "c") { project := some "../core" } =
      .ok (.load (["core"], "c") none) := by
    have found := (Disk.canonicalize_congr outline_offending _).trans canonicalize_core
    exact demand_project (rootOf_eq_ok (by decide) (by decide) (by decide) found)
  have first : enterPair offendingProjects [] (["app"], "c") = .ok (appManifest, appSection) :=
    enterPair_eq_ok_iff.mpr ⟨app, by simp, rfl⟩
  have failed : load offendingProjects ⟨"/app"⟩ "c" {} =
      .error (.manifest (.invalid (some ("B", 2)) .several)) := by
    have second (way : List Step) : enterPair offendingProjects way (["core"], "c") =
        .error (.manifest (.invalid (some ("B", 2)) .several)) := by
      rw [enterPair, core]
    simp [load, located, loadPair_eq, first, appSection, loadEach_cons, down, second, Except.map]
  obtain ⟨reported, sourced⟩ := offending_declaration_reported offendingProjects
  have wrong : ¬ offendingManifest.Definite := by
    intro definite
    cases validate_offending.symm.trans (Manifest.validate_eq_ok_iff.mpr definite)
  have listed : Listed offendingProjects (["app"], "c") _ (["app"], "c") { project := some "../core" } :=
    .entered .requested first List.mem_cons_self
  refine ⟨?_, (reported _ _ _ text decoded).2 wrong, (sourced _ "c" {}).1 _ _ _ _ located listed, failed,
    (sourced _ _ _).2 _ _ failed⟩
  rw [Manifest.load_eq_of_readText text, refused]

end Buildpath.Project
