import Buildpath.Proofs.Path.Joining
import Buildpath.Proofs.Project.Loading

/-! How far up a path to another project leads. Of its `..` only those count that it starts with;
one that stands behind a name, or behind a `.`, is never seen. A path whose `..` all stand in front
keeps to the limit, and beyond that every `..` that is not seen may lead one level further. -/
namespace Buildpath.Project

def rise : Path.Component → Int
  | .up => 1
  | .name _ => -1
  | .root | .here => 0

/-- How many levels above the place where they start the components lead. -/
def climb (components : List Path.Component) : Int := (components.map rise).sum

def leadingParents (components : List Path.Component) : Nat := (components.takeWhile (· = .up)).length

def laterParents (components : List Path.Component) : Nat := (components.dropWhile (· = .up)).count .up

def Refused (d : Disk) (parent : Location) (relative : String) : Prop :=
  ∃ name path, rootOf d parent relative = .error (.projectEscapes name path)

theorem refused_iff {d : Disk} {parent : Location} {relative : String} :
    Refused d parent relative ↔ Path.isAbsolute relative = true ∨
      maxParents < leadingParents (Path.mk relative).components := by
  unfold Refused rootOf leadingParents
  by_cases absolute : Path.isAbsolute relative = true
  · simp [absolute]
  · by_cases many : maxParents < ((Path.mk relative).components.takeWhile (· = .up)).length
    · simp [absolute, many]
    · cases found : d.canonicalize (parent.path.join relative) <;>
        simp [absolute, many, found, Except.mapError]

theorem climb_le_count (components : List Path.Component) : climb components ≤ components.count .up := by
  induction components with
  | nil => exact Int.le_refl 0
  | cons component rest ih =>
    have split : climb (component :: rest) = rise component + climb rest := by simp [climb]
    cases component <;> simp [split, rise] <;> omega

theorem takeWhile_up (components : List Path.Component) :
    components.takeWhile (· = .up) = List.replicate (leadingParents components) .up :=
  List.eq_replicate_iff.mpr ⟨rfl, fun _ mem => by simpa using List.mem_takeWhile_imp mem⟩

theorem eq_leadingParents_append (components : List Path.Component) :
    components = List.replicate (leadingParents components) .up ++ components.dropWhile (· = .up) := by
  rw [← takeWhile_up, List.takeWhile_append_dropWhile]

theorem count_up (components : List Path.Component) :
    components.count .up = leadingParents components + laterParents components := by
  conv_lhs => rw [eq_leadingParents_append components]
  rw [List.count_append, List.count_replicate_self, laterParents]

theorem climb_append (left right : List Path.Component) :
    climb (left ++ right) = climb left + climb right := by
  simp [climb]

theorem climb_replicate_up (n : Nat) : climb (List.replicate n .up) = n := by
  simp [climb, rise]

/-- Nowhere on its way does a path climb further than it has `..`. -/
theorem climb_front_le {front components : List Path.Component} (start : front <+: components) :
    climb front ≤ leadingParents components + laterParents components := by
  have few : front.count .up ≤ components.count .up := start.sublist.count_le _
  have counted := count_up components
  have climbed := climb_le_count front
  omega

/-- Where not too many `..` stand in front, all depends on how far the rest climbs from there. -/
theorem climb_front_le_iff {components : List Path.Component} {limit : Nat}
    (few : leadingParents components ≤ limit) :
    (∀ front, front <+: components → climb front ≤ limit) ↔
      ∀ front, front <+: components.dropWhile (· = .up) →
        leadingParents components + climb front ≤ limit := by
  have split := eq_leadingParents_append components
  constructor
  · intro bounded front start
    obtain ⟨rest, eq⟩ := start
    have climbed := bounded (List.replicate (leadingParents components) .up ++ front)
      ⟨rest, by rw [List.append_assoc, eq, ← split]⟩
    rwa [climb_append, climb_replicate_up] at climbed
  · intro bounded front start
    rcases List.prefix_or_prefix_of_prefix start ⟨_, split.symm⟩ with short | long
    · have climbed := climb_le_count front
      have counted : front.count .up ≤ front.length := List.count_le_length
      have length := short.length_le
      rw [List.length_replicate] at length
      omega
    · obtain ⟨more, rfl⟩ := long
      have behind : more <+: components.dropWhile (· = .up) := by
        rw [← List.prefix_append_right_inj (List.replicate (leadingParents components) .up), ← split]
        exact start
      rw [climb_append, climb_replicate_up]
      exact bounded more behind

def climber : Nat → Path
  | 0 => ⟨"."⟩
  | n + 1 => (climber n).join ".."

theorem components_climber (n : Nat) : (climber n).components = .here :: List.replicate n .up := by
  induction n with
  | zero => decide
  | succ n ih =>
    have written : (climber n).text ≠ "" := by
      intro empty
      have none : (climber n).components = [] := by
        rw [Path.components_eq, empty]
        decide
      rw [ih] at none
      cases none
    have parent : Path.inner ".." = [.up] := by decide
    rw [climber, Path.components_join (by decide) written, ih, parent, List.replicate_succ',
      List.cons_append]

theorem climb_climber (n : Nat) : climb (climber n).components = n := by
  rw [components_climber]
  change 0 + climb (List.replicate n .up) = n
  rw [climb_replicate_up, Int.zero_add]

theorem not_refused_climber (n : Nat) (d : Disk) (parent : Location) :
    ¬ Refused d parent (climber n).text := by
  rw [refused_iff]
  rintro (absolute | many)
  · have root : (climber n).components = .root :: Path.inner (climber n).text := by
      rw [Path.components_eq, Path.lead, if_pos absolute]
      rfl
    rw [components_climber] at root
    cases root
  · have none : leadingParents (climber n).components = 0 := by
      rw [components_climber]
      rfl
    rw [none] at many
    cases many

/-- There is no height that a path which is not refused cannot climb to. -/
theorem exists_not_refused_climb (n : Nat) : ∃ relative, climb (Path.mk relative).components = n ∧
    ∀ d parent, ¬ Refused d parent relative :=
  ⟨(climber n).text, climb_climber n, not_refused_climber n⟩

/-- Refused are the absolute paths and those with too many `..` in front, and no others. A path that
is not refused climbs nowhere on its way higher than the limit and one level for each `..` that
stands behind anything else: it keeps to the limit, then, where all stand in front. In general it
does exactly if what stands behind them never climbs further than they left of the limit. -/
theorem project_path_climb_le (d : Disk) (parent : Location) (relative : String) :
    let components := (Path.mk relative).components
    (Refused d parent relative ↔
      Path.isAbsolute relative = true ∨ maxParents < leadingParents components) ∧
    (¬ Refused d parent relative →
      Path.isAbsolute relative = false ∧
      (∀ front, front <+: components → climb front ≤ maxParents + laterParents components) ∧
      ((∀ front, front <+: components → climb front ≤ maxParents) ↔
        ∀ front, front <+: components.dropWhile (· = .up) →
          leadingParents components + climb front ≤ maxParents)) := by
  intro components
  refine ⟨refused_iff, fun accepted => ?_⟩
  obtain ⟨inside, many⟩ := not_or.mp (mt refused_iff.mpr accepted)
  have few : leadingParents components ≤ maxParents := not_lt.mp many
  refine ⟨Bool.eq_false_iff.mpr inside, fun front start => ?_, climb_front_le_iff few⟩
  have climbed := climb_front_le start
  omega

/-! A project four directories deep, beside the directory of which another one lies. -/

def deepProjects : Disk where
  top := [("a", .directory [("b", .directory [("c", .directory [("dot", .directory [])])])]),
    ("core", .directory [])]

theorem rootOf_deep : rootOf deepProjects ["dot", "c", "b", "a"] "./../../../../core" = .ok ["core"] := by
  have found : deepProjects.canonicalize ⟨"/a/b/c/dot/./../../../../core"⟩ = .ok ["core"] := by cbv
  exact rootOf_eq_ok (by decide) (by decide) (by decide) found

theorem not_refused_deep : ¬ Refused deepProjects ["dot", "c", "b", "a"] "./../../../../core" := by
  rintro ⟨name, path, refused⟩
  rw [rootOf_deep] at refused
  cases refused

/-- Four levels up are too many, but not behind a `.`. -/
theorem project_path_climb_four :
    Refused deepProjects ["dot", "c", "b", "a"] "../../../../core" ∧
      ¬ Refused deepProjects ["dot", "c", "b", "a"] "./../../../../core" ∧
      Path.isAbsolute "./../../../../core" = false ∧
      [.here, .up, .up, .up, .up] <+: (Path.mk "./../../../../core").components ∧
      climb [.here, .up, .up, .up, .up] = 4 ∧
      climb [.here, .up, .up, .up, .up] ≤
        maxParents + laterParents (Path.mk "./../../../../core").components := by
  have start : [.here, .up, .up, .up, .up] <+: (Path.mk "./../../../../core").components := by decide
  obtain ⟨inside, bound, _⟩ := (project_path_climb_le _ _ _).2 not_refused_deep
  exact ⟨refused_iff.mpr (by decide), not_refused_deep, inside, start, rfl, bound _ start⟩

/-- So the limit does not hold for all paths that are not refused. -/
theorem not_climb_le_limit : ¬ ∀ (d : Disk) (parent : Location) (relative : String),
    ¬ Refused d parent relative → Path.isAbsolute relative = false ∧
      ∀ front, front <+: (Path.mk relative).components → climb front ≤ maxParents := by
  intro limit
  have start : [.here, .up, .up, .up, .up] <+: (Path.mk "./../../../../core").components := by decide
  have bounded := (limit _ _ _ not_refused_deep).2 _ start
  exact absurd bounded (by decide)

end Buildpath.Project
