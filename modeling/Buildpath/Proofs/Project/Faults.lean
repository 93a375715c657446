import Buildpath.Proofs.Disk.Outline
import Buildpath.Proofs.FirstFault
import Buildpath.Proofs.Project.Table
import Buildpath.Proofs.Ring

/-! Why a configuration cannot be loaded. The loader only comes to pairs that declared project
dependencies lead to, and whatever it fails with is wrong at such a pair: it may not be entered,
or one of its declarations asks for nothing. A pair may not be entered again below itself, so the
cycle that is reported then is one of declared dependencies. No such cycle goes unnoticed: what
was loaded can be read without end nowhere. -/
namespace Buildpath.Project

open Relation

/-- The loader comes to a pair behind a way, when it was asked for `start`. -/
inductive Led (d : Disk) (start : Key) : List Step → Key → Prop
  | requested : Led d start [] start
  | declared : Led d start way key → enterPair d way key = .ok (m, s) →
      declaration ∈ s.dependencies → demand d key declaration = .ok (.load target override) →
      Led d start (⟨key, label m key⟩ :: way) target

inductive Listed (d : Disk) (start : Key) : List Step → Key → Manifest.Declaration → Prop
  | entered : Led d start way key → enterPair d way key = .ok (m, s) →
      declaration ∈ s.dependencies → Listed d start (⟨key, label m key⟩ :: way) key declaration

inductive Fails (d : Disk) (start : Key) : ResolveError → Prop
  | refused : Led d start way key → enterPair d way key = .error e → Fails d start e
  | misread : Listed d start way key declaration → demand d key declaration = .error e →
      Fails d start e

section
variable {d : Disk} {start key : Key} {way : List Step}

theorem Listed.led {declaration : Manifest.Declaration} {target : Key} {override : Option Bool}
    (listed : Listed d start way key declaration)
    (asked : demand d key declaration = .ok (.load target override)) : Led d start way target := by
  cases listed with
  | entered led entered mem => exact .declared led entered mem asked

theorem Led.trail (led : Led d start way key) (text : String) :
    Trail Step.key (fun step next => Declares d step.key next.key) (·.key = start) way ⟨key, text⟩ := by
  induction led generalizing text with
  | requested => exact .start rfl
  | declared _ entered mem asked ih =>
    obtain ⟨read, new, found⟩ := enterPair_eq_ok_iff.mp entered
    exact (ih _).enter new ⟨_, _, _, _, read, found, mem, asked⟩

/-- All steps of a way bear the labels of their pairs. -/
theorem Led.labels (led : Led d start way key) : ∀ step ∈ way,
    ∃ m, manifestAt d step.key.1 = .ok m ∧ step.label = label m step.key := by
  induction led with
  | requested => simp
  | declared _ entered _ _ ih =>
    exact List.forall_mem_cons.mpr ⟨⟨_, (enterPair_eq_ok_iff.mp entered).1, rfl⟩, ih⟩

/-- Whatever the loader comes to can be reached from where it starts. -/
theorem Led.reached (led : Led d start way key) (text : String) :
    ∀ step ∈ (⟨key, text⟩ :: way : List Step), ReflTransGen (Declares d) start step.key := by
  intro step mem
  obtain ⟨first, rfl, path⟩ := (led.trail text).reached step mem
  exact path.lift Step.key fun _ _ declares => declares

end

/-- Behind a declaration that is no reason to fail the others are. -/
theorem fails_of_rest {d : Disk} {start key : Key} {way : List Step} {first : Manifest.Declaration}
    {rest : List Manifest.Declaration} {result : Except ResolveError α} {f : α → β}
    (each : (∀ declaration ∈ rest, Listed d start way key declaration) →
      ∀ e, result = .error e → Fails d start e)
    (listed : ∀ declaration ∈ first :: rest, Listed d start way key declaration) (e : ResolveError)
    (failed : result.map f = .error e) : Fails d start e :=
  each (fun other mem => listed other (List.mem_cons_of_mem _ mem)) e (map_eq_error_iff.mp failed)

/-- Every run that fails does so for what is wrong where it has come to. -/
theorem kept_fails (d : Disk) (start : Key) : Kept d
    (fun way key _ result => Led d start way key → ∀ e, result = .error e → Fails d start e)
    (fun way key declarations _ result =>
      (∀ declaration ∈ declarations, Listed d start way key declaration) →
      ∀ e, result = .error e → Fails d start e) where
  hit _ _ := nofun
  refused _ refused led := by
    rintro _ ⟨⟩
    exact .refused led refused
  stopped _ entered each led := by
    rintro _ ⟨⟩
    exact each (fun declaration mem => .entered led entered mem) _ rfl
  finished _ _ _ _ := nofun
  nil _ := nofun
  misread misread listed := by
    rintro _ ⟨⟩
    exact .misread (listed _ List.mem_cons_self) misread
  files _ each := fails_of_rest each
  module _ each := fails_of_rest each
  unloaded asked pair listed := by
    rintro _ ⟨⟩
    exact pair ((listed _ List.mem_cons_self).led asked) _ rfl
  loaded _ _ each := fails_of_rest each

/-! Each step that may fail, with all that it may fail for. -/

def ManifestText (d : Disk) (root : Location) (text : String) : Prop :=
  ∃ place, d.child ⟨root, 0⟩ manifestName = .ok place ∧ d.readAt place.location = .ok text

section
variable {d : Disk} {root : Location} {key : Key} {way : List Step} {e : ResolveError}

theorem manifestAt_cases (d : Disk) (root : Location) :
    (∃ name path, manifestAt d root = .error (.projectNotFound name path)) ∨
    (∃ path fault, manifestAt d root = .error (.manifest (.read path fault))) ∨
    ∃ text, ManifestText d root text ∧
      manifestAt d root = (Manifest.ofText (root.path.join manifestName) text).mapError .manifest := by
  unfold manifestAt
  dsimp only
  split
  · exact .inl ⟨_, _, rfl⟩
  · rename_i found
    split
    · exact .inl ⟨_, _, rfl⟩
    · split
      · exact .inr (.inl ⟨_, _, rfl⟩)
      · rename_i text read
        exact .inr (.inr ⟨text, ⟨_, found, read⟩, rfl⟩)

theorem rootOf_eq_error {relative : String} (failed : rootOf d root relative = .error e) :
    ∃ path, e = .projectEscapes relative path ∨ e = .projectNotFound relative path := by
  unfold rootOf at failed
  dsimp only at failed
  split at failed
  · cases failed
    exact ⟨_, .inl rfl⟩
  · split at failed
    · cases failed
      exact ⟨_, .inl rfl⟩
    · obtain ⟨_, _, rfl⟩ := mapError_eq_error_iff.mp failed
      exact ⟨_, .inr rfl⟩

theorem demand_eq_error {declaration : Manifest.Declaration}
    (failed : demand d key declaration = .error e) :
    (∃ fault, declaration.source = .error fault ∧ e = .manifest (.invalid none fault)) ∨
    (∃ fault, e = .coordinate fault) ∨
    ∃ relative path, e = .projectEscapes relative path ∨ e = .projectNotFound relative path := by
  unfold demand at failed
  split at failed
  · rename_i fault wrong
    cases failed
    exact .inl ⟨fault, wrong, rfl⟩
  · cases failed
  · cases failed
  · split at failed
    · cases failed
      exact .inr (.inl ⟨_, rfl⟩)
    · cases failed
  · split at failed
    · rename_i refused
      cases failed
      exact .inr (.inr ⟨_, rootOf_eq_error refused⟩)
    · cases failed

theorem enterPair_eq_error (refused : enterPair d way key = .error e) :
    manifestAt d key.1 = .error e ∨ ∃ m, manifestAt d key.1 = .ok m ∧
      (key ∈ way.map (·.key) ∧
          e = .cycle ⟨(way.reverse.dropWhile (·.key ≠ key)).map (·.label) ++ [label m key]⟩ ∨
        e = .manifest (.unknownConfiguration m.package.name key.2)) := by
  unfold enterPair at refused
  split at refused
  · rename_i unread
    cases refused
    exact .inl unread
  · rename_i m read
    refine .inr ⟨m, read, ?_⟩
    split at refused
    · rename_i on
      cases refused
      exact .inl ⟨any_key_iff.mp on, rfl⟩
    · split at refused
      · rename_i unknown
        cases refused
        unfold Manifest.configuration at unknown
        split at unknown
        · cases unknown
        · cases unknown
          exact .inr rfl
      · cases refused

end

/-! Nothing but a pair that is on its own way makes a cycle. -/

section
variable {d : Disk} {c : Cycle}

theorem manifestAt_ne_cycle {root : Location} : manifestAt d root ≠ .error (.cycle c) := by
  intro failed
  rcases manifestAt_cases d root with ⟨_, _, eq⟩ | ⟨_, _, eq⟩ | ⟨_, -, eq⟩
  · cases failed.symm.trans eq
  · cases failed.symm.trans eq
  · obtain ⟨_, _, ⟨⟩⟩ := mapError_eq_error_iff.mp (eq.symm.trans failed)

theorem demand_ne_cycle {key : Key} {declaration : Manifest.Declaration} :
    demand d key declaration ≠ .error (.cycle c) := by
  intro failed
  rcases demand_eq_error failed with ⟨_, _, ⟨⟩⟩ | ⟨_, ⟨⟩⟩ | ⟨_, _, ⟨⟨⟩⟩ | ⟨⟨⟩⟩⟩

theorem enterPair_eq_cycle {way : List Step} {key : Key}
    (refused : enterPair d way key = .error (.cycle c)) : ∃ m, manifestAt d key.1 = .ok m ∧
      key ∈ way.map (·.key) ∧
      c.labels = (way.reverse.dropWhile (·.key ≠ key)).map (·.label) ++ [label m key] := by
  rcases enterPair_eq_error refused with unread | ⟨m, read, ⟨on, ⟨⟩⟩ | ⟨⟨⟩⟩⟩
  · exact absurd unread manifestAt_ne_cycle
  · exact ⟨m, read, on, rfl⟩

end

/-- A cycle of declared dependencies, with the labels of its pairs. -/
structure DeclaredCycle (d : Disk) (start : Key) (steps : List Step) : Prop where
  ring : Ring Step.key (fun step next => Declares d step.key next.key) steps
  labels : ∀ step ∈ steps, ∃ m, manifestAt d step.key.1 = .ok m ∧ step.label = label m step.key
  reached : ∀ step ∈ steps, ReflTransGen (Declares d) start step.key

/-- The cycle that is reported is there. -/
theorem Fails.declaredCycle {d : Disk} {start : Key} {c : Cycle} (fails : Fails d start (.cycle c)) :
    ∃ steps, DeclaredCycle d start steps ∧ c.labels = steps.map (·.label) := by
  cases fails with
  | misread _ misread => exact absurd misread demand_ne_cycle
  | @refused way key _ led refused =>
    obtain ⟨m, read, on, labels⟩ := enterPair_eq_cycle refused
    refine ⟨_, ⟨(led.trail (label m key)).ring on, fun step mem => ?_, fun step mem => ?_⟩, ?_⟩
    · rcases List.mem_cons.mp (mem_of_mem_reported mem) with rfl | mem
      · exact ⟨m, read, rfl⟩
      · exact led.labels step mem
    · exact led.reached _ step (mem_of_mem_reported mem)
    · rw [labels, List.map_append, List.map_singleton]

/-- Nothing that was loaded leads back to itself. -/
theorem acc_of_load {d : Disk} {root : Path} {name : String} {heap heap' : Heap} {h : Handle}
    (run : load d root name heap = .ok (h, heap')) : ∃ l, d.canonicalize root = .ok l ∧
      Acc (fun target key => Declares d key target) (l, name) := by
  obtain ⟨l, found, after, located, pair, _⟩ := load_eq_ok run
  have outcome := (kept_sound d).pair [] (l, name) { heap } (sound_initial heap)
  rw [pair] at outcome
  cases outcome with
  | loaded loads => exact ⟨l, located, loads.represents.reads.acc⟩

/-- Where loading fails for a cycle there is one of declared project dependencies: it can be
reached from the pair that was asked for, and its labels are reported in order. Where such a cycle
can be reached loading fails, whatever overrides say. -/
theorem load_cycle_declared (d : Disk) (root : Path) (name : String) (heap : Heap) :
    (∀ c, load d root name heap = .error (.cycle c) → ∃ l steps, d.canonicalize root = .ok l ∧
      DeclaredCycle d (l, name) steps ∧
      c.text = String.intercalate " -> " (steps.map (·.label))) ∧
    ∀ l key, d.canonicalize root = .ok l → ReflTransGen (Declares d) (l, name) key →
      TransGen (Declares d) key key → ∃ e, load d root name heap = .error e := by
  constructor
  · intro c failed
    unfold load at failed
    split at failed
    · cases failed
    · rename_i l located
      have fails := (kept_fails d (l, name)).pair [] (l, name) { heap } .requested _
        (map_eq_error_iff.mp failed)
      obtain ⟨steps, cycle, labels⟩ := fails.declaredCycle
      exact ⟨l, steps, located, cycle, by rw [Cycle.text, labels]⟩
  · intro l key located path loop
    cases run : load d root name heap with
    | error e => exact ⟨e, rfl⟩
    | ok result =>
      obtain ⟨l', located', acc⟩ := acc_of_load run
      obtain rfl := Except.ok.inj (located.symm.trans located')
      exact absurd loop (not_transGen_of_acc acc path)

/-! The project `core` again, as one that depends on itself. -/

def loopText : String :=
  "package.name=\"core\"\nconfigurations.c.dependencies=[\x7bproject=\".\",transitive=false\x7d]"

def loopedProjects : Disk where
  top := [("app", .directory [("ferrule.toml", .file appText.toUTF8)]),
    ("core", .directory [("ferrule.toml", .file loopText.toUTF8)])]

def loopManifest : Manifest :=
  ⟨{ name := "core" }, [("c", { dependencies := [{ project := some ".", transitive := some false }] })]⟩

theorem outline_looped : loopedProjects.outline = twoProjects.outline := outline_projects _ _

/-- The cycle is not one of `app`, and its dependency would never be followed. It is
reported, and loading fails no less on a heap that has something on it. -/
theorem load_looped : load loopedProjects ⟨"/app"⟩ "c" {} = .error (.cycle ⟨["core:c", "core:c"]⟩) ∧
    (∃ steps, DeclaredCycle loopedProjects (["app"], "c") steps ∧
      "core:c -> core:c" = String.intercalate " -> " (steps.map (·.label))) ∧
    ∃ e, load loopedProjects ⟨"/app"⟩ "c" ⟨[⟨"c", true, []⟩]⟩ = .error e := by
  have located : loopedProjects.canonicalize ⟨"/app"⟩ = .ok ["app"] :=
    (Disk.canonicalize_congr outline_looped _).trans canonicalize_app
  have app : manifestAt loopedProjects ["app"] = .ok appManifest := by
    have child : loopedProjects.child ⟨["app"], 0⟩ manifestName = .ok ⟨["ferrule.toml", "app"], 0⟩ := rfl
    exact manifestAt_eq_ok child (by decide) (by decide) (Disk.readAt_text rfl) ofText_app
  have core : manifestAt loopedProjects ["core"] = .ok loopManifest := by
    have child : loopedProjects.child ⟨["core"], 0⟩ manifestName = .ok ⟨["ferrule.toml", "core"], 0⟩ := rfl
    have parsed : Manifest.ofText ⟨"/core/ferrule.toml"⟩ loopText = .ok loopManifest := by cbv
    exact manifestAt_eq_ok child (by decide) (by decide) (Disk.readAt_text rfl) parsed
  have down : demand loopedProjects (["app"], "c") { project := some "../core" } =
      .ok (.load (["core"], "c") none) := by
    have found := (Disk.canonicalize_congr outline_looped _).trans canonicalize_core
    exact demand_project (rootOf_eq_ok (by decide) (by decide) (by decide) found)
  have back : demand loopedProjects (["core"], "c") { project := some ".", transitive := some false } =
      .ok (.load (["core"], "c") (some false)) := by
    have found : loopedProjects.canonicalize ⟨"/core/."⟩ = .ok ["core"] := by cbv
    exact demand_project (rootOf_eq_ok (by decide) (by decide) (by decide) found)
  have failed : load loopedProjects ⟨"/app"⟩ "c" {} = .error (.cycle ⟨["core:c", "core:c"]⟩) := by
    have first : enterPair loopedProjects [] (["app"], "c") = .ok (appManifest, appSection) :=
      enterPair_eq_ok_iff.mpr ⟨app, by simp, rfl⟩
    have second : enterPair loopedProjects [⟨(["app"], "c"), label appManifest (["app"], "c")⟩]
        (["core"], "c") = .ok (loopManifest, _) := enterPair_eq_ok_iff.mpr ⟨core, by simp, rfl⟩
    have third : enterPair loopedProjects [⟨(["core"], "c"), label loopManifest (["core"], "c")⟩,
        ⟨(["app"], "c"), label appManifest (["app"], "c")⟩] (["core"], "c") =
        .error (.cycle ⟨["core:c", "core:c"]⟩) := by
      rw [enterPair, core]
      rfl
    simp [load, located, loadPair_eq, first, appSection, loadEach_cons, down, second, back, third,
      Except.map]
  obtain ⟨l, steps, located', cycle, text⟩ := (load_cycle_declared loopedProjects ⟨"/app"⟩ "c" {}).1 _ failed
  obtain rfl := Except.ok.inj (located.symm.trans located')
  have leads : Declares loopedProjects (["app"], "c") (["core"], "c") :=
    ⟨_, _, _, _, app, rfl, List.mem_cons_self, down⟩
  have loop : Declares loopedProjects (["core"], "c") (["core"], "c") :=
    ⟨_, _, _, _, core, rfl, List.mem_cons_self, back⟩
  have again := (load_cycle_declared loopedProjects ⟨"/app"⟩ "c" ⟨[⟨"c", true, []⟩]⟩).2 _ _ located
    (.single leads) (.single loop)
  exact ⟨failed, ⟨steps, cycle, text⟩, again⟩

end Buildpath.Project
