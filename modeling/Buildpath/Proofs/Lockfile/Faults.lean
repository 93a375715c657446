import Buildpath.Proofs.Lockfile.Runs
import Buildpath.Proofs.Ring

/-! Why modules cannot be resolved. `points` lists all that is come to in a lock document, depth
first and from left to right, each with the ids that lead to it; whether something is wrong at a
point shows at the point alone. Resolving fails with the first thing that is wrong. Every point
is led to from a declared module by the lists of locked modules, and that is what makes the
error true. -/
namespace Buildpath.Lockfile

open Relation

/-- What is asked for behind the ids on a way. -/
structure Point where
  way : List String
  ask : Except Coordinate.Malformed Wanted

/-- All that is come to: each thing that is asked for, and then what the entry of a module asks
for in turn. Nothing lies below an id that is not locked or that is on its own way. -/
def points (l : Lockfile) (way : List String) : List (Except Coordinate.Malformed Wanted) → List Point
  | [] => []
  | .error e :: rest => ⟨way, .error e⟩ :: l.points way rest
  | .ok w :: rest =>
    let below :=
      if _new : w.coordinate.id ∈ way then []
      else match _found : l.module? w.coordinate.id with
        | none => []
        | some m => l.points (w.coordinate.id :: way) (m.asks w.transitive)
    ⟨way, .ok w⟩ :: (below ++ l.points way rest)
termination_by asked => (l.outside way, asked.length)
decreasing_by
  · exact Prod.Lex.right _ (by simp)
  · exact Prod.Lex.left _ _ (outside_cons_lt _found _new)
  · exact Prod.Lex.right _ (by simp)

def fault? (l : Lockfile) (configuration : String) (p : Point) : Option ResolveError :=
  match p.ask with
  | .error e => some (.coordinate e)
  | .ok w =>
    if w.coordinate.id ∈ p.way then
      some (.cycle ⟨p.way.reverse.dropWhile (· ≠ w.coordinate.id) ++ [w.coordinate.id]⟩)
    else if l.module? w.coordinate.id = none then
      some (.unresolvedModule w.coordinate.id configuration)
    else none

variable {l : Lockfile} {repository : Path} {configuration : String}

section
variable {way : List String} {w : Wanted} {rest : List (Except Coordinate.Malformed Wanted)}

theorem points_misread {e : Coordinate.Malformed} :
    l.points way (.error e :: rest) = ⟨way, .error e⟩ :: l.points way rest := by
  rw [points]

theorem points_met (met : w.coordinate.id ∈ way) :
    l.points way (.ok w :: rest) = ⟨way, .ok w⟩ :: l.points way rest := by
  rw [points, dif_pos met, List.nil_append]

theorem points_missing (new : w.coordinate.id ∉ way) (missing : l.module? w.coordinate.id = none) :
    l.points way (.ok w :: rest) = ⟨way, .ok w⟩ :: l.points way rest := by
  rw [points, dif_neg new]
  split
  · rfl
  · rename_i locked
    cases missing.symm.trans locked

theorem points_locked {m : LockedModule} (new : w.coordinate.id ∉ way)
    (locked : l.module? w.coordinate.id = some m) : l.points way (.ok w :: rest) =
      ⟨way, .ok w⟩ :: (l.points (w.coordinate.id :: way) (m.asks w.transitive) ++ l.points way rest) := by
  rw [points, dif_neg new]
  split
  · rename_i missing
    cases missing.symm.trans locked
  · rename_i found
    obtain rfl := Option.some.inj (found.symm.trans locked)
    rfl

theorem fault?_locked {m : LockedModule} (new : w.coordinate.id ∉ way)
    (locked : l.module? w.coordinate.id = some m) : l.fault? configuration ⟨way, .ok w⟩ = none := by
  simp [fault?, new, locked]

end

/-- A run fails with what is wrong at the first of the points at which something is. -/
theorem Runs.eq_error_iff {way : List String} {asked : List (Except Coordinate.Malformed Wanted)}
    {result : Except ResolveError (List Tree)} {e : ResolveError}
    (runs : Runs l repository configuration way asked result) :
    result = .error e ↔ (l.points way asked).findSome? (l.fault? configuration) = some e := by
  induction runs generalizing e with
  | nil => simp [points]
  | misread =>
    rw [points_misread, List.findSome?_cons_of_isSome (by simp [fault?])]
    simp [fault?]
  | met onWay =>
    rw [points_met onWay, List.findSome?_cons_of_isSome (by simp [fault?, onWay])]
    simp [fault?, onWay]
  | missing new missing =>
    rw [points_missing new missing, List.findSome?_cons_of_isSome (by simp [fault?, new, missing])]
    simp [fault?, new, missing]
  | broken new locked _ ih =>
    rw [points_locked new locked, List.findSome?_cons_of_isNone (by simp [fault?_locked new locked]),
      List.findSome?_append, ih.mp rfl, Option.some_or, Except.error.injEq, Option.some.injEq]
  | node new locked _ _ ihBelow ihRest =>
    have fine : (l.points _ _).findSome? (l.fault? configuration) = none :=
      Option.eq_none_iff_forall_ne_some.mpr fun e wrong => by cases ihBelow.mpr wrong
    rw [points_locked new locked, List.findSome?_cons_of_isNone (by simp [fault?_locked new locked]),
      List.findSome?_append, fine, Option.none_or, map_eq_error_iff, ihRest]

/-- What is asked for behind a way comes up there: it is declared, or the entry of the module
entered last asks for it. -/
inductive Led (l : Lockfile) (declared : List Wanted) :
    List String → Except Coordinate.Malformed Wanted → Prop
  | declared : w ∈ declared → Led l declared [] (.ok w)
  | listed : Led l declared way (.ok w) → w.coordinate.id ∉ way → l.module? w.coordinate.id = some m →
      ask ∈ m.asks w.transitive → Led l declared (w.coordinate.id :: way) ask

def Reached (l : Lockfile) (declared : List Wanted) (id : String) : Prop :=
  ∃ w ∈ declared, w.transitive = true ∧ ReflTransGen l.Leads w.coordinate.id id

section
variable {declared : List Wanted} {way : List String} {ask : Except Coordinate.Malformed Wanted}
  {w : Wanted}

/-- A point is what is asked for first, or below it, or behind it. -/
theorem mem_points_ok {p : Point} {rest : List (Except Coordinate.Malformed Wanted)}
    (mem : p ∈ l.points way (.ok w :: rest)) : p = ⟨way, .ok w⟩ ∨
      (∃ m, w.coordinate.id ∉ way ∧ l.module? w.coordinate.id = some m ∧
        p ∈ l.points (w.coordinate.id :: way) (m.asks w.transitive)) ∨ p ∈ l.points way rest := by
  by_cases met : w.coordinate.id ∈ way
  · rw [points_met met] at mem
    exact (List.mem_cons.mp mem).imp_right .inr
  · cases locked : l.module? w.coordinate.id with
    | none =>
      rw [points_missing met locked] at mem
      exact (List.mem_cons.mp mem).imp_right .inr
    | some m =>
      rw [points_locked met locked, List.mem_cons, List.mem_append] at mem
      exact mem.imp_right (.imp_left fun below => ⟨m, met, rfl, below⟩)

theorem led_of_mem_points {p : Point} {asked : List (Except Coordinate.Malformed Wanted)}
    (led : ∀ ask ∈ asked, l.Led declared way ask) (mem : p ∈ l.points way asked) :
    l.Led declared p.way p.ask := by
  induction way, asked using points.induct l with
  | case1 => simp [points] at mem
  | case2 way e rest ih =>
    rw [points_misread] at mem
    rcases List.mem_cons.mp mem with rfl | mem
    · exact led _ List.mem_cons_self
    · exact ih (fun ask later => led ask (List.mem_cons_of_mem _ later)) mem
  | case3 way w rest ihBelow ihRest =>
    have first := led _ List.mem_cons_self
    rcases mem_points_ok mem with rfl | ⟨m, new, locked, mem⟩ | mem
    · exact first
    · exact ihBelow new m locked (fun ask asks => .listed first new locked asks) mem
    · exact ihRest (fun ask later => led ask (List.mem_cons_of_mem _ later)) mem

theorem Led.distinct (led : l.Led declared way ask) : way.Nodup := by
  induction led with
  | declared => exact List.nodup_nil
  | listed _ new _ _ ih => exact List.nodup_cons.mpr ⟨new, ih⟩

/-- An entry that asks for a module leads to it. -/
theorem leads_of_asks {m : LockedModule} {id : String} {transitive : Bool}
    (locked : l.module? id = some m) (asks : .ok w ∈ m.asks transitive) :
    l.Leads id w.coordinate.id := by
  obtain ⟨_, text, listed, read⟩ := mem_asks.mp asks
  obtain ⟨c, parsed, rfl⟩ := ofId_eq_ok.mp read
  exact ⟨m, text, c, locked, listed, parsed, rfl⟩

theorem Led.chain (led : l.Led declared way (.ok w)) :
    (w.coordinate.id :: way).IsChain fun id before => l.Leads before id := by
  generalize asked : (Except.ok w : Except Coordinate.Malformed Wanted) = ask at led
  induction led generalizing w with
  | declared => exact List.isChain_singleton _
  | listed _ _ locked asks ih =>
    subst asked
    exact List.isChain_cons_cons.mpr ⟨leads_of_asks locked asks, ih rfl⟩

theorem Led.reached_of_transitive (led : l.Led declared way (.ok w)) (transitive : w.transitive = true) :
    l.Reached declared w.coordinate.id := by
  generalize asked : (Except.ok w : Except Coordinate.Malformed Wanted) = ask at led
  induction led generalizing w with
  | declared mem =>
    cases asked
    exact ⟨_, mem, transitive, .refl⟩
  | listed _ _ locked asks ih =>
    subst asked
    obtain ⟨root, mem, whole, path⟩ := ih (mem_asks.mp asks).1 rfl
    exact ⟨root, mem, whole, path.tail (leads_of_asks locked asks)⟩

/-- Only what is wanted with its dependencies leads anywhere. -/
theorem Led.reached (led : l.Led declared way ask) : ∀ id ∈ way, l.Reached declared id := by
  induction led with
  | declared => simp
  | listed led _ _ asks ih =>
    intro id mem
    rcases List.mem_cons.mp mem with rfl | mem
    · exact led.reached_of_transitive (mem_asks.mp asks).1
    · exact ih id mem

end

inductive Justified (l : Lockfile) (configuration : String) (declared : List Wanted) :
    ResolveError → Prop
  | unresolved {missing : String} : l.module? missing = none →
      (∃ w ∈ declared, w.coordinate.id = missing) ∨ (∃ k, l.Reached declared k ∧ l.Leads k missing) →
      Justified l configuration declared (.unresolvedModule missing configuration)
  | misread : l.Reached declared k → l.module? k = some m → e.text ∈ m.dependencies →
      Coordinate.parse e.text = .error e → Justified l configuration declared (.coordinate e)
  | cycle : Ring id l.Leads cycle.labels → (∀ k ∈ cycle.labels, l.Reached declared k) →
      cycle.text = String.intercalate " -> " cycle.labels →
      Justified l configuration declared (.cycle cycle)

theorem parse_eq_error {text : String} {e : Coordinate.Malformed}
    (failed : Coordinate.parse text = .error e) : e.text = text := by
  unfold Coordinate.parse at failed
  dsimp only at failed
  split at failed
  · cases failed
    rfl
  · split at failed
    · cases failed
      rfl
    · cases failed

/-- What an entry asks for and cannot be read is quoted as it is listed. -/
theorem listed_of_misread {m : LockedModule} {transitive : Bool} {e : Coordinate.Malformed}
    (asks : .error e ∈ m.asks transitive) :
    e.text ∈ m.dependencies ∧ Coordinate.parse e.text = .error e := by
  obtain ⟨_, text, listed, read⟩ := mem_asks.mp asks
  have failed : Coordinate.parse text = .error e := map_eq_error_iff.mp read
  obtain rfl := parse_eq_error failed
  exact ⟨listed, failed⟩

/-- What is wrong at a point that is led to is wrong in the document. -/
theorem Led.justified {declared : List Wanted} {p : Point} {e : ResolveError}
    (led : l.Led declared p.way p.ask) (wrong : l.fault? configuration p = some e) :
    l.Justified configuration declared e := by
  obtain ⟨way, ask⟩ := p
  cases ask with
  | error malformed =>
    cases wrong
    cases led with
    | listed outer new locked asks =>
      obtain ⟨listed, failed⟩ := listed_of_misread asks
      exact .misread (outer.reached_of_transitive (mem_asks.mp asks).1) locked listed failed
  | ok w =>
    simp only [fault?] at wrong
    split at wrong
    · rename_i met
      cases wrong
      have ring : Ring id l.Leads _ :=
        ring_of_way led.chain (by simpa using led.distinct) (by simpa using met)
      refine .cycle ring (fun k mem => ?_) rfl
      rcases List.mem_cons.mp (mem_of_mem_reported mem) with rfl | mem
      · exact led.reached _ met
      · exact led.reached k mem
    · split at wrong
      · rename_i missing
        cases wrong
        refine .unresolved missing ?_
        cases led with
        | declared mem => exact .inl ⟨w, mem, rfl⟩
        | listed outer new locked asks =>
          exact .inr ⟨_, outer.reached_of_transitive (mem_asks.mp asks).1, leads_of_asks locked asks⟩
      · cases wrong

/-- Resolving fails exactly if something is wrong at a point that is come to from the declared
modules, with what is wrong at the first such point, and never without grounds. -/
theorem resolve_fails_at_first_fault (l : Lockfile) (repository : Path) (heap : Heap) (h : Handle) :
    let declared := declaredModules (heap.transitive h) (heap.dependencies h)
    ∀ e, (l.resolve repository heap h = .error e ↔
        (l.points [] (declared.map .ok)).findSome? (l.fault? (heap.name h)) = some e) ∧
      (l.resolve repository heap h = .error e → l.Justified (heap.name h) declared e) := by
  intro declared e
  have runs := runs_declaredTrees l repository (heap.name h) (heap.transitive h) (heap.dependencies h)
  have first : l.resolve repository heap h = .error e ↔
      (l.points [] (declared.map .ok)).findSome? (l.fault? (heap.name h)) = some e := by
    rw [resolve, map_eq_error_iff, runs.eq_error_iff]
  refine ⟨first, fun failed => ?_⟩
  obtain ⟨p, mem, wrong⟩ := List.exists_of_findSome?_eq_some (first.mp failed)
  have led : l.Led declared p.way p.ask := by
    refine led_of_mem_points (fun ask asked => ?_) mem
    obtain ⟨w, declares, rfl⟩ := List.mem_map.mp asked
    exact .declared declares
  exact led.justified wrong

/-- A cycle behind the first module, through an id with a packaging. What cannot be read behind it
and the unlocked module that is declared next come too late. -/
theorem resolve_fails_at_cycle :
    let l : Lockfile := ⟨[⟨"g:a:1", ["g:b:1"], []⟩, ⟨"g:b:1", ["g:c:1:war", "unreadable"], []⟩,
      ⟨"g:c:1", ["g:b:1"], []⟩]⟩
    let a : Coordinate := ⟨"g", "a", "1", "jar"⟩
    let x : Coordinate := ⟨"g", "x", "1", "jar"⟩
    let heap : Heap := ⟨[⟨"compile", true, [.module a none, .module x none]⟩]⟩
    let e : ResolveError := .cycle ⟨["g:b:1", "g:c:1", "g:b:1"]⟩
    l.resolve ⟨"r"⟩ heap 0 = .error e ∧ l.Justified "compile" [⟨a, true⟩, ⟨x, true⟩] e ∧
      (l.points [] [.ok ⟨a, true⟩, .ok ⟨x, true⟩]).findSome? (l.fault? "compile") = some e := by
  intro l a x heap e
  have runs : Runs l ⟨"r"⟩ "compile" [] [.ok ⟨a, true⟩, .ok ⟨x, true⟩] (.error e) :=
    .broken (by decide) rfl (.broken (by decide) rfl (.broken (by decide) rfl (.met (by decide))))
  have failed : l.resolve ⟨"r"⟩ heap 0 = .error e := by
    rw [resolve, map_eq_error_iff]
    exact (runs_declaredTrees l ⟨"r"⟩ "compile" true _).unique runs
  obtain ⟨first, justified⟩ := resolve_fails_at_first_fault l ⟨"r"⟩ heap 0 e
  exact ⟨failed, justified failed, first.mp failed⟩

end Buildpath.Lockfile
