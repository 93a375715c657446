import Buildpath.Proofs.Lockfile.Faults
import Buildpath.Proofs.Lockfile.Order

/-! How deep the unfolding of a module nests. The unfolding follows whatever ids a document lists
and reads them anew, but the id that it looks up is the one that it puts on the way and compares. So
the ids on a way are distinct and locked, and a call stands below no more others than there are
such ids. The unfolding with a limit gives up below that many calls, and wherever it finds itself
behind a way of other ids. -/
namespace Buildpath.Lockfile

def unfoldEachBy (call : Coordinate → Option (Except ResolveError Tree)) :
    List String → Option (Except ResolveError (List Tree))
  | [] => some (.ok [])
  | id :: rest =>
    match Coordinate.parse id with
    | .error e => some (.error (.coordinate e))
    | .ok c =>
      match call c with
      | none => none
      | some (.error e) => some (.error e)
      | some (.ok tree) => (unfoldEachBy call rest).map (·.map (tree :: ·))

/-- Unfolds a module with at most `depth` calls inside each other. None if they are not enough,
or if some call stands behind a way that is not clear. -/
def unfoldWithin (l : Lockfile) (repository : Path) (configuration : String) :
    Nat → List String → Coordinate → Bool → Option (Except ResolveError Tree)
  | 0, _, _, _ => none
  | depth + 1, way, c, transitive =>
    if Clear l.ids way then
      if c.id ∈ way then some (.error (.cycle ⟨way.reverse.dropWhile (· ≠ c.id) ++ [c.id]⟩))
      else match l.module? c.id with
        | none => some (.error (.unresolvedModule c.id configuration))
        | some m =>
          (unfoldEachBy (l.unfoldWithin repository configuration depth (c.id :: way) · true)
            (m.listed transitive)).map
              (·.map (.node c.moduleId configuration (artifactsOf repository c m)))
    else none

variable {l : Lockfile} {repository : Path} {configuration : String} {way : List String}

theorem mem_ids_of_locked {id : String} {m : LockedModule} (locked : l.module? id = some m) :
    id ∈ l.ids := by
  obtain ⟨m', mem, same⟩ := locks_iff.mpr ⟨m, locked⟩
  exact List.mem_map.mpr ⟨m', mem, same⟩

/-- What a module is led to by stands behind a clear way. -/
theorem Led.clear {declared : List Wanted} {ask : Except Coordinate.Malformed Wanted}
    (led : l.Led declared way ask) : Clear l.ids way := by
  induction led with
  | declared => exact .nil
  | listed _ new locked _ ih => exact ih.cons new (mem_ids_of_locked locked)

theorem unfoldEachBy_eq {call : Coordinate → Option (Except ResolveError Tree)}
    (called : ∀ c, call c = some (l.unfold repository configuration way c true)) (ids : List String) :
    unfoldEachBy call ids = some (l.unfoldEach repository configuration way ids) := by
  induction ids with
  | nil => rw [unfoldEachBy, unfoldEach]
  | cons id rest ih =>
    rw [unfoldEachBy, unfoldEach]
    cases Coordinate.parse id with
    | error e => rfl
    | ok c =>
      dsimp only
      rw [called c, ih]
      cases l.unfold repository configuration way c true <;> rfl

/-- As many calls inside each other are enough as there are locked ids not on the way, and one. -/
theorem unfoldWithin_eq {depth : Nat} (clear : Clear l.ids way)
    (enough : l.ids.dedup.length < depth + way.length) (c : Coordinate) (transitive : Bool) :
    l.unfoldWithin repository configuration depth way c transitive =
      some (l.unfold repository configuration way c transitive) := by
  induction depth generalizing way c transitive with
  | zero =>
    have bound := clear.length_le
    omega
  | succ depth ih =>
    rw [unfoldWithin, if_pos clear, unfold_eq]
    by_cases met : c.id ∈ way
    · rw [if_pos met, if_pos met]
    · rw [if_neg met, if_neg met]
      cases locked : l.module? c.id with
      | none => rfl
      | some m =>
        have further : l.ids.dedup.length < depth + (c.id :: way).length := by
          rw [List.length_cons]
          omega
        have inner := fun child => ih (clear.cons met (mem_ids_of_locked locked)) further child true
        dsimp only
        rw [unfoldEachBy_eq inner, Option.map_some]

/-- Unfolding a module ends, whatever the document lists. The ids on a way are distinct and locked,
at every depth, and there are no more calls inside each other than distinct locked ids, and one. -/
theorem unfold_nesting_le (l : Lockfile) (repository : Path) (configuration : String) (c : Coordinate)
    (transitive : Bool) :
    let locked := l.ids.dedup.length
    l.unfoldWithin repository configuration (locked + 1) [] c transitive =
        some (l.unfold repository configuration [] c transitive) ∧
      ∀ way ask, l.Led [⟨c, transitive⟩] way ask → Clear l.ids way ∧ way.length ≤ locked := by
  refine ⟨unfoldWithin_eq .nil (by simp) c transitive, fun way ask led => ?_⟩
  exact ⟨led.clear, led.clear.length_le⟩

/-- One of two ids is locked twice, the other is listed with a packaging, and each leads to the
other. It takes three calls inside each other to see that they are a cycle. -/
theorem unfold_nesting_looped :
    let l : Lockfile := ⟨[⟨"g:a:1", ["g:b:1:war"], []⟩, ⟨"g:b:1", ["g:a:1", "g:b:1"], []⟩,
      ⟨"g:a:1", ["unreadable"], []⟩]⟩
    let a : Coordinate := ⟨"g", "a", "1", "jar"⟩
    let way := ["g:b:1", "g:a:1"]
    let cycle : ResolveError := .cycle ⟨["g:a:1", "g:b:1", "g:a:1"]⟩
    l.ids.dedup.length = 2 ∧ l.unfoldWithin ⟨"r"⟩ "c" 2 [] a true = none ∧
      l.unfoldWithin ⟨"r"⟩ "c" 3 [] a true = some (.error cycle) ∧
      l.unfold ⟨"r"⟩ "c" [] a true = .error cycle ∧
      l.Led [⟨a, true⟩] way (.ok ⟨a, true⟩) ∧ Clear l.ids way ∧ way.length ≤ 2 := by
  intro l a way cycle
  obtain ⟨ends, bound⟩ := unfold_nesting_le l ⟨"r"⟩ "c" a true
  have found : l.unfoldWithin ⟨"r"⟩ "c" 3 [] a true = some (.error cycle) := by rfl
  have led : l.Led [⟨a, true⟩] way (.ok ⟨a, true⟩) := by
    have first : l.Led [⟨a, true⟩] ["g:a:1"] (.ok ⟨⟨"g", "b", "1", "war"⟩, true⟩) :=
      .listed (.declared (List.mem_singleton_self _)) (by simp) rfl (by decide)
    exact .listed first (by decide) rfl (by decide)
  exact ⟨by decide, by rfl, found, Option.some.inj (ends.symm.trans found), led, bound way _ led⟩

end Buildpath.Lockfile
