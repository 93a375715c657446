import Buildpath.Proofs.Context.Listing
import Buildpath.Proofs.Project.Loading

/-! Loaded configurations have no cycles. A configuration is made when all that its project
dependencies lead to is made, so handles fall along every edge of the graph; that the loader
ends without having met a pair again on its own way is what lets it get there. A walk over
what was loaded can therefore not fail, whatever the flags are set to later. -/
namespace Buildpath.Project

open Relation

/-- What was made since the heap had `base` configurations leads only to what was made
since then and before it. -/
structure Ranked (base : Nat) (st : State) : Prop where
  size : base ≤ st.heap.size
  falls : ∀ h k, base ≤ h → st.heap.Leads Dependency.target? h k → base ≤ k ∧ k < h
  loaded : ∀ entry ∈ st.loaded,
    base ≤ entry.2.configuration ∧ entry.2.configuration < st.heap.size

theorem ranked_initial (heap : Heap) : Ranked heap.size { heap } where
  size := Nat.le_refl _
  falls h k old leads := by
    obtain ⟨d, mem, _⟩ := leads
    simp [Heap.dependencies_of_size_le old] at mem
  loaded := by simp

theorem State.size_finish (st : State) (key : Key) (m : Manifest) (s : Manifest.Section)
    (deps : List Dependency) : (st.finish key m s deps).2.heap.size = st.heap.size + 1 :=
  Heap.size_alloc st.heap _

/-- Making a configuration whose dependencies lead to what is there keeps the ranks. -/
theorem Ranked.finish {base : Nat} {st : State} (ranked : Ranked base st) (key : Key)
    (m : Manifest) (s : Manifest.Section) {deps : List Dependency}
    (targets : ∀ dep ∈ deps, ∀ k, dep.target? = some k → base ≤ k ∧ k < st.heap.size) :
    Ranked base (st.finish key m s deps).2 where
  size := by
    rw [State.size_finish]
    exact Nat.le_succ_of_le ranked.size
  falls h k old leads := by
    obtain ⟨dep, mem, edge⟩ := leads
    simp only [State.finish, Heap.dependencies_alloc] at mem
    split at mem
    · rename_i new
      exact new ▸ targets dep mem k edge
    · exact ranked.falls h k old ⟨dep, mem, edge⟩
  loaded entry mem := by
    have grown := State.size_finish st key m s deps
    rcases List.mem_cons.mp mem with rfl | mem
    · exact ⟨ranked.size, grown ▸ Nat.lt_succ_self _⟩
    · have old := ranked.loaded entry mem
      exact ⟨old.1, grown ▸ Nat.lt_succ_of_lt old.2⟩

/-- Loading keeps the ranks, and what it finds is among what was made. -/
theorem keptOk_ranked (d : Disk) (base : Nat) : KeptOk d
    (fun _ _ st found after => Ranked base st → Ranked base after ∧
      st.heap.size ≤ after.heap.size ∧
      base ≤ found.configuration ∧ found.configuration < after.heap.size)
    (fun _ _ _ st deps after => Ranked base st → Ranked base after ∧
      st.heap.size ≤ after.heap.size ∧
      ∀ dep ∈ deps, ∀ k, dep.target? = some k → base ≤ k ∧ k < after.heap.size) where
  hit memo ranked := ⟨ranked, Nat.le_refl _, ranked.loaded _ (mem_of_lookup memo)⟩
  finished {way key m s st deps after} _ _ each ranked := by
    obtain ⟨inner, grows, targets⟩ := each ranked
    have grown : after.heap.size < (after.finish key m s deps).2.heap.size := by
      rw [State.size_finish]
      exact Nat.lt_succ_self _
    exact ⟨inner.finish key m s targets, Nat.le_of_lt (Nat.lt_of_le_of_lt grows grown),
      inner.size, grown⟩
  nil ranked := ⟨ranked, Nat.le_refl _, by simp⟩
  files _ each ranked := by
    obtain ⟨rest, grows, targets⟩ := each ranked
    refine ⟨rest, grows, List.forall_mem_cons.mpr ⟨?_, targets⟩⟩
    intro k edge
    simp [Dependency.target?] at edge
  module _ each ranked := by
    obtain ⟨rest, grows, targets⟩ := each ranked
    refine ⟨rest, grows, List.forall_mem_cons.mpr ⟨?_, targets⟩⟩
    intro k edge
    simp [Dependency.target?] at edge
  loaded _ pair each ranked := by
    obtain ⟨middle, first, old, found⟩ := pair ranked
    obtain ⟨rest, grows, targets⟩ := each middle
    refine ⟨rest, Nat.le_trans first grows, List.forall_mem_cons.mpr ⟨?_, targets⟩⟩
    intro k edge
    obtain rfl := Option.some.inj edge
    exact ⟨old, Nat.lt_of_lt_of_le found grows⟩

theorem Ranked.path {base : Nat} {st : State} (ranked : Ranked base st) {h k : Handle}
    (old : base ≤ h) (path : ReflTransGen (st.heap.Leads Dependency.target?) h k) : base ≤ k := by
  induction path with
  | refl => exact old
  | tail _ step ih => exact (ranked.falls _ _ ih step).1

theorem Ranked.loop {base : Nat} {st : State} (ranked : Ranked base st) {h k : Handle}
    (old : base ≤ h) (path : TransGen (st.heap.Leads Dependency.target?) h k) : k < h := by
  induction path with
  | single step => exact (ranked.falls _ _ old step).2
  | tail path step ih =>
    exact Nat.lt_trans (ranked.falls _ _ (ranked.path old path.to_reflTransGen) step).2 ih

/-- What was loaded has no cycle, whatever overrides say; so a walk over it never runs into
one, whatever flags are set after loading and whichever flag it starts with. -/
theorem load_acyclic {d : Disk} {root : Path} {name : String} {heap heap' : Heap} {h : Handle}
    (run : load d root name heap = .ok (h, heap')) :
    (∀ k, ReflTransGen (heap'.Leads Dependency.target?) h k →
      ¬ TransGen (heap'.Leads Dependency.target?) k k) ∧
    ∀ flags t, (Context.contribute (heap'.assign flags) { transitive := t }
      ((heap'.assign flags).dependencies h)).2 = .ok () := by
  obtain ⟨l, found, after, _, pair, rfl, rfl⟩ := load_eq_ok run
  obtain ⟨ranked, _, old, _⟩ := (keptOk_ranked d heap.size).pair pair (ranked_initial heap)
  have acyclic : ∀ k, ReflTransGen (after.heap.Leads Dependency.target?) found.configuration k →
      ¬ TransGen (after.heap.Leads Dependency.target?) k k := by
    intro k path loop
    exact Nat.lt_irrefl k (ranked.loop (ranked.path old path) loop)
  refine ⟨acyclic, ?_⟩
  -- A walk follows some of the edges, so a cycle it runs into is one of the whole graph.
  intro flags t
  rw [contribute_assign, Heap.dependencies_assign, contribute_ok_iff]
  rintro ⟨dep, mem, k, h, edge, path, loop⟩
  have step : after.heap.Leads Dependency.target? found.configuration k :=
    ⟨dep, mem, Dependency.target?_of_followed? edge⟩
  have wider : ∀ a b, after.heap.Leads (Dependency.followed? t) a b →
      after.heap.Leads Dependency.target? a b :=
    fun _ _ leads => leads.mono Dependency.target?_of_followed?
  exact acyclic h (.head step (ReflTransGen.mono wider _ _ path)) (TransGen.mono wider _ _ loop)

theorem load_app_acyclic : load twoProjects ⟨"/app"⟩ "c" {} = .ok (1, appHeap) ∧
    (∀ k, ReflTransGen (appHeap.Leads Dependency.target?) 1 k →
      ¬ TransGen (appHeap.Leads Dependency.target?) k k) ∧
    ∀ flags t, (Context.contribute (appHeap.assign flags) { transitive := t }
      ((appHeap.assign flags).dependencies 1)).2 = .ok () :=
  ⟨load_app, load_acyclic load_app⟩

end Buildpath.Project
