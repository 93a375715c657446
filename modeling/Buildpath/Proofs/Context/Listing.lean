import Buildpath.Proofs.Configuration.Graph
import Buildpath.Proofs.Context.Walk

/-! When a walk succeeds and what it then lists. The walk knows only the configurations it
is in the middle of, and the one whose dependencies it was given is not among them. Still it
fails exactly when a cycle of followed dependencies can be reached: the way is a chain of
such dependencies, so that meeting it again closes a cycle, and a listing is a finite tree,
so that nothing in it lies on one. -/
namespace Buildpath

open Relation

/-- The entries of a list of dependencies when `t` is the default flag. A followed project
lists its target's dependencies and then its own artifacts. -/
inductive Listing (heap : Heap) (t : Bool) : List Dependency → List Contribution → Prop
  | nil : Listing heap t [] []
  | files : Listing heap t rest entries →
      Listing heap t (.files collection :: rest) (⟨collection, t⟩ :: entries)
  | module : Listing heap t rest entries →
      Listing heap t (.module coordinate override :: rest) entries
  | passed : override.getD t = false → Listing heap t rest entries →
      Listing heap t (.project name target artifacts override :: rest)
        (⟨artifacts, false⟩ :: entries)
  | followed : override.getD t = true → Listing heap t (heap.dependencies target) below →
      Listing heap t rest entries →
      Listing heap t (.project name target artifacts override :: rest)
        (below ++ ⟨artifacts, true⟩ :: entries)

variable {heap : Heap} {t : Bool}

theorem Listing.unique {deps : List Dependency} {entries others : List Contribution}
    (listing : Listing heap t deps entries) (other : Listing heap t deps others) :
    entries = others := by
  induction listing generalizing others with
  | nil => cases other; rfl
  | files _ ih => cases other with | files rest => rw [ih rest]
  | module _ ih => cases other with | module rest => exact ih rest
  | passed pass _ ih =>
    cases other with
    | passed _ rest => rw [ih rest]
    | followed follow => simp [pass] at follow
  | followed follow _ _ ihInner ihRest =>
    cases other with
    | passed pass => simp [follow] at pass
    | followed _ inner rest => rw [ihInner inner, ihRest rest]

/-- A walk that succeeds adds the listing, wherever it starts. -/
theorem Walks.listing {way : List (Handle × String)} {deps : List Dependency}
    {entries : List Contribution} {outcome : Except Cycle Unit}
    (walks : Walks heap t way deps entries outcome) (ok : outcome = .ok ()) :
    Listing heap t deps entries := by
  induction walks with
  | nil => exact .nil
  | files _ ih => exact .files (ih ok)
  | module _ ih => exact .module (ih ok)
  | passed pass _ ih => exact .passed pass (ih ok)
  | refused => simp at ok
  | broken => simp at ok
  | followed follow _ _ _ ihInner ihRest => exact .followed follow (ihInner rfl) (ihRest ok)

/-- Behind listed dependencies every descent ends. -/
theorem Listing.acc {deps : List Dependency} {entries : List Contribution}
    (listing : Listing heap t deps entries) {d : Dependency} (mem : d ∈ deps) {h : Handle}
    (edge : d.followed? t = some h) :
    Acc (fun k h => heap.Leads (Dependency.followed? t) h k) h := by
  induction listing generalizing d h with
  | nil => simp at mem
  | files _ ih =>
    rcases List.mem_cons.mp mem with rfl | mem
    · simp [Dependency.followed?] at edge
    · exact ih mem edge
  | module _ ih =>
    rcases List.mem_cons.mp mem with rfl | mem
    · simp [Dependency.followed?] at edge
    · exact ih mem edge
  | passed pass _ ih =>
    rcases List.mem_cons.mp mem with rfl | mem
    · simp [Dependency.followed?, pass] at edge
    · exact ih mem edge
  | followed follow _ _ ihInner ihRest =>
    rcases List.mem_cons.mp mem with rfl | mem
    · simp only [Dependency.followed?, follow, if_true, Option.some.injEq] at edge
      subst edge
      constructor
      rintro k ⟨inner, member, leads⟩
      exact ihInner member leads
    · exact ihRest mem edge

theorem Listing.not_cyclic {deps : List Dependency} {entries : List Contribution}
    (listing : Listing heap t deps entries) :
    ¬ heap.Cyclic (Dependency.followed? t) deps := by
  rintro ⟨d, mem, k, h, edge, path, loop⟩
  exact not_transGen_of_acc (listing.acc mem edge) path loop

/-- A walk fails only where what is followed next lies below the way, which closes a cycle. -/
theorem Walks.cyclic {way : List (Handle × String)} {deps : List Dependency}
    {entries : List Contribution} {outcome : Except Cycle Unit} {cycle : Cycle}
    (walks : Walks heap t way deps entries outcome) (failed : outcome = .error cycle)
    (below : ∀ h ∈ way.map (·.1), ∀ d ∈ deps, ∀ k, d.followed? t = some k →
      TransGen (heap.Leads (Dependency.followed? t)) h k) :
    heap.Cyclic (Dependency.followed? t) deps := by
  induction walks with
  | nil => simp at failed
  | files _ ih | module _ ih | passed _ _ ih | followed _ _ _ _ _ ih =>
    have rest := ih failed fun h onWay d mem => below h onWay d (List.mem_cons_of_mem _ mem)
    exact rest.mono (List.subset_cons_self _ _)
  | refused follow mem =>
    exact ⟨_, List.mem_cons_self, _, _, Dependency.followed?_project follow, .refl,
      below _ mem _ List.mem_cons_self _ (Dependency.followed?_project follow)⟩
  | broken follow _ _ ih =>
    refine (ih failed ?_).through List.mem_cons_self (Dependency.followed?_project follow)
    intro h onWay d member k leads
    rcases List.mem_cons.mp onWay with rfl | onWay
    · exact .single ⟨d, member, leads⟩
    · exact (below h onWay _ List.mem_cons_self _ (Dependency.followed?_project follow)).tail
        ⟨d, member, leads⟩

/-- A walk reads only the names and the dependencies of what it can reach. -/
theorem Walks.frame {other : Heap} {way : List (Handle × String)} {deps : List Dependency}
    {entries : List Contribution} {outcome : Except Cycle Unit}
    (walks : Walks heap t way deps entries outcome)
    (agree : ∀ d ∈ deps, ∀ k h, d.followed? t = some k →
      ReflTransGen (heap.Leads (Dependency.followed? t)) k h →
      other.name h = heap.name h ∧ other.dependencies h = heap.dependencies h) :
    Walks other t way deps entries outcome := by
  induction walks with
  | nil => exact .nil
  | files _ ih => exact .files (ih fun d mem => agree d (List.mem_cons_of_mem _ mem))
  | module _ ih => exact .module (ih fun d mem => agree d (List.mem_cons_of_mem _ mem))
  | passed pass _ ih => exact .passed pass (ih fun d mem => agree d (List.mem_cons_of_mem _ mem))
  | refused follow mem =>
    have target := agree _ List.mem_cons_self _ _ (Dependency.followed?_project follow) .refl
    rw [← target.1]
    exact .refused follow mem
  | broken follow new _ ih =>
    have target := agree _ List.mem_cons_self _ _ (Dependency.followed?_project follow) .refl
    have inner := ih fun d mem k h edge path =>
      agree _ List.mem_cons_self _ _ (Dependency.followed?_project follow) (.head ⟨d, mem, edge⟩ path)
    rw [← target.1, ← target.2] at inner
    exact .broken follow new inner
  | followed follow new _ _ ihInner ihRest =>
    have target := agree _ List.mem_cons_self _ _ (Dependency.followed?_project follow) .refl
    have inner := ihInner fun d mem k h edge path =>
      agree _ List.mem_cons_self _ _ (Dependency.followed?_project follow) (.head ⟨d, mem, edge⟩ path)
    rw [← target.1, ← target.2] at inner
    exact .followed follow new inner (ihRest fun d mem => agree d (List.mem_cons_of_mem _ mem))

theorem contribute_assign (heap : Heap) (flags : List (Handle × Bool)) (ctx : Context)
    (deps : List Dependency) :
    Context.contribute (heap.assign flags) ctx deps = Context.contribute heap ctx deps := by
  obtain ⟨entries, outcome, walks⟩ := exists_walks heap ctx deps
  have same : Walks (heap.assign flags) ctx.transitive ctx.way deps entries outcome :=
    walks.frame fun _ _ _ _ _ _ => by simp
  rw [walks.contribute_eq ctx rfl rfl, same.contribute_eq ctx rfl rfl]

theorem contribute_ok_iff (heap : Heap) (t : Bool) (deps : List Dependency) :
    (Context.contribute heap { transitive := t } deps).2 = .ok () ↔
      ¬ heap.Cyclic (Dependency.followed? t) deps := by
  obtain ⟨entries, outcome, walks⟩ := exists_walks heap { transitive := t } deps
  rw [walks.contribute_eq _ rfl rfl]
  constructor
  · intro ok
    exact (walks.listing ok).not_cyclic
  · intro acyclic
    cases outcome with
    | ok => rfl
    | error cycle => exact absurd (walks.cyclic rfl (by simp)) acyclic

theorem contribute_entries_iff {heap : Heap} {t : Bool} {deps : List Dependency}
    {entries : List Contribution} :
    ((Context.contribute heap { transitive := t } deps).2 = .ok () ∧
        (Context.contribute heap { transitive := t } deps).1.entries = entries) ↔
      Listing heap t deps entries := by
  obtain ⟨added, outcome, walks⟩ := exists_walks heap { transitive := t } deps
  have run := walks.contribute_eq { transitive := t } rfl rfl
  have entriesEq : (Context.contribute heap { transitive := t } deps).1.entries = added := by
    rw [run, Context.entries_extend]
    rfl
  constructor
  · rintro ⟨ok, rfl⟩
    rw [entriesEq]
    exact walks.listing (by rwa [run] at ok)
  · intro listing
    have ok := (contribute_ok_iff heap t deps).mpr listing.not_cyclic
    refine ⟨ok, entriesEq.trans ?_⟩
    exact (walks.listing (by rwa [run] at ok)).unique listing

/-- Contributing to a fresh context succeeds exactly when no cycle of followed dependencies
is behind the list, and what it then adds is the listing. No flag of a configuration is read. -/
theorem contribute_lists_acyclic (heap : Heap) (t : Bool) (deps : List Dependency) :
    ((Context.contribute heap { transitive := t } deps).2 = .ok () ↔
      ¬ heap.Cyclic (Dependency.followed? t) deps) ∧
    (∀ entries, (Context.contribute heap { transitive := t } deps).2 = .ok () ∧
        (Context.contribute heap { transitive := t } deps).1.entries = entries ↔
      Listing heap t deps entries) ∧
    ∀ flags, Context.contribute (heap.assign flags) { transitive := t } deps =
      Context.contribute heap { transitive := t } deps :=
  ⟨contribute_ok_iff heap t deps, fun _ => contribute_entries_iff,
    fun flags => contribute_assign heap flags _ deps⟩

end Buildpath
