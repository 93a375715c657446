import Buildpath.Proofs.FirstFault
import Buildpath.Workspace

/-! What a run of requests does to views and resolvers. A request leaves both alone unless it
makes a resolver or asks one for a view. A view goes only when its name is given to another;
a resolver counts the requests that ask it, also those it has no view for. -/
namespace Buildpath.Workspace

theorem find_eq_ok_iff {table : List (String × α)} {id : String} {a : α} :
    find table id = .ok a ↔ table.lookup id = some a := by
  unfold find
  cases table.lookup id <;> simp

theorem unknownName_of_find {table : List (String × α)} {id : String} {problem : Problem}
    (missing : find table id = .error problem) : problem = .unknownName id := by
  unfold find at missing
  cases found : table.lookup id with
  | some a => simp [found] at missing
  | none =>
    rw [found] at missing
    cases missing
    rfl

theorem find_named_self (id : String) (a : α) (table : List (String × α)) :
    find (named id a table) id = .ok a := by
  rw [find_eq_ok_iff, named, List.lookup_cons_self]

theorem lookup_filter_of_ne {id other : String} (ne : other ≠ id) (table : List (String × α)) :
    (table.filter (·.1 ≠ id)).lookup other = table.lookup other := by
  induction table with
  | nil => rfl
  | cons entry rest ih =>
    obtain ⟨key, a⟩ := entry
    by_cases gone : key = id
    · subst gone
      rw [List.filter_cons_of_neg (by simp), ih, List.lookup_cons, beq_false_of_ne ne]
    · rw [List.filter_cons_of_pos (by simpa using gone), List.lookup_cons, List.lookup_cons, ih]

theorem find_named_of_ne {id other : String} (ne : other ≠ id) (a : α) (table : List (String × α)) :
    find (named id a table) other = find table other := by
  rw [find, named, List.lookup_cons, beq_false_of_ne ne, lookup_filter_of_ne ne, find]

def history (ws : Workspace) (requests : List Request) : List (Request × Answer) :=
  requests.zip (ws.runAll requests).2

def givesView (id : String) : Request × Answer → Bool
  | (.resolve other _ _ _, .ok _) => other = id
  | _ => false

def givesResolver (name : String) : Request × Answer → Bool
  | (.makeResolver other _, .ok _) => other = name
  | _ => false

/-- The resolver was asked. No one is asked if a name in the request is not known. -/
def asks (name : String) : Request × Answer → Bool
  | (.resolve _ _ _ _, .error (.unknownName _)) => false
  | (.resolve _ other _ _, _) => other = name
  | _ => false

/-- The request may change a context, a resolver or a view. -/
def makes : Request → Bool
  | .openContext .. | .addToContext .. | .contribute .. | .makeResolver .. | .resolve .. => true
  | _ => false

structure Keeps (ws next : Workspace) : Prop where
  views : next.views = ws.views
  resolvers : next.resolvers = ws.resolvers

structure Spares (ws next : Workspace) : Prop extends Keeps ws next where
  contexts : next.contexts = ws.contexts

/-- A change leads to what it makes or leaves all as it is. -/
theorem holds_of_change {P : Workspace → Prop} {ws : Workspace}
    {made : Except Problem (Workspace × Reply)} (here : P ws)
    (each : ∀ next reply, made = .ok (next, reply) → P next) : P (ws.change made).1 := by
  cases made with
  | error problem => exact here
  | ok result => exact each _ _ rfl

theorem spares_run (ws : Workspace) (request : Request) (spared : makes request = false) :
    ws.Spares (ws.run request).1 := by
  cases request with
  | openContext | addToContext | contribute | makeResolver | resolve => cases spared
  | write | remove | «alias» | setTransitive | snapshot | load =>
    apply holds_of_change ⟨⟨rfl, rfl⟩, rfl⟩
    intro next reply made
    obtain ⟨_, _, made⟩ := bind_eq_ok_iff.mp made
    cases made
    exact ⟨⟨rfl, rfl⟩, rfl⟩
  | add =>
    apply holds_of_change ⟨⟨rfl, rfl⟩, rfl⟩
    intro next reply made
    obtain ⟨_, _, made⟩ := bind_eq_ok_iff.mp made
    obtain ⟨_, _, made⟩ := bind_eq_ok_iff.mp made
    cases made
    exact ⟨⟨rfl, rfl⟩, rfl⟩
  | child =>
    apply holds_of_change ⟨⟨rfl, rfl⟩, rfl⟩
    intro next reply made
    obtain ⟨_, _, made⟩ := bind_eq_ok_iff.mp made
    split at made
    · cases made
      exact ⟨⟨rfl, rfl⟩, rfl⟩
    · cases made
  | _ => exact ⟨⟨rfl, rfl⟩, rfl⟩

/-- Only making a resolver and asking one can touch views and resolvers. -/
theorem keeps_run (ws : Workspace) (request : Request)
    (noMake : ∀ id source, request ≠ .makeResolver id source)
    (noResolve : ∀ id resolver configuration plain,
      request ≠ .resolve id resolver configuration plain) : ws.Keeps (ws.run request).1 := by
  cases request with
  | makeResolver id source => exact absurd rfl (noMake id source)
  | resolve id resolver configuration plain =>
    exact absurd rfl (noResolve id resolver configuration plain)
  | openContext => exact ⟨rfl, rfl⟩
  | addToContext =>
    apply holds_of_change ⟨rfl, rfl⟩
    intro next reply made
    obtain ⟨_, _, made⟩ := bind_eq_ok_iff.mp made
    cases made
    exact ⟨rfl, rfl⟩
  | contribute id configuration index =>
    simp only [run, contribute]
    split
    · exact ⟨rfl, rfl⟩
    · split <;> exact ⟨rfl, rfl⟩
  | _ => exact Spares.toKeeps (spares_run ws _ rfl)

/-- What a request does to views and resolvers, by its answer. -/
inductive Affects (ws next : Workspace) : Request → Answer → Prop
  | nothing : ws.Keeps next → (∀ name, asks name (request, answer) = false) →
      Affects ws next request answer
  | made {id : String} : next.views = ws.views → next.resolvers = named id { backend } ws.resolvers →
      Affects ws next (.makeResolver id source) (.ok .done)
  | refused {id : String} : find ws.resolvers resolver = .ok r → ws.handle configuration = .ok h →
      r.backend ws.heap h = .error e → next.views = ws.views →
      next.resolvers = named resolver { r with calls := r.calls + 1 } ws.resolvers →
      Affects ws next (.resolve id resolver configuration plain) (.error (.resolve e))
  | kept {id : String} : find ws.resolvers resolver = .ok r → ws.handle configuration = .ok h →
      r.backend ws.heap h = .ok view →
      next.views = named id (if plain then .plain view else .merged ⟨h, view⟩) ws.views →
      next.resolvers = named resolver { r with calls := r.calls + 1 } ws.resolvers →
      Affects ws next (.resolve id resolver configuration plain) (.ok .done)

theorem affects_makeResolver (ws : Workspace) (id : String) (source : ResolverSource) :
    Affects ws (ws.run (.makeResolver id source)).1 (.makeResolver id source)
      (ws.run (.makeResolver id source)).2 := by
  simp only [run]
  cases ws.backendOf source with
  | error problem => exact .nothing ⟨rfl, rfl⟩ fun _ => rfl
  | ok backend => exact .made rfl rfl

/-- A resolver that is asked for a view counts one question more, whatever it answers. -/
theorem run_ask (heap : Heap) (h : Handle) (r : Resolver) :
    (View.resolveWith Resolver.ask heap h).run r =
      (View.resolve r.backend heap h, { r with calls := r.calls + 1 }) := by
  rw [View.resolve_eq]
  simp only [View.resolveWith, StateT.run, bind, StateT.bind, Resolver.ask]
  cases r.backend heap h <;> rfl

theorem resolve_of_known {ws : Workspace} {resolver configuration : String} {r : Resolver} {h : Handle}
    (known : find ws.resolvers resolver = .ok r) (place : ws.handle configuration = .ok h)
    (id : String) (plain : Bool) : ws.resolve id resolver configuration plain =
      let asked := { ws with resolvers := named resolver { r with calls := r.calls + 1 } ws.resolvers }
      match r.backend ws.heap h with
      | .error e => (asked, .error (.resolve e))
      | .ok view =>
        let kept := if plain then .plain view else .merged ⟨h, view⟩
        ({ asked with views := named id kept ws.views }, .ok .done) := by
  simp only [resolve, known, place, run_ask, View.resolve_eq]
  cases r.backend ws.heap h <;> rfl

theorem affects_resolve (ws : Workspace) (id resolver configuration : String) (plain : Bool) :
    Affects ws (ws.resolve id resolver configuration plain).1
      (.resolve id resolver configuration plain) (ws.resolve id resolver configuration plain).2 := by
  cases known : find ws.resolvers resolver with
  | error problem =>
    obtain rfl := unknownName_of_find known
    simp only [resolve, known]
    exact .nothing ⟨rfl, rfl⟩ fun _ => rfl
  | ok r =>
    cases place : ws.handle configuration with
    | error problem =>
      obtain rfl := unknownName_of_find place
      simp only [resolve, known, place]
      exact .nothing ⟨rfl, rfl⟩ fun _ => rfl
    | ok h =>
      rw [resolve_of_known known place]
      cases asked : r.backend ws.heap h with
      | error e => exact .refused known place asked rfl rfl
      | ok view => exact .kept known place asked rfl rfl

theorem affects_run (ws : Workspace) (request : Request) :
    Affects ws (ws.run request).1 request (ws.run request).2 := by
  cases request with
  | makeResolver id source => exact affects_makeResolver ws id source
  | resolve id resolver configuration plain =>
    exact affects_resolve ws id resolver configuration plain
  | _ => exact .nothing (keeps_run ws _ (by simp) (by simp)) fun _ => rfl

variable {ws next : Workspace} {request : Request} {answer : Answer}

theorem Affects.find_views {id : String} (affects : Affects ws next request answer)
    (kept : givesView id (request, answer) = false) : find next.views id = find ws.views id := by
  cases affects with
  | nothing keeps => rw [keeps.views]
  | made views => rw [views]
  | refused _ _ _ views => rw [views]
  | kept _ _ _ views =>
    rw [views, find_named_of_ne (Ne.symm (by simpa [givesView] using kept))]

/-- Of all resolvers only the one that was asked counts the question. -/
theorem find_asked {name other : String} {r asked : Resolver} {table : List (String × Resolver)}
    (found : find table name = .ok r) (known : find table other = .ok asked) :
    find (named other { asked with calls := asked.calls + 1 } table) name =
      .ok { r with calls := r.calls + if other = name then 1 else 0 } := by
  by_cases same : other = name
  · subst same
    obtain rfl := Except.ok.inj (found.symm.trans known)
    rw [find_named_self, if_pos rfl]
  · rw [find_named_of_ne (Ne.symm same), found, if_neg same, Nat.add_zero]

theorem Affects.find_resolvers {name : String} {r : Resolver}
    (affects : Affects ws next request answer) (kept : givesResolver name (request, answer) = false)
    (found : find ws.resolvers name = .ok r) : find next.resolvers name =
      .ok { r with calls := r.calls + if asks name (request, answer) then 1 else 0 } := by
  cases affects with
  | nothing keeps noAsk =>
    rw [keeps.resolvers, found, noAsk]
    rfl
  | made _ resolvers =>
    rw [resolvers, find_named_of_ne (Ne.symm (by simpa [givesResolver] using kept)), found]
    rfl
  | refused known _ _ _ resolvers | kept known _ _ _ resolvers =>
    rw [resolvers, find_asked found known]
    simp only [asks, decide_eq_true_eq]

theorem history_cons (ws : Workspace) (request : Request) (rest : List Request) :
    ws.history (request :: rest) =
      (request, (ws.run request).2) :: (ws.run request).1.history rest := rfl

/-- A view stays as long as its name is given to no other. -/
theorem find_views_runAll {id : String} {requests : List Request}
    (kept : ∀ step ∈ ws.history requests, givesView id step = false) :
    find (ws.runAll requests).1.views id = find ws.views id := by
  induction requests generalizing ws with
  | nil => rfl
  | cons request rest ih =>
    rw [history_cons] at kept
    have first := (affects_run ws request).find_views (kept _ List.mem_cons_self)
    exact (ih fun step mem => kept step (List.mem_cons_of_mem _ mem)).trans first

/-- A resolver stays as long as its name is given to no other, and counts what it is asked. -/
theorem find_resolvers_runAll {name : String} {requests : List Request} {r : Resolver}
    (found : find ws.resolvers name = .ok r)
    (kept : ∀ step ∈ ws.history requests, givesResolver name step = false) :
    find (ws.runAll requests).1.resolvers name =
      .ok { r with calls := r.calls + (ws.history requests).countP (asks name) } := by
  induction requests generalizing ws r with
  | nil => exact found
  | cons request rest ih =>
    rw [history_cons] at kept
    have first := (affects_run ws request).find_resolvers (kept _ List.mem_cons_self) found
    have others := ih first fun step mem => kept step (List.mem_cons_of_mem _ mem)
    rw [history_cons, List.countP_cons, ← Nat.add_assoc, Nat.add_right_comm]
    exact others

end Buildpath.Workspace
