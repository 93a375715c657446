import Mathlib.Data.List.Forall2

/-! Steps that may fail, one after the other or one beside another, and a list mapped by such
a step: all results in order, or the fault of the first element that has one. -/
namespace Buildpath

/-- Both fail with one fault, or both succeed and what they give goes together. -/
inductive SameOutcome (together : α → β → Prop) : Except ε α → Except ε β → Prop
  | ok : together a b → SameOutcome together (.ok a) (.ok b)
  | error : SameOutcome together (.error e) (.error e)

theorem SameOutcome.of_ok {together : α → β → Prop} {a : α} {y : Except ε β}
    (same : SameOutcome together (.ok a) y) : ∃ b, y = .ok b ∧ together a b := by
  cases same with
  | ok agree => exact ⟨_, rfl, agree⟩

theorem SameOutcome.of_error {together : α → β → Prop} {e : ε} {y : Except ε β}
    (same : SameOutcome together (.error e) y) : y = .error e := by
  cases same with
  | error => rfl

theorem SameOutcome.map {together : α → β → Prop} {f : γ → α} {g : γ → β} {x : Except ε γ}
    (each : ∀ c, x = .ok c → together (f c) (g c)) : SameOutcome together (x.map f) (x.map g) := by
  cases x with
  | error => exact .error
  | ok c => exact .ok (each c rfl)

theorem bind_eq_ok_iff {x : Except ε α} {f : α → Except ε β} {b : β} :
    x >>= f = .ok b ↔ ∃ a, x = .ok a ∧ f a = .ok b := by
  cases x <;> simp [bind, Except.bind]

theorem map_eq_ok_iff {x : Except ε α} {f : α → β} {b : β} :
    x.map f = .ok b ↔ ∃ a, x = .ok a ∧ f a = b := by
  cases x <;> simp [Except.map]

theorem map_eq_error_iff {x : Except ε α} {f : α → β} {e : ε} : x.map f = .error e ↔ x = .error e := by
  cases x <;> simp [Except.map]

theorem mapError_eq_ok_iff {x : Except ε α} {f : ε → ε'} {a : α} :
    x.mapError f = .ok a ↔ x = .ok a := by
  cases x <;> simp [Except.mapError]

theorem mapError_eq_error_iff {x : Except ε α} {f : ε → ε'} {e : ε'} :
    x.mapError f = .error e ↔ ∃ fault, x = .error fault ∧ f fault = e := by
  cases x <;> simp [Except.mapError]

theorem mapM_congr {f g : α → Except ε β} {list : List α} (same : ∀ a ∈ list, f a = g a) :
    list.mapM f = list.mapM g := by
  induction list with
  | nil => rfl
  | cons a rest ih =>
    rw [List.mapM_cons, List.mapM_cons, same a List.mem_cons_self,
      ih fun b mem => same b (List.mem_cons_of_mem _ mem)]

theorem mapM_attach {list : List α} {f : { a // a ∈ list } → Except ε β} {g : α → Except ε β}
    (same : ∀ a mem, f ⟨a, mem⟩ = g a) : list.attach.mapM f = list.mapM g := by
  rw [List.mapM_subtype same, List.unattach_attach]

theorem mapM_eq_ok_iff {f : α → Except ε β} {list : List α} {results : List β} :
    list.mapM f = .ok results ↔ List.Forall₂ (fun a b => f a = .ok b) list results := by
  induction list generalizing results with
  | nil =>
    rw [List.forall₂_nil_left_iff]
    simp [pure, Except.pure, eq_comm]
  | cons a rest ih =>
    rw [List.mapM_cons, List.forall₂_cons_left_iff]
    cases first : f a with
    | error fault => simp [bind, Except.bind]
    | ok b =>
      cases others : rest.mapM f with
      | error fault => simp [bind, Except.bind, ← ih, others]
      | ok bs => simp [bind, Except.bind, pure, Except.pure, ← ih, others, eq_comm]

theorem mapM_eq_error_iff {f : α → Except ε β} {list : List α} {fault : ε} :
    list.mapM f = .error fault ↔ ∃ before a after, list = before ++ a :: after ∧
      (∀ b ∈ before, ∃ result, f b = .ok result) ∧ f a = .error fault := by
  induction list with
  | nil => simp [pure, Except.pure]
  | cons a rest ih =>
    rw [List.mapM_cons]
    constructor
    · intro failed
      cases first : f a with
      | error e =>
        simp only [first, bind, Except.bind, Except.error.injEq] at failed
        exact ⟨[], a, rest, rfl, by simp, by rw [first, failed]⟩
      | ok b =>
        have inner : rest.mapM f = .error fault := by
          cases others : rest.mapM f with
          | error e => simpa [first, others, bind, Except.bind] using failed
          | ok bs => simp [first, others, bind, Except.bind, pure, Except.pure] at failed
        obtain ⟨before, c, after, split, fine, at_⟩ := ih.mp inner
        refine ⟨a :: before, c, after, by rw [split, List.cons_append], ?_, at_⟩
        rintro x mem
        rcases List.mem_cons.mp mem with rfl | mem
        · exact ⟨b, first⟩
        · exact fine x mem
    · rintro ⟨before, c, after, split, fine, at_⟩
      cases before with
      | nil =>
        obtain ⟨rfl, rfl⟩ := List.cons.inj split
        simp [at_, bind, Except.bind]
      | cons x before =>
        obtain ⟨rfl, rfl⟩ := List.cons.inj split
        obtain ⟨b, first⟩ := fine a List.mem_cons_self
        have inner := ih.mpr ⟨before, c, after, rfl,
          fun y mem => fine y (List.mem_cons_of_mem _ mem), at_⟩
        simp only [first, inner, bind, Except.bind]

end Buildpath
