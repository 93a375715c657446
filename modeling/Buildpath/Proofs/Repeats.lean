import Buildpath.Proofs.Distinct
import Buildpath.Proofs.FirstFault

/-! Lists from which repeated elements are left out. Whoever asks the elements in turn for what
they give, up to the first that gives nothing but a fault, and keeps what is given for the first
time, does not notice: an element that is left out was asked before, without a fault, and all
that it gives was given then. -/
namespace Buildpath

/-- `short` is `whole` less some elements, each of which is in `seen` or was kept before. -/
inductive Thinned : List α → List α → List α → Prop
  | nil : Thinned seen [] []
  | kept : Thinned (a :: seen) whole short → Thinned seen (a :: whole) (a :: short)
  | dropped : a ∈ seen → Thinned seen whole short → Thinned seen (a :: whole) short

namespace Thinned

variable {seen whole short : List α}

theorem sublist (thinned : Thinned seen whole short) : short.Sublist whole := by
  induction thinned with
  | nil => exact .slnil
  | kept _ ih => exact ih.cons_cons _
  | dropped _ _ ih => exact ih.cons _

theorem mono {more : List α} (thinned : Thinned seen whole short) (subset : seen ⊆ more) :
    Thinned more whole short := by
  induction thinned generalizing more with
  | nil => exact .nil
  | kept _ ih => exact .kept (ih (List.cons_subset_cons _ subset))
  | dropped old _ ih => exact .dropped (subset old) (ih subset)

theorem refl (seen whole : List α) : Thinned seen whole whole := by
  induction whole generalizing seen with
  | nil => exact .nil
  | cons a rest ih => exact .kept (ih _)

theorem drop_append {left : List α} (old : left ⊆ seen) (thinned : Thinned seen whole short) :
    Thinned seen (left ++ whole) short := by
  induction left with
  | nil => exact thinned
  | cons a rest ih =>
    obtain ⟨first, others⟩ := List.cons_subset.mp old
    exact .dropped first (ih others)

/-- Behind a list whatever it holds may be left out. -/
theorem append {first fewer : List α} (thinned : Thinned seen first fewer)
    (rest : Thinned (first ++ seen) whole short) :
    Thinned seen (first ++ whole) (fewer ++ short) := by
  induction thinned with
  | nil => exact rest
  | kept _ ih => exact .kept (ih (rest.mono (by grind)))
  | dropped old _ ih => exact .dropped old (ih (rest.mono (by grind)))

theorem again {more : List α} (old : more ⊆ whole) : Thinned seen (whole ++ more) whole := by
  have passed : Thinned (whole ++ seen) (more ++ []) [] :=
    Thinned.nil.drop_append (List.subset_append_of_subset_left _ old)
  simpa using (refl seen whole).append passed

end Thinned

/-- Keeping the first of elements with one key leaves out repeated elements, where a key belongs to
one element only. -/
theorem thinned_distinctFrom [DecidableEq κ] {key : α → κ} {seen list : List α}
    (single : ∀ a ∈ seen ++ list, ∀ b ∈ seen ++ list, key a = key b → a = b) :
    Thinned seen list (distinctFrom key (seen.map key) list) := by
  induction list generalizing seen with
  | nil => exact .nil
  | cons a rest ih =>
    by_cases old : key a ∈ seen.map key
    · obtain ⟨b, mem, same⟩ := List.mem_map.mp old
      have again : b = a := single b (List.mem_append_left _ mem) a
        (List.mem_append_right _ List.mem_cons_self) same
      rw [distinctFrom_seen key old]
      refine .dropped (again ▸ mem) (ih fun x memX y memY => ?_)
      exact single x (by grind) y (by grind)
    · have others : ∀ x ∈ a :: seen ++ rest, ∀ y ∈ a :: seen ++ rest, key x = key y → x = y :=
        fun x memX y memY => single x (by grind) y (by grind)
      rw [distinctFrom_new key old]
      exact .kept (ih others)

variable [DecidableEq κ] {key : β → κ} {f : α → Except ε (List β)}

/-- The first element is asked first. -/
theorem mapM_distinctFrom_cons (given : List κ) (a : α) (rest : List α) :
    ((a :: rest).mapM f).map (distinctFrom key given ·.flatten) =
      (f a).bind fun images =>
        ((rest.mapM f).map (distinctFrom key (images.map key ++ given) ·.flatten)).map
          (distinctFrom key given images ++ ·) := by
  rw [List.mapM_cons]
  cases f a with
  | error e => rfl
  | ok images =>
    cases rest.mapM f with
    | error e => rfl
    | ok others => exact congrArg Except.ok (distinctFrom_append key given images others.flatten)

/-- Leaving out repeated elements changes neither what is given for the first time nor its order,
nor the fault that is met first. -/
theorem Thinned.mapM_distinctFrom {seen whole short : List α} {given : List κ}
    (thinned : Thinned seen whole short)
    (asked : ∀ a ∈ seen, ∃ images, f a = .ok images ∧ ∀ b ∈ images, key b ∈ given) :
    (short.mapM f).map (distinctFrom key given ·.flatten) =
      (whole.mapM f).map (distinctFrom key given ·.flatten) := by
  induction thinned generalizing given with
  | nil => rfl
  | @kept a seen _ _ _ ih =>
    rw [mapM_distinctFrom_cons, mapM_distinctFrom_cons]
    cases first : f a with
    | error e => rfl
    | ok images =>
      have more : ∀ b ∈ a :: seen, ∃ images', f b = .ok images' ∧
          ∀ c ∈ images', key c ∈ images.map key ++ given := by
        intro b mem
        rcases List.mem_cons.mp mem with rfl | mem
        · exact ⟨images, first, fun c mem => List.mem_append_left _ (List.mem_map_of_mem mem)⟩
        · obtain ⟨images', answered, old⟩ := asked b mem
          exact ⟨images', answered, fun c mem => List.mem_append_right _ (old c mem)⟩
      exact congrArg (Except.map _) (ih more)
  | dropped old _ ih =>
    obtain ⟨images, answered, there⟩ := asked _ old
    have nothing : distinctFrom key given images = [] := by
      simpa using distinctFrom_append_of_seen key there []
    have same : ∀ k, k ∈ images.map key ++ given ↔ k ∈ given := by
      intro k
      rw [List.mem_append, List.mem_map, or_iff_right_of_imp]
      rintro ⟨b, mem, rfl⟩
      exact there b mem
    rw [ih asked, mapM_distinctFrom_cons, answered]
    simp only [Except.bind, nothing, distinctFrom_congr key same, List.nil_append]
    cases List.mapM f _ <;> rfl

end Buildpath
