import Buildpath.Distinct

/-! Ordered sets by what they keep: the first element with each key, and no later one. -/
namespace Buildpath

variable [DecidableEq κ] (key : α → κ)

/-- The list without the later elements that have the key of an earlier one. -/
def firstOccurrences : List α → List α
  | [] => []
  | a :: rest => a :: (firstOccurrences rest).filter (key · ≠ key a)

theorem distinctFrom_eq_filter (seen : List κ) (list : List α) :
    distinctFrom key seen list = (firstOccurrences key list).filter (key · ∉ seen) := by
  induction list generalizing seen with
  | nil => rfl
  | cons a rest ih =>
    by_cases ha : key a ∈ seen
    · have same : ∀ b, (decide (key b ∉ seen) && decide (key b ≠ key a)) = decide (key b ∉ seen) := by
        intro b
        by_cases hb : key b = key a <;> simp [hb, ha]
      rw [distinctFrom_seen key ha, ih, firstOccurrences, List.filter_cons_of_neg (by simpa using ha),
        List.filter_filter]
      simp only [same]
    · rw [distinctFrom_new key ha, ih, firstOccurrences, List.filter_cons_of_pos (by simpa using ha),
        List.filter_filter]
      congr 2
      funext b
      simp [Bool.and_comm]

theorem distinctBy_eq (list : List α) : distinctBy key list = firstOccurrences key list := by
  rw [distinctBy, distinctFrom_eq_filter]
  simp

theorem mem_map_firstOccurrences {k : κ} {list : List α} :
    k ∈ (firstOccurrences key list).map key ↔ k ∈ list.map key := by
  rw [← distinctBy_eq, distinctBy, mem_map_distinctFrom]
  simp

theorem nodup_map_firstOccurrences (list : List α) :
    ((firstOccurrences key list).map key).Nodup := by
  rw [← distinctBy_eq]
  exact nodup_map_distinctFrom key [] list

/-- Nothing is kept of what was seen before. -/
theorem distinctFrom_append_of_seen {seen : List κ} {left : List α}
    (old : ∀ a ∈ left, key a ∈ seen) (right : List α) :
    distinctFrom key seen (left ++ right) = distinctFrom key seen right := by
  induction left with
  | nil => rfl
  | cons a rest ih =>
    rw [List.cons_append, distinctFrom_seen key (old a List.mem_cons_self)]
    exact ih fun b mem => old b (List.mem_cons_of_mem _ mem)

/-- Behind a list only what has none of its keys is kept. -/
theorem firstOccurrences_append (left right : List α) :
    firstOccurrences key (left ++ right) = firstOccurrences key left ++
      (firstOccurrences key right).filter (key · ∉ (firstOccurrences key left).map key) := by
  rw [← distinctBy_eq, distinctBy_append, distinctBy_eq, distinctFrom_eq_filter]
  simp only [mem_map_firstOccurrences]

/-- Put into the middle, a list lets those behind it that have none of its keys keep their order. -/
theorem firstOccurrences_append_append (left middle right : List α) :
    firstOccurrences key (left ++ middle ++ right) = firstOccurrences key (left ++ middle) ++
      (firstOccurrences key (left ++ right)).filter
        (key · ∉ (firstOccurrences key (left ++ middle)).map key) := by
  have old : (firstOccurrences key left).filter
      (key · ∉ (firstOccurrences key (left ++ middle)).map key) = [] := by
    rw [List.filter_eq_nil_iff]
    intro a mem
    have there : key a ∈ left.map key :=
      (mem_map_firstOccurrences key).mp (List.mem_map_of_mem mem)
    simp only [mem_map_firstOccurrences, List.map_append, List.mem_append, there, true_or, not_true,
      decide_false, Bool.false_eq_true, not_false_eq_true]
  have kept : ∀ a, (decide (key a ∉ (firstOccurrences key (left ++ middle)).map key) &&
      decide (key a ∉ (firstOccurrences key left).map key)) =
      decide (key a ∉ (firstOccurrences key (left ++ middle)).map key) := by
    intro a
    simp only [mem_map_firstOccurrences, List.map_append, List.mem_append]
    by_cases there : key a ∈ left.map key <;> simp [there]
  rw [firstOccurrences_append key (left ++ middle) right, firstOccurrences_append key left right,
    List.filter_append, old, List.nil_append, List.filter_filter]
  simp only [kept]

variable {ι μ : Type} [DecidableEq ι] [DecidableEq μ] {index : α → ι} {image : β → μ} {f : α → List β}

/-- Of elements with one index that have the same images only the first is needed. -/
theorem distinctFrom_flatMap (same : ∀ a b, index a = index b → (f a).map image = (f b).map image)
    {seen : List ι} {given : List μ} (covered : ∀ a, index a ∈ seen → ∀ b ∈ f a, image b ∈ given)
    (list : List α) : distinctFrom image given ((distinctFrom index seen list).flatMap f) =
      distinctFrom image given (list.flatMap f) := by
  induction list generalizing seen given with
  | nil => rfl
  | cons a rest ih =>
    rw [List.flatMap_cons]
    by_cases old : index a ∈ seen
    · rw [distinctFrom_seen index old, distinctFrom_append_of_seen image (covered a old), ih covered]
    · have more : ∀ b, index b ∈ index a :: seen → ∀ c ∈ f b, image c ∈ (f a).map image ++ given := by
        intro b mem c member
        rcases List.mem_cons.mp mem with eq | mem
        · rw [← same b a eq]
          exact List.mem_append_left _ (List.mem_map_of_mem member)
        · exact List.mem_append_right _ (covered b mem c member)
      rw [distinctFrom_new index old, List.flatMap_cons, distinctFrom_append, distinctFrom_append,
        ih more]

theorem firstOccurrences_flatMap (same : ∀ a b, index a = index b → (f a).map image = (f b).map image)
    (list : List α) : firstOccurrences image ((firstOccurrences index list).flatMap f) =
      firstOccurrences image (list.flatMap f) := by
  rw [← distinctBy_eq, ← distinctBy_eq, ← distinctBy_eq]
  exact distinctFrom_flatMap same (by simp) list

end Buildpath
