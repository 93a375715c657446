/-! Ordered sets as lists: the first element with a key keeps its place and its
spelling, later ones are dropped. -/
namespace Buildpath

/-- What is left of a list when elements whose key is in `seen` are dropped, and
every element joins `seen` as it is kept. -/
def distinctFrom [DecidableEq κ] (key : α → κ) (seen : List κ) : List α → List α
  | [] => []
  | a :: rest =>
    let k := key a
    if k ∈ seen then distinctFrom key seen rest
    else a :: distinctFrom key (k :: seen) rest

def distinctBy [DecidableEq κ] (key : α → κ) (list : List α) : List α :=
  distinctFrom key [] list

section
variable [DecidableEq κ] (key : α → κ)

@[simp] theorem distinctFrom_nil (seen : List κ) : distinctFrom key seen [] = [] := rfl

theorem distinctFrom_seen {a : α} {seen : List κ} (h : key a ∈ seen) (rest : List α) :
    distinctFrom key seen (a :: rest) = distinctFrom key seen rest := by
  simp [distinctFrom, h]

theorem distinctFrom_new {a : α} {seen : List κ} (h : key a ∉ seen) (rest : List α) :
    distinctFrom key seen (a :: rest) = a :: distinctFrom key (key a :: seen) rest := by
  simp [distinctFrom, h]

/-- Only membership in `seen` matters. -/
theorem distinctFrom_congr {seen seen' : List κ} (h : ∀ k, k ∈ seen ↔ k ∈ seen') (list : List α) :
    distinctFrom key seen list = distinctFrom key seen' list := by
  induction list generalizing seen seen' with
  | nil => rfl
  | cons a rest ih =>
    by_cases ha : key a ∈ seen
    · rw [distinctFrom_seen key ha, distinctFrom_seen key ((h _).mp ha), ih h]
    · rw [distinctFrom_new key ha, distinctFrom_new key (fun k => ha ((h _).mpr k))]
      have h' : ∀ k, k ∈ key a :: seen ↔ k ∈ key a :: seen' := fun k => by simp [h k]
      rw [ih h']

theorem distinctFrom_append (seen : List κ) (left right : List α) :
    distinctFrom key seen (left ++ right) =
      distinctFrom key seen left ++ distinctFrom key (left.map key ++ seen) right := by
  induction left generalizing seen with
  | nil => rfl
  | cons a rest ih =>
    by_cases ha : key a ∈ seen
    · have h : ∀ k, k ∈ rest.map key ++ seen ↔ k ∈ (a :: rest).map key ++ seen := fun k => by
        simp only [List.map_cons, List.cons_append, List.mem_cons, List.mem_append]; grind
      rw [List.cons_append, distinctFrom_seen key ha, distinctFrom_seen key ha, ih,
        distinctFrom_congr key h]
    · have h : ∀ k, k ∈ rest.map key ++ key a :: seen ↔ k ∈ (a :: rest).map key ++ seen := fun k => by
        simp only [List.map_cons, List.cons_append, List.mem_cons, List.mem_append]; grind
      rw [List.cons_append, distinctFrom_new key ha, distinctFrom_new key ha, ih,
        distinctFrom_congr key h, List.cons_append]

theorem mem_map_distinctFrom {k : κ} {seen : List κ} {list : List α} :
    k ∈ (distinctFrom key seen list).map key ↔ k ∈ list.map key ∧ k ∉ seen := by
  induction list generalizing seen with
  | nil => simp
  | cons b rest ih =>
    by_cases hb : key b ∈ seen
    · rw [distinctFrom_seen key hb, ih]; simp; grind
    · rw [distinctFrom_new key hb, List.map_cons, List.mem_cons, ih]; simp; grind

theorem nodup_map_distinctFrom (seen : List κ) (list : List α) :
    ((distinctFrom key seen list).map key).Nodup := by
  induction list generalizing seen with
  | nil => simp
  | cons b rest ih =>
    by_cases hb : key b ∈ seen
    · rw [distinctFrom_seen key hb]; exact ih seen
    · rw [distinctFrom_new key hb, List.map_cons, List.nodup_cons]
      exact ⟨fun h => ((mem_map_distinctFrom key).mp h).2 List.mem_cons_self, ih _⟩

theorem sublist_distinctFrom (seen : List κ) (list : List α) :
    (distinctFrom key seen list).Sublist list := by
  induction list generalizing seen with
  | nil => exact List.Sublist.slnil
  | cons b rest ih =>
    by_cases hb : key b ∈ seen
    · rw [distinctFrom_seen key hb]; exact (ih seen).cons b
    · rw [distinctFrom_new key hb]; exact (ih _).cons_cons b

theorem distinctBy_append (left right : List α) :
    distinctBy key (left ++ right) =
      distinctBy key left ++ distinctFrom key (left.map key) right := by
  simp [distinctBy, distinctFrom_append]

end
end Buildpath
