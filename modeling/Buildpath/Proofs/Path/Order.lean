import Buildpath.Path
import Buildpath.Proofs.Text.Bytes

/-! The order of paths: lexicographic by components, and of two names the one with the lower bytes
first. It is not the order of the spellings, where a slash has its place among the other characters.
Paths that are sorted stand in this order, strictly so where no two of them are the same. -/
namespace Buildpath.Path

inductive Component.Precedes : Component → Component → Prop
  | root_here : Precedes .root .here
  | root_up : Precedes .root .up
  | root_name : Precedes .root (.name right)
  | here_up : Precedes .here .up
  | here_name : Precedes .here (.name right)
  | up_name : Precedes .up (.name right)
  | names : Text.bytes left < Text.bytes right → Precedes (.name left) (.name right)

/-- Two paths are compared by the first components in which they differ. -/
def Precedes (p q : Path) : Prop := List.Lex Component.Precedes p.components q.components

namespace Component

variable {a b : Component}

theorem compare_eq (a b : Component) : compare a b =
    (compare a.rank.1 b.rank.1).then (compare a.rank.2 b.rank.2) := rfl

theorem eq_of_rank_eq (same : a.rank = b.rank) : a = b := by
  cases a <;> cases b <;> simp_all [rank]

instance : Std.TransOrd Component :=
  inferInstanceAs (Std.TransCmp (compareLex (compareOn fun c : Component => c.rank.1)
    (compareOn fun c : Component => c.rank.2)))

instance : Std.LawfulEqOrd Component where
  eq_of_compare same := by
    rw [compare_eq, Ordering.then_eq_eq, Std.compare_eq_iff_eq, Std.compare_eq_iff_eq] at same
    exact eq_of_rank_eq (Prod.ext same.1 same.2)

theorem compare_eq_lt_iff : compare a b = .lt ↔ a.Precedes b := by
  have texts {left right : String} : compare left right = .lt ↔ Text.bytes left < Text.bytes right :=
    compareOfLessAndEq_eq_lt.trans Text.bytes_lt_iff.symm
  rw [compare_eq, Ordering.then_eq_lt, Nat.compare_eq_lt, Std.compare_eq_iff_eq, texts]
  constructor
  · intro lower
    cases a <;> cases b <;> simp [rank, List.lt_irrefl] at lower <;> constructor
    exact lower
  · intro precedes
    cases precedes with
    | names lower => exact .inr ⟨rfl, lower⟩
    | _ => exact .inl (by simp [rank])

end Component

theorem compare_components_eq_lt_iff {left right : List Component} :
    compare left right = .lt ↔ List.Lex Component.Precedes left right := by
  induction left generalizing right with
  | nil =>
    cases right with
    | nil => exact ⟨nofun, nofun⟩
    | cons => exact ⟨fun _ => .nil, fun _ => rfl⟩
  | cons a left ih =>
    cases right with
    | nil => exact ⟨nofun, nofun⟩
    | cons b right =>
      have first : compare (a :: left) (b :: right) = (compare a b).then (compare left right) :=
        List.compareLex_cons_cons
      rw [first, Ordering.then_eq_lt, Component.compare_eq_lt_iff, Std.compare_eq_iff_eq, ih]
      constructor
      · rintro (lower | ⟨rfl, behind⟩)
        · exact .rel lower
        · exact .cons behind
      · intro lower
        cases lower with
        | rel lower => exact .inl lower
        | cons behind => exact .inr ⟨rfl, behind⟩

instance : Std.TransOrd Path := inferInstanceAs (Std.TransCmp (compareOn components))

section
variable {p q : Path} {paths : List Path}

theorem compare_eq_eq_iff : compare p q = .eq ↔ p.Same q := by
  rw [compare_def, Std.compare_eq_iff_eq, Same]

theorem compare_eq_lt_iff : compare p q = .lt ↔ p.Precedes q := compare_components_eq_lt_iff

theorem Precedes.asymm (lower : p.Precedes q) : ¬ q.Precedes p := by
  rw [← compare_eq_lt_iff] at *
  rw [Std.OrientedOrd.eq_swap, lower]
  nofun

theorem mem_sort : p ∈ sort paths ↔ p ∈ paths := (List.mergeSort_perm paths _).mem_iff

/-- Where no two paths have the same components each precedes those behind it. -/
theorem pairwise_sort (distinct : paths.Pairwise fun p q => ¬ p.Same q) :
    (sort paths).Pairwise Precedes := by
  have ordered : (sort paths).Pairwise fun p q => (compare p q).isLE := by
    refine List.pairwise_mergeSort ?_ ?_ paths
    · exact fun _ _ _ => Std.TransCmp.isLE_trans
    · intro p q
      rw [Std.OrientedOrd.eq_swap (a := q)]
      cases compare p q <;> rfl
  have apart : (sort paths).Pairwise fun p q => ¬ p.Same q :=
    (List.Perm.pairwise_iff (mt Same.symm) (List.mergeSort_perm paths _)).mpr distinct
  refine (ordered.and apart).imp fun {p q} both => ?_
  obtain ⟨le, other⟩ := both
  rw [← compare_eq_eq_iff] at other
  rw [← compare_eq_lt_iff]
  cases result : compare p q with
  | lt => rfl
  | eq => exact absurd result other
  | gt => rw [result] at le; cases le

/-- In this order there is one way to list given paths without repeating one. -/
theorem eq_of_pairwise_precedes {left right : List Path} (ordered : left.Pairwise Precedes)
    (orderedThere : right.Pairwise Precedes) (same : ∀ p, p ∈ left ↔ p ∈ right) : left = right := by
  have once {list : List Path} (ordered : list.Pairwise Precedes) : list.Nodup := by
    refine ordered.imp ?_
    rintro p _ lower rfl
    exact lower.asymm lower
  have perm : left.Perm right :=
    (List.perm_ext_iff_of_nodup (once ordered) (once orderedThere)).mpr same
  exact perm.eq_of_pairwise (fun _ _ _ _ lower higher => absurd higher lower.asymm) ordered orderedThere

end
end Buildpath.Path
