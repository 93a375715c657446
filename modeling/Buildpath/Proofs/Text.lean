import Buildpath.Text

/-! What becomes of a text that is cut at a separator. No stretch goes across a separator, all
characters but the separators are in one, and a text without separators is a stretch of its own. -/
namespace Buildpath.Text

variable {sep : Char} {text left right : String}

theorem cut_append (written : text.toList = left.toList ++ sep :: right.toList) :
    cut sep text = cut sep left ++ cut sep right := by
  rw [cut, written, List.splitOn_append_cons_self, List.map_append]
  rfl

theorem head?_cut_append (written : text.toList = left.toList ++ sep :: right.toList) :
    (cut sep text).head? = (cut sep left).head? := by
  rw [cut_append written]
  cases stretches : cut sep left with
  | nil => exact absurd stretches (cut_ne_nil sep left)
  | cons => rfl

theorem cut_of_not_mem (whole : sep ∉ text.toList) : cut sep text = [text] := by
  rw [cut, List.splitOn_eq_singleton whole, List.map_singleton, String.ofList_toList]

theorem mem_of_mem_splitOn {c : Char} {list stretch : List Char} (mem : stretch ∈ list.splitOn sep)
    (member : c ∈ stretch) : c ∈ list ∧ c ≠ sep := by
  induction list generalizing stretch with
  | nil =>
    rw [List.splitOn_nil, List.mem_singleton] at mem
    subst mem
    cases member
  | cons first rest ih =>
    rw [List.splitOn_cons_eq_if_modifyHead] at mem
    split at mem
    · rcases List.mem_cons.mp mem with rfl | mem
      · cases member
      · exact ⟨List.mem_cons_of_mem _ (ih mem member).1, (ih mem member).2⟩
    · rename_i other
      obtain ⟨head, tail, eq⟩ := List.exists_cons_of_ne_nil (List.splitOn_ne_nil sep rest)
      rw [eq] at ih mem
      rcases List.mem_cons.mp mem with rfl | mem
      · rcases List.mem_cons.mp member with rfl | member
        · exact ⟨List.mem_cons_self, by simpa using other⟩
        · have inner := ih List.mem_cons_self member
          exact ⟨List.mem_cons_of_mem _ inner.1, inner.2⟩
      · have inner := ih (List.mem_cons_of_mem _ mem) member
        exact ⟨List.mem_cons_of_mem _ inner.1, inner.2⟩

theorem mem_of_mem_cut {c : Char} {stretch : String} (mem : stretch ∈ cut sep text)
    (member : c ∈ stretch.toList) : c ∈ text.toList ∧ c ≠ sep := by
  obtain ⟨chars, part, rfl⟩ := List.mem_map.mp mem
  rw [String.toList_ofList] at member
  exact mem_of_mem_splitOn part member

structure Joined (sep : Char) (stretches : List String) (text : String) : Prop where
  some : stretches ≠ []
  whole : ∀ stretch ∈ stretches, sep ∉ stretch.toList
  text_eq : text = String.intercalate (String.singleton sep) stretches

/-- Every text is made in one way. -/
theorem cut_eq_iff {stretches : List String} : cut sep text = stretches ↔ Joined sep stretches text := by
  constructor
  · rintro rfl
    refine ⟨cut_ne_nil sep text, fun stretch mem member => (mem_of_mem_cut mem member).2 rfl, ?_⟩
    rw [← String.toList_inj, String.toList_intercalate, String.toList_singleton, cut, List.map_map]
    have chars : String.toList ∘ String.ofList = id := funext fun _ => String.toList_ofList
    rw [chars, List.map_id, List.intercalate_splitOn]
  · rintro ⟨some, whole, rfl⟩
    rw [cut, String.toList_intercalate, String.toList_singleton, List.splitOn_intercalate, List.map_map]
    · have texts : String.ofList ∘ String.toList = id := funext fun _ => String.ofList_toList
      rw [texts, List.map_id]
    · exact List.forall_mem_map.mpr whole
    · exact mt List.map_eq_nil_iff.mp some

/-- What a text is cut into tells the text. -/
theorem cut_injective {other : String} (same : cut sep text = cut sep other) : text = other :=
  (cut_eq_iff.mp same).text_eq.trans (cut_eq_iff.mp rfl).text_eq.symm

end Buildpath.Text
