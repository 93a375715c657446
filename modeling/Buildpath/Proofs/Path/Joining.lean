import Buildpath.Path
import Buildpath.Proofs.Text

/-! The components of joined paths. No stretch of a text goes across a slash, so what is written
behind a path adds components of its own and takes none away. Only an absolute text does: it leaves
nothing of the path. -/
namespace Buildpath.Path

/-- The components that a text adds when it is written behind another. -/
def inner (text : String) : List Component := (Text.cut '/' text).filterMap Component.ofStretch?

/-- The component that a text has because it stands first, if it has one. -/
def lead (text : String) : List Component :=
  if isAbsolute text then [.root]
  else if (Text.cut '/' text).head? = some "." then [.here]
  else []

theorem components_eq (p : Path) : p.components = lead p.text ++ inner p.text := by
  unfold components lead inner
  by_cases absolute : isAbsolute p.text
  · simp [absolute]
  · by_cases here : (Text.cut '/' p.text).head? = some "." <;> simp [absolute, here]

theorem up_mem_inner {text : String} : .up ∈ inner text ↔ ".." ∈ Text.cut '/' text := by
  have stretch : ∀ s, Component.ofStretch? s = some .up ↔ s = ".." := by
    intro s
    unfold Component.ofStretch?
    split
    · rename_i dropped
      rcases dropped with rfl | rfl <;> simp
    · split <;> simp_all
  rw [inner, List.mem_filterMap]
  simp only [stretch, exists_eq_right]

theorem up_not_mem_lead (text : String) : .up ∉ lead text := by
  unfold lead
  split
  · simp
  · split <;> simp

theorem toList_slash (left right : String) :
    (left ++ "/" ++ right).toList = left.toList ++ '/' :: right.toList := by
  simp

theorem toList_slash_empty (left : String) :
    (left ++ "/").toList = left.toList ++ '/' :: "".toList := by
  simp

theorem inner_append (left right : String) :
    inner (left ++ "/" ++ right) = inner left ++ inner right := by
  rw [inner, Text.cut_append (toList_slash left right), List.filterMap_append]
  rfl

theorem isAbsolute_append (left right : String) :
    isAbsolute (left ++ "/" ++ right) = isAbsolute (left ++ "/") := by
  cases h : left.toList <;> simp [isAbsolute, Text.startsWith, h]

theorem isAbsolute_slash {left : String} (written : left ≠ "") :
    isAbsolute (left ++ "/") = isAbsolute left := by
  cases h : left.toList with
  | nil => exact absurd (String.toList_eq_nil_iff.mp h) written
  | cons => simp [isAbsolute, Text.startsWith, h]

/-- What stands first is decided before the first slash. -/
theorem lead_append (left right : String) : lead (left ++ "/" ++ right) = lead (left ++ "/") := by
  have first := Text.head?_cut_append (toList_slash left right)
  have firstAlone := Text.head?_cut_append (toList_slash_empty left)
  unfold lead
  rw [isAbsolute_append, first, firstAlone]

theorem lead_slash {left : String} (written : left ≠ "") : lead (left ++ "/") = lead left := by
  have first := Text.head?_cut_append (toList_slash_empty left)
  unfold lead
  rw [isAbsolute_slash written, first]

variable {p : Path} {text : String}

theorem isAbsolute_of_not_mem (whole : '/' ∉ text.toList) : isAbsolute text = false := by
  cases first : text.toList with
  | nil => simp [isAbsolute, Text.startsWith, first]
  | cons c rest =>
    have other : c ≠ '/' := fun eq => whole (by simp [first, eq])
    simp [isAbsolute, Text.startsWith, first, other]

theorem join_empty (empty : p.text = "") : p.join text = ⟨text⟩ := by
  cases h : isAbsolute text <;> simp [join, h, empty]

/-- Between a path and what is written behind it stands one slash, which may be the path's own. -/
theorem exists_join_eq (relative : isAbsolute text = false) (written : p.text ≠ "") :
    ∃ front, (p.text = front ∨ p.text = front ++ "/") ∧ (p.join text).text = front ++ "/" ++ text := by
  cases ends : Text.endsWith '/' p.text with
  | false => exact ⟨p.text, .inl rfl, by simp [join, relative, written, ends]⟩
  | true =>
    have last : p.text.toList.getLast? = some '/' := by simpa [Text.endsWith] using ends
    obtain ⟨front, split⟩ := List.getLast?_eq_some_iff.mp last
    have slash : p.text = String.ofList front ++ "/" := by
      apply String.toList_inj.mp
      simp [split]
    have joined : (p.join text).text = p.text ++ text := by
      simp [join, relative, ends]
    exact ⟨String.ofList front, .inr slash, by rw [joined, slash]⟩

/-- A relative text adds its components to those of a path. -/
theorem components_join (relative : isAbsolute text = false) (written : p.text ≠ "") :
    (p.join text).components = p.components ++ inner text := by
  obtain ⟨front, alone | slash, joined⟩ := exists_join_eq relative written
  · rw [components_eq, components_eq p, joined, lead_append, inner_append, alone,
      lead_slash (alone ▸ written), List.append_assoc]
  · have nothing : inner (front ++ "/") = inner front := by
      have whole := inner_append front ""
      rw [String.append_empty] at whole
      rw [whole]
      exact List.append_nil _
    rw [components_eq, components_eq p, joined, lead_append, inner_append, slash, nothing,
      List.append_assoc]

theorem join_ne_empty (relative : isAbsolute text = false) (written : p.text ≠ "") :
    (p.join text).text ≠ "" := by
  obtain ⟨front, -, joined⟩ := exists_join_eq relative written
  rw [joined, ne_eq, ← String.toList_inj]
  simp

/-- What is joined is written with the characters of both, and slashes. -/
theorem mem_join {c : Char} (relative : isAbsolute text = false) (written : p.text ≠ "")
    (mem : c ∈ (p.join text).text.toList) : c ∈ p.text.toList ∨ c = '/' ∨ c ∈ text.toList := by
  obtain ⟨front, before, joined⟩ := exists_join_eq relative written
  have first : c ∈ front.toList → c ∈ p.text.toList := by
    rcases before with alone | slash
    · rw [alone]
      exact fun mem => mem
    · rw [slash, String.toList_append]
      exact List.mem_append_left _
  rw [joined, toList_slash, List.mem_append, List.mem_cons] at mem
  exact mem.imp_left first

theorem isAbsolute_join_eq (relative : isAbsolute text = false) (written : p.text ≠ "") :
    isAbsolute (p.join text).text = isAbsolute p.text := by
  obtain ⟨front, alone | slash, joined⟩ := exists_join_eq relative written
  · rw [joined, isAbsolute_append, alone, isAbsolute_slash (alone ▸ written)]
  · rw [joined, isAbsolute_append, slash]

structure IsName (text : String) : Prop where
  whole : '/' ∉ text.toList
  written : text ≠ ""
  not_here : text ≠ "."
  not_up : text ≠ ".."

instance (text : String) : Decidable (IsName text) :=
  decidable_of_iff ('/' ∉ text.toList ∧ text ≠ "" ∧ text ≠ "." ∧ text ≠ "..")
    ⟨fun ⟨whole, written, here, up⟩ => ⟨whole, written, here, up⟩,
      fun ⟨whole, written, here, up⟩ => ⟨whole, written, here, up⟩⟩

theorem IsName.inner_eq (name : IsName text) : inner text = [.name text] := by
  rw [inner, Text.cut_of_not_mem name.whole]
  simp [Component.ofStretch?, name.written, name.not_here, name.not_up]

theorem IsName.components_eq (name : IsName text) : components ⟨text⟩ = [.name text] := by
  have first : (Text.cut '/' text).head? ≠ some "." := by
    rw [Text.cut_of_not_mem name.whole]
    simpa using name.not_here
  have none : lead text = [] := by simp [lead, isAbsolute_of_not_mem name.whole, first]
  rw [Path.components_eq, none, name.inner_eq, List.nil_append]

/-- A name stands behind the components of a path, and alone behind the empty one. -/
theorem components_join_name (p : Path) (name : IsName text) :
    (p.join text).components = p.components ++ [.name text] := by
  by_cases empty : p.text = ""
  · obtain ⟨_⟩ := p
    subst empty
    rw [join_empty rfl, name.components_eq]
    rfl
  · rw [components_join (isAbsolute_of_not_mem name.whole) empty, name.inner_eq]

theorem components_foldl_join_names (p : Path) {names : List String} (named : ∀ name ∈ names, IsName name) :
    (names.foldl join p).components = p.components ++ names.map .name := by
  induction names generalizing p with
  | nil => simp
  | cons name rest ih =>
    obtain ⟨first, others⟩ := List.forall_mem_cons.mp named
    rw [List.foldl_cons, ih _ others, components_join_name p first, List.map_cons, List.append_assoc,
      List.singleton_append]

/-- What is written behind a path is a stretch of its own, in the place of an empty one at the end. -/
theorem exists_cut_join (whole : '/' ∉ text.toList) (written : p.text ≠ "") :
    ∃ front, (Text.cut '/' p.text = front ∨ Text.cut '/' p.text = front ++ [""]) ∧
      Text.cut '/' (p.join text).text = front ++ [text] := by
  obtain ⟨front, before, joined⟩ := exists_join_eq (isAbsolute_of_not_mem whole) written
  refine ⟨Text.cut '/' front, before.imp (congrArg _) fun slash => ?_, ?_⟩
  · rw [slash, Text.cut_append (toList_slash_empty front)]
    rfl
  · rw [joined, Text.cut_append (toList_slash front text), Text.cut_of_not_mem whole]

/-- The path keeps its components in front. Among those behind there is a `..` if the text has one. -/
theorem exists_components_join (p : Path) (relative : isAbsolute text = false) :
    ∃ more, (p.join text).components = p.components ++ more ∧
      (.up ∈ more ↔ ".." ∈ Text.cut '/' text) := by
  by_cases empty : p.text = ""
  · obtain ⟨_⟩ := p
    subst empty
    refine ⟨components ⟨text⟩, by rw [join_empty rfl]; rfl, ?_⟩
    rw [components_eq, List.mem_append, up_mem_inner]
    exact or_iff_right (up_not_mem_lead text)
  · exact ⟨inner text, components_join relative empty, up_mem_inner⟩

/-- The same for texts that are joined one after the other. -/
theorem exists_components_foldl_join (p : Path) {pieces : List String}
    (relative : ∀ piece ∈ pieces, isAbsolute piece = false) :
    ∃ more, (pieces.foldl join p).components = p.components ++ more ∧
      (.up ∈ more ↔ ∃ piece ∈ pieces, ".." ∈ Text.cut '/' piece) := by
  induction pieces generalizing p with
  | nil => exact ⟨[], by simp, by simp⟩
  | cons piece rest ih =>
    obtain ⟨first, joined, ups⟩ := exists_components_join p (relative piece List.mem_cons_self)
    obtain ⟨more, others, upsThere⟩ :=
      ih (p.join piece) fun other mem => relative other (List.mem_cons_of_mem _ mem)
    refine ⟨first ++ more, ?_, ?_⟩
    · rw [List.foldl_cons, others, joined, List.append_assoc]
    · simp only [List.mem_append, ups, upsThere, List.mem_cons, exists_eq_or_imp]

/-- Behind an absolute text nothing depends on what the path was. -/
theorem foldl_join_absolute {pieces : List String} {piece : String} (mem : piece ∈ pieces)
    (absolute : isAbsolute piece = true) (p q : Path) :
    pieces.foldl join p = pieces.foldl join q := by
  obtain ⟨before, after, rfl⟩ := List.append_of_mem mem
  simp only [List.foldl_append, List.foldl_cons, join_absolute _ absolute]

theorem isAbsolute_join (absolute : isAbsolute p.text = true) (text : String) :
    isAbsolute (p.join text).text = true := by
  cases first : p.text.toList with
  | nil => simp [isAbsolute, Text.startsWith, first] at absolute
  | cons c rest =>
    unfold join
    split
    · assumption
    · split <;> simpa [isAbsolute, Text.startsWith, first] using absolute

theorem isAbsolute_foldl_join {pieces : List String}
    (absolute : isAbsolute p.text = true ∨ ∃ piece ∈ pieces, isAbsolute piece = true) :
    isAbsolute (pieces.foldl join p).text = true := by
  induction pieces generalizing p with
  | nil => simpa using absolute
  | cons piece rest ih =>
    apply ih
    rcases absolute with before | ⟨other, mem, absolute⟩
    · exact .inl (isAbsolute_join before piece)
    · rcases List.mem_cons.mp mem with rfl | mem
      · exact .inl (by rwa [join_absolute _ absolute])
      · exact .inr ⟨other, mem, absolute⟩

theorem root_mem_components : .root ∈ p.components ↔ isAbsolute p.text = true := by
  have stretch : ∀ s, Component.ofStretch? s ≠ some .root := by
    intro s
    unfold Component.ofStretch?
    split
    · simp
    · split <;> simp
  have none : .root ∉ inner p.text := by simp [inner, stretch]
  rw [components_eq, List.mem_append, or_iff_left none, lead]
  cases isAbsolute p.text with
  | true => simp
  | false =>
    rw [if_neg Bool.false_ne_true]
    split <;> simp

/-- Below a directory, as far as the texts of the paths tell. -/
def Inside (root p : Path) : Prop := ∃ below, p.components = root.components ++ below ∧ .up ∉ below

/-- Relative texts behind a directory stay below it exactly if they have no `..`. -/
theorem inside_foldl_join_iff {pieces : List String}
    (relative : ∀ piece ∈ pieces, isAbsolute piece = false) :
    p.Inside (pieces.foldl join p) ↔ ∀ piece ∈ pieces, ".." ∉ Text.cut '/' piece := by
  obtain ⟨more, joined, ups⟩ := exists_components_foldl_join p relative
  have same : p.Inside (pieces.foldl join p) ↔ .up ∉ more := by
    constructor
    · rintro ⟨below, eq, none⟩
      rwa [List.append_cancel_left (joined.symm.trans eq)]
    · exact fun none => ⟨more, joined, none⟩
  rw [same, ups]
  simp

/-- An absolute path is below no directory that is named by a relative one. -/
theorem not_inside_of_isAbsolute {root : Path} (relative : isAbsolute root.text = false)
    (named : root.components ≠ []) (absolute : isAbsolute p.text = true) : ¬ root.Inside p := by
  rintro ⟨below, beside, _⟩
  obtain ⟨first, rest, eq⟩ := List.exists_cons_of_ne_nil named
  rw [components_eq, lead, if_pos absolute, eq] at beside
  obtain rfl : .root = first := (List.cons.inj beside).1
  have member : .root ∈ root.components := eq ▸ List.mem_cons_self
  rw [root_mem_components, relative] at member
  cases member

end Buildpath.Path
