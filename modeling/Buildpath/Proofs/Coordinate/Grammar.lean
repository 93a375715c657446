import Buildpath.Coordinate
import Buildpath.Proofs.Text

/-! Which texts are coordinates. A text is cut at its colons in one way only, so the parts can be
told from the text, and from the id of a coordinate the parts that are in it. -/
namespace Buildpath.Coordinate

/-- A part of a coordinate: it has no colon and some character of it shows. -/
structure Shows (part : String) : Prop where
  whole : ':' ∉ part.toList
  visible : ∃ c ∈ part.toList, Text.isBlank c = false

inductive Spells : String → Coordinate → Prop
  | short {group artifact version : String} : Shows group → Shows artifact → Shows version →
      Spells (group ++ ":" ++ artifact ++ ":" ++ version) { group, artifact, version }
  | full {group artifact version packaging : String} :
      Shows group → Shows artifact → Shows version → Shows packaging →
      Spells (group ++ ":" ++ artifact ++ ":" ++ version ++ ":" ++ packaging)
        { group, artifact, version, packaging }

structure Legible (c : Coordinate) : Prop where
  group : Shows c.group
  artifact : Shows c.artifact
  version : Shows c.version
  packaging : Shows c.packaging

def order : List Part := [.group, .artifact, .version, .packaging]

def FirstBlank (parts : List String) (part : Part) : Prop :=
  ∃ before blank after, parts = before ++ blank :: after ∧
    (∀ text ∈ before, Text.allBlank text = false) ∧ Text.allBlank blank = true ∧
    order[before.length]? = some part

/-- What is wrong with the parts of a text: their number or else the first that does not show. -/
def Fault.Of (parts : List String) : Fault → Prop
  | .partCount n => parts.length = n ∧ n ≠ 3 ∧ n ≠ 4
  | .blankPart part => (parts.length = 3 ∨ parts.length = 4) ∧ FirstBlank parts part

theorem Shows.not_blank {part : String} (shows : Shows part) : Text.allBlank part = false := by
  simpa [Text.allBlank] using shows.visible

theorem shows_jar : Shows "jar" := ⟨by decide, 'j', by decide, by decide⟩

theorem Spells.legible {text : String} {c : Coordinate} (spells : Spells text c) : Legible c := by
  cases spells with
  | short group artifact version => exact ⟨group, artifact, version, shows_jar⟩
  | full group artifact version packaging => exact ⟨group, artifact, version, packaging⟩

/-- The id of a coordinate is read as the coordinate without its packaging. -/
theorem Legible.spells_id {c : Coordinate} (legible : Legible c) :
    Spells c.id { c with packaging := "jar" } :=
  .short legible.group legible.artifact legible.version

theorem Legible.spells {c : Coordinate} (legible : Legible c) : Spells (c.id ++ ":" ++ c.packaging) c :=
  .full legible.group legible.artifact legible.version legible.packaging

theorem cut_colon (left right : String) :
    Text.cut ':' (left ++ ":" ++ right) = Text.cut ':' left ++ Text.cut ':' right :=
  Text.cut_append (by simp)

theorem Shows.cut {part : String} (shows : Shows part) : Text.cut ':' part = [part] :=
  Text.cut_of_not_mem shows.whole

theorem Legible.cut_id {c : Coordinate} (legible : Legible c) :
    Text.cut ':' c.id = [c.group, c.artifact, c.version] := by
  rw [id, cut_colon, cut_colon, legible.group.cut, legible.artifact.cut, legible.version.cut]
  rfl

theorem Legible.cut {c : Coordinate} (legible : Legible c) : Text.cut ':' (c.id ++ ":" ++ c.packaging) =
    [c.group, c.artifact, c.version, c.packaging] := by
  rw [cut_colon, legible.cut_id, legible.packaging.cut]
  rfl

theorem find?_zip_eq_some_iff {parts : List String} {labels : List Part} {part : Part} :
    ((parts.zip labels).find? (Text.allBlank ·.1)).map (·.2) = some part ↔
      ∃ before blank after, parts = before ++ blank :: after ∧
        (∀ text ∈ before, Text.allBlank text = false) ∧ Text.allBlank blank = true ∧
        labels[before.length]? = some part := by
  induction parts generalizing labels with
  | nil => simp
  | cons text rest ih =>
    cases labels with
    | nil => simp
    | cons label labels =>
      rw [List.zip_cons_cons, List.find?_cons]
      cases blank : Text.allBlank text with
      | true =>
        constructor
        · intro found
          exact ⟨[], text, rest, rfl, nofun, blank, found⟩
        · rintro ⟨before, other, after, split, visible, -, here⟩
          cases before with
          | nil => exact here
          | cons first before =>
            obtain ⟨rfl, -⟩ := List.cons.inj split
            rw [visible _ List.mem_cons_self] at blank
            cases blank
      | false =>
        rw [ih]
        constructor
        · rintro ⟨before, other, after, rfl, visible, hidden, here⟩
          exact ⟨text :: before, other, after, rfl, List.forall_mem_cons.mpr ⟨blank, visible⟩, hidden, here⟩
        · rintro ⟨before, other, after, split, visible, hidden, here⟩
          cases before with
          | nil =>
            obtain ⟨rfl, -⟩ := List.cons.inj split
            rw [blank] at hidden
            cases hidden
          | cons first before =>
            obtain ⟨rfl, rfl⟩ := List.cons.inj split
            exact ⟨before, other, after, rfl, (List.forall_mem_cons.mp visible).2, hidden, here⟩

theorem firstBlank?_eq_some_iff {parts : List String} {part : Part} :
    firstBlank? parts = some part ↔ FirstBlank parts part := find?_zip_eq_some_iff

theorem firstBlank?_eq_none_iff {parts : List String} (few : parts.length ≤ 4) :
    firstBlank? parts = none ↔ ∀ part ∈ parts, Text.allBlank part = false := by
  have all : (parts.zip order).map (·.1) = parts := List.map_fst_zip few
  have none : firstBlank? parts = none ↔ ∀ pair ∈ parts.zip order, Text.allBlank pair.1 = false := by
    simp [firstBlank?, order]
  rw [none, ← List.forall_mem_map (f := Prod.fst) (P := fun part => Text.allBlank part = false), all]

theorem ofParts?_eq_some_iff {parts : List String} {c : Coordinate} : ofParts? parts = some c ↔
    parts = [c.group, c.artifact, c.version] ∧ c.packaging = "jar" ∨
      parts = [c.group, c.artifact, c.version, c.packaging] := by
  obtain ⟨group, artifact, version, packaging⟩ := c
  match parts with
  | [] | [_] | [_, _] => simp [ofParts?]
  | [_, _, _] => simp [ofParts?, and_assoc, eq_comm]
  | [_, _, _, _] => simp [ofParts?]
  | _ :: _ :: _ :: _ :: _ :: _ => simp [ofParts?]

theorem ofParts?_eq_none_iff {parts : List String} :
    ofParts? parts = none ↔ parts.length ≠ 3 ∧ parts.length ≠ 4 := by
  match parts with
  | [] | [_] | [_, _] | [_, _, _] | [_, _, _, _] => simp [ofParts?]
  | _ :: _ :: _ :: _ :: _ :: _ => simp [ofParts?]

variable {text : String} {c : Coordinate}

theorem length_of_ofParts? {parts : List String} (read : ofParts? parts = some c) :
    parts.length = 3 ∨ parts.length = 4 := by
  rcases ofParts?_eq_some_iff.mp read with ⟨rfl, -⟩ | rfl
  · exact .inl rfl
  · exact .inr rfl

theorem shows_of_mem_cut {part : String} (mem : part ∈ Text.cut ':' text)
    (visible : Text.allBlank part = false) : Shows part where
  whole colon := (Text.mem_of_mem_cut mem colon).2 rfl
  visible := by simpa [Text.allBlank] using visible

/-- What a coordinate is spelled by can be told from the parts of the text. -/
theorem spells_iff : Spells text c ↔
    ofParts? (Text.cut ':' text) = some c ∧ ∀ part ∈ Text.cut ':' text, Text.allBlank part = false := by
  constructor
  · intro spells
    have legible := spells.legible
    cases spells with
    | short group artifact version =>
      have parts := legible.cut_id
      rw [id] at parts
      rw [parts]
      exact ⟨rfl, by simp [group.not_blank, artifact.not_blank, version.not_blank]⟩
    | full group artifact version packaging =>
      have parts := legible.cut
      rw [id] at parts
      rw [parts]
      exact ⟨rfl, by simp [group.not_blank, artifact.not_blank, version.not_blank, packaging.not_blank]⟩
  · rintro ⟨parts, visible⟩
    have shows (part : String) (mem : part ∈ Text.cut ':' text) := shows_of_mem_cut mem (visible part mem)
    obtain ⟨group, artifact, version, packaging⟩ := c
    rcases ofParts?_eq_some_iff.mp parts with ⟨written, jar⟩ | written
    · cases jar
      rw [written] at shows
      rw [(Text.cut_eq_iff.mp written).text_eq]
      exact .short (shows _ (by simp)) (shows _ (by simp)) (shows _ (by simp))
    · rw [written] at shows
      rw [(Text.cut_eq_iff.mp written).text_eq]
      exact .full (shows _ (by simp)) (shows _ (by simp)) (shows _ (by simp)) (shows _ (by simp))

theorem parse_of_none (wrong : ofParts? (Text.cut ':' text) = none) :
    parse text = .error ⟨text, .partCount (Text.cut ':' text).length⟩ := by
  simp only [parse, wrong]

theorem parse_of_some (parts : ofParts? (Text.cut ':' text) = some c) : parse text =
    match firstBlank? (Text.cut ':' text) with
    | some part => .error ⟨text, .blankPart part⟩
    | none => .ok c := by
  cases blank : firstBlank? (Text.cut ':' text) <;> simp only [parse, parts, blank]

/-- A text is read as a coordinate exactly if it spells the coordinate. -/
theorem parse_eq_ok_iff : parse text = .ok c ↔ Spells text c := by
  rw [spells_iff]
  cases parts : ofParts? (Text.cut ':' text) with
  | none => simp [parse_of_none parts]
  | some other =>
    have few : (Text.cut ':' text).length ≤ 4 := by
      have count := length_of_ofParts? parts
      omega
    rw [parse_of_some parts, ← firstBlank?_eq_none_iff few]
    cases firstBlank? (Text.cut ':' text) <;> simp

/-- It is refused exactly for what is wrong with its parts. -/
theorem parse_eq_error_iff {parts : List String} {e : Malformed} (joined : Text.Joined ':' parts text) :
    parse text = .error e ↔ e.text = text ∧ e.fault.Of parts := by
  obtain ⟨quoted, fault⟩ := e
  obtain rfl := Text.cut_eq_iff.mpr joined
  cases read : ofParts? (Text.cut ':' text) with
  | none =>
    have count := ofParts?_eq_none_iff.mp read
    rw [parse_of_none read, Except.error.injEq, Malformed.mk.injEq, eq_comm (a := text)]
    cases fault with
    | partCount n =>
      rw [Fault.partCount.injEq, Fault.Of]
      refine and_congr_right fun _ => ⟨?_, And.left⟩
      rintro rfl
      exact ⟨rfl, count⟩
    | blankPart part =>
      have few : ¬ Fault.Of (Text.cut ':' text) (.blankPart part) := by
        rintro ⟨enough, -⟩
        omega
      simp [few]
  | some other =>
    have count := length_of_ofParts? read
    rw [parse_of_some read]
    cases fault with
    | partCount n =>
      have right : ¬ Fault.Of (Text.cut ':' text) (.partCount n) := by
        rintro ⟨rfl, notThree, notFour⟩
        omega
      cases firstBlank? (Text.cut ':' text) <;> simp [right]
    | blankPart part =>
      have first : Fault.Of (Text.cut ':' text) (.blankPart part) ↔
          firstBlank? (Text.cut ':' text) = some part := by
        rw [firstBlank?_eq_some_iff]
        exact and_iff_right count
      rw [first]
      cases firstBlank? (Text.cut ':' text) <;> simp [eq_comm (a := text)]

/-- A text is read as a coordinate exactly if it is made of three or four parts, each without a colon
and with a character that shows: these are the parts of the coordinate as they are written, and its
packaging is `jar` where there is no fourth. Any other text is made of parts in one way and is
refused for their number, if they are not three or four, or else for the first that does not show.
What was read can be read again from its id, but for the packaging, and from its id and its
packaging. Coordinates with one id differ in nothing but their packaging. -/
theorem parse_exactly_spelled :
    (∀ text c, parse text = .ok c ↔ Spells text c) ∧
    (∀ text, ∃ parts, Text.Joined ':' parts text ∧ ∀ other, Text.Joined ':' other text → other = parts) ∧
    (∀ text parts, Text.Joined ':' parts text → ∀ e : Malformed,
      parse text = .error e ↔ e.text = text ∧ e.fault.Of parts) ∧
    (∀ text c, parse text = .ok c → parse c.id = .ok { c with packaging := "jar" } ∧
      parse (c.id ++ ":" ++ c.packaging) = .ok c) ∧
    ∀ text text' c c', parse text = .ok c → parse text' = .ok c' → c.id = c'.id →
      c.group = c'.group ∧ c.artifact = c'.artifact ∧ c.version = c'.version := by
  refine ⟨fun _ _ => parse_eq_ok_iff, fun text => ?_, fun _ _ joined _ => parse_eq_error_iff joined,
    fun text c read => ?_, fun text text' c c' read read' same => ?_⟩
  · refine ⟨_, Text.cut_eq_iff.mp rfl, fun parts joined => ?_⟩
    exact (Text.cut_eq_iff.mpr joined).symm
  · have legible := (parse_eq_ok_iff.mp read).legible
    exact ⟨parse_eq_ok_iff.mpr legible.spells_id, parse_eq_ok_iff.mpr legible.spells⟩
  · have parts := (parse_eq_ok_iff.mp read).legible.cut_id
    rw [same, (parse_eq_ok_iff.mp read').legible.cut_id] at parts
    simpa [eq_comm] using parts

/-- Blanks around a part are kept, and one that is only wide blanks is none. The fifth part of a text
is not looked at. -/
theorem parse_blank_parts :
    let c : Coordinate := ⟨"org.a", " b ", "1", "war"⟩
    let parts := ["org.a", "\u2003\u00a0", "1"]
    Spells "org.a: b :1:war" c ∧ parse c.id = .ok { c with packaging := "jar" } ∧
      parse (c.id ++ ":" ++ c.packaging) = .ok c ∧
      (∀ c', parse "org.a: b :1:pom" = .ok c' → c.id = c'.id → c.group = c'.group) ∧
      FirstBlank parts .artifact ∧
      parse "org.a:\u2003\u00a0:1" = .error ⟨"org.a:\u2003\u00a0:1", .blankPart .artifact⟩ ∧
      parse "a:b:c:d: " = .error ⟨"a:b:c:d: ", .partCount 5⟩ := by
  intro c parts
  obtain ⟨spelled, -, refused, again, apart⟩ := parse_exactly_spelled
  have read : parse "org.a: b :1:war" = .ok c := by rfl
  have blank : FirstBlank parts .artifact :=
    ⟨["org.a"], "\u2003\u00a0", ["1"], rfl, by decide, by decide, rfl⟩
  have joined : Text.Joined ':' parts "org.a:\u2003\u00a0:1" := ⟨by decide, by decide, by decide⟩
  have many : Text.Joined ':' ["a", "b", "c", "d", " "] "a:b:c:d: " := ⟨by decide, by decide, by decide⟩
  exact ⟨(spelled _ _).mp read, (again _ _ read).1, (again _ _ read).2,
    fun c' read' same => (apart _ _ _ _ read read' same).1, blank,
    (refused _ _ joined _).mpr ⟨rfl, .inl rfl, blank⟩, (refused _ _ many _).mpr ⟨rfl, rfl, by decide⟩⟩

end Buildpath.Coordinate
