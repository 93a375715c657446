import Buildpath.Proofs.Disk.Outline
import Buildpath.Proofs.Path.Joining
import Buildpath.Proofs.Path.Order
import Mathlib.Logic.Relation
import Mathlib.Tactic.SplitIfs

/-! Searching a directory. A search goes from place to place, and a path that is used as a whole is
followed from its start; both come to the same place, so what a search finds can be told by paths
alone: by what a directory lists, and by which paths lead to directories. -/
namespace Buildpath.Disk

open Relation

structure ProperName (name : String) : Prop where
  stretch : Path.IsName name
  short : name.utf8ByteSize ≤ maxName
  clean : '\x00' ∉ name.toList

instance (name : String) : Decidable (ProperName name) :=
  decidable_of_iff (Path.IsName name ∧ name.utf8ByteSize ≤ maxName ∧ '\x00' ∉ name.toList)
    ⟨fun ⟨stretch, short, clean⟩ => ⟨stretch, short, clean⟩,
      fun ⟨stretch, short, clean⟩ => ⟨stretch, short, clean⟩⟩

/-- No directory has two children of one name, and none has a child that could not be named. -/
def Proper (d : Disk) : Prop :=
  ∀ l ∈ d.directories, (d.names l).Nodup ∧ ∀ name ∈ d.names l, ProperName name

instance (d : Disk) : Decidable d.Proper := inferInstanceAs (Decidable (∀ l ∈ _, _))

/-- The path leads to a directory that can be listed: it is short enough, and so few links are on it
that all are followed. -/
def IsDirectory (d : Disk) (p : Path) : Prop := ∃ place, d.directory p = .ok place

def Lists (d : Disk) (p q : Path) : Prop :=
  ∃ place, d.directory p = .ok place ∧ ∃ name ∈ d.names place.location, q = p.join name

def Below (d : Disk) : Path → Path → Prop := TransGen d.Lists

section
variable {d : Disk} {l : Location} {p q : Path} {place inner : Place} {name : String}

theorem mem_directories_of_isDirectoryAt (there : d.isDirectoryAt l = true) : l ∈ d.directories := by
  obtain ⟨children, found⟩ := isDirectoryAt_iff.mp there
  exact directories_subset found (by simp [Entry.directories])

theorem isDirectoryAt_of_mem_names (mem : name ∈ d.names l) : d.isDirectoryAt l = true := by
  unfold isDirectoryAt
  cases children : (d.get? l).bind Entry.children? with
  | none => simp [names, children] at mem
  | some => rfl

theorem Proper.nodup (proper : d.Proper) (l : Location) : (d.names l).Nodup := by
  cases there : d.isDirectoryAt l with
  | true => exact (proper l (mem_directories_of_isDirectoryAt there)).1
  | false =>
    have none : d.names l = [] := by
      refine List.eq_nil_iff_forall_not_mem.mpr fun name mem => ?_
      rw [isDirectoryAt_of_mem_names mem] at there
      cases there
    rw [none]
    exact List.nodup_nil

theorem Proper.properName (proper : d.Proper) (mem : name ∈ d.names l) : ProperName name :=
  (proper l (mem_directories_of_isDirectoryAt (isDirectoryAt_of_mem_names mem))).2 name mem

/-! What a path leads to with one more name. -/

/-- Stretches are followed one after the other. -/
theorem walk_append (l : Location) (links : Nat) (first second : List String) :
    d.walk l links (first ++ second) =
      (d.walk l links first).bind fun at_ => d.walk at_.location at_.links second := by
  fun_induction walk d l links first with
  | case1 => rfl
  | case2 _ _ _ _ stuck => rw [List.cons_append, walk, if_pos stuck]; rfl
  | case3 _ _ _ _ there skip ih => rw [List.cons_append, walk, if_neg there, if_pos skip, ih]
  | case4 _ _ _ there skip ih =>
    rw [List.cons_append, walk, if_neg there, if_neg skip, if_pos rfl, ih]
  | case5 _ _ _ _ there skip up long =>
    rw [List.cons_append, walk, if_neg there, if_neg skip, if_neg up, if_pos long]
    rfl
  | case6 _ _ _ _ there skip up short missing =>
    rw [List.cons_append, walk, if_neg there, if_neg skip, if_neg up, if_neg short]
    simp only [missing]
    rfl
  | case7 _ _ _ _ there skip up short _ found few ih =>
    rw [List.cons_append, walk, if_neg there, if_neg skip, if_neg up, if_neg short]
    simp only [found, if_pos few]
    -- the stretches of the link stand in front of those that are left
    rw [← List.append_assoc, ih]
  | case8 _ _ _ _ there skip up short _ found many =>
    rw [List.cons_append, walk, if_neg there, if_neg skip, if_neg up, if_neg short]
    simp only [found, if_neg many]
    rfl
  | case9 _ _ _ _ there skip up short e plain found ih =>
    rw [List.cons_append, walk, if_neg there, if_neg skip, if_neg up, if_neg short]
    simp only [found]
    rw [ih]

theorem walk_name (proper : ProperName name) (there : d.isDirectoryAt place.location = true) :
    d.walk place.location place.links [name] = d.child place name := by
  have skip : ¬ (name = "" ∨ name = ".") :=
    not_or.mpr ⟨proper.stretch.written, proper.stretch.not_here⟩
  rw [walk, if_neg (by simp [there]), if_neg skip, if_neg proper.stretch.not_up,
    if_neg (Nat.not_lt.mpr proper.short), child]
  cases d.get? (name :: place.location) with
  | none => rfl
  | some e =>
    cases e with
    | link target => simp only [List.append_nil]
    | directory => simp only [walk]
    | file => simp only [walk]

theorem walk_empty {front : List String} (found : d.walk l links (front ++ [""]) = .ok place) :
    d.walk l links front = .ok place := by
  rw [walk_append] at found
  obtain ⟨at_, before, last⟩ := bind_eq_ok_iff.mp found
  rw [walk] at last
  split at last
  · cases last
  · rw [if_pos (.inl rfl), walk] at last
    cases last
    exact before

theorem directory_eq_ok_iff : d.directory p = .ok place ↔
    d.locate p = .ok place ∧ d.isDirectoryAt place.location = true := by
  unfold directory
  cases d.locate p with
  | error => simp
  | ok other =>
    constructor
    · intro found
      dsimp only at found
      split at found
      · rename_i there
        cases found
        exact ⟨rfl, there⟩
      · cases found
    · rintro ⟨same, there⟩
      cases same
      exact if_pos there

theorem locate_eq_ok_iff : d.locate p = .ok place ↔ '\x00' ∉ p.text.toList ∧ p.text ≠ "" ∧
    p.size ≤ maxPath ∧ d.walk (start p.text d.cwd) 0 (Text.cut '/' p.text) = .ok place := by
  unfold locate follow
  split_ifs <;> simp_all

/-- Where a path leads to a directory, one more name leads to what the directory has under it. -/
theorem locate_join_eq_ok_iff (proper : ProperName name) (found : d.directory p = .ok place) :
    d.locate (p.join name) = .ok inner ↔
      (p.join name).size ≤ maxPath ∧ d.child place name = .ok inner := by
  obtain ⟨located, there⟩ := directory_eq_ok_iff.mp found
  obtain ⟨clean, written, -, walked⟩ := locate_eq_ok_iff.mp located
  have relative := Path.isAbsolute_of_not_mem proper.stretch.whole
  obtain ⟨front, before, cut⟩ := Path.exists_cut_join proper.stretch.whole written
  have reached : d.walk (start p.text d.cwd) 0 front = .ok place := by
    rcases before with alone | ending
    · rwa [← alone]
    · exact walk_empty (ending ▸ walked)
  have started : start (p.join name).text d.cwd = start p.text d.cwd := by
    rw [start, Path.isAbsolute_join_eq relative written, start]
  have followed : d.walk (start (p.join name).text d.cwd) 0 (Text.cut '/' (p.join name).text) =
      d.child place name := by
    rw [started, cut, walk_append, reached]
    exact walk_name proper there
  have cleanThere : '\x00' ∉ (p.join name).text.toList := fun mem => by
    rcases Path.mem_join relative written mem with first | slash | last
    · exact clean first
    · cases slash
    · exact proper.clean last
  rw [locate_eq_ok_iff, followed, and_iff_right cleanThere,
    and_iff_right (Path.join_ne_empty relative written)]

theorem directory_join_eq_ok_iff (proper : ProperName name) (found : d.directory p = .ok place) :
    d.directory (p.join name) = .ok inner ↔ (p.join name).size ≤ maxPath ∧
      d.child place name = .ok inner ∧ d.isDirectoryAt inner.location = true := by
  rw [directory_eq_ok_iff, locate_join_eq_ok_iff proper found, and_assoc]

end

/-! The search, whatever the order in which directories are read. -/

/-- An order in which the names in each directory are read, whatever path it is read by. -/
def ListedBy (d : Disk) (listed : Path → Location → List String) : Prop :=
  ∀ p l, (listed p l).Perm (d.names l)

/-- The order that the disk itself tells. -/
theorem listedBy_names (d : Disk) : d.ListedBy fun _ l => d.names l := fun _ _ => List.Perm.refl _

def filesListed (d : Disk) (listed : Path → Location → List String) (extension : String)
    (path : Path) (place : Place) : List Path :=
  (listed path place.location).flatMap fun name =>
    let entry := path.join name
    let leaf := if entry.extension? = some extension then [entry] else []
    match _h : d.child place name with
    | .ok inner =>
      if entry.size ≤ maxPath && d.isDirectoryAt inner.location then
        d.filesListed listed extension entry inner
      else leaf
    | .error _ => leaf
termination_by (maxLinks - place.links, d.below place.location)
decreasing_by exact child_descends _h

section
variable {d : Disk} {listed : Path → Location → List String} {extension : String} {path p q : Path}
  {place inner : Place} {name : String}

/-- The search, without what shows that it ends. -/
theorem filesListed_step (path : Path) (place : Place) : d.filesListed listed extension path place =
    (listed path place.location).flatMap fun name =>
      let entry := path.join name
      let leaf := if entry.extension? = some extension then [entry] else []
      match d.child place name with
      | .ok inner =>
        if entry.size ≤ maxPath && d.isDirectoryAt inner.location then
          d.filesListed listed extension entry inner
        else leaf
      | .error _ => leaf := by
  rw [filesListed]
  congr 1
  funext name
  split <;> rename_i found <;> simp only [found]

/-- In the order of the disk it is the search that runs. -/
theorem filesListed_names (path : Path) (place : Place) :
    d.filesListed (fun _ l => d.names l) extension path place = d.filesBelow extension path place := by
  induction path, place using filesBelow.induct d with
  | case1 path place ih =>
    rw [filesListed_step, filesBelow_eq]
    congr 1
    funext name
    cases found : d.child place name with
    | error => rfl
    | ok inner => simp only [ih name inner found]

def filesUnder (d : Disk) (listed : Path → Location → List String) (extension : String)
    (entry : Path) : List Path :=
  match d.directory entry with
  | .ok inner => d.filesListed listed extension entry inner
  | .error _ => if entry.extension? = some extension then [entry] else []

/-- Only paths decide where the search goes on. -/
theorem filesListed_eq (proper : d.Proper) (order : d.ListedBy listed)
    (found : d.directory path = .ok place) :
    d.filesListed listed extension path place = (listed path place.location).flatMap fun name =>
      d.filesUnder listed extension (path.join name) := by
  rw [filesListed_step]
  refine List.flatMap_congr fun name mem => ?_
  have properName := proper.properName ((order path place.location).mem_iff.mp mem)
  dsimp only
  cases entry : d.directory (path.join name) with
  | ok inner =>
    obtain ⟨short, child, there⟩ := (directory_join_eq_ok_iff properName found).mp entry
    simp [filesUnder, entry, child, short, there]
  | error fault =>
    cases child : d.child place name with
    | error => simp only [filesUnder, entry]
    | ok inner =>
      have refused : ¬ ((path.join name).size ≤ maxPath ∧ d.isDirectoryAt inner.location = true) := by
        rintro ⟨short, there⟩
        have listable := (directory_join_eq_ok_iff properName found).mpr ⟨short, child, there⟩
        rw [entry] at listable
        cases listable
      simp only [filesUnder, entry, Bool.and_eq_true, decide_eq_true_eq, if_neg refused]

theorem lists_iff (found : d.directory path = .ok place) :
    d.Lists path q ↔ ∃ name ∈ d.names place.location, q = path.join name := by
  constructor
  · rintro ⟨other, there, listed⟩
    cases found.symm.trans there
    exact listed
  · exact fun listed => ⟨place, found, listed⟩

theorem below_iff (found : d.directory path = .ok place) : d.Below path p ↔
    ∃ name ∈ d.names place.location, ReflTransGen d.Lists (path.join name) p := by
  rw [Below, TransGen.head'_iff]
  simp only [lists_iff found]
  constructor
  · rintro ⟨_, ⟨name, mem, rfl⟩, rest⟩
    exact ⟨name, mem, rest⟩
  · rintro ⟨name, mem, rest⟩
    exact ⟨_, ⟨name, mem, rfl⟩, rest⟩

/-- Below what is no directory there is nothing. -/
theorem reflTransGen_lists_iff (other : ¬ d.IsDirectory q) : ReflTransGen d.Lists q p ↔ p = q := by
  rw [reflTransGen_iff_eq]
  rintro _ ⟨place, found, _⟩
  exact other ⟨place, found⟩

/-- What is found under a name, told by what is found in the directory that it may lead to. -/
theorem mem_filesUnder_iff_of (each : ∀ inner, d.directory q = .ok inner →
    (p ∈ d.filesListed listed extension q inner ↔
      d.Below q p ∧ ¬ d.IsDirectory p ∧ p.extension? = some extension)) :
    p ∈ d.filesUnder listed extension q ↔
      ReflTransGen d.Lists q p ∧ ¬ d.IsDirectory p ∧ p.extension? = some extension := by
  cases entry : d.directory q with
  | ok inner =>
    have itself : p = q → d.IsDirectory p := by
      rintro rfl
      exact ⟨inner, entry⟩
    simp only [filesUnder, entry]
    rw [each inner entry, reflTransGen_iff_eq_or_transGen, Below]
    tauto
  | error fault =>
    have other : ¬ d.IsDirectory q := by
      rintro ⟨inner, there⟩
      cases entry.symm.trans there
    rw [reflTransGen_lists_iff other]
    simp only [filesUnder, entry]
    constructor
    · intro mem
      split at mem
      · rename_i has
        obtain rfl := List.mem_singleton.mp mem
        exact ⟨rfl, other, has⟩
      · cases mem
    · rintro ⟨rfl, -, has⟩
      rw [if_pos has]
      exact List.mem_singleton_self _

/-- What the search finds lies below, leads to no directory and has the extension, and all that is
so is found. -/
theorem mem_filesListed_iff (proper : d.Proper) (order : d.ListedBy listed)
    (found : d.directory path = .ok place) : p ∈ d.filesListed listed extension path place ↔
      d.Below path p ∧ ¬ d.IsDirectory p ∧ p.extension? = some extension := by
  induction path, place using filesBelow.induct d with
  | case1 path place ih =>
    have under (name : String) (mem : name ∈ d.names place.location) :
        p ∈ d.filesUnder listed extension (path.join name) ↔
          ReflTransGen d.Lists (path.join name) p ∧ ¬ d.IsDirectory p ∧ p.extension? = some extension :=
      mem_filesUnder_iff_of fun inner entry =>
        ih name inner ((directory_join_eq_ok_iff (proper.properName mem) found).mp entry).2.1 entry
    rw [filesListed_eq proper order found, List.mem_flatMap, below_iff found]
    simp only [(order path place.location).mem_iff]
    constructor
    · rintro ⟨name, mem, member⟩
      obtain ⟨rest, other, has⟩ := (under name mem).mp member
      exact ⟨⟨name, mem, rest⟩, other, has⟩
    · rintro ⟨⟨name, mem, rest⟩, other, has⟩
      exact ⟨name, mem, (under name mem).mpr ⟨rest, other, has⟩⟩

/-! No two paths that are found have the same components. -/

theorem Lists.components (proper : d.Proper) (lists : d.Lists p q) :
    ∃ more, q.components = p.components ++ more := by
  obtain ⟨place, _, name, mem, rfl⟩ := lists
  exact ⟨_, Path.components_join_name p (proper.properName mem).stretch⟩

/-- Whatever is below a path has its components in front. -/
theorem components_of_reflTransGen (proper : d.Proper) (path : ReflTransGen d.Lists p q) :
    ∃ more, q.components = p.components ++ more := by
  induction path with
  | refl => exact ⟨[], (List.append_nil _).symm⟩
  | tail _ lists ih =>
    obtain ⟨more, before⟩ := ih
    obtain ⟨last, behind⟩ := lists.components proper
    exact ⟨more ++ last, by rw [behind, before, List.append_assoc]⟩

/-- What is found under a name has the name behind the components of the directory. -/
theorem components_of_mem_filesUnder (proper : d.Proper) (order : d.ListedBy listed)
    (named : name ∈ d.names place.location)
    (mem : p ∈ d.filesUnder listed extension (path.join name)) :
    ∃ more, p.components = path.components ++ .name name :: more := by
  have below := ((mem_filesUnder_iff_of fun _ => mem_filesListed_iff proper order).mp mem).1
  obtain ⟨more, behind⟩ := components_of_reflTransGen proper below
  have joined := Path.components_join_name path (proper.properName named).stretch
  exact ⟨more, by rw [behind, joined, List.append_assoc, List.singleton_append]⟩

/-- What is found under different names differs in them. -/
theorem pairwise_filesListed (proper : d.Proper) (order : d.ListedBy listed)
    (found : d.directory path = .ok place) :
    (d.filesListed listed extension path place).Pairwise fun p q => ¬ p.Same q := by
  induction path, place using filesBelow.induct d with
  | case1 path place ih =>
    have names := order path place.location
    rw [filesListed_eq proper order found, List.pairwise_flatMap]
    constructor
    · intro name mem
      cases entry : d.directory (path.join name) with
      | ok inner =>
        have properName := proper.properName (names.mem_iff.mp mem)
        have child := ((directory_join_eq_ok_iff properName found).mp entry).2.1
        simp only [filesUnder, entry]
        exact ih name inner child entry
      | error fault =>
        simp only [filesUnder, entry]
        split
        · exact List.pairwise_singleton _ _
        · exact List.Pairwise.nil
    · have distinct := names.nodup_iff.mpr (proper.nodup place.location)
      refine distinct.imp_of_mem fun {left right} mem memThere other p member q memberThere same => ?_
      obtain ⟨more, before⟩ :=
        components_of_mem_filesUnder proper order (names.mem_iff.mp mem) member
      obtain ⟨moreThere, beforeThere⟩ :=
        components_of_mem_filesUnder proper order (names.mem_iff.mp memThere) memberThere
      have behind := List.append_cancel_left (before.symm.trans (Eq.trans same beforeThere))
      exact other (Path.Component.name.inj (List.cons.inj behind).1)

end
end Buildpath.Disk
