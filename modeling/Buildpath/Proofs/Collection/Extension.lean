import Buildpath.Collection
import Buildpath.Proofs.Disk.Search
import Mathlib

/-! The files with an extension below a directory. Which ones these are can be told by paths and names
alone, and in the order of paths there is one list of them, so it makes no difference in which order
the directories are read. -/
namespace Buildpath

namespace Path

/-- The text behind the last dot of a name is its extension, unless the name has that dot in front. -/
theorem extensionOf?_eq_some_iff {name extension : String} : extensionOf? name = some extension ↔
    ∃ stem, stem ≠ "" ∧ name = stem ++ "." ++ extension ∧ '.' ∉ extension.toList := by
  unfold extensionOf?
  dsimp only
  constructor
  · intro found
    have parts := List.takeWhile_append_dropWhile (p := (· ≠ '.')) (l := name.toList.reverse)
    have first := List.head?_dropWhile_not (· ≠ '.') name.toList.reverse
    split at found
    · rename_i dot last rest behind
      cases found
      rw [behind] at parts first
      obtain rfl : dot = '.' := by simpa using first
      refine ⟨String.ofList (last :: rest).reverse, ?_, ?_, ?_⟩
      · simp [← String.toList_inj]
      · have written := congrArg List.reverse parts
        rw [List.reverse_reverse] at written
        apply String.toList_inj.mp
        refine written.symm.trans ?_
        simp
      · rw [String.toList_ofList, List.mem_reverse]
        intro mem
        simpa using List.mem_takeWhile_imp mem
    · cases found
  · rintro ⟨stem, some, rfl, whole⟩
    have others : ∀ c ∈ extension.toList.reverse, decide (c ≠ '.') = true := by
      intro c mem
      rw [decide_eq_true_eq]
      rintro rfl
      exact whole (List.mem_reverse.mp mem)
    obtain ⟨last, rest, behind⟩ : ∃ last rest, stem.toList.reverse = last :: rest :=
      List.exists_cons_of_ne_nil (by simpa using some)
    have backwards : (stem ++ "." ++ extension).toList.reverse =
        extension.toList.reverse ++ '.' :: last :: rest := by
      simp [← behind]
    rw [backwards, List.dropWhile_append_of_pos others, List.takeWhile_append_of_pos others]
    simp

def HasExtension (p : Path) (extension : String) : Prop :=
  ∃ stem, stem ≠ "" ∧ p.fileName? = some (stem ++ "." ++ extension) ∧ '.' ∉ extension.toList

theorem extension?_eq_some_iff {p : Path} {extension : String} :
    p.extension? = some extension ↔ p.HasExtension extension := by
  rw [extension?, Option.bind_eq_some_iff]
  simp only [extensionOf?_eq_some_iff]
  constructor
  · rintro ⟨_, named, stem, some, rfl, whole⟩
    exact ⟨stem, some, named, whole⟩
  · rintro ⟨stem, some, named, whole⟩
    exact ⟨_, named, stem, some, rfl, whole⟩

end Path

namespace Collection

open Disk

/-- The enumeration, with the order in which directories are read. -/
def extensionFilesListed (d : Disk) (listed : Path → Location → List String) (directory : Path)
    (extension : String) : Except FileError (List Path) :=
  match d.directory directory with
  | .error fault => .error (.access directory fault)
  | .ok place => .ok (Path.sort (d.filesListed listed extension directory place))

section
variable {d : Disk} {listed : Path → Location → List String} {directory : Path} {extension : String}

theorem extensionFilesListed_names (directory : Path) (extension : String) :
    extensionFilesListed d (fun _ l => d.names l) directory extension =
      extensionFiles d directory extension := by
  unfold extensionFilesListed extensionFiles
  cases d.directory directory with
  | error => rfl
  | ok place => simp only [filesListed_names]

theorem exists_extensionFilesListed_iff (extension : String) :
    (∃ files, extensionFilesListed d listed directory extension = .ok files) ↔
      d.IsDirectory directory := by
  unfold extensionFilesListed IsDirectory
  cases d.directory directory with
  | error => simp
  | ok place => simp

/-- The list that is made of a search has the files in order, whatever the order they were found in. -/
theorem extensionFilesListed_spec (proper : d.Proper) (order : d.ListedBy listed) {files : List Path}
    (run : extensionFilesListed d listed directory extension = .ok files) :
    files.Pairwise Path.Precedes ∧ ∀ p, p ∈ files ↔
      d.Below directory p ∧ ¬ d.IsDirectory p ∧ p.HasExtension extension := by
  unfold extensionFilesListed at run
  split at run
  · cases run
  · rename_i place found
    cases run
    refine ⟨Path.pairwise_sort (pairwise_filesListed proper order found), fun p => ?_⟩
    rw [Path.mem_sort, mem_filesListed_iff proper order found, Path.extension?_eq_some_iff]

theorem extensionFilesListed_eq (proper : d.Proper) (order : d.ListedBy listed) :
    extensionFilesListed d listed directory extension = extensionFiles d directory extension := by
  rw [← extensionFilesListed_names]
  unfold extensionFilesListed
  cases found : d.directory directory with
  | error => rfl
  | ok place =>
    refine congrArg Except.ok (Path.eq_of_pairwise_precedes
      (Path.pairwise_sort (pairwise_filesListed proper order found))
      (Path.pairwise_sort (pairwise_filesListed proper d.listedBy_names found)) fun p => ?_)
    rw [Path.mem_sort, Path.mem_sort, mem_filesListed_iff proper order found,
      mem_filesListed_iff proper d.listedBy_names found]

end

/-- Below what can be listed as a directory all files with an extension are found, each once and in
the order of paths. It makes no difference in which order directories are read. -/
theorem extension_files_exactly (d : Disk) (proper : d.Proper) (directory : Path) (extension : String) :
    ((∃ files, (Collection.extension directory extension).files d = .ok files) ↔
      d.IsDirectory directory) ∧
    (∀ files, (Collection.extension directory extension).files d = .ok files →
      files.Pairwise Path.Precedes ∧ ∀ p, p ∈ files ↔
        d.Below directory p ∧ ¬ d.IsDirectory p ∧ p.HasExtension extension) ∧
    ∀ listed, d.ListedBy listed → extensionFilesListed d listed directory extension =
      (Collection.extension directory extension).files d := by
  simp only [Collection.files]
  refine ⟨?_, ?_, fun listed order => extensionFilesListed_eq proper order⟩
  · rw [← exists_extensionFilesListed_iff extension, extensionFilesListed_names]
  · intro files run
    rw [← extensionFilesListed_names] at run
    exact extensionFilesListed_spec proper d.listedBy_names run

/-! A directory of archives, with another one in it that a link leads to as well. -/

def library : Disk where
  top := [("lib", .directory [("b", .link "a"), ("a-b.jar", .file .empty),
    ("a", .directory [(".jar", .file .empty), ("x.jar", .file .empty)])])]

def archives : List Path := [⟨"/lib/a/x.jar"⟩, ⟨"/lib/a-b.jar"⟩, ⟨"/lib/b/x.jar"⟩]

theorem filesBelow_library : library.filesBelow "jar" ⟨"/lib"⟩ ⟨["lib"], 0⟩ =
    [⟨"/lib/b/x.jar"⟩, ⟨"/lib/a-b.jar"⟩, ⟨"/lib/a/x.jar"⟩] := by
  have inner (path : Path) (links : Nat) : library.filesBelow "jar" path ⟨["a", "lib"], links⟩ =
      [path.join ".jar", path.join "x.jar"].filter (·.extension? = some "jar") := by
    have names : library.names ["a", "lib"] = [".jar", "x.jar"] := rfl
    have hidden : library.child ⟨["a", "lib"], links⟩ ".jar" = .ok ⟨[".jar", "a", "lib"], links⟩ := rfl
    have shown : library.child ⟨["a", "lib"], links⟩ "x.jar" = .ok ⟨["x.jar", "a", "lib"], links⟩ := rfl
    have plain : library.isDirectoryAt [".jar", "a", "lib"] = false ∧
      library.isDirectoryAt ["x.jar", "a", "lib"] = false := ⟨rfl, rfl⟩
    rw [filesBelow_eq, names]
    simp only [List.flatMap_cons, List.flatMap_nil, hidden, shown, plain, Bool.and_false,
      Bool.false_eq_true, if_false, List.filter_cons, List.filter_nil, decide_eq_true_eq]
    split_ifs <;> rfl
  have names : library.names ["lib"] = ["b", "a-b.jar", "a"] := rfl
  have link : library.child ⟨["lib"], 0⟩ "b" = .ok ⟨["a", "lib"], 1⟩ := by cbv
  have file : library.child ⟨["lib"], 0⟩ "a-b.jar" = .ok ⟨["a-b.jar", "lib"], 0⟩ := rfl
  have nested : library.child ⟨["lib"], 0⟩ "a" = .ok ⟨["a", "lib"], 0⟩ := rfl
  rw [filesBelow_eq, names]
  simp only [List.flatMap_cons, List.flatMap_nil, link, file, nested, inner]
  decide

theorem precedes_archives : archives.Pairwise Path.Precedes := by
  have compared : archives.Pairwise fun p q => compare p q = .lt := by decide
  exact compared.imp Path.compare_eq_lt_iff.mp

theorem files_library : (Collection.extension ⟨"/lib"⟩ "jar").files library = .ok archives := by
  have found : library.directory ⟨"/lib"⟩ = .ok ⟨["lib"], 0⟩ := by cbv
  simp only [Collection.files, extensionFiles, found, filesBelow_library]
  refine congrArg Except.ok (Path.eq_of_pairwise_precedes (Path.pairwise_sort (by decide))
    precedes_archives fun p => ?_)
  rw [Path.mem_sort]
  simp only [archives, List.mem_cons, List.not_mem_nil, or_false]
  tauto

/-- The files of the nested directory come before the one that has its name in front, although a
hyphen comes before a slash, and they come once more by the link. A name that is all extension has
none. What is read backwards gives the same, and in a file nothing can be searched. -/
theorem extension_files_library :
    library.Proper ∧ (Collection.extension ⟨"/lib"⟩ "jar").files library = .ok archives ∧
    (archives.Pairwise Path.Precedes ∧ ∀ p, p ∈ archives ↔
      library.Below ⟨"/lib"⟩ p ∧ ¬ library.IsDirectory p ∧ p.HasExtension "jar") ∧
    extensionFilesListed library (fun _ l => (library.names l).reverse) ⟨"/lib"⟩ "jar" = .ok archives ∧
    ¬ ∃ files, (Collection.extension ⟨"/lib/a-b.jar"⟩ "jar").files library = .ok files := by
  have proper : library.Proper := by decide
  have refused : library.directory ⟨"/lib/a-b.jar"⟩ = .error .notDirectory := by cbv
  obtain ⟨-, exactly, anyOrder⟩ := extension_files_exactly library proper ⟨"/lib"⟩ "jar"
  refine ⟨proper, files_library, exactly _ files_library, ?_, ?_⟩
  · rw [anyOrder _ fun _ l => List.reverse_perm _, files_library]
  · rw [(extension_files_exactly library proper ⟨"/lib/a-b.jar"⟩ "jar").1]
    rintro ⟨place, found⟩
    cases refused.symm.trans found

end Collection
end Buildpath
