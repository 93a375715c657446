import Buildpath.Glob.Expand

/-! File collections say where files come from. A collection is enumerated anew each
time, against the disk as it is then; a list is never looked up on the disk. -/
namespace Buildpath

inductive Collection where
  | list (paths : List Path)
  | glob (base : Path) (pattern : String)
  | extension (directory : Path) (extension : String)
  | union (members : List Collection)

namespace Collection

mutual
def same : Collection → Collection → Bool
  | .list paths, .list paths' => paths = paths'
  | .glob base pattern, .glob base' pattern' => base = base' && pattern = pattern'
  | .extension directory wanted, .extension directory' wanted' =>
    directory = directory' && wanted = wanted'
  | .union members, .union members' => sameEach members members'
  | _, _ => false

def sameEach : List Collection → List Collection → Bool
  | [], [] => true
  | c :: cs, c' :: cs' => same c c' && sameEach cs cs'
  | _, _ => false
end

mutual
theorem same_iff : ∀ c c' : Collection, same c c' = true ↔ c = c'
  | .list _, .list _ | .glob .., .glob .. | .extension .., .extension .. => by simp [same]
  | .union members, .union members' => by simp [same, sameEach_iff members members']
  | .list _, .glob .. | .list _, .extension .. | .list _, .union _ => by simp [same]
  | .glob .., .list _ | .glob .., .extension .. | .glob .., .union _ => by simp [same]
  | .extension .., .list _ | .extension .., .glob .. | .extension .., .union _ => by simp [same]
  | .union _, .list _ | .union _, .glob .. | .union _, .extension .. => by simp [same]

theorem sameEach_iff : ∀ cs cs' : List Collection, sameEach cs cs' = true ↔ cs = cs'
  | [], [] => by simp [sameEach]
  | [], _ :: _ => by simp [sameEach]
  | _ :: _, [] => by simp [sameEach]
  | c :: cs, c' :: cs' => by simp [sameEach, same_iff c c', sameEach_iff cs cs']
end

instance : DecidableEq Collection := fun c c' => decidable_of_iff _ (same_iff c c')

end Collection

inductive FileError where
  | access (path : Path) (fault : Disk.Fault)
  | pattern (text : String) (error : Glob.Malformed)
  | listing (error : Glob.Unlistable)
deriving DecidableEq, Repr

def FileError.message : FileError → String
  | .access path fault => "cannot access " ++ path.text ++ ": " ++ fault.message
  | .pattern text error => "invalid glob pattern `" ++ text ++ "`: " ++ error.message
  | .listing error => error.message

namespace Collection

/-- The files matched by a pattern below a base, whose own characters stand for
themselves. A missing base has no files. -/
def globFiles (d : Disk) (base : Path) (pattern : String) : Except FileError (List Path) :=
  let text := Glob.escape base.text ++ "/" ++ pattern
  match Glob.Pattern.parse text with
  | .error e => .error (.pattern text e)
  | .ok pattern =>
    match pattern.expand d with
    | .error e => .error (.listing e)
    | .ok reached => .ok (Path.sort (Glob.filesAmong d reached))

def extensionFiles (d : Disk) (directory : Path) (extension : String) : Except FileError (List Path) :=
  match d.directory directory with
  | .error fault => .error (.access directory fault)
  | .ok place => .ok (Path.sort (d.filesBelow extension directory place))

mutual
def files (d : Disk) : Collection → Except FileError (List Path)
  | .list paths => .ok paths
  | .glob base text => globFiles d base text
  | .extension directory wanted => extensionFiles d directory wanted
  | .union members => filesOfEach d members

/-- One collection after the other, up to the first that cannot be enumerated. -/
def filesOfEach (d : Disk) : List Collection → Except FileError (List Path)
  | [] => .ok []
  | c :: cs =>
    match files d c with
    | .error e => .error e
    | .ok first => (filesOfEach d cs).map (first ++ ·)
end

def isEmptyUnion : Collection → Bool
  | .union [] => true
  | _ => false

end Collection
end Buildpath
