import Mathlib.Data.List.Infix

/-!
# Going through the Folders

`GetFileListByFolder` goes through a folder and those in it, and has
`CheckIsPEFile` look at each file. Paths of folders end in a backslash. A folder
that is a reparse point is left when it is entered, and a folder is not entered
when one of seven texts is somewhere in its path, in small letters: the recycle
bins, the folders for temporary files, and the volume information.

A directory is a number, and `FileSystem` says what the enumeration of each gives,
in whatever order and with `.` and `..`. Through reparse points, and through these
two, directories may come back to themselves; through the other folders they may
not. So the calls of the source are counted down by `fuel`, and `none` is a
call that has not come back yet.

## Main definitions

* `Entry`, `FileSystem`, `Root`: What is there.
* `skipTexts`, `containsText`: The texts in the path.
* `getFileListByFolder`: The function of the source, with the paths that
  `CheckIsPEFile` is called with.
* `SkippedFolder`: The folders that are to be skipped.
* `Under`: The files under a folder that is entered, some folders being skipped.
* `ToScan`, `Covers`: What is asked for.
-/

namespace Defender

namespace Scan

/-- A path, or a name. -/
abbrev Path := List Char

/-- A file, or a folder: whether it is a reparse point, and the directory that it names. -/
inductive Kind where
  | file
  | folder (reparse : Bool) (dir : Nat)
deriving DecidableEq

/-- What an enumeration gives. -/
structure Entry where
  name : Path
  kind : Kind
deriving DecidableEq

/-- `.` or `..`. -/
def Entry.isDot (e : Entry) : Prop :=
  e.name = ['.'] ∨ e.name = ['.', '.']

instance (e : Entry) : Decidable e.isDot :=
  inferInstanceAs (Decidable (_ ∨ _))

/-- The directories. Names are different from each other in a directory and have no
    backslash, and folders that are no reparse points go down. -/
structure FileSystem where
  listing : Nat → List Entry
  rank : Nat → Nat
  names_nodup : ∀ d, ((listing d).map Entry.name).Nodup
  names_ok : ∀ d, ∀ e ∈ listing d, '\\' ∉ e.name
  descends : ∀ d, ∀ e ∈ listing d, ∀ t, e.kind = .folder false t → ¬ e.isDot → rank t < rank d

/-- A folder with its path. -/
structure Root where
  dir : Nat
  reparse : Bool
  path : Path
  ends : ∃ front, path = front ++ ['\\']

/-! ### The function -/

/-- `::tolower` on every character. -/
def lower (path : Path) : Path :=
  path.map Char.toLower

/-- The texts for which a folder is not entered. -/
def skipTexts : List Path :=
  ["recycler".toList, "$recycle.bin".toList, "winnt\\temp".toList, "windows\\temp".toList,
    "local settings\\temp".toList, "local\\temp".toList, "system volume information".toList]

/-- One of the texts is somewhere in a path. -/
def containsText (path : Path) : Prop :=
  ∃ text ∈ skipTexts, text <:+: lower path

instance (path : Path) : Decidable (containsText path) :=
  inferInstanceAs (Decidable (∃ text ∈ skipTexts, _))

/-- `strTail`: the last six characters. -/
def tail (wstrFolder : Path) : Path :=
  (wstrFolder.drop (if 6 < wstrFolder.length then wstrFolder.length - 6 else 0)).take 6

/-- `wstrFolder + finder.name + "\\"`. -/
def subFolder (wstrFolder : Path) (e : Entry) : Path :=
  wstrFolder ++ e.name ++ ['\\']

/-- What the loop does with an entry of a folder. `recurse` is the recursive call, for a
    directory, whether it is a reparse point, and its path. -/
def scanEntry (recurse : Nat → Bool → Path → Option (List Path)) (wstrFolder : Path)
    (e : Entry) : Option (List Path) :=
  match e.kind with
  | .file => some [wstrFolder ++ e.name]
  | .folder reparse dir =>
      if e.isDot then some []
      else if containsText (subFolder wstrFolder e) then some []
      else recurse dir reparse (subFolder wstrFolder e)

/-- The loop over the entries. -/
def scanEntries (recurse : Nat → Bool → Path → Option (List Path)) (wstrFolder : Path) :
    List Entry → Option (List Path)
  | [] => some []
  | e :: es => do
      let checked ← scanEntry recurse wstrFolder e
      let later ← scanEntries recurse wstrFolder es
      some (checked ++ later)

/-- `GetFileListByFolder`. The attributes are those of the folder itself. -/
def getFileListByFolder (fs : FileSystem) : Nat → Nat → Bool → Path → Option (List Path)
  | 0, _, _, _ => none
  | fuel + 1, dir, reparse, wstrFolder =>
      -- The path of a folder ends in a backslash, and never in a slash.
      if lower (tail wstrFolder) = ".link/".toList then some []
      else if reparse = true then some []
      else scanEntries (getFileListByFolder fs fuel) wstrFolder (fs.listing dir)

/-! ### What is asked for -/

/-- The components that a folder is skipped for, and the pairs of consecutive ones. -/
def skipComponents : List Path :=
  ["recycler".toList, "$recycle.bin".toList, "system volume information".toList]

def skipPairs : List (Path × Path) :=
  [("winnt".toList, "temp".toList), ("windows".toList, "temp".toList),
    ("local settings".toList, "temp".toList), ("local".toList, "temp".toList)]

/-- The components of a path, in small letters. -/
def components (path : Path) : List Path :=
  (lower path).splitOn '\\'

/-- The folders that are to be skipped. -/
def SkippedFolder (path : Path) : Prop :=
  (∃ c ∈ skipComponents, c ∈ components path) ∨
    ∃ pair ∈ skipPairs, [pair.1, pair.2] <:+: components path

instance (path : Path) : Decidable (SkippedFolder path) :=
  inferInstanceAs (Decidable ((∃ c ∈ skipComponents, _) ∨ ∃ pair ∈ skipPairs, _))

/-- The files under a folder that is entered: those in it, and those under the folders in it
    that are no reparse points and are not skipped. -/
inductive Under (fs : FileSystem) (skip : Path → Prop) : Nat → Path → Path → Prop where
  | file {dir : Nat} {folder : Path} (e : Entry) (he : e ∈ fs.listing dir)
      (hfile : e.kind = .file) : Under fs skip dir folder (folder ++ e.name)
  | inner {dir : Nat} {folder : Path} (e : Entry) (t : Nat) {p : Path}
      (he : e ∈ fs.listing dir) (hfolder : e.kind = .folder false t) (hdot : ¬ e.isDot)
      (hskip : ¬ skip (subFolder folder e)) (hp : Under fs skip t (subFolder folder e) p) :
      Under fs skip dir folder p

/-- The files that are to be looked at. -/
def ToScan (fs : FileSystem) (root : Root) : Path → Prop :=
  Under fs SkippedFolder root.dir root.path

/-- The call comes back, having had each of these files looked at once and nothing else. -/
def Covers (fs : FileSystem) (root : Root) : Prop :=
  ∀ fuel, fs.rank root.dir + 1 < fuel →
    ∃ checked, getFileListByFolder fs fuel root.dir root.reparse root.path = some checked ∧
      checked.Nodup ∧ ∀ p, p ∈ checked ↔ ToScan fs root p

/-- The folder of a file. -/
def folderOf (p : Path) : Path :=
  (p.reverse.dropWhile (· ≠ '\\')).reverse

end Scan

end Defender
