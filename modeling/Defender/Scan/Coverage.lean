import Mathlib.Data.List.Nodup
import Defender.Lib.CString
import Defender.Scan.Folders

/-!
# Which Files are Scanned

A call comes back whatever the reparse points do, because it is never taken
through one, and what it has looked at are the files under the folder, those
folders being skipped that have one of the texts in their path
(`getFileListByFolder_spec`). Each file is looked at once, as the paths under
different entries of a folder are different.

A folder with one of the components has the text in its path
(`containsText_of_skippedFolder`), so nothing is looked at that should not be. But
the text may be a part of a longer name. So everything is looked at exactly when no
file that should be is in a folder below the root whose path has one of the texts
(`scan_covers_iff`).

## Main definitions

* `FromEntry`: The files that an entry of a folder contributes.
* `cacheFolder`: A folder whose name has `recycler` in it.

## Theorems

* `infix_of_mem_components`, `infix_of_pair_components`: Components are parts of the path.
* `prefix_of_under`: Files under a folder have its path before theirs.
* `scanEntries_spec`: The loop over the entries.
* `getFileListByFolder_spec`: A call.
* `under_containsText_iff`: Which files are reached.
* `scan_covers_iff`: When everything is looked at.
* `covers_myrecycler`: When it is not.
-/

namespace Defender

namespace Scan

/-! ### Components and texts -/

/-- Consecutive parts are in what is put together from all of them. -/
theorem infix_intercalate {ls ms : List Path} (x : Char) (hne : ls ≠ []) (h : ls <:+: ms) :
    [x].intercalate ls <:+: [x].intercalate ms := by
  rcases h with ⟨front, back, hms⟩
  -- Two joined parts have one separator between them, unless one of them is empty.
  have happend : ∀ (as bs : List Path), as ≠ [] → bs ≠ [] →
      [x].intercalate (as ++ bs) = [x].intercalate as ++ [x] ++ [x].intercalate bs := by
    intro as bs has hbs
    induction as with
    | nil => exact absurd rfl has
    | cons a as ih =>
        cases as with
        | nil =>
            rw [List.singleton_append, List.intercalate_cons_of_ne_nil hbs,
              List.intercalate_singleton]
        | cons a' as =>
            rw [List.cons_append, List.intercalate_cons_of_ne_nil (by
                simp only [List.cons_append, ne_eq, reduceCtorEq, not_false_eq_true]),
              List.intercalate_cons_of_ne_nil (List.cons_ne_nil a' as),
              ih (List.cons_ne_nil a' as)]
            simp only [List.append_assoc]
  have hback : [x].intercalate ls <:+: [x].intercalate (ls ++ back) := by
    cases back with
    | nil => rw [List.append_nil]
    | cons b back =>
        rw [happend ls (b :: back) hne (List.cons_ne_nil b back), List.append_assoc]
        exact (List.prefix_append _ _).isInfix
  rw [← hms, List.append_assoc]
  cases front with
  | nil => exact hback
  | cons f front =>
      rw [happend (f :: front) (ls ++ back) (List.cons_ne_nil f front)
        (List.append_ne_nil_of_left_ne_nil hne back)]
      exact hback.trans (List.suffix_append _ _).isInfix

/-- A component is a part of the path. -/
theorem infix_of_mem_components {path c : Path} (h : c ∈ components path) : c <:+: lower path := by
  rcases List.append_of_mem h with ⟨front, back, hsplit⟩
  have hone : [c] <:+: components path := ⟨front, back, by
    rw [hsplit, List.append_assoc, List.singleton_append]⟩
  have hparts := infix_intercalate '\\' (List.cons_ne_nil c []) hone
  rw [List.intercalate_singleton, components, List.intercalate_splitOn] at hparts
  exact hparts

/-- So are two consecutive ones with a backslash between them. -/
theorem infix_of_pair_components {path a b : Path} (h : [a, b] <:+: components path) :
    a ++ ['\\'] ++ b <:+: lower path := by
  have hparts := infix_intercalate '\\' (List.cons_ne_nil a [b]) h
  rw [List.intercalate_cons_of_ne_nil (List.cons_ne_nil b []), List.intercalate_singleton,
    components, List.intercalate_splitOn] at hparts
  exact hparts

/-- A folder that is to be skipped has one of the texts in its path. -/
theorem containsText_of_skippedFolder {path : Path} (h : SkippedFolder path) :
    containsText path := by
  have hsingle : ∀ c ∈ skipComponents, c ∈ skipTexts := by decide
  have hpair : ∀ pair ∈ skipPairs, pair.1 ++ ['\\'] ++ pair.2 ∈ skipTexts := by decide
  rcases h with ⟨c, hc, hmem⟩ | ⟨pair, hp, hinfix⟩
  · exact ⟨c, hsingle c hc, infix_of_mem_components hmem⟩
  · exact ⟨_, hpair pair hp, infix_of_pair_components hinfix⟩

/-- A text in a path is in every longer one. -/
theorem containsText_longer {a b : Path} (h : a <+: b) (ha : containsText a) :
    containsText b := by
  rcases ha with ⟨text, htext, hinfix⟩
  exact ⟨text, htext, hinfix.trans (h.map Char.toLower).isInfix⟩

/-! ### Paths -/

theorem prefix_subFolder (folder : Path) (e : Entry) : folder <+: subFolder folder e := by
  rw [subFolder, List.append_assoc]
  exact List.prefix_append _ _

theorem prefix_folderOf (p : Path) : folderOf p <+: p := by
  have hsuffix : p.reverse.dropWhile (· ≠ '\\') <:+ p.reverse := List.dropWhile_suffix _
  have hprefix := List.reverse_prefix.mpr hsuffix
  rw [List.reverse_reverse] at hprefix
  exact hprefix

variable {fs : FileSystem} {skip : Path → Prop}

/-- The folder of a file in a folder. -/
theorem folderOf_append {folder name : Path} (hends : ∃ front, folder = front ++ ['\\'])
    (hname : '\\' ∉ name) : folderOf (folder ++ name) = folder := by
  rcases hends with ⟨front, rfl⟩
  have hall : ∀ c ∈ name.reverse, decide (c ≠ '\\') = true := fun c hc =>
    decide_eq_true (fun hcc => hname (hcc ▸ List.mem_reverse.mp hc))
  rw [folderOf, List.reverse_append, List.dropWhile_append_of_pos hall, List.reverse_append,
    List.reverse_singleton, List.singleton_append, List.dropWhile_cons_of_neg (by decide),
    List.reverse_cons, List.reverse_reverse]

/-- Files under a folder have its path before theirs, and are in folders that have. -/
theorem prefix_of_under {dir : Nat} {folder p : Path} (hends : ∃ front, folder = front ++ ['\\'])
    (h : Under fs skip dir folder p) : folder <+: folderOf p := by
  induction h with
  | file e he hfile =>
      rw [folderOf_append hends (fs.names_ok _ e he)]
  | inner e t he hfolder hdot hskip hp ih =>
      exact (prefix_subFolder _ e).trans (ih ⟨_, rfl⟩)

/-- Skipping less reaches more. -/
theorem Under.mono {skip' : Path → Prop} (hskip : ∀ path, skip' path → skip path) {dir : Nat}
    {folder p : Path} (h : Under fs skip dir folder p) : Under fs skip' dir folder p := by
  induction h with
  | file e he hfile => exact .file e he hfile
  | inner e t he hfolder hdot hnot hp ih =>
      exact .inner e t he hfolder hdot (fun hs => hnot (hskip _ hs)) ih

/-- The files that are reached are those whose folder is the one that the call began with, or
    does not have one of the texts in its path. -/
theorem under_containsText_iff {dir : Nat} {folder p : Path}
    (hends : ∃ front, folder = front ++ ['\\']) :
    Under fs containsText dir folder p ↔ Under fs SkippedFolder dir folder p ∧
      (folderOf p = folder ∨ ¬ containsText (folderOf p)) := by
  constructor
  · intro h
    refine ⟨h.mono (fun _ => containsText_of_skippedFolder), ?_⟩
    induction h with
    | file e he hfile => exact Or.inl (folderOf_append hends (fs.names_ok _ e he))
    | inner e t he hfolder hdot hskip hp ih =>
        rcases ih ⟨_, rfl⟩ with heq | hnot
        · rw [heq]
          exact Or.inr hskip
        · exact Or.inr hnot
  · rintro ⟨h, hfolder⟩
    induction h with
    | file e he hfile => exact .file e he hfile
    | @inner dir folder e t p he hkind hdot hskip hp ih =>
        have hprefix : subFolder folder e <+: folderOf p := prefix_of_under ⟨_, rfl⟩ hp
        have hnot : ¬ containsText (folderOf p) := by
          refine hfolder.resolve_left (fun heq => ?_)
          -- the folder of the file is below the one that the call began with
          have hlength := hprefix.length_le
          rw [heq, subFolder, List.length_append, List.length_append, List.length_singleton]
            at hlength
          omega
        exact .inner e t he hkind hdot (fun hc => hnot (containsText_longer hprefix hc))
          (ih ⟨_, rfl⟩ (Or.inr hnot))

/-! ### The loop over the entries -/

/-- The files that an entry contributes. -/
def FromEntry (fs : FileSystem) (folder : Path) (e : Entry) (p : Path) : Prop :=
  (e.kind = .file ∧ p = folder ++ e.name) ∨
    ∃ t, e.kind = .folder false t ∧ ¬ e.isDot ∧ ¬ containsText (subFolder folder e) ∧
      Under fs containsText t (subFolder folder e) p

theorem under_iff_fromEntry (dir : Nat) (folder p : Path) :
    Under fs containsText dir folder p ↔ ∃ e ∈ fs.listing dir, FromEntry fs folder e p := by
  constructor
  · intro h
    cases h with
    | file e he hfile => exact ⟨e, he, Or.inl ⟨hfile, rfl⟩⟩
    | inner e t he hfolder hdot hskip hp =>
        exact ⟨e, he, Or.inr ⟨t, hfolder, hdot, hskip, hp⟩⟩
  · rintro ⟨e, he, ⟨hfile, rfl⟩ | ⟨t, hfolder, hdot, hskip, hp⟩⟩
    · exact .file e he hfile
    · exact .inner e t he hfolder hdot hskip hp

/-- The name of the entry stands in the path, up to its end or a backslash. -/
theorem name_of_fromEntry {folder : Path} {e : Entry} {p : Path} (hname : '\\' ∉ e.name)
    (h : FromEntry fs folder e p) :
    (p.drop folder.length).takeWhile (· ≠ '\\') = e.name := by
  rcases h with ⟨-, rfl⟩ | ⟨t, -, -, -, hp⟩
  · rw [List.drop_left]
    exact CString.takeWhile_of_not_mem hname
  · have hprefix : subFolder folder e <+: p :=
      (prefix_of_under ⟨_, rfl⟩ hp).trans (prefix_folderOf p)
    rcases hprefix with ⟨rest, rfl⟩
    -- The backslash behind the name ends it.
    rw [subFolder, List.append_assoc, List.append_assoc, List.drop_left, ← List.append_assoc]
    exact CString.takeWhile_terminated hname rest

/-- The recursive call does for an entry what it should. -/
def Recurses (fs : FileSystem) (recurse : Nat → Bool → Path → Option (List Path))
    (folder : Path) (e : Entry) : Prop :=
  ∀ reparse t, e.kind = .folder reparse t → ¬ e.isDot →
    ∃ checked, recurse t reparse (subFolder folder e) = some checked ∧ checked.Nodup ∧
      ∀ p, p ∈ checked ↔ reparse = false ∧ Under fs containsText t (subFolder folder e) p

theorem scanEntry_spec {recurse : Nat → Bool → Path → Option (List Path)} {folder : Path}
    {e : Entry} (h : Recurses fs recurse folder e) :
    ∃ checked, scanEntry recurse folder e = some checked ∧ checked.Nodup ∧
      ∀ p, p ∈ checked ↔ FromEntry fs folder e p := by
  unfold scanEntry FromEntry
  cases hkind : e.kind with
  | file =>
      refine ⟨_, rfl, List.nodup_singleton _, fun p => ?_⟩
      simp only [List.mem_singleton, true_and, reduceCtorEq, false_and, exists_false, or_false]
  | folder reparse t =>
      -- A folder that is skipped gives nothing, on either side.
      have hnone : ∀ p, (e.isDot ∨ containsText (subFolder folder e)) →
          (p ∈ ([] : List Path) ↔ (Kind.folder reparse t = .file ∧ p = folder ++ e.name) ∨
            ∃ t', Kind.folder reparse t = .folder false t' ∧ ¬ e.isDot ∧
              ¬ containsText (subFolder folder e) ∧
                Under fs containsText t' (subFolder folder e) p) := by
        intro p hskip
        refine iff_of_false List.not_mem_nil ?_
        rintro (⟨hc, -⟩ | ⟨t', -, hdot, htext, -⟩)
        · exact absurd hc (by simp only [reduceCtorEq, not_false_eq_true])
        · exact hskip.elim hdot htext
      simp only
      by_cases hdot : e.isDot
      · rw [if_pos hdot]
        exact ⟨[], rfl, List.nodup_nil, fun p => hnone p (Or.inl hdot)⟩
      rw [if_neg hdot]
      by_cases htext : containsText (subFolder folder e)
      · rw [if_pos htext]
        exact ⟨[], rfl, List.nodup_nil, fun p => hnone p (Or.inr htext)⟩
      rw [if_neg htext]
      rcases h reparse t hkind hdot with ⟨checked, hchecked, hnodup, hmem⟩
      refine ⟨checked, hchecked, hnodup, fun p => ?_⟩
      rw [hmem]
      constructor
      · rintro ⟨hreparse, hp⟩
        exact Or.inr ⟨t, by rw [hreparse], hdot, htext, hp⟩
      · rintro (⟨hc, -⟩ | ⟨t', heq, -, -, hp⟩)
        · exact absurd hc (by simp only [reduceCtorEq, not_false_eq_true])
        · rw [Kind.folder.injEq] at heq
          exact ⟨heq.1, heq.2 ▸ hp⟩

/-- The loop comes to an end, with the files that the entries contribute, each once. -/
theorem scanEntries_spec {recurse : Nat → Bool → Path → Option (List Path)} {folder : Path}
    (es : List Entry) (hnodup : (es.map Entry.name).Nodup) (hnames : ∀ e ∈ es, '\\' ∉ e.name)
    (hrecurse : ∀ e ∈ es, Recurses fs recurse folder e) :
    ∃ checked, scanEntries recurse folder es = some checked ∧ checked.Nodup ∧
      ∀ p, p ∈ checked ↔ ∃ e ∈ es, FromEntry fs folder e p := by
  induction es with
  | nil =>
      refine ⟨[], rfl, List.nodup_nil, fun p => ?_⟩
      simp only [List.not_mem_nil, false_and, exists_false]
  | cons e es ih =>
      rw [List.map_cons, List.nodup_cons] at hnodup
      rcases scanEntry_spec (hrecurse e List.mem_cons_self) with ⟨here, hhere, hnodup₁, hmem₁⟩
      rcases ih hnodup.2 (fun e' he' => hnames e' (List.mem_cons_of_mem e he'))
        (fun e' he' => hrecurse e' (List.mem_cons_of_mem e he')) with
        ⟨later, hlater, hnodup₂, hmem₂⟩
      refine ⟨here ++ later, ?_, ?_, fun p => ?_⟩
      · rw [scanEntries, hhere, hlater]
        rfl
      · refine List.nodup_append'.mpr ⟨hnodup₁, hnodup₂, fun p hp hp' => ?_⟩
        -- a path has the name of one entry only
        rcases (hmem₂ p).mp hp' with ⟨e', he', hfrom'⟩
        have hname := name_of_fromEntry (hnames e List.mem_cons_self) ((hmem₁ p).mp hp)
        have hname' := name_of_fromEntry (hnames e' (List.mem_cons_of_mem e he')) hfrom'
        rw [hname] at hname'
        exact hnodup.1 (List.mem_map.mpr ⟨e', he', hname'.symm⟩)
      · rw [List.mem_append, hmem₁, hmem₂]
        simp only [List.mem_cons, exists_eq_or_imp]

/-! ### A call -/

/-- The tail of a folder's path ends in a backslash, so it is not the one of a quick link. -/
theorem lower_tail_ne {folder : Path} (hends : ∃ front, folder = front ++ ['\\']) :
    lower (tail folder) ≠ ".link/".toList := by
  rcases hends with ⟨front, rfl⟩
  intro h
  have hlast : ∀ k, k ≤ front.length → front.length - k ≤ 5 →
      (lower (((front ++ ['\\']).drop k).take 6)).getLast? = some '\\' := by
    intro k hk hlen
    rw [List.drop_append_of_le_length hk, List.take_of_length_le (by
        rw [List.length_append, List.length_drop, List.length_singleton]
        omega), lower, List.map_append, List.map_singleton, List.getLast?_concat]
    decide
  have htail := hlast (if 6 < (front ++ ['\\']).length then (front ++ ['\\']).length - 6 else 0)
  rw [List.length_append, List.length_singleton] at htail
  have hslash := htail (by split <;> omega) (by split <;> omega)
  rw [tail, List.length_append, List.length_singleton] at h
  rw [h] at hslash
  exact absurd hslash (by decide)

/-- A call comes back, and has had the files looked at that are under the folder, unless it
    is a reparse point, each once. -/
theorem getFileListByFolder_spec (fs : FileSystem) (fuel dir : Nat) (reparse : Bool)
    (folder : Path) (hends : ∃ front, folder = front ++ ['\\']) (hpos : 0 < fuel)
    (hfuel : reparse = false → fs.rank dir + 1 < fuel) :
    ∃ checked, getFileListByFolder fs fuel dir reparse folder = some checked ∧ checked.Nodup ∧
      ∀ p, p ∈ checked ↔ reparse = false ∧ Under fs containsText dir folder p := by
  induction fuel generalizing dir reparse folder with
  | zero => omega
  | succ fuel ih =>
      rw [getFileListByFolder, if_neg (lower_tail_ne hends)]
      cases reparse with
      | true =>
          rw [if_pos rfl]
          refine ⟨[], rfl, List.nodup_nil, fun p => ?_⟩
          simp only [List.not_mem_nil, Bool.true_eq_false, false_and]
      | false =>
          rw [if_neg Bool.false_ne_true]
          have hdepth := hfuel rfl
          have hrecurse : ∀ e ∈ fs.listing dir,
              Recurses fs (getFileListByFolder fs fuel) folder e := by
            intro e he reparse t hkind hdot
            refine ih t reparse (subFolder folder e) ⟨_, rfl⟩ (by omega) (fun hreparse => ?_)
            -- only what is no reparse point has to be further down
            rw [hreparse] at hkind
            have hrank := fs.descends dir e he t hkind hdot
            omega
          rcases scanEntries_spec (fs.listing dir) (fs.names_nodup dir) (fs.names_ok dir)
            hrecurse with ⟨checked, hchecked, hnodup, hmem⟩
          refine ⟨checked, hchecked, hnodup, fun p => ?_⟩
          rw [hmem, under_iff_fromEntry]
          simp only [true_and]

/-- Everything is looked at exactly when no file that should be is below a root that is a
    reparse point, or in a folder below the root that has one of the texts in its path. -/
theorem scan_covers_iff (fs : FileSystem) (root : Root) :
    Covers fs root ↔ ∀ p, ToScan fs root p →
      root.reparse = false ∧ (folderOf p = root.path ∨ ¬ containsText (folderOf p)) := by
  constructor
  · intro h p hp
    rcases h (fs.rank root.dir + 2) (by omega) with ⟨checked, hchecked, -, hmem⟩
    rcases getFileListByFolder_spec fs (fs.rank root.dir + 2) root.dir root.reparse root.path
      root.ends (by omega) (fun _ => by omega) with ⟨checked', hchecked', -, hmem'⟩
    rw [hchecked, Option.some_inj] at hchecked'
    rw [← hchecked'] at hmem'
    rcases (hmem' p).mp ((hmem p).mpr hp) with ⟨hreparse, hunder⟩
    exact ⟨hreparse, ((under_containsText_iff root.ends).mp hunder).2⟩
  · intro h fuel hfuel
    rcases getFileListByFolder_spec fs fuel root.dir root.reparse root.path
      root.ends (by omega) (fun _ => hfuel) with ⟨checked, hchecked, hnodup, hmem⟩
    refine ⟨checked, hchecked, hnodup, fun p => ?_⟩
    rw [hmem, under_containsText_iff root.ends]
    constructor
    · rintro ⟨-, hscan, -⟩
      exact hscan
    · intro hscan
      exact ⟨(h p hscan).1, hscan, (h p hscan).2⟩

/-! ### A folder that is not entered -/

/-- A folder whose name has the text in it, with a program in it. -/
def cacheFolder : FileSystem where
  listing
    | 0 => [⟨"myrecycler".toList, .folder false 1⟩]
    | 1 => [⟨"a.exe".toList, .file⟩]
    | _ => []
  rank
    | 0 => 1
    | _ => 0
  names_nodup d := by
    match d with
    | 0 => exact List.nodup_singleton _
    | 1 => exact List.nodup_singleton _
    | _ + 2 => exact List.nodup_nil
  names_ok d := by
    match d with
    | 0 => decide
    | 1 => decide
    | _ + 2 => exact fun e he => absurd he List.not_mem_nil
  descends d e he t hkind _ := by
    match d with
    | 0 =>
        rw [List.mem_singleton.mp he, Kind.folder.injEq] at hkind
        rw [← hkind.2]
        exact Nat.zero_lt_one
    | 1 =>
        rw [List.mem_singleton.mp he] at hkind
        exact absurd hkind (by simp only [reduceCtorEq, not_false_eq_true])
    | _ + 2 => exact absurd he List.not_mem_nil

def cacheRoot : Root where
  dir := 0
  reparse := false
  path := "C:\\".toList
  ends := ⟨['C', ':'], by decide⟩

/-- The program is not looked at, though no component is one of those that are skipped. -/
theorem covers_myrecycler : ¬ Covers cacheFolder cacheRoot := by
  intro h
  rcases h 3 (by decide) with ⟨checked, hchecked, -, hmem⟩
  have hnone : getFileListByFolder cacheFolder 3 cacheRoot.dir cacheRoot.reparse cacheRoot.path =
      some [] := by decide
  have hscan : ToScan cacheFolder cacheRoot
      (subFolder cacheRoot.path ⟨"myrecycler".toList, .folder false 1⟩ ++ "a.exe".toList) :=
    .inner ⟨"myrecycler".toList, .folder false 1⟩ 1 (List.mem_singleton.mpr rfl) rfl (by decide)
      (by decide) (.file ⟨"a.exe".toList, .file⟩ (List.mem_singleton.mpr rfl) rfl)
  rw [hnone, Option.some_inj] at hchecked
  rw [← hchecked] at hmem
  exact absurd ((hmem _).mpr hscan) List.not_mem_nil

end Scan

end Defender
