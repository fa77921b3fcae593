import Defender.Feature.DatFile
import Defender.Feature.Load

/-!
# What is in the Database After Loading a Directory

Loading a directory is meant to replace the database: it is cleared, and then
the files found are loaded one by one, those that are not accepted being left
out. Clearing does nothing. So the keys there afterwards are those that were
there before and those the accepted files put, and a query answers for these.

That is the new set when the old keys happen to be keys of the new files, when
no put was lost on the way, and when there was an environment to load into in
the first place: where it cannot be opened the function returns the value of
the listing, which is true or it would have been left before.

Whether a file is accepted depends on the files before it in one case: when the
pages of its commit cannot be written, which does no harm if all its keys are
there already. So the files are looked at one after the other, with the keys
known before each.

## Main definitions

* `AcceptsAt`: A file of the listing is accepted.
* `fileKeysAt`, `putKeysAt`: The keys in a file and those it puts.
* `knownAfter`, `AcceptsFrom`, `Accepts`: The accepted files of a listing.
* `HoldsNewSet`: The database is open and holds the keys of the loaded files.
* `Replaces`: The old keys are among the new ones, and no key is lost.

## Theorems

* `loadOne_spec`, `foldlM_loadOne`: What the loop over the files does.
* `load_directory`: What loading a directory comes to.
* `isHashExist_eq`: What a query answers on an open database.
* `load_newSet_iff`: When the database holds the new set.
* `load_keepsOld`: A key that survives.
-/

namespace Defender

namespace Feature

open Crypto

/-! ### Files of a listing -/

/-- A file of the listing is accepted, by the keys known before it. -/
def AcceptsAt (sm3 : Sm3) (c : CSM4Crypto) (o : LoadOutcomes) (known : List UInt8 → Prop)
    (path : String) (i : Nat) : Prop :=
  path.isEmpty = false ∧ ∃ F, o.file i = some F ∧ Accepted sm3 c (o.dat i) known F

/-- The keys of the records in a file. -/
def fileKeysAt (c : CSM4Crypto) (o : LoadOutcomes) (i : Nat) : List (List UInt8) :=
  match o.file i with
  | none => []
  | some F => (datRecords (fun _ => true) (F.drop headerSize) 0).map (fun r => virusKey (plain c r))

/-- The keys of the records of a file that are put. -/
def putKeysAt (c : CSM4Crypto) (o : LoadOutcomes) (i : Nat) : List (List UInt8) :=
  match o.file i with
  | none => []
  | some F => (recordsPut c (o.dat i) F).map virusKey

/-- The keys known after a file: those it puts are added if it is accepted. -/
def knownAfter (sm3 : Sm3) (c : CSM4Crypto) (o : LoadOutcomes) (known : List UInt8 → Prop)
    (path : String) (i : Nat) : List UInt8 → Prop :=
  fun k => known k ∨ AcceptsAt sm3 c o known path i ∧ k ∈ putKeysAt c o i

/-- File `i` of a listing whose files are numbered from `n` is accepted. -/
def AcceptsFrom (sm3 : Sm3) (c : CSM4Crypto) (o : LoadOutcomes) :
    (List UInt8 → Prop) → List String → Nat → Nat → Prop
  | _, [], _, _ => False
  | known, path :: paths, n, i =>
      (AcceptsAt sm3 c o known path n ∧ i = n) ∨
        AcceptsFrom sm3 c o (knownAfter sm3 c o known path n) paths (n + 1) i

/-- File `i` of a listing is accepted. -/
def Accepts (sm3 : Sm3) (c : CSM4Crypto) (o : LoadOutcomes) (known : List UInt8 → Prop)
    (lstFiles : List String) (i : Nat) : Prop :=
  AcceptsFrom sm3 c o known lstFiles 0 i

/-- The files `Load` finds in its directory. -/
def LoadOutcomes.listed (o : LoadOutcomes) (strHashstoreDir strSuffix : String) : List String :=
  (o.fetchXFromDir (loadPath o strHashstoreDir) (loadSuffix strSuffix)).2

theorem mem_putRecords (o : DatOutcomes) (vs : List (List UInt8)) (k : Nat) :
    ∀ v ∈ putRecords o vs k, v ∈ vs := by
  induction vs generalizing k with
  | nil => exact fun v hv => hv
  | cons w vs ih =>
      intro v hv
      rw [putRecords] at hv
      split at hv
      · rcases List.mem_cons.mp hv with rfl | hv
        · exact List.mem_cons_self
        · exact List.mem_cons_of_mem w (ih (k + 1) v hv)
      · exact List.mem_cons_of_mem w (ih (k + 1) v hv)

/-- What the reads deliver is in the file. -/
theorem mem_datRecords (readOk : Nat → Bool) (rest : List UInt8) (k : Nat) :
    ∀ r ∈ datRecords readOk rest k, r ∈ datRecords (fun _ => true) rest k := by
  induction rest, k using datRecords.induct readOk with
  | case1 rest k hread =>
      intro r hr
      rw [datRecords, if_pos hread] at hr
      exact absurd hr List.not_mem_nil
  | case2 rest k hread hrest =>
      intro r hr
      rw [datRecords, if_neg hread, dif_pos hrest] at hr
      exact absurd hr List.not_mem_nil
  | case3 rest k hread hrest ih =>
      intro r hr
      rw [datRecords, if_neg hread, dif_neg hrest, List.mem_append] at hr
      rw [datRecords, if_neg (by decide), dif_neg hrest, List.mem_append]
      rcases hr with hr | hr
      · exact Or.inl hr
      · exact Or.inr (ih r hr)

/-- What is put is in the file. -/
theorem fileKeys_of_putKeys (c : CSM4Crypto) (o : LoadOutcomes) (i : Nat) :
    ∀ k ∈ putKeysAt c o i, k ∈ fileKeysAt c o i := by
  intro k hk
  unfold putKeysAt at hk
  unfold fileKeysAt
  cases hfile : o.file i with
  | none =>
      rw [hfile] at hk
      exact hk
  | some F =>
      rw [hfile] at hk
      rcases List.mem_map.mp hk with ⟨v, hv, rfl⟩
      rcases List.mem_map.mp (mem_putRecords _ _ _ v hv) with ⟨r, hr, rfl⟩
      exact List.mem_map.mpr ⟨r, mem_datRecords _ _ _ r hr, rfl⟩

/-! ### The loop over the files -/

/-- One turn: the file is accepted and counted, or it is not, and the keys it
    puts are known if it is. -/
theorem loadOne_spec (sm3 : Sm3) (c : CSM4Crypto) (o : LoadOutcomes) (s s' : LoadLoop)
    (path : String) (h : loadOne sm3 c o s path = .ok s') :
    s'.calls = s.calls + 1 ∧ s'.m_pEnv.handle = s.m_pEnv.handle ∧
      s'.m_pEnv.committed.Has = knownAfter sm3 c o s.m_pEnv.committed.Has path s.calls ∧
      ((AcceptsAt sm3 c o s.m_pEnv.committed.Has path s.calls ∧ s'.iSucc = s.iSucc + 1 ∧
          s'.loaded = s.loaded ++ [s.calls]) ∨
        (¬ AcceptsAt sm3 c o s.m_pEnv.committed.Has path s.calls ∧ s'.iSucc = s.iSucc ∧
          s'.loaded = s.loaded)) := by
  unfold loadOne at h
  cases hload : loadDat sm3 c (o.dat s.calls) s.m_pEnv path.isEmpty (o.file s.calls) with
  | error e =>
      rw [hload] at h
      exact absurd h (by simp only [reduceCtorEq, not_false_eq_true])
  | ok r =>
      rw [hload] at h
      dsimp only at h
      rcases loadDat_spec sm3 c _ _ _ _ r hload with ⟨hhandle, hret, htrue, hfalse⟩
      -- What is counted is what `LoadDat` returns, and that is TRUE for accepted files only.
      by_cases hr : r.bRet = true
      · rw [if_pos hr] at h
        rw [← Except.ok.inj h]
        have haccepts : AcceptsAt sm3 c o s.m_pEnv.committed.Has path s.calls := hret.mp hr
        refine ⟨rfl, hhandle, funext fun k => propext ?_, Or.inl ⟨haccepts, rfl, rfl⟩⟩
        rcases haccepts.2 with ⟨F, hfile, -⟩
        rw [knownAfter, and_iff_right haccepts, Db.Has, (htrue F hfile hr).2, insertAll_isSome]
        refine or_congr Iff.rfl ?_
        unfold putKeysAt
        rw [hfile]
        simp only [List.mem_map, keyed, exists_exists_and_eq_and]
      · rw [if_neg hr] at h
        rw [← Except.ok.inj h]
        have hnot : ¬ AcceptsAt sm3 c o s.m_pEnv.committed.Has path s.calls :=
          fun haccepts => hr (hret.mpr haccepts)
        refine ⟨rfl, hhandle, funext fun k => propext ?_, Or.inr ⟨hnot, rfl, rfl⟩⟩
        rw [knownAfter, hfalse (Bool.eq_false_iff.mpr hr)]
        exact (or_iff_left (fun hboth => hnot hboth.1)).symm

/-- The whole loop: the keys the accepted files put are added, and the accepted
    files are those counted. Induction on the listing. -/
theorem foldlM_loadOne (sm3 : Sm3) (c : CSM4Crypto) (o : LoadOutcomes) (lstFiles : List String)
    (s s' : LoadLoop) (h : lstFiles.foldlM (loadOne sm3 c o) s = .ok s') :
    s'.m_pEnv.handle = s.m_pEnv.handle ∧
      (s.iSucc = s.loaded.length → s'.iSucc = s'.loaded.length) ∧
      (∀ i, i ∈ s'.loaded ↔
        i ∈ s.loaded ∨ AcceptsFrom sm3 c o s.m_pEnv.committed.Has lstFiles s.calls i) ∧
      (∀ k, s'.m_pEnv.committed.Has k ↔ s.m_pEnv.committed.Has k ∨
        ∃ i, AcceptsFrom sm3 c o s.m_pEnv.committed.Has lstFiles s.calls i ∧
          k ∈ putKeysAt c o i) := by
  induction lstFiles generalizing s with
  | nil =>
      rw [List.foldlM_nil] at h
      rw [← Except.ok.inj h]
      refine ⟨rfl, id, fun i => ?_, fun k => ?_⟩
      · rw [AcceptsFrom, or_false]
      · simp only [AcceptsFrom, false_and, exists_false, or_false]
  | cons path paths ih =>
      rw [List.foldlM_cons] at h
      cases hone : loadOne sm3 c o s path with
      | error e =>
          rw [hone] at h
          exact absurd h (by simp only [bind, Except.bind, reduceCtorEq, not_false_eq_true])
      | ok t =>
          rw [hone] at h
          -- The first file has the number of the calls so far, and the others go on from the next.
          rcases loadOne_spec sm3 c o s t path hone with ⟨hcalls, hhandle, hknown, hcase⟩
          rcases ih t h with ⟨hhandle', hcount, hloaded, hkeys⟩
          rw [hcalls, hknown] at hloaded hkeys
          refine ⟨hhandle'.trans hhandle, ?_, ?_, ?_⟩
          · intro hs
            refine hcount ?_
            rcases hcase with ⟨-, hsucc, hlist⟩ | ⟨-, hsucc, hlist⟩
            · rw [hsucc, hlist, List.length_append, hs]
              rfl
            · rw [hsucc, hlist, hs]
          · intro i
            rw [hloaded i, AcceptsFrom]
            rcases hcase with ⟨haccepts, -, hlist⟩ | ⟨hnot, -, hlist⟩
            · rw [hlist, List.mem_append, List.mem_singleton, and_iff_right haccepts, or_assoc]
            · rw [hlist, or_iff_right (a := AcceptsAt sm3 c o _ path s.calls ∧ i = s.calls)
                (fun hboth => hnot hboth.1)]
          · intro k
            rw [hkeys k, knownAfter, or_assoc]
            refine or_congr_right ?_
            simp only [AcceptsFrom, or_and_right, exists_or]
            refine or_congr_left ?_
            constructor
            · exact fun hput => ⟨s.calls, ⟨hput.1, rfl⟩, hput.2⟩
            · rintro ⟨i, ⟨haccepts, rfl⟩, hput⟩
              exact ⟨haccepts, hput⟩

/-! ### Loading a directory -/

/-- There is an environment to load into, or one can be made. -/
def CanBeReady (this : CFeatureDB) (create : Int) (opening : Int) : Prop :=
  this.m_bInit = true ∨
    (this.m_pEnv.handle = .null ∧ create = mdbSuccess ∧ opening = mdbSuccess)

/-- Getting ready does not change what is in the database. -/
theorem ready_spec (this : CFeatureDB) (create opening : Int) :
    ((this.ready create opening).1 = true ↔ CanBeReady this create opening) ∧
      (this.ready create opening).2.m_bInit = (this.ready create opening).1 ∧
      (this.ready create opening).2.m_pEnv.committed = this.m_pEnv.committed := by
  unfold CFeatureDB.ready CFeatureDB.init CanBeReady
  by_cases hinit : this.m_bInit = true
  · rw [if_pos hinit]
    exact ⟨iff_of_true rfl (Or.inl hinit), hinit, rfl⟩
  rw [if_neg hinit, if_neg hinit]
  unfold CFeatureDB.initEnv
  by_cases hnull : this.m_pEnv.handle ≠ .null
  · rw [if_pos hnull]
    exact ⟨iff_of_false Bool.false_ne_true (fun h => h.elim hinit (fun h => hnull h.1)), rfl, rfl⟩
  rw [if_neg hnull]
  by_cases hcreate : create ≠ mdbSuccess
  · simp only [mdbEnvCreate, if_pos hcreate]
    refine ⟨iff_of_false Bool.false_ne_true ?_, trivial, trivial⟩
    exact fun h => h.elim hinit (fun h => hcreate h.2.1)
  simp only [mdbEnvCreate, if_neg hcreate, ne_eq, not_true_eq_false, if_false]
  by_cases hopen : opening ≠ mdbSuccess
  · simp only [mdbEnvOpen, if_pos hopen]
    refine ⟨iff_of_false Bool.false_ne_true ?_, trivial, trivial⟩
    exact fun h => h.elim hinit (fun h => hopen h.2.2)
  simp only [mdbEnvOpen, if_neg hopen, ne_eq, not_true_eq_false, if_false]
  exact ⟨iff_of_true trivial (Or.inr ⟨not_not.mp hnull, not_not.mp hcreate, not_not.mp hopen⟩),
    trivial, trivial⟩

/-- What is meant to clear the database leaves it as it is: the transaction is
    read-only, and the drop is refused. -/
theorem clearLMDB_spec (this this' : CFeatureDB) (o : LoadOutcomes) (b : Bool)
    (h : this.clearLMDB o = .ok (b, this')) :
    this'.m_bInit = this.m_bInit ∧ this'.m_pEnv.handle = this.m_pEnv.handle ∧
      this'.m_pEnv.committed = this.m_pEnv.committed ∧
      (b = true → this.m_pEnv.handle = .opened) := by
  unfold CFeatureDB.clearLMDB at h
  by_cases hnot : this.m_bInit = false ∨ this.m_pEnv.handle = .null
  · rw [if_pos hnot] at h
    rcases Prod.mk.inj (Except.ok.inj h) with ⟨rfl, rfl⟩
    exact ⟨rfl, rfl, rfl, fun hb => absurd hb Bool.false_ne_true⟩
  rw [if_neg hnot] at h
  by_cases hopened : this.m_pEnv.handle = .opened
  · rw [mdbTxnBegin_read this.m_pEnv hopened] at h
    by_cases hbegin : o.clearBegin ≠ mdbSuccess
    · rw [if_pos hbegin] at h
      rcases Prod.mk.inj (Except.ok.inj h) with ⟨rfl, rfl⟩
      exact ⟨rfl, rfl, rfl, fun _ => hopened⟩
    rw [if_neg hbegin] at h
    dsimp only at h
    by_cases hdbi : o.clearDbiOpen ≠ mdbSuccess
    · rw [if_pos hdbi] at h
      rcases Prod.mk.inj (Except.ok.inj h) with ⟨rfl, rfl⟩
      exact ⟨rfl, rfl, rfl, fun _ => hopened⟩
    · -- The drop gives EACCES, and the transaction is aborted.
      rw [if_neg hdbi, mdbDrop_read] at h
      rcases Prod.mk.inj (Except.ok.inj h) with ⟨rfl, rfl⟩
      exact ⟨rfl, rfl, rfl, fun _ => hopened⟩
  · rw [mdbTxnBegin, if_pos hopened] at h
    exact absurd h (by simp only [reduceCtorEq, not_false_eq_true])

/-- What loading a directory comes to when it returns true: there was no
    environment and nothing was done, or the accepted files were added to what
    was there. -/
theorem load_directory (sm3 : Sm3) (c : CSM4Crypto) (o : LoadOutcomes) (this : CFeatureDB)
    (strPath xstrSuffix : String) (r : LoadResult)
    (h : this.loadDirectory sm3 c o strPath xstrSuffix = .ok r) (hret : r.bRet = true) :
    (¬ CanBeReady this o.envCreate o.envOpen ∧ r.this.m_bInit = false) ∨
      (CanBeReady this o.envCreate o.envOpen ∧ r.this.m_bInit = true ∧
        r.this.m_pEnv.handle = .opened ∧
        ((o.fetchXFromDir strPath xstrSuffix).2 ≠ [] → r.loaded ≠ []) ∧
        (∀ i, i ∈ r.loaded ↔ Accepts sm3 c o this.m_pEnv.committed.Has
          (o.fetchXFromDir strPath xstrSuffix).2 i) ∧
        (∀ k, r.this.m_pEnv.committed.Has k ↔ this.m_pEnv.committed.Has k ∨
          ∃ i, Accepts sm3 c o this.m_pEnv.committed.Has (o.fetchXFromDir strPath xstrSuffix).2 i ∧
            k ∈ putKeysAt c o i)) := by
  unfold CFeatureDB.loadDirectory at h
  dsimp only at h
  rcases ready_spec this o.envCreate o.envOpen with ⟨hready, hinit, hdb⟩
  by_cases hfetch : (o.fetchXFromDir strPath xstrSuffix).1 = false
  · rw [if_pos hfetch] at h
    rw [← Except.ok.inj h] at hret
    exact absurd hret Bool.false_ne_true
  rw [if_neg hfetch] at h
  by_cases hcan : (this.ready o.envCreate o.envOpen).1 = false
  · -- The value returned is still that of `FetchXFromDir`.
    rw [if_pos hcan] at h
    rw [← Except.ok.inj h]
    refine Or.inl ⟨fun hready' => ?_, hinit.trans hcan⟩
    exact absurd ((hready.mpr hready').symm.trans hcan) (by decide)
  rw [if_neg hcan] at h
  have htrue : (this.ready o.envCreate o.envOpen).1 = true := eq_true_of_ne_false hcan
  -- What follows can end in three ways: `ClearLMDB` crashes, it fails, or the
  -- loop over the files is reached.
  split at h
  · exact absurd h (by simp only [reduceCtorEq, not_false_eq_true])
  · rw [← Except.ok.inj h] at hret
    exact absurd hret Bool.false_ne_true
  · rename_i this' hclear
    rcases clearLMDB_spec _ this' o true hclear with ⟨hinit', hhandle, hdb', hopened⟩
    split at h
    · exact absurd h (by simp only [reduceCtorEq, not_false_eq_true])
    · rename_i s hloop
      rcases foldlM_loadOne sm3 c o _ _ s hloop with ⟨hhandleS, hcount, hloaded, hkeys⟩
      rw [← Except.ok.inj h] at hret ⊢
      dsimp only at hret hloaded hkeys hhandleS hcount ⊢
      rw [hdb', hdb] at hloaded hkeys
      refine Or.inr ⟨hready.mp htrue, hinit'.trans (hinit.trans htrue),
        hhandleS.trans (hhandle.trans (hopened rfl)), ?_, ?_, ?_⟩
      · -- The value returned is false when none of the files was counted.
        intro hfiles hnone
        have hzero : s.iSucc = 0 := by
          rw [hcount rfl, hnone]
          rfl
        rw [hzero] at hret
        cases hlist : (o.fetchXFromDir strPath xstrSuffix).2 with
        | nil => exact hfiles hlist
        | cons path paths =>
            rw [hlist] at hret
            exact absurd hret Bool.false_ne_true
      · intro i
        rw [hloaded i, or_iff_right List.not_mem_nil]
        rfl
      · exact hkeys

/-! ### Asking -/

/-- Every call of a query succeeds. -/
def QueryOutcomes.good : QueryOutcomes where
  envCreate := mdbSuccess
  envOpen := mdbSuccess
  txnBegin := mdbSuccess
  dbiOpen := mdbSuccess
  get := none

/-- On an open database a query tells whether the key is there. -/
theorem isHashExist_eq (this : CFeatureDB) (hinit : this.m_bInit = true)
    (hopened : this.m_pEnv.handle = .opened) (hash : List UInt8)
    (hlen : hash.length = 16 ∨ hash.length = 20 ∨ hash.length = 32) (bExist : Bool) :
    ∃ q, this.isHashExist QueryOutcomes.good (some hash) hash.length bExist = .ok q ∧
      q.bRet = true ∧ q.bExist = (this.m_pEnv.committed hash).isSome := by
  have hlong : ¬ (hash.length : Int) < 16 := by omega
  have hready : this.ready QueryOutcomes.good.envCreate QueryOutcomes.good.envOpen
      = (true, this) := by
    rw [CFeatureDB.ready, if_pos hinit]
  have hroom : ¬ hash.length < (UInt32.ofInt (hash.length : Int)).toNat := by
    rcases hlen with hlen | hlen | hlen <;> rw [hlen] <;> decide
  have hkey : hash.take (hash.length : Int).toNat = hash := List.take_length
  have hne : hash ≠ [] := by
    intro hnil
    rw [hnil] at hlen
    exact absurd hlen (by decide)
  unfold CFeatureDB.isHashExist
  simp only [if_neg hlong, hready, Bool.true_eq_false, if_false]
  rw [mdbTxnBegin_read this.m_pEnv hopened]
  simp only [QueryOutcomes.good, ne_eq, not_true_eq_false, if_false, hexToWStr, if_neg hroom, hkey,
    mdbGet, MdbEnv.readTxn, Bool.false_eq_true, or_self, if_neg hne]
  -- Only the presence of the key is left to look at.
  cases hget : this.m_pEnv.committed hash with
  | none => exact ⟨_, rfl, rfl, rfl⟩
  | some value => exact ⟨_, rfl, rfl, rfl⟩

/-! ### The new set -/

/-- The lengths of the hashes. -/
def IsHashLength (hash : List UInt8) : Prop :=
  hash.length = 16 ∨ hash.length = 20 ∨ hash.length = 32

/-- The database is open, something was loaded if there was something to load,
    and a hash is found exactly when a loaded file has it. -/
structure HoldsNewSet (c : CSM4Crypto) (o : LoadOutcomes) (lstFiles : List String)
    (r : LoadResult) : Prop where
  ready : r.this.m_bInit = true
  opened : r.this.m_pEnv.handle = .opened
  loaded : lstFiles ≠ [] → r.loaded ≠ []
  exact : ∀ hash, IsHashLength hash → ∀ bExist,
    ∃ q, r.this.isHashExist QueryOutcomes.good (some hash) hash.length bExist = .ok q ∧
      q.bRet = true ∧ (q.bExist = true ↔ ∃ i ∈ r.loaded, hash ∈ fileKeysAt c o i)

/-- There is an environment to load into, the accepted files have every hash
    that was there before, and those of their hashes that are new are put. -/
structure Replaces (sm3 : Sm3) (c : CSM4Crypto) (o : LoadOutcomes) (lstFiles : List String)
    (this : CFeatureDB) : Prop where
  ready : CanBeReady this o.envCreate o.envOpen
  old : ∀ hash, IsHashLength hash → this.m_pEnv.committed.Has hash →
    ∃ i, Accepts sm3 c o this.m_pEnv.committed.Has lstFiles i ∧ hash ∈ fileKeysAt c o i
  put : ∀ hash, IsHashLength hash →
    (∃ i, Accepts sm3 c o this.m_pEnv.committed.Has lstFiles i ∧ hash ∈ fileKeysAt c o i) →
    this.m_pEnv.committed.Has hash ∨
      ∃ i, Accepts sm3 c o this.m_pEnv.committed.Has lstFiles i ∧ hash ∈ putKeysAt c o i

/-- After `Load` of a directory returned true the database holds the new set
    exactly when the new set replaces what was there. -/
theorem load_newSet_iff (sm3 : Sm3) (c : CSM4Crypto) (o : LoadOutcomes) (this : CFeatureDB)
    (strHashstoreDir strSuffix : String) (r : LoadResult)
    (hdir : o.attributes (loadPath o strHashstoreDir) = some true)
    (h : this.load sm3 c o strHashstoreDir strSuffix = .ok r) (hret : r.bRet = true) :
    HoldsNewSet c o (o.listed strHashstoreDir strSuffix) r ↔
      Replaces sm3 c o (o.listed strHashstoreDir strSuffix) this := by
  unfold CFeatureDB.load at h
  rw [hdir] at h
  rcases load_directory sm3 c o this _ _ r h hret with
    ⟨hnot, hinit⟩ | ⟨hcan, hinit, hopened, hsome, hloaded, hkeys⟩
  · refine iff_of_false (fun hholds => ?_) (fun hreplaces => hnot hreplaces.ready)
    exact absurd (hholds.ready.symm.trans hinit) (by decide)
  rw [← LoadOutcomes.listed] at hsome hloaded hkeys
  -- What the loaded files have, by the listing.
  have hfiles : ∀ hash, (∃ i ∈ r.loaded, hash ∈ fileKeysAt c o i) ↔
      ∃ i, Accepts sm3 c o this.m_pEnv.committed.Has (o.listed strHashstoreDir strSuffix) i ∧
        hash ∈ fileKeysAt c o i :=
    fun hash => exists_congr (fun i => and_congr_left' (hloaded i))
  constructor
  · intro hholds
    have hfound : ∀ hash, IsHashLength hash →
        (r.this.m_pEnv.committed.Has hash ↔ ∃ i ∈ r.loaded, hash ∈ fileKeysAt c o i) := by
      intro hash hlen
      rcases isHashExist_eq r.this hinit hopened hash hlen false with ⟨q, hq, -, hexist⟩
      rcases hholds.exact hash hlen false with ⟨q', hq', -, hiff⟩
      rw [← Except.ok.inj (hq.symm.trans hq'), hexist] at hiff
      exact hiff
    refine ⟨hcan, fun hash hlen hold => ?_, fun hash hlen hnew => ?_⟩
    · exact (hfiles hash).mp ((hfound hash hlen).mp ((hkeys hash).mpr (Or.inl hold)))
    · exact (hkeys hash).mp ((hfound hash hlen).mpr ((hfiles hash).mpr hnew))
  · intro hreplaces
    refine ⟨hinit, hopened, hsome, fun hash hlen bExist => ?_⟩
    rcases isHashExist_eq r.this hinit hopened hash hlen bExist with ⟨q, hq, hqret, hexist⟩
    refine ⟨q, hq, hqret, ?_⟩
    rw [hexist, ← Db.Has, hkeys hash, hfiles hash]
    constructor
    · rintro (hold | ⟨i, haccepts, hput⟩)
      · exact hreplaces.old hash hlen hold
      · exact ⟨i, haccepts, fileKeys_of_putKeys c o i hash hput⟩
    · exact hreplaces.put hash hlen

/-! ### A directory with one file -/

/-- A database with one key, open. -/
def CFeatureDB.withKey (key : List UInt8) : CFeatureDB where
  m_pEnv := { MdbEnv.fresh with committed := Db.empty.insertNew key [] }
  m_bInit := true

/-- A directory in which one file is found, everything else succeeding. -/
def LoadOutcomes.oneFile (file : List UInt8) : LoadOutcomes where
  runDir := "C:"
  attributes := fun _ => some true
  found := fun _ => ["a.dat"]
  register := true
  envCreate := mdbSuccess
  envOpen := mdbSuccess
  clearBegin := mdbSuccess
  clearDbiOpen := mdbSuccess
  clearDrop := none
  clearCommit := mdbSuccess
  file := fun _ => some file
  dat := fun _ => DatOutcomes.allGood

theorem fetchXFromDir_oneFile (file : List UInt8) :
    (LoadOutcomes.oneFile file).fetchXFromDir "D:" ".dat" = (true, ["D:\\a.dat"]) :=
  rfl

section OneFile

variable (sm3 : Sm3) (c : CSM4Crypto) (records : List (List UInt8))
  (hlen : ∀ v ∈ records, v.length = virusInfoSize) (hvalid : ∀ v ∈ records, validHashType v)
include hlen

/-- The keys in the file are those it puts. -/
theorem keysAt_oneFile (i : Nat) :
    fileKeysAt c (LoadOutcomes.oneFile (sealedFile sm3 c records)) i = records.map virusKey ∧
      putKeysAt c (LoadOutcomes.oneFile (sealedFile sm3 c records)) i = records.map virusKey := by
  have hread := recordsRead_sealedFile sm3 c DatOutcomes.allGood records (fun _ => rfl) hlen
  constructor
  · show (recordsRead DatOutcomes.allGood (sealedFile sm3 c records)).map
      (fun r => virusKey (plain c r)) = _
    conv => rhs; rw [← hread, List.map_map]
    rfl
  · show (recordsPut c DatOutcomes.allGood (sealedFile sm3 c records)).map virusKey = _
    rw [recordsPut, putRecords_eq DatOutcomes.allGood (fun _ => rfl), hread]

include hvalid

/-- It is accepted, and there is no other. -/
theorem accepts_oneFile (known : List UInt8 → Prop) (i : Nat) :
    Accepts sm3 c (LoadOutcomes.oneFile (sealedFile sm3 c records)) known ["D:\\a.dat"] i ↔
      i = 0 := by
  have haccepts : AcceptsAt sm3 c (LoadOutcomes.oneFile (sealedFile sm3 c records)) known
      "D:\\a.dat" 0 :=
    ⟨by decide, _, rfl, sealedFile_accepted sm3 c _ records DatOutcomes.allGood_good known hlen hvalid⟩
  unfold Accepts
  simp only [AcceptsFrom, haccepts, true_and, or_false]

/-- `Load` of the directory returns true. -/
theorem load_oneFile (this : CFeatureDB) (hinit : this.m_bInit = true)
    (henv : this.m_pEnv.Usable) :
    ∃ r, this.load sm3 c (LoadOutcomes.oneFile (sealedFile sm3 c records)) "D:" ".dat" = .ok r ∧
      r.bRet = true := by
  have haccepted := sealedFile_accepted sm3 c DatOutcomes.allGood records DatOutcomes.allGood_good
    this.m_pEnv.committed.Has hlen hvalid
  have hready : this.ready (LoadOutcomes.oneFile (sealedFile sm3 c records)).envCreate
      (LoadOutcomes.oneFile (sealedFile sm3 c records)).envOpen = (true, this) := if_pos hinit
  -- Clearing begins a transaction and aborts it.
  have hclear : this.clearLMDB (LoadOutcomes.oneFile (sealedFile sm3 c records))
      = .ok (true, { this with m_pEnv := (this.m_pEnv.record .begun).record .aborted }) := by
    have hnot : ¬ (this.m_bInit = false ∨ this.m_pEnv.handle = .null) := by
      rw [hinit, henv.opened]
      decide
    unfold CFeatureDB.clearLMDB
    rw [if_neg hnot, mdbTxnBegin_read _ henv.opened]
    rfl
  have henv' : ((this.m_pEnv.record .begun).record .aborted).Usable := ⟨henv.opened, henv.txn0⟩
  rcases loadDat_runs sm3 c DatOutcomes.allGood _ henv' _ haccepted.reaches haccepted.valid with
    ⟨r, hr⟩
  have hret : r.bRet = true := (loadDat_spec sm3 c _ _ _ _ r hr).2.1.mpr ⟨rfl, _, rfl, haccepted⟩
  have hone : loadOne sm3 c (LoadOutcomes.oneFile (sealedFile sm3 c records))
      { m_pEnv := (this.m_pEnv.record .begun).record .aborted, iSucc := 0, lstVers := [],
        calls := 0, loaded := [] } "D:\\a.dat"
      = .ok { m_pEnv := r.env, iSucc := 1, lstVers := [r.strDatVersion.getD ""], calls := 1,
              loaded := [0] } := by
    rw [loadOne]
    dsimp only [LoadOutcomes.oneFile]
    rw [show ("D:\\a.dat" : String).isEmpty = false from rfl, hr]
    exact if_pos hret
  have hload : this.load sm3 c (LoadOutcomes.oneFile (sealedFile sm3 c records)) "D:" ".dat"
      = this.loadDirectory sm3 c (LoadOutcomes.oneFile (sealedFile sm3 c records)) "D:" ".dat" := rfl
  rw [hload, CFeatureDB.loadDirectory, fetchXFromDir_oneFile]
  dsimp only
  rw [if_neg Bool.noConfusion, hready]
  dsimp only
  rw [if_neg Bool.noConfusion, hclear]
  dsimp only
  rw [List.foldlM_cons, hone]
  exact ⟨_, rfl, rfl⟩

end OneFile

/-- A record of an MD5. -/
def md5Record (hash : List UInt8) : List UInt8 :=
  3 :: (hash ++ List.replicate 63 0)

theorem md5Record_ok (hash : List UInt8) (h : hash.length = 16) :
    (md5Record hash).length = virusInfoSize ∧ validHashType (md5Record hash) ∧
      virusKey (md5Record hash) = hash := by
  refine ⟨?_, ?_, ?_⟩
  · rw [md5Record, List.length_cons, List.length_append, h, List.length_replicate]
    rfl
  · exact List.mem_cons_of_mem _ (List.mem_cons_of_mem _ List.mem_cons_self)
  · show ((md5Record hash).drop 1).take 16 = hash
    rw [md5Record, List.drop_one, List.tail_cons, ← h, List.take_left]

/-- A directory with a file of one record, for this MD5. -/
def LoadOutcomes.md5 (hash : List UInt8) : LoadOutcomes :=
  LoadOutcomes.oneFile (sealedFile standardSm3 CSM4Crypto.getInstance [md5Record hash])

/-- `Load` of it returns true, and leaves its key and those there were. -/
theorem load_md5 (key hash : List UInt8) (h : hash.length = 16) :
    ∃ r, (CFeatureDB.withKey key).load standardSm3 CSM4Crypto.getInstance (LoadOutcomes.md5 hash)
        "D:" ".dat" = .ok r ∧ r.bRet = true ∧
      (∀ known i, Accepts standardSm3 CSM4Crypto.getInstance (LoadOutcomes.md5 hash) known
        ((LoadOutcomes.md5 hash).listed "D:" ".dat") i ↔ i = 0) ∧
      ∀ i, fileKeysAt CSM4Crypto.getInstance (LoadOutcomes.md5 hash) i = [hash] ∧
        putKeysAt CSM4Crypto.getInstance (LoadOutcomes.md5 hash) i = [hash] := by
  rcases md5Record_ok hash h with ⟨hlen, hvalid, hkey⟩
  have hlens : ∀ v ∈ [md5Record hash], v.length = virusInfoSize :=
    List.forall_mem_singleton.mpr hlen
  have hvalids : ∀ v ∈ [md5Record hash], validHashType v := List.forall_mem_singleton.mpr hvalid
  rcases load_oneFile standardSm3 CSM4Crypto.getInstance [md5Record hash] hlens hvalids
    (CFeatureDB.withKey key) rfl ⟨rfl, rfl⟩ with ⟨r, hr, hret⟩
  have hkeys := keysAt_oneFile standardSm3 CSM4Crypto.getInstance [md5Record hash] hlens
  rw [List.map_singleton, hkey] at hkeys
  have hlisted : (LoadOutcomes.md5 hash).listed "D:" ".dat" = ["D:\\a.dat"] :=
    congrArg Prod.snd (fetchXFromDir_oneFile _)
  rw [hlisted]
  exact ⟨r, hr, hret, accepts_oneFile standardSm3 CSM4Crypto.getInstance _ hlens hvalids, hkeys⟩

/-- Loading a directory with another key keeps the key there was. -/
theorem load_keepsOld : ∃ r,
    (CFeatureDB.withKey (List.replicate 16 0)).load standardSm3 CSM4Crypto.getInstance
      (LoadOutcomes.md5 (List.replicate 16 1)) "D:" ".dat" = .ok r ∧ r.bRet = true ∧
    ¬ HoldsNewSet CSM4Crypto.getInstance (LoadOutcomes.md5 (List.replicate 16 1))
      ((LoadOutcomes.md5 (List.replicate 16 1)).listed "D:" ".dat") r := by
  rcases load_md5 (List.replicate 16 0) (List.replicate 16 1) rfl with ⟨r, hr, hret, -, hkeys⟩
  refine ⟨r, hr, hret, fun hholds => ?_⟩
  rcases load_directory standardSm3 CSM4Crypto.getInstance (LoadOutcomes.md5 (List.replicate 16 1))
    (CFeatureDB.withKey (List.replicate 16 0)) "D:" ".dat" r hr hret with
    ⟨-, hinit⟩ | ⟨-, hinit, hopened, -, -, hthere⟩
  · exact absurd (hholds.ready.symm.trans hinit) (by decide)
  have hold := (hthere (List.replicate 16 0)).mpr (Or.inl (by decide))
  rcases isHashExist_eq r.this hinit hopened (List.replicate 16 0) (Or.inl rfl) false with
    ⟨q, hq, -, hexist⟩
  rcases hholds.exact (List.replicate 16 0) (Or.inl rfl) false with ⟨q', hq', -, hiff⟩
  rw [← Except.ok.inj (hq.symm.trans hq'), hexist] at hiff
  -- The key is found, and the only file that was loaded has another.
  rcases hiff.mp hold with ⟨i, -, hi⟩
  rw [(hkeys i).1] at hi
  exact absurd hi (by decide)

/-- It is as it should be when the key is one of the file. -/
theorem load_newSet_iff_sameKey : ∃ r,
    (CFeatureDB.withKey (List.replicate 16 1)).load standardSm3 CSM4Crypto.getInstance
      (LoadOutcomes.md5 (List.replicate 16 1)) "D:" ".dat" = .ok r ∧ r.bRet = true ∧
    HoldsNewSet CSM4Crypto.getInstance (LoadOutcomes.md5 (List.replicate 16 1))
      ((LoadOutcomes.md5 (List.replicate 16 1)).listed "D:" ".dat") r := by
  rcases load_md5 (List.replicate 16 1) (List.replicate 16 1) rfl with
    ⟨r, hr, hret, haccepts, hkeys⟩
  refine ⟨r, hr, hret, (load_newSet_iff _ _ (LoadOutcomes.md5 (List.replicate 16 1)) _ "D:" ".dat"
    r rfl hr hret).mpr ⟨Or.inl rfl, fun hash _ hold => ?_, fun hash _ hnew => Or.inr ?_⟩⟩
  · refine ⟨0, (haccepts _ 0).mpr rfl, ?_⟩
    rw [(hkeys 0).1, List.mem_singleton]
    by_contra hne
    have hnone : (CFeatureDB.withKey (List.replicate 16 1)).m_pEnv.committed hash = none :=
      if_neg (fun hboth => hne hboth.1)
    rw [Db.Has, hnone] at hold
    exact absurd hold (by decide)
  · rcases hnew with ⟨i, hi, hhash⟩
    refine ⟨i, hi, ?_⟩
    rw [(hkeys i).2, ← (hkeys i).1]
    exact hhash

end Feature

end Defender
