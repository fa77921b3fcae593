import Defender.Feature.FeatureSet
import Defender.Lib.Machine

/-!
# The Life of the Feature Database

`m_bInit` and `m_pEnv` are set in `InitEnv`, and `Uninit` closes the
environment. Everything else that needs it goes through `Init`. What is wanted
of every state is that the flag says whether the environment is open, and that
an `Init` whose calls succeed returns true, after one that failed in particular;
and of every call that lmdb is given an open environment (`InitSound`,
`HandsOpened`).

There are three ways to lose it. `Uninit` sets the pointer to null and leaves
the flag as it is, so that the next caller goes on with a null pointer. `InitEnv`
leaves an environment behind that could not be opened, and refuses to do
anything when there is one, so no later `Init` succeeds. And `InitEnv` begins by
setting the flag to false, also where the environment is open. `CallMeets` says
that a call does none of the three, and for every run that is exactly what is
needed (`life_iff`).

A call can end the process, for reasons of its own; a run ends with it.

## Main definitions

* `DbCall`, `dbStep`: The calls, and what they do to the object.
* `handed`: What lmdb is given.
* `InitSound`, `HandsOpened`: What is wanted.
* `CallMeets`: What it depends on.

## Theorems

* `initSound_iff`: The two states that are sound.
* `init_sound_iff`: When `Init` leaves one.
* `load_keeps`, `isHashExist_keeps`: The others change neither, but by `Init`.
* `life_iff`: When a run stays sound.
* `life_not`: A query after `Uninit`.
-/

namespace Defender

namespace Feature

open Crypto Machine

/-! ### The calls -/

/-- A call of the object, with what its calls come to. -/
inductive DbCall where
  | init (create opening : Int)
  | initEnv (create opening : Int)
  | uninit
  | load (o : LoadOutcomes) (strHashstoreDir strSuffix : String)
  | isHashExist (q : QueryOutcomes) (pHash : Option (List UInt8)) (nLength : Int) (bExist : Bool)

/-- What a call does to the object, unless it ends the process. -/
def dbStep (sm3 : Sm3) (c : CSM4Crypto) (this : CFeatureDB) : DbCall → Option CFeatureDB
  | .init create opening => some (this.init create opening).2
  | .initEnv create opening => some (this.initEnv create opening).2
  | .uninit => some this.uninit
  | .load o strHashstoreDir strSuffix =>
      match this.load sm3 c o strHashstoreDir strSuffix with
      | .error _ => none
      | .ok r => some r.this
  | .isHashExist q pHash nLength bExist =>
      match this.isHashExist q pHash nLength bExist with
      | .error _ => none
      | .ok r => some r.this

/-- `Load` gets as far as `Init`. -/
def loadGetsReady (o : LoadOutcomes) (strHashstoreDir strSuffix : String) : Bool :=
  match o.attributes (loadPath o strHashstoreDir) with
  | none => false
  | some true => (o.fetchXFromDir (loadPath o strHashstoreDir) (loadSuffix strSuffix)).1
  | some false =>
      if (loadSuffix strSuffix).length > (loadPath o strHashstoreDir).length then false
      else
        tcsicmpEq ((loadPath o strHashstoreDir).toList.drop
          ((loadPath o strHashstoreDir).length - (loadSuffix strSuffix).length))
          (loadSuffix strSuffix).toList

/-- `IsHashExist` gets as far as `Init`. -/
def queryGetsReady (pHash : Option (List UInt8)) (nLength : Int) : Bool :=
  pHash.isSome && !decide (nLength < 16)

/-- `Load` goes by a directory. -/
def loadsDirectory (o : LoadOutcomes) (strHashstoreDir : String) : Bool :=
  o.attributes (loadPath o strHashstoreDir) == some true

/-- The environments that the lmdb calls of a call are given. Those of `Load` and
    `IsHashExist` are all given the one that the object has after `Init`; in a
    directory `ClearLMDB` comes first, which makes no call without one. The
    calls in `InitEnv` that make and open the environment do not count. -/
def handed (this : CFeatureDB) : DbCall → List EnvHandle
  | .init _ _ => []
  | .initEnv _ _ => []
  | .uninit =>
      if this.m_bInit = true ∧ this.m_pEnv.handle ≠ .null then [this.m_pEnv.handle] else []
  | .load o strHashstoreDir strSuffix =>
      let (ready, this) := this.ready o.envCreate o.envOpen
      if loadGetsReady o strHashstoreDir strSuffix = false ∨ ready = false then []
      else if loadsDirectory o strHashstoreDir = true ∧
          (this.m_bInit = false ∨ this.m_pEnv.handle = .null) then []
      else [this.m_pEnv.handle]
  | .isHashExist q pHash nLength _ =>
      let (ready, this) := this.ready q.envCreate q.envOpen
      if queryGetsReady pHash nLength = false ∨ ready = false then []
      else [this.m_pEnv.handle]

/-! ### What is wanted -/

/-- The flag says whether the environment is open, and an `Init` whose calls
    succeed returns true. -/
structure InitSound (this : CFeatureDB) : Prop where
  bInit_iff : this.m_bInit = true ↔ this.m_pEnv.handle = .opened
  again : (this.init mdbSuccess mdbSuccess).1 = true

/-- Lmdb is given open environments only. -/
def HandsOpened (this : CFeatureDB) (call : DbCall) : Prop :=
  ∀ h ∈ handed this call, h = .opened

/-- An environment that is made is opened. -/
def Opens (create opening : Int) : Prop :=
  create = mdbSuccess → opening = mdbSuccess

/-- `Uninit` is not called on an initialised object, `InitEnv` is not called
    where there is an environment, and no environment that is made fails to be
    opened. -/
def CallMeets (this : CFeatureDB) : DbCall → Prop
  | .init create opening => this.m_bInit = true ∨ Opens create opening
  | .initEnv create opening => this.m_pEnv.handle = .null ∧ Opens create opening
  | .uninit => this.m_bInit = false
  | .load o strHashstoreDir strSuffix =>
      this.m_bInit = true ∨ loadGetsReady o strHashstoreDir strSuffix = false ∨
        Opens o.envCreate o.envOpen
  | .isHashExist q pHash nLength _ =>
      this.m_bInit = true ∨ queryGetsReady pHash nLength = false ∨ Opens q.envCreate q.envOpen

/-! ### `Init` -/

/-- What is meant by ready is what `Init` returns. -/
theorem ready_eq_init (this : CFeatureDB) (create opening : Int) :
    this.ready create opening = this.init create opening := by
  unfold CFeatureDB.ready CFeatureDB.init
  by_cases hinit : this.m_bInit = true
  · rw [if_pos hinit, if_pos hinit]
  · rw [if_neg hinit, if_neg hinit]

/-- There is no environment and the object is not initialised, or there is one,
    open, and it is. -/
theorem initSound_iff (this : CFeatureDB) :
    InitSound this ↔ (this.m_bInit = true ∧ this.m_pEnv.handle = .opened) ∨
      (this.m_bInit = false ∧ this.m_pEnv.handle = .null) := by
  have hready := (ready_spec this mdbSuccess mdbSuccess).1
  rw [ready_eq_init] at hready
  constructor
  · intro h
    -- `Init` succeeds where the flag is set, or where there is no environment yet.
    rcases hready.mp h.again with hinit | ⟨hnull, -⟩
    · exact Or.inl ⟨hinit, h.bInit_iff.mp hinit⟩
    · refine Or.inr ⟨Bool.eq_false_iff.mpr (fun hinit => ?_), hnull⟩
      rw [h.bInit_iff.mp hinit] at hnull
      exact absurd hnull (by simp only [reduceCtorEq, not_false_eq_true])
  · rintro (⟨hinit, hopened⟩ | ⟨hinit, hnull⟩)
    · exact ⟨iff_of_true hinit hopened, hready.mpr (Or.inl hinit)⟩
    · refine ⟨?_, hready.mpr (Or.inr ⟨hnull, rfl, rfl⟩)⟩
      rw [hinit, hnull]
      exact iff_of_false Bool.false_ne_true (by simp only [reduceCtorEq, not_false_eq_true])

/-- `InitEnv` without an environment leaves a sound object when it opens the one
    it makes. -/
theorem initEnv_sound_iff (this : CFeatureDB) (hnull : this.m_pEnv.handle = .null)
    (create opening : Int) :
    InitSound (this.initEnv create opening).2 ↔ Opens create opening := by
  rw [initSound_iff]
  unfold CFeatureDB.initEnv Opens
  rw [if_neg (not_not_intro hnull)]
  by_cases hcreate : create ≠ mdbSuccess
  · simp only [mdbEnvCreate, if_pos hcreate]
    -- Nothing was made, so the object is as at the start.
    exact iff_of_true (Or.inr ⟨trivial, hnull⟩) (fun h => absurd h hcreate)
  · simp only [mdbEnvCreate, if_neg hcreate, ne_eq, not_true_eq_false, if_false]
    by_cases hopen : opening ≠ mdbSuccess
    · simp only [mdbEnvOpen, if_pos hopen]
      -- The environment was made and not opened, and `InitEnv` leaves it behind.
      refine iff_of_false ?_ (fun h => hopen (h (not_not.mp hcreate)))
      simp only [Bool.false_eq_true, reduceCtorEq, and_false, or_self, not_false_eq_true]
    · simp only [mdbEnvOpen, if_neg hopen, ne_eq, not_true_eq_false, if_false]
      exact iff_of_true (Or.inl ⟨trivial, trivial⟩) (fun _ => not_not.mp hopen)

/-- `InitEnv` where the environment is open leaves the flag at false. -/
theorem initEnv_not_sound (this : CFeatureDB) (hopened : this.m_pEnv.handle = .opened)
    (create opening : Int) : ¬ InitSound (this.initEnv create opening).2 := by
  have hnull : this.m_pEnv.handle ≠ .null := by
    rw [hopened]
    simp only [ne_eq, reduceCtorEq, not_false_eq_true]
  rw [initSound_iff]
  unfold CFeatureDB.initEnv
  rw [if_pos hnull, hopened]
  -- The flag is false now, and the environment is still open.
  simp only [Bool.false_eq_true, reduceCtorEq, and_true, and_false, or_self, not_false_eq_true]

/-- The value of `InitEnv` is that of the flag. -/
theorem initEnv_bInit (this : CFeatureDB) (create opening : Int) :
    (this.initEnv create opening).2.m_bInit = (this.initEnv create opening).1 := by
  unfold CFeatureDB.initEnv
  by_cases hnull : this.m_pEnv.handle ≠ .null
  · rw [if_pos hnull]
  rw [if_neg hnull]
  by_cases hcreate : create ≠ mdbSuccess
  · simp only [mdbEnvCreate, if_pos hcreate]
  simp only [mdbEnvCreate, if_neg hcreate, ne_eq, not_true_eq_false, if_false]
  by_cases hopen : opening ≠ mdbSuccess
  · simp only [mdbEnvOpen, if_pos hopen]
  · simp only [mdbEnvOpen, if_neg hopen, ne_eq, not_true_eq_false, if_false]

/-- `Init` of a sound object leaves a sound one when it is initialised already,
    or the environment that is made is opened. -/
theorem init_sound_iff (this : CFeatureDB) (hsound : InitSound this) (create opening : Int) :
    InitSound (this.init create opening).2 ↔ this.m_bInit = true ∨ Opens create opening := by
  unfold CFeatureDB.init
  -- `Init` does nothing where the flag is set, and calls `InitEnv` where it is not.
  rcases (initSound_iff this).mp hsound with ⟨hinit, -⟩ | ⟨hinit, hnull⟩
  · rw [if_pos hinit]
    exact iff_of_true hsound (Or.inl hinit)
  · have hnot : ¬ this.m_bInit = true := by
      rw [hinit]
      exact Bool.false_ne_true
    rw [if_neg hnot, or_iff_right hnot, ← initEnv_sound_iff this hnull create opening]
    dsimp only
    rw [← initEnv_bInit]

/-- After an `Init` of a sound object that returns true the environment is open. -/
theorem init_opened (this : CFeatureDB) (hsound : InitSound this) (create opening : Int)
    (hret : (this.init create opening).1 = true) :
    (this.m_bInit = true ∨ Opens create opening) ∧
      (this.init create opening).2.m_pEnv.handle = .opened ∧
      (this.init create opening).2.m_bInit = true := by
  rcases ready_spec this create opening with ⟨hready, hflag, -⟩
  rw [ready_eq_init] at hready hflag
  have hopens : this.m_bInit = true ∨ Opens create opening := by
    rcases hready.mp hret with hinit | ⟨-, -, hopening⟩
    · exact Or.inl hinit
    · exact Or.inr (fun _ => hopening)
  rw [hret] at hflag
  have hafter := (init_sound_iff this hsound create opening).mpr hopens
  exact ⟨hopens, hafter.bInit_iff.mp hflag, hflag⟩

/-- `Uninit` of an initialised object leaves the flag at true. -/
theorem uninit_sound_iff (this : CFeatureDB) (hsound : InitSound this) :
    InitSound this.uninit ↔ this.m_bInit = false := by
  unfold CFeatureDB.uninit
  rcases (initSound_iff this).mp hsound with ⟨hinit, hopened⟩ | ⟨hinit, -⟩
  · have hnull : this.m_pEnv.handle ≠ .null := by
      rw [hopened]
      simp only [ne_eq, reduceCtorEq, not_false_eq_true]
    rw [if_pos ⟨hinit, hnull⟩, initSound_iff, hinit]
    simp only [mdbEnvClose, reduceCtorEq, and_false, Bool.true_eq_false, false_and, or_self]
  · have hnot : ¬ (this.m_bInit = true ∧ this.m_pEnv.handle ≠ .null) := by
      rw [hinit]
      exact fun h => Bool.false_ne_true h.1
    rw [if_neg hnot]
    exact iff_of_true hsound hinit

/-! ### The calls that go through `Init` -/

/-- The flag and the environment are as they were. -/
def SameLife (this this' : CFeatureDB) : Prop :=
  this'.m_bInit = this.m_bInit ∧ this'.m_pEnv.handle = this.m_pEnv.handle

theorem SameLife.sound_iff {this this' : CFeatureDB} (h : SameLife this this') :
    InitSound this' ↔ InitSound this := by
  rw [initSound_iff, initSound_iff, h.1, h.2]

/-- `Load` of a directory changes the object by `Init` only. -/
theorem loadDirectory_keeps (this : CFeatureDB) (sm3 : Sm3) (c : CSM4Crypto) (o : LoadOutcomes)
    (strPath xstrSuffix : String) (r : LoadResult)
    (h : this.loadDirectory sm3 c o strPath xstrSuffix = .ok r) :
    SameLife (if (o.fetchXFromDir strPath xstrSuffix).1 = false then this
      else (this.init o.envCreate o.envOpen).2) r.this := by
  unfold CFeatureDB.loadDirectory at h
  dsimp only at h
  by_cases hfetch : (o.fetchXFromDir strPath xstrSuffix).1 = false
  · rw [if_pos hfetch] at h ⊢
    rw [← Except.ok.inj h]
    exact ⟨rfl, rfl⟩
  rw [if_neg hfetch, ready_eq_init] at h
  rw [if_neg hfetch]
  by_cases hready : (this.init o.envCreate o.envOpen).1 = false
  · rw [if_pos hready] at h
    rw [← Except.ok.inj h]
    exact ⟨rfl, rfl⟩
  rw [if_neg hready] at h
  -- From here on the object is the one that `Init` leaves.
  cases hclear : (this.init o.envCreate o.envOpen).2.clearLMDB o with
  | error e =>
      rw [hclear] at h
      exact absurd h (by simp only [reduceCtorEq, not_false_eq_true])
  | ok x =>
      rcases x with ⟨b, this'⟩
      rcases clearLMDB_spec _ this' o b hclear with ⟨hinit, hhandle, -⟩
      rw [hclear] at h
      cases b with
      | false =>
          rw [← Except.ok.inj h]
          exact ⟨hinit, hhandle⟩
      | true =>
          dsimp only at h
          split at h
          · exact absurd h (by simp only [reduceCtorEq, not_false_eq_true])
          · rename_i s hloop
            -- The files of the directory leave the flag, and the environment open or not.
            rw [← Except.ok.inj h]
            exact ⟨hinit, (foldlM_loadOne sm3 c o _ _ s hloop).1.trans hhandle⟩

/-- `Load` of a file changes the object by `Init` only. -/
theorem loadFile_keeps (this : CFeatureDB) (sm3 : Sm3) (c : CSM4Crypto) (o : LoadOutcomes)
    (strPath xstrSuffix : String) (r : LoadResult)
    (h : this.loadFile sm3 c o strPath xstrSuffix = .ok r) :
    SameLife (if (if xstrSuffix.length > strPath.length then false
        else tcsicmpEq (strPath.toList.drop (strPath.length - xstrSuffix.length))
          xstrSuffix.toList) = false then this
      else (this.init o.envCreate o.envOpen).2) r.this := by
  unfold CFeatureDB.loadFile at h
  dsimp only at h
  by_cases hlength : xstrSuffix.length > strPath.length
  · -- A path shorter than the suffix is refused before `Init`, as is another suffix.
    rw [if_pos hlength] at h ⊢
    rw [if_pos rfl, ← Except.ok.inj h]
    exact ⟨rfl, rfl⟩
  rw [if_neg hlength] at h ⊢
  by_cases hsuffix : tcsicmpEq (strPath.toList.drop (strPath.length - xstrSuffix.length))
      xstrSuffix.toList = false
  · rw [if_pos hsuffix] at h ⊢
    rw [← Except.ok.inj h]
    exact ⟨rfl, rfl⟩
  rw [if_neg hsuffix, ready_eq_init] at h
  rw [if_neg hsuffix]
  by_cases hready : (this.init o.envCreate o.envOpen).1 = false
  · rw [if_pos hready] at h
    rw [← Except.ok.inj h]
    exact ⟨rfl, rfl⟩
  rw [if_neg hready] at h
  -- From here on the object is the one that `Init` leaves.
  cases hload : loadDat sm3 c (o.dat 0) (this.init o.envCreate o.envOpen).2.m_pEnv
      strPath.isEmpty (o.file 0) with
  | error e =>
      rw [hload] at h
      exact absurd h (by simp only [reduceCtorEq, not_false_eq_true])
  | ok d =>
      rw [hload] at h
      rw [← Except.ok.inj h]
      exact ⟨rfl, (loadDat_spec sm3 c _ _ _ _ d hload).1⟩

/-- `Load` changes the object by `Init` only, if it gets there. -/
theorem load_keeps (this : CFeatureDB) (sm3 : Sm3) (c : CSM4Crypto) (o : LoadOutcomes)
    (strHashstoreDir strSuffix : String) (r : LoadResult)
    (h : this.load sm3 c o strHashstoreDir strSuffix = .ok r) :
    SameLife (if loadGetsReady o strHashstoreDir strSuffix = false then this
      else (this.init o.envCreate o.envOpen).2) r.this := by
  unfold CFeatureDB.load at h
  unfold loadGetsReady
  cases hattr : o.attributes (loadPath o strHashstoreDir) with
  | none =>
      rw [hattr] at h
      rw [← Except.ok.inj h]
      exact ⟨rfl, rfl⟩
  | some directory =>
      rw [hattr] at h
      cases directory with
      | true => exact loadDirectory_keeps this sm3 c o _ _ r h
      | false => exact loadFile_keeps this sm3 c o _ _ r h

/-- Beginning a transaction leaves the environment open or not. -/
theorem mdbTxnBegin_handle (env : MdbEnv) (rdonly : Bool) (rc : Int)
    (x : Int × Option MdbTxn × MdbEnv) (h : mdbTxnBegin env rdonly rc = .ok x) :
    x.2.2.handle = env.handle := by
  unfold mdbTxnBegin at h
  by_cases hopened : env.handle ≠ .opened
  · rw [if_pos hopened] at h
    exact absurd h (by simp only [reduceCtorEq, not_false_eq_true])
  rw [if_neg hopened] at h
  by_cases hfreed : rdonly = false ∧ env.txn0Freed = true
  · rw [if_pos hfreed] at h
    exact absurd h (by simp only [reduceCtorEq, not_false_eq_true])
  rw [if_neg hfreed] at h
  by_cases hrc : rc ≠ mdbSuccess
  · rw [if_pos hrc] at h
    rw [← Except.ok.inj h]
  · rw [if_neg hrc] at h
    rw [← Except.ok.inj h]
    rfl

/-- `IsHashExist` changes the object by `Init` only, if it gets there. -/
theorem isHashExist_keeps (this : CFeatureDB) (q : QueryOutcomes) (pHash : Option (List UInt8))
    (nLength : Int) (bExist : Bool) (r : QueryResult)
    (h : this.isHashExist q pHash nLength bExist = .ok r) :
    SameLife (if queryGetsReady pHash nLength = false then this
      else (this.init q.envCreate q.envOpen).2) r.this := by
  unfold CFeatureDB.isHashExist at h
  unfold queryGetsReady
  cases pHash with
  | none =>
      rw [← Except.ok.inj h]
      exact ⟨rfl, rfl⟩
  | some pHash =>
      dsimp only at h
      rw [Option.isSome_some, Bool.true_and]
      by_cases hlength : nLength < 16
      · rw [if_pos hlength] at h
        rw [decide_eq_true hlength, Bool.not_true, if_pos rfl, ← Except.ok.inj h]
        exact ⟨rfl, rfl⟩
      rw [if_neg hlength, ready_eq_init] at h
      rw [decide_eq_false hlength, Bool.not_false, if_neg (by decide)]
      by_cases hready : (this.init q.envCreate q.envOpen).1 = false
      · rw [if_pos hready] at h
        rw [← Except.ok.inj h]
        exact ⟨rfl, rfl⟩
      rw [if_neg hready] at h
      -- From here on only the transaction touches the environment, which it leaves open or not.
      cases hbegin : mdbTxnBegin (this.init q.envCreate q.envOpen).2.m_pEnv true q.txnBegin with
      | error e =>
          rw [hbegin] at h
          exact absurd h (by simp only [reduceCtorEq, not_false_eq_true])
      | ok x =>
          have hhandle := mdbTxnBegin_handle _ _ _ x hbegin
          rcases x with ⟨iRet, pTxn, env⟩
          rw [hbegin] at h
          cases pTxn with
          | none =>
              rw [← Except.ok.inj h]
              exact ⟨rfl, hhandle⟩
          | some txn =>
              -- Every way out behind this one resets and aborts the transaction.
              have habort := (mdbTxnAbort_env env (mdbTxnReset txn)).1.trans hhandle
              dsimp only at h
              by_cases hdbi : q.dbiOpen ≠ mdbSuccess
              · rw [if_pos hdbi] at h
                rw [← Except.ok.inj h]
                exact ⟨rfl, habort⟩
              rw [if_neg hdbi] at h
              cases hhex : hexToWStr pHash (UInt32.ofInt nLength) with
              | error e =>
                  rw [hhex] at h
                  exact absurd h (by simp only [reduceCtorEq, not_false_eq_true])
              | ok w =>
                  rw [hhex] at h
                  dsimp only at h
                  split at h
                  · rw [← Except.ok.inj h]
                    exact ⟨rfl, habort⟩
                  · rw [← Except.ok.inj h]
                    exact ⟨rfl, habort⟩

/-- Without an environment `Load` returns. -/
theorem load_returns (this : CFeatureDB) (sm3 : Sm3) (c : CSM4Crypto) (o : LoadOutcomes)
    (strHashstoreDir strSuffix : String) (hready : (this.init o.envCreate o.envOpen).1 = false) :
    ∃ r, this.load sm3 c o strHashstoreDir strSuffix = .ok r := by
  unfold CFeatureDB.load
  cases o.attributes (loadPath o strHashstoreDir) with
  | none => exact ⟨_, rfl⟩
  | some directory =>
      cases directory with
      | true =>
          dsimp only
          unfold CFeatureDB.loadDirectory
          dsimp only
          by_cases hfetch : (o.fetchXFromDir (loadPath o strHashstoreDir)
              (loadSuffix strSuffix)).1 = false
          · rw [if_pos hfetch]
            exact ⟨_, rfl⟩
          · rw [if_neg hfetch, ready_eq_init, if_pos hready]
            exact ⟨_, rfl⟩
      | false =>
          dsimp only
          unfold CFeatureDB.loadFile
          dsimp only
          rw [ready_eq_init, if_pos hready]
          split
          · exact ⟨_, rfl⟩
          · split
            · exact ⟨_, rfl⟩
            · exact ⟨_, rfl⟩

/-- So does `IsHashExist`. -/
theorem isHashExist_returns (this : CFeatureDB) (q : QueryOutcomes) (pHash : Option (List UInt8))
    (nLength : Int) (bExist : Bool) (hready : (this.init q.envCreate q.envOpen).1 = false) :
    ∃ r, this.isHashExist q pHash nLength bExist = .ok r := by
  unfold CFeatureDB.isHashExist
  cases pHash with
  | none => exact ⟨_, rfl⟩
  | some pHash =>
      dsimp only
      rw [ready_eq_init, if_pos hready]
      split
      · exact ⟨_, rfl⟩
      · exact ⟨_, rfl⟩

/-! ### Runs -/

/-- A call that goes through `Init` if it gets there: `gets` says whether, and
    `given` what lmdb is given. -/
theorem throughInit_iff (this : CFeatureDB) (hsound : InitSound this) (create opening : Int)
    (gets : Bool) (given : List EnvHandle) (next : Option CFeatureDB)
    (hgiven : ∀ h ∈ given, gets = true ∧ (this.init create opening).1 = true ∧
      h = (this.init create opening).2.m_pEnv.handle)
    (hnext : ∀ t, next = some t →
      SameLife (if gets = false then this else (this.init create opening).2) t)
    (hends : next = none → (this.init create opening).1 = true) :
    ((∀ h ∈ given, h = .opened) ∧ ∀ t, next = some t → InitSound t) ↔
      this.m_bInit = true ∨ gets = false ∨ Opens create opening := by
  cases gets with
  | false =>
      refine iff_of_true ⟨fun h hh => ?_, fun t ht => ?_⟩ (Or.inr (Or.inl rfl))
      · exact absurd (hgiven h hh).1 Bool.false_ne_true
      · exact (hnext t ht).sound_iff.mpr hsound
  | true =>
      -- The condition is that `Init` leaves a sound object.
      have hopens : (this.m_bInit = true ∨ (true : Bool) = false ∨ Opens create opening) ↔
          InitSound (this.init create opening).2 := by
        rw [init_sound_iff this hsound]
        simp only [Bool.true_eq_false, false_or]
      rw [hopens]
      constructor
      · rintro ⟨-, hall⟩
        cases hnone : next with
        | none =>
            -- A call that ends the process has got past `Init`.
            exact (init_sound_iff this hsound _ _).mpr
              (init_opened this hsound _ _ (hends hnone)).1
        | some t => exact (hnext t hnone).sound_iff.mp (hall t hnone)
      · intro hafter
        refine ⟨fun h hh => ?_, fun t ht => (hnext t ht).sound_iff.mpr hafter⟩
        rcases hgiven h hh with ⟨-, hret, hhandle⟩
        rw [hhandle]
        exact (init_opened this hsound _ _ hret).2.1

/-- `Load` of a sound object gives lmdb open environments and leaves a sound
    object, if it returns, exactly when it meets the condition. -/
theorem load_iff (sm3 : Sm3) (c : CSM4Crypto) (this : CFeatureDB) (o : LoadOutcomes)
    (strHashstoreDir strSuffix : String) (hsound : InitSound this) :
    (HandsOpened this (.load o strHashstoreDir strSuffix) ∧
        ∀ t, dbStep sm3 c this (.load o strHashstoreDir strSuffix) = some t → InitSound t) ↔
      CallMeets this (.load o strHashstoreDir strSuffix) := by
  refine throughInit_iff this hsound o.envCreate o.envOpen
    (loadGetsReady o strHashstoreDir strSuffix) _ _ (fun h hh => ?_) (fun t ht => ?_)
    (fun hnone => ?_)
  · -- Whatever lmdb is given is the environment that the object has after `Init`.
    unfold handed at hh
    dsimp only at hh
    rw [ready_eq_init] at hh
    split at hh
    · exact absurd hh List.not_mem_nil
    · rename_i hgets
      rw [not_or] at hgets
      split at hh
      · exact absurd hh List.not_mem_nil
      · exact ⟨eq_true_of_ne_false hgets.1, eq_true_of_ne_false hgets.2,
          List.mem_singleton.mp hh⟩
  · -- A call that returns has changed the object by `Init` only.
    unfold dbStep at ht
    dsimp only at ht
    cases hload : this.load sm3 c o strHashstoreDir strSuffix with
    | error e =>
        rw [hload] at ht
        exact absurd ht (by simp only [reduceCtorEq, not_false_eq_true])
    | ok r =>
        rw [hload] at ht
        exact Option.some.inj ht ▸ load_keeps this sm3 c o strHashstoreDir strSuffix r hload
  · -- Had `Init` failed, the call would have returned.
    by_contra hready
    rcases load_returns this sm3 c o strHashstoreDir strSuffix (Bool.eq_false_iff.mpr hready)
      with ⟨r, hr⟩
    unfold dbStep at hnone
    dsimp only at hnone
    rw [hr] at hnone
    exact absurd hnone (by simp only [reduceCtorEq, not_false_eq_true])

/-- So does `IsHashExist`. -/
theorem isHashExist_iff (sm3 : Sm3) (c : CSM4Crypto) (this : CFeatureDB) (q : QueryOutcomes)
    (pHash : Option (List UInt8)) (nLength : Int) (bExist : Bool) (hsound : InitSound this) :
    (HandsOpened this (.isHashExist q pHash nLength bExist) ∧
        ∀ t, dbStep sm3 c this (.isHashExist q pHash nLength bExist) = some t → InitSound t) ↔
      CallMeets this (.isHashExist q pHash nLength bExist) := by
  refine throughInit_iff this hsound q.envCreate q.envOpen (queryGetsReady pHash nLength) _ _
    (fun h hh => ?_) (fun t ht => ?_) (fun hnone => ?_)
  · -- Whatever lmdb is given is the environment that the object has after `Init`.
    unfold handed at hh
    dsimp only at hh
    rw [ready_eq_init] at hh
    split at hh
    · exact absurd hh List.not_mem_nil
    · rename_i hgets
      rw [not_or] at hgets
      exact ⟨eq_true_of_ne_false hgets.1, eq_true_of_ne_false hgets.2,
        List.mem_singleton.mp hh⟩
  · -- A call that returns has changed the object by `Init` only.
    unfold dbStep at ht
    dsimp only at ht
    cases hquery : this.isHashExist q pHash nLength bExist with
    | error e =>
        rw [hquery] at ht
        exact absurd ht (by simp only [reduceCtorEq, not_false_eq_true])
    | ok r =>
        rw [hquery] at ht
        exact Option.some.inj ht ▸ isHashExist_keeps this q pHash nLength bExist r hquery
  · -- Had `Init` failed, the call would have returned.
    by_contra hready
    rcases isHashExist_returns this q pHash nLength bExist (Bool.eq_false_iff.mpr hready)
      with ⟨r, hr⟩
    unfold dbStep at hnone
    dsimp only at hnone
    rw [hr] at hnone
    exact absurd hnone (by simp only [reduceCtorEq, not_false_eq_true])

/-- A call of a sound object gives lmdb open environments and leaves a sound
    object, if it returns, exactly when it meets the condition. -/
theorem call_iff (sm3 : Sm3) (c : CSM4Crypto) (this : CFeatureDB) (call : DbCall)
    (hsound : InitSound this) :
    (HandsOpened this call ∧ ∀ t, dbStep sm3 c this call = some t → InitSound t) ↔
      CallMeets this call := by
  -- A call that gives lmdb nothing and returns.
  have honly : ∀ t, (∀ h ∈ ([] : List EnvHandle), h = EnvHandle.opened) ∧
      (∀ t', some t = some t' → InitSound t') ↔ InitSound t := fun t =>
    ⟨fun h => h.2 t rfl, fun h => ⟨fun _ hh => absurd hh List.not_mem_nil,
      fun t' ht' => Option.some.inj ht' ▸ h⟩⟩
  cases call with
  | init create opening =>
      exact (honly _).trans (init_sound_iff this hsound create opening)
  | initEnv create opening =>
      refine (honly _).trans ?_
      rcases (initSound_iff this).mp hsound with ⟨-, hopened⟩ | ⟨-, hnull⟩
      · -- An open environment is not touched, but the flag is cleared first.
        refine iff_of_false (initEnv_not_sound this hopened create opening) (fun h => ?_)
        rw [h.1] at hopened
        exact absurd hopened (by simp only [reduceCtorEq, not_false_eq_true])
      · exact (initEnv_sound_iff this hnull create opening).trans (and_iff_right hnull).symm
  | uninit =>
      rw [show CallMeets this .uninit ↔ InitSound this.uninit from
        (uninit_sound_iff this hsound).symm]
      constructor
      · exact fun h => h.2 _ rfl
      · intro h
        refine ⟨fun e he => ?_, fun t ht => Option.some.inj ht ▸ h⟩
        unfold handed at he
        -- An object that is not initialised has nothing to close.
        rw [(uninit_sound_iff this hsound).mp h, if_neg (fun hb => Bool.false_ne_true hb.1)] at he
        exact absurd he List.not_mem_nil
  | load o strHashstoreDir strSuffix =>
      exact load_iff sm3 c this o strHashstoreDir strSuffix hsound
  | isHashExist q pHash nLength bExist =>
      exact isHashExist_iff sm3 c this q pHash nLength bExist hsound

/-- The object as it is constructed, with a database on disk. -/
def CFeatureDB.start (db : Db) : CFeatureDB where
  m_pEnv := { handle := .null, committed := db, txn0Freed := false, events := [] }
  m_bInit := false

theorem start_sound (db : Db) : InitSound (CFeatureDB.start db) :=
  (initSound_iff _).mpr (Or.inr ⟨rfl, rfl⟩)

/-- In a run of calls, whatever they come to, every state is sound and lmdb is
    given open environments only, exactly when every call meets the condition. -/
theorem life_iff (sm3 : Sm3) (c : CSM4Crypto) (db : Db) (calls : List DbCall) :
    Throughout (dbStep sm3 c) InitSound (CFeatureDB.start db) calls ∧
        StepsMeet (dbStep sm3 c) HandsOpened (CFeatureDB.start db) calls ↔
      StepsMeet (dbStep sm3 c) CallMeets (CFeatureDB.start db) calls :=
  throughout_and_iff (dbStep sm3 c) (fun _ => True) InitSound HandsOpened CallMeets
    (fun _ _ _ _ _ => trivial) (fun this call _ hsound => call_iff sm3 c this call hsound) _ calls
    trivial (start_sound db)

/-- A query after `Uninit` gives lmdb a null pointer. -/
theorem life_not :
    ¬ ∀ (sm3 : Sm3) (c : CSM4Crypto) (db : Db) (calls : List DbCall),
      Throughout (dbStep sm3 c) InitSound (CFeatureDB.start db) calls ∧
        StepsMeet (dbStep sm3 c) HandsOpened (CFeatureDB.start db) calls := by
  intro h
  have hsteps := (h standardSm3 CSM4Crypto.getInstance Db.empty
    [.init mdbSuccess mdbSuccess, .uninit,
      .isHashExist QueryOutcomes.good (some (List.replicate 16 0)) 16 false]).2
  -- The flag is still set, so the query does not call `InitEnv`.
  have hquery := ((hsteps.2 _ rfl).2 _ rfl).1
  exact absurd (hquery .null (by decide)) (by decide)

end Feature

end Defender
