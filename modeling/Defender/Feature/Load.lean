import Defender.Feature.LoadDat

/-!
# The Feature Database

`CFeatureDB` around `LoadDat`: opening and closing the environment, clearing
it, loading a directory or a file, and asking for a hash. The object has two
members that matter, the flag `m_bInit` and the environment behind `m_pEnv`.

`ClearLMDB` drops the database in a transaction it begins read-only, so the
drop is refused; the transaction is aborted and the function returns true all
the same. `Load` of a directory keeps the value the listing returned in `bRet`
when it then leaves because the environment could not be opened. The listing
itself, `FetchXFromDir`, returns false when nothing is found, and else ends
without a return, so that its value is whatever is in the register. All of this
is kept here as it is.

What the search for a pattern finds, the attributes of a path, what opening a
file gives and what every call out of the functions comes to are in
`LoadOutcomes`.
The path of the database does not matter here and is left out, and so is the
name a query finds, which is written to a parameter passed by value.

## Main definitions

* `CFeatureDB`: The object.
* `CFeatureDB.init`, `CFeatureDB.initEnv`, `CFeatureDB.uninit`: Its life.
* `CFeatureDB.clearLMDB`: What is meant to clear it.
* `LoadOutcomes.fetchXFromDir`: The listing of a directory.
* `CFeatureDB.load`, `loadOne`: Loading, and one turn of its loop.
* `CFeatureDB.isHashExist`: The query.
-/

namespace Defender

namespace Feature

open Crypto

/-- `CFeatureDB`. -/
structure CFeatureDB where
  m_pEnv : MdbEnv
  m_bInit : Bool

/-- `CFeatureDB::InitEnv`, with the codes of creating and of opening. -/
def CFeatureDB.initEnv (this : CFeatureDB) (create : Int) (opening : Int) : Bool × CFeatureDB :=
  if this.m_pEnv.handle ≠ .null then (false, { this with m_bInit := false })
  else
    let (nRet, env) := mdbEnvCreate this.m_pEnv create
    if nRet ≠ mdbSuccess then (false, { m_pEnv := env, m_bInit := false })
    else
      let (nRet, env) := mdbEnvOpen env opening
      if nRet ≠ mdbSuccess then (false, { m_pEnv := env, m_bInit := false })
      else (true, { m_pEnv := env, m_bInit := true })

/-- `CFeatureDB::Init`. -/
def CFeatureDB.init (this : CFeatureDB) (create : Int) (opening : Int) : Bool × CFeatureDB :=
  if this.m_bInit = true then (true, this)
  else
    let (bInit, this) := this.initEnv create opening
    (bInit, { this with m_bInit := bInit })

/-- `CFeatureDB::Uninit`. -/
def CFeatureDB.uninit (this : CFeatureDB) : CFeatureDB :=
  if this.m_bInit = true ∧ this.m_pEnv.handle ≠ .null then
    { this with m_pEnv := mdbEnvClose this.m_pEnv }
  else this

/-- `!m_bInit && (!Init())` the other way around. -/
def CFeatureDB.ready (this : CFeatureDB) (create : Int) (opening : Int) : Bool × CFeatureDB :=
  if this.m_bInit = true then (true, this) else this.init create opening

/-- What the calls out of `Load` come to. `found` are the names that
    `FindFirstFile` and `FindNextFile` give for a pattern, none when the first of
    them fails, and `register` is the value of a function that ends without a
    return. The last two are for each call of `LoadDat`. -/
structure LoadOutcomes where
  runDir : String
  attributes : String → Option Bool
  found : String → List String
  register : Bool
  envCreate : Int
  envOpen : Int
  clearBegin : Int
  clearDbiOpen : Int
  clearDrop : Option Int
  clearCommit : Int
  file : Nat → Option (List UInt8)
  dat : Nat → DatOutcomes

/-- `_tcsicmp` giving zero. -/
def tcsicmpEq (a b : List Char) : Bool :=
  a.map Char.toLower == b.map Char.toLower

/-- The directory with a backslash at its end. -/
def basePath (strDir : String) : String :=
  if strDir.toList.getLast? = some '\\' then strDir else strDir ++ "\\"

/-- `FileOperationHelper::FetchXFromDir`: the value returned, and the files. -/
def LoadOutcomes.fetchXFromDir (o : LoadOutcomes) (strDir strSuffix : String) :
    Bool × List String :=
  match o.found (basePath strDir ++ "*" ++ strSuffix) with
  | [] => (false, [])
  | names =>
      -- `bRet` is set to `TRUE` here and not returned.
      (o.register, (names.filter (fun cFileName =>
        !(tcsicmpEq ['.'] cFileName.toList || tcsicmpEq ['.', '.'] cFileName.toList))).map
          (basePath strDir ++ ·))

/-- `CFeatureDB::ClearLMDB`. -/
def CFeatureDB.clearLMDB (this : CFeatureDB) (o : LoadOutcomes) :
    Except Crash (Bool × CFeatureDB) :=
  if this.m_bInit = false ∨ this.m_pEnv.handle = .null then .ok (false, this)
  else
    match mdbTxnBegin this.m_pEnv true o.clearBegin with
    | .error e => .error e
    | .ok (_, none, env) => .ok (false, { this with m_pEnv := env })
    | .ok (_, some txn, env) =>
        if o.clearDbiOpen ≠ mdbSuccess then
          .ok (false, { this with m_pEnv := (mdbTxnAbort env txn).1 })
        else
          let (iRet, txn) := mdbDrop txn o.clearDrop
          if iRet = mdbSuccess then
            let (_, env, _) := mdbTxnCommit env txn o.clearCommit
            .ok (true, { this with m_pEnv := env })
          else .ok (true, { this with m_pEnv := (mdbTxnAbort env txn).1 })

/-- The variables of the loop over the files: the environment, `iSucc`, the
    versions, how many files there were and which of them were loaded. -/
structure LoadLoop where
  m_pEnv : MdbEnv
  iSucc : Nat
  lstVers : List String
  calls : Nat
  loaded : List Nat

/-- One turn of the loop over the files. -/
def loadOne (sm3 : Sm3) (c : CSM4Crypto) (o : LoadOutcomes) (s : LoadLoop) (path : String) :
    Except Crash LoadLoop :=
  match loadDat sm3 c (o.dat s.calls) s.m_pEnv path.isEmpty (o.file s.calls) with
  | .error e => .error e
  | .ok r =>
      if r.bRet = true then
        .ok { m_pEnv := r.env
              iSucc := s.iSucc + 1
              lstVers := s.lstVers ++ [r.strDatVersion.getD ""]
              calls := s.calls + 1
              loaded := s.loaded ++ [s.calls] }
      else .ok { s with m_pEnv := r.env, calls := s.calls + 1 }

/-- What `Load` leaves behind. -/
structure LoadResult where
  bRet : Bool
  this : CFeatureDB
  lstVers : List String
  loaded : List Nat

/-- Leaving `Load` before anything is loaded. -/
def LoadResult.early (bRet : Bool) (this : CFeatureDB) : LoadResult where
  bRet := bRet
  this := this
  lstVers := []
  loaded := []

/-- `Load` on a directory. -/
def CFeatureDB.loadDirectory (this : CFeatureDB) (sm3 : Sm3) (c : CSM4Crypto) (o : LoadOutcomes)
    (strPath xstrSuffix : String) : Except Crash LoadResult :=
  let (bRet, lstFiles) := o.fetchXFromDir strPath xstrSuffix
  if bRet = false then .ok (LoadResult.early false this)
  else
    let (ready, this) := this.ready o.envCreate o.envOpen
    -- Leaving here returns what the listing returned.
    if ready = false then .ok (LoadResult.early bRet this)
    else
      match this.clearLMDB o with
      | .error e => .error e
      | .ok (false, this) => .ok (LoadResult.early false this)
      | .ok (true, this) =>
          match lstFiles.foldlM (loadOne sm3 c o)
              { m_pEnv := this.m_pEnv, iSucc := 0, lstVers := [], calls := 0, loaded := [] } with
          | .error e => .error e
          | .ok s =>
              .ok { bRet := !(s.iSucc == 0 && !lstFiles.isEmpty)
                    this := { this with m_pEnv := s.m_pEnv }
                    lstVers := s.lstVers
                    loaded := s.loaded }

/-- `Load` on a file. -/
def CFeatureDB.loadFile (this : CFeatureDB) (sm3 : Sm3) (c : CSM4Crypto) (o : LoadOutcomes)
    (strPath xstrSuffix : String) : Except Crash LoadResult :=
  if xstrSuffix.length > strPath.length then .ok (LoadResult.early false this)
  else
    let strSuff := strPath.toList.drop (strPath.length - xstrSuffix.length)
    if tcsicmpEq strSuff xstrSuffix.toList = false then .ok (LoadResult.early false this)
    else
      let (ready, this) := this.ready o.envCreate o.envOpen
      if ready = false then .ok (LoadResult.early false this)
      else
        match loadDat sm3 c (o.dat 0) this.m_pEnv strPath.isEmpty (o.file 0) with
        | .error e => .error e
        | .ok r =>
            .ok { bRet := r.bRet
                  this := { this with m_pEnv := r.env }
                  lstVers := [r.strDatVersion.getD ""]
                  loaded := if r.bRet = true then [0] else [] }

/-- The path `Load` goes by. -/
def loadPath (o : LoadOutcomes) (strHashstoreDir : String) : String :=
  if strHashstoreDir.isEmpty then o.runDir ++ "\\" ++ "HashStore" else strHashstoreDir

/-- The suffix `Load` goes by. -/
def loadSuffix (strSuffix : String) : String :=
  if strSuffix.isEmpty then ".dat" else strSuffix

/-- `CFeatureDB::Load`. -/
def CFeatureDB.load (this : CFeatureDB) (sm3 : Sm3) (c : CSM4Crypto) (o : LoadOutcomes)
    (strHashstoreDir strSuffix : String) : Except Crash LoadResult :=
  match o.attributes (loadPath o strHashstoreDir) with
  | none => .ok (LoadResult.early false this)
  | some true => this.loadDirectory sm3 c o (loadPath o strHashstoreDir) (loadSuffix strSuffix)
  | some false => this.loadFile sm3 c o (loadPath o strHashstoreDir) (loadSuffix strSuffix)

/-- What the calls out of `IsHashExist` come to. -/
structure QueryOutcomes where
  envCreate : Int
  envOpen : Int
  txnBegin : Int
  dbiOpen : Int
  get : Option Int

/-- What a query leaves behind: the value returned, `bExist`, and the object. -/
structure QueryResult where
  bRet : Bool
  bExist : Bool
  this : CFeatureDB

/-- `CFeatureDB::IsHashExist`. `pHash` is what is readable behind the pointer. -/
def CFeatureDB.isHashExist (this : CFeatureDB) (q : QueryOutcomes) (pHash : Option (List UInt8))
    (nLength : Int) (bExist : Bool) : Except Crash QueryResult :=
  match pHash with
  | none => .ok { bRet := false, bExist := bExist, this := this }
  | some pHash =>
      if nLength < 16 then .ok { bRet := false, bExist := bExist, this := this }
      else
        let (ready, this) := this.ready q.envCreate q.envOpen
        if ready = false then .ok { bRet := false, bExist := bExist, this := this }
        else
          match mdbTxnBegin this.m_pEnv true q.txnBegin with
          | .error e => .error e
          | .ok (_, none, env) =>
              .ok { bRet := false, bExist := bExist, this := { this with m_pEnv := env } }
          | .ok (_, some txn, env) =>
              let this := { this with m_pEnv := (mdbTxnAbort env (mdbTxnReset txn)).1 }
              if q.dbiOpen ≠ mdbSuccess then .ok { bRet := false, bExist := bExist, this := this }
              else
                match hexToWStr pHash (UInt32.ofInt nLength) with
                | .error e => .error e
                | .ok _ =>
                    let (iRet, _) := mdbGet txn (pHash.take nLength.toNat) q.get
                    if iRet ≠ mdbSuccess then
                      .ok { bRet := iRet == mdbNotFound, bExist := false, this := this }
                    else .ok { bRet := true, bExist := true, this := this }

end Feature

end Defender
