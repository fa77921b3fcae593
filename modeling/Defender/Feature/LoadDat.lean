import Defender.Crypto.Sm3
import Defender.Crypto.Sm4
import Defender.Feature.Lmdb

/-!
# Loading a Feature File

`CFeatureDB::LoadDat`. A feature file is a header of ninety-six bytes, in
clear, and records of eighty bytes, each encrypted. The function reads the
header, checks its first three letters, keeps the stored hash and feeds the
header with that field zeroed to SM3. Then it opens one write transaction and
reads the file in batches of two hundred and four records through one buffer,
decrypting, inserting and feeding each record. What remains behind the last
whole record of a short batch is not looked at. If the hash comes out as
stored the transaction is committed, else aborted.

SM3 is a parameter, a function of the bytes fed; `standardSm3` is the one of
the standard. The file is what opening it gives; everything else that is not
decided by the program (allocations, reads, lmdb calls, the contents of fresh
memory) is in `DatOutcomes`.

What the loops compute is in `Feature.DatFile`.

## Main definitions

* `getHashLengthByType`, `hexToWStr`: The helpers.
* `DatOutcomes`: What the calls out of the function come to.
* `loadRecord`, `datBatches`: The inner and the outer loop.
* `datFinish`, `datTransaction`, `datBody`, `datCleanup`: The parts of the
  function, from its end to its beginning.
* `loadDat`: The function.
-/

namespace Defender

namespace Feature

open Wire Crypto

/-- `GetHashLengthByType`. -/
def getHashLengthByType (nType : Int) : Int :=
  if nType = 3 then 16
  else if nType = 1 then 20
  else if nType = 2 then 32
  else if nType = 4 then 32
  else -1

/-- The upper-case hexadecimal digits of a byte, as `%02X` prints them. -/
def hexByte (b : UInt8) : List Char :=
  let digits := "0123456789ABCDEF".toList
  [digits.getD (b.toNat / 16) '0', digits.getD (b.toNat % 16) '0']

/-- `HexToWStr` on the bytes readable behind the pointer. -/
def hexToWStr (pHex : List UInt8) (nLen : UInt32) : Except Crash (List Char) :=
  if pHex.length < nLen.toNat then .error .accessViolation
  else .ok ((pHex.take nLen.toNat).flatMap hexByte)

/-- A hash of thirty-two bytes of everything it is fed. -/
abbrev Sm3 := List UInt8 → Vector UInt8 32

/-- The SM3 of the standard. -/
def standardSm3 : Sm3 := fun m =>
  ⟨(gbSm3 m).toArray, length_gbSm3 m⟩

/-- `sizeof(HASHSTORE_HEADER)`. -/
def headerSize : Nat := 96

/-- `sizeof(VIRUS_INFO)`. -/
def virusInfoSize : Nat := 80

/-- `dwBufSize`. -/
def bufSize : Nat := 16 * 1024

/-- The records of a full batch. -/
def batchCount : Nat := bufSize / virusInfoSize

/-- What the calls out of `LoadDat` come to: whether the allocations and the
    reads succeed, what fresh memory holds, and the codes of the lmdb calls. -/
structure DatOutcomes where
  newOk : Bool
  heap : List UInt8
  headerReadOk : Bool
  sm3Malloc : Bool
  outMalloc : Bool
  outHeap : List UInt8
  txnBegin : Int
  dbiOpen : Int
  cursorOpen : Int
  readOk : Nat → Bool
  put : Nat → Option (Int × Bool)
  commit : Int
  heap_length : heap.length = bufSize
  outHeap_length : outHeap.length = virusInfoSize

/-- `HASHSTORE_HEADER::Sha1` in a buffer. -/
def storedHash (pBuffer : List UInt8) : List UInt8 :=
  slice pBuffer 64 32

/-- The buffer with the `Sha1` field set to zero. -/
def zeroHash (pBuffer : List UInt8) : List UInt8 :=
  poke pBuffer 64 (List.replicate 32 0)

/-- The three letters at the front. -/
def hasMagic (pBuffer : List UInt8) : Bool :=
  byteAt pBuffer 0 == 65 && byteAt pBuffer 1 == 82 && byteAt pBuffer 2 == 83

/-- A `SHORT` as `%d` prints it. -/
def shortAt (pBuffer : List UInt8) (i : Nat) : String :=
  toString (word16At pBuffer i).toInt16.toInt

/-- `szDatVersion`. -/
def datVersion (pBuffer : List UInt8) : String :=
  shortAt pBuffer 3 ++ "." ++ shortAt pBuffer 5 ++ "." ++ shortAt pBuffer 7 ++ "."
    ++ shortAt pBuffer 9

/-- The variables of the loops: the transaction, the bytes fed to SM3, the two
    buffers, the record count, and how many puts there were. -/
structure DatLoop where
  txn : MdbTxn
  fed : List UInt8
  pBuffer : List UInt8
  pVirusInfoOut : List UInt8
  iReadCount : Nat
  puts : Nat

/-- `VIRUS_INFO::Hash` and what is readable behind it. -/
def virusHash (virusInfo : List UInt8) : List UInt8 :=
  virusInfo.drop 1

/-- `VIRUS_INFO::HashType`. -/
def virusHashType (virusInfo : List UInt8) : Int :=
  (byteAt virusInfo 0).toNat

/-- The key of a record. -/
def virusKey (virusInfo : List UInt8) : List UInt8 :=
  (virusHash virusInfo).take (getHashLengthByType (virusHashType virusInfo)).toNat

/-- One turn of the inner loop, on record `i` of the buffer. -/
def loadRecord (c : CSM4Crypto) (o : DatOutcomes) (s : DatLoop) (i : Nat) : Except Crash DatLoop :=
  let pVirusInfo := slice s.pBuffer (i * virusInfoSize) virusInfoSize
  let out := c.decryptSector pVirusInfo s.pVirusInfoOut (virusInfoSize / cryptoUnitSize)
  let length := getHashLengthByType (virusHashType out)
  let (iRet, txn) := mdbCursorPut s.txn (virusKey out) (UInt64.ofInt length) out (o.put s.puts)
  let next := { s with
    txn := txn, fed := s.fed ++ out, pVirusInfoOut := out, puts := s.puts + 1 }
  if iRet = mdbKeyExist then .ok next
  else
    match hexToWStr (virusHash out) (UInt32.ofInt length) with
    | .error e => .error e
    | .ok _ => .ok next

/-- The outer loop, on what is left of the file and the number of reads made. -/
def datBatches (c : CSM4Crypto) (o : DatOutcomes) (rest : List UInt8) (k : Nat) (s : DatLoop) :
    Except Crash DatLoop :=
  if o.readOk k = false then .ok s
  else
    let data := rest.take (batchCount * virusInfoSize)
    if _hdata : data.length = 0 then .ok s
    else
      let iReadCount :=
        -- A part of a record at the end of the file is left out.
        if data.length < batchCount * virusInfoSize then data.length / virusInfoSize
        else s.iReadCount
      match (List.range iReadCount).foldlM (loadRecord c o)
          { s with pBuffer := poke s.pBuffer 0 data, iReadCount := iReadCount } with
      | .error e => .error e
      | .ok s' =>
          datBatches c o (rest.drop (batchCount * virusInfoSize)) (k + 1)
            { s' with
              pBuffer := poke s'.pBuffer 0 (List.replicate data.length 0)
              pVirusInfoOut := List.replicate virusInfoSize 0 }
termination_by rest.length
decreasing_by
  rw [List.length_take] at _hdata
  rw [List.length_drop]
  simp only [batchCount, bufSize, virusInfoSize] at _hdata ⊢
  omega

/-- Where the `do` block is left: the value to return, the environment, the
    transaction and `iRet` for the clean-up, the version if it was set, and
    the bytes fed to SM3. -/
structure DatExit where
  bRet : Bool
  env : MdbEnv
  pTxn : Option MdbTxn
  iRet : Int
  strDatVersion : Option String
  fed : List UInt8

/-- Leaving before there is a transaction. -/
def DatExit.early (env : MdbEnv) (version : Option String) (fed : List UInt8) : DatExit where
  bRet := false
  env := env
  pTxn := none
  iRet := 0
  strDatVersion := version
  fed := fed

/-- Behind the loops: compare the hashes, and commit or abort. -/
def datFinish (sm3 : Sm3) (o : DatOutcomes) (env : MdbEnv) (check : List UInt8) (version : String)
    (s : DatLoop) : DatExit :=
  if (sm3 s.fed).toList = check then
    let (iRet, env, txn) := mdbTxnCommit env s.txn o.commit
    { bRet := iRet == mdbSuccess, env := env, pTxn := some txn, iRet := iRet,
      strDatVersion := some version, fed := s.fed }
  else
    let (env, txn) := mdbTxnAbort env s.txn
    { bRet := false, env := env, pTxn := some txn, iRet := mdbSuccess,
      strDatVersion := some version, fed := s.fed }

/-- From the transaction on. -/
def datTransaction (sm3 : Sm3) (c : CSM4Crypto) (o : DatOutcomes) (env : MdbEnv)
    (file pBuffer check : List UInt8) (version : String) : Except Crash DatExit :=
  let fed := slice pBuffer 0 headerSize
  match mdbTxnBegin env false o.txnBegin with
  | .error e => .error e
  -- The code of the failed begin finds no transaction in the clean-up.
  | .ok (iRet, none, env) =>
      .ok { DatExit.early env (some version) fed with iRet := iRet }
  | .ok (_, some txn, env) =>
      if o.dbiOpen ≠ mdbSuccess then
        .ok { DatExit.early env (some version) fed with pTxn := some txn, iRet := o.dbiOpen }
      else if o.cursorOpen ≠ mdbSuccess then
        .ok { DatExit.early env (some version) fed with pTxn := some txn, iRet := o.cursorOpen }
      else
        match datBatches c o (file.drop headerSize) 0
            { txn := txn
              fed := fed
              pBuffer := poke pBuffer 0 (List.replicate (min headerSize file.length) 0)
              pVirusInfoOut := o.outHeap
              iReadCount := batchCount
              puts := 0 } with
        | .error e => .error e
        | .ok s => .ok (datFinish sm3 o env check version s)

/-- The `do` block of `LoadDat`. `strDatPath` is empty or not; `file` is what
    opening it gives. -/
def datBody (sm3 : Sm3) (c : CSM4Crypto) (o : DatOutcomes) (env : MdbEnv) (pathEmpty : Bool)
    (file : Option (List UInt8)) : Except Crash DatExit :=
  if pathEmpty = true then .ok (DatExit.early env none [])
  else
    match file with
    | none => .ok (DatExit.early env none [])
    | some file =>
        if o.newOk = false then .error .badAlloc
        else if o.headerReadOk = false then .ok (DatExit.early env none [])
        else
          let pBuffer := poke o.heap 0 (file.take headerSize)
          if hasMagic pBuffer = false then .ok (DatExit.early env none [])
          else
            let version := datVersion pBuffer
            if o.sm3Malloc = false then .ok (DatExit.early env (some version) [])
            else if o.outMalloc = false then
              .ok (DatExit.early env (some version) (slice (zeroHash pBuffer) 0 headerSize))
            else
              datTransaction sm3 c o env file (zeroHash pBuffer) (storedHash pBuffer) version

/-- What `LoadDat` leaves behind. -/
structure DatResult where
  bRet : Bool
  env : MdbEnv
  strDatVersion : Option String
  fed : List UInt8

/-- The clean-up: a transaction that is there with an error code is ended. -/
def datCleanup (e : DatExit) : DatResult :=
  match e.pTxn with
  | none => { bRet := e.bRet, env := e.env, strDatVersion := e.strDatVersion, fed := e.fed }
  | some txn =>
      if e.iRet ≠ mdbSuccess then
        { bRet := e.bRet, env := (mdbTxnAbort e.env (mdbTxnReset txn)).1,
          strDatVersion := e.strDatVersion, fed := e.fed }
      else { bRet := e.bRet, env := e.env, strDatVersion := e.strDatVersion, fed := e.fed }

/-- `CFeatureDB::LoadDat`. -/
def loadDat (sm3 : Sm3) (c : CSM4Crypto) (o : DatOutcomes) (env : MdbEnv) (pathEmpty : Bool)
    (file : Option (List UInt8)) : Except Crash DatResult :=
  match datBody sm3 c o env pathEmpty file with
  | .error e => .error e
  | .ok e => .ok (datCleanup e)

end Feature

end Defender
