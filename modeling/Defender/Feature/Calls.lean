import Defender.Feature.DatFile
import Defender.Lib.Machine

/-!
# The Calls that Loading a Feature File Makes

`CFeatureDB::LoadDat` again, with the lmdb calls it makes for its transaction,
in order, and of each put what it is given. The calls follow the function part
by part; what the calls come to, and with it where the function goes, is what
`loadDat` says.

Of a put there are the size of the key and, when the hash of the record is
printed, the length that `HexToWStr` is given. Both come from the type of the
record, which comes from the file, and a type that is not known makes minus one
of them (`turnSafe_iff`). A file is read and used before its hash is compared.
So the puts and prints stay inside the records exactly when all records that
are read have known types (`puts_safe_iff`).

## Main definitions

* `DatTurn`, `recordTurn`, `datTurns`: The puts of the loops.
* `TxnCall`, `loadDatCalls`: The calls.
* `TurnSafe`: A put inside its record.

## Theorems

* `datTurns_eq`: The puts are those of the records, up to one that crashes.
* `observed_safe_iff`: When all puts of the records are safe.
* `puts_safe_iff`: When all puts of the function are.
* `puts_notSafe`: A record whose type is zero.
-/

namespace Defender

namespace Feature

open Wire Crypto Machine

/-! ### The puts of the loops -/

/-- A put: the record, the size of its key, the code it comes to, and the length
    of the hash that is printed, if it is. -/
structure DatTurn where
  virusInfo : List UInt8
  keySize : UInt64
  iRet : Int
  hexLength : Option UInt32

/-- The put of one turn of the inner loop, on record `i` of the buffer. -/
def recordTurn (c : CSM4Crypto) (o : DatOutcomes) (s : DatLoop) (i : Nat) : DatTurn :=
  let pVirusInfo := slice s.pBuffer (i * virusInfoSize) virusInfoSize
  let out := c.decryptSector pVirusInfo s.pVirusInfoOut (virusInfoSize / cryptoUnitSize)
  let length := getHashLengthByType (virusHashType out)
  let iRet := (mdbCursorPut s.txn (virusKey out) (UInt64.ofInt length) out (o.put s.puts)).1
  { virusInfo := out
    keySize := UInt64.ofInt length
    iRet := iRet
    hexLength := if iRet = mdbKeyExist then none else some (UInt32.ofInt length) }

/-- The puts of the outer loop, on what is left of the file and the number of
    reads made. -/
def datTurns (c : CSM4Crypto) (o : DatOutcomes) (rest : List UInt8) (k : Nat) (s : DatLoop) :
    List DatTurn :=
  if o.readOk k = false then []
  else
    let data := rest.take (batchCount * virusInfoSize)
    if _hdata : data.length = 0 then []
    else
      -- A full read leaves the count that the reads before it made.
      let iReadCount :=
        if data.length < batchCount * virusInfoSize then data.length / virusInfoSize
        else s.iReadCount
      let start := { s with pBuffer := poke s.pBuffer 0 data, iReadCount := iReadCount }
      observed (recordTurn c o) (loadRecord c o) start (List.range iReadCount) ++
        match (List.range iReadCount).foldlM (loadRecord c o) start with
        | .error _ => []
        | .ok s' =>
            datTurns c o (rest.drop (batchCount * virusInfoSize)) (k + 1)
              { s' with
                pBuffer := poke s'.pBuffer 0 (List.replicate data.length 0)
                pVirusInfoOut := List.replicate virusInfoSize 0 }
termination_by rest.length
decreasing_by
  rw [List.length_take] at _hdata
  rw [List.length_drop]
  simp only [batchCount, bufSize, virusInfoSize] at _hdata ⊢
  omega

/-! ### The calls of the function -/

/-- The lmdb calls that are for the transaction, those that end in a code with
    it where it matters. -/
inductive TxnCall where
  | begin (iRet : Int)
  | dbiOpen
  | cursorOpen
  | cursorPut (turn : DatTurn)
  | cursorClose
  | commit (iRet : Int)
  | abort
  | reset

/-- The calls of `datFinish`. -/
def datFinishCalls (sm3 : Sm3) (o : DatOutcomes) (env : MdbEnv) (check : List UInt8)
    (s : DatLoop) : List TxnCall :=
  .cursorClose ::
    if (sm3 s.fed).toList = check then [.commit (mdbTxnCommit env s.txn o.commit).1]
    else [.abort]

/-- The calls of `datTransaction`. -/
def datTransactionCalls (sm3 : Sm3) (c : CSM4Crypto) (o : DatOutcomes) (env : MdbEnv)
    (file : List UInt8) : List TxnCall :=
  match mdbTxnBegin env false o.txnBegin with
  | .error _ => []
  | .ok (iRet, none, _) => [.begin iRet]
  | .ok (iRet, some txn, env) =>
      .begin iRet :: .dbiOpen ::
        if o.dbiOpen ≠ mdbSuccess then []
        else
          .cursorOpen ::
            if o.cursorOpen ≠ mdbSuccess then []
            else
              -- A put that ends the process is the last call.
              (datTurns c o (file.drop headerSize) 0 (loopStart o txn file)).map .cursorPut ++
                match datBatches c o (file.drop headerSize) 0 (loopStart o txn file) with
                | .error _ => []
                | .ok s => datFinishCalls sm3 o env (storedHash (headerBuffer o file)) s

/-- The calls of `datBody`. -/
def datBodyCalls (sm3 : Sm3) (c : CSM4Crypto) (o : DatOutcomes) (env : MdbEnv) (pathEmpty : Bool)
    (file : Option (List UInt8)) : List TxnCall :=
  if pathEmpty = true then []
  else
    match file with
    | none => []
    | some file =>
        if o.newOk = false then []
        else if o.headerReadOk = false then []
        else if hasMagic (headerBuffer o file) = false then []
        else if o.sm3Malloc = false then []
        else if o.outMalloc = false then []
        else datTransactionCalls sm3 c o env file

/-- The calls of `datCleanup`. -/
def datCleanupCalls (e : DatExit) : List TxnCall :=
  match e.pTxn with
  | none => []
  | some _ => if e.iRet ≠ mdbSuccess then [.reset, .abort] else []

/-- The calls of `loadDat`. -/
def loadDatCalls (sm3 : Sm3) (c : CSM4Crypto) (o : DatOutcomes) (env : MdbEnv) (pathEmpty : Bool)
    (file : Option (List UInt8)) : List TxnCall :=
  datBodyCalls sm3 c o env pathEmpty file ++
    match datBody sm3 c o env pathEmpty file with
    | .error _ => []
    | .ok e => datCleanupCalls e

/-! ### The puts are those of the records -/

/-- The put of one record. -/
def absorbTurn (c : CSM4Crypto) (o : DatOutcomes) (t : DatCore) (r : List UInt8) : DatTurn :=
  let out := plain c r
  let length := getHashLengthByType (virusHashType out)
  let iRet := (mdbCursorPut t.txn (virusKey out) (UInt64.ofInt length) out (o.put t.puts)).1
  { virusInfo := out
    keySize := UInt64.ofInt length
    iRet := iRet
    hexLength := if iRet = mdbKeyExist then none else some (UInt32.ofInt length) }

theorem recordTurn_eq (c : CSM4Crypto) (o : DatOutcomes) (s : DatLoop) (i : Nat)
    (h : s.pVirusInfoOut.length = virusInfoSize) :
    recordTurn c o s i
      = absorbTurn c o s.core (slice s.pBuffer (virusInfoSize * i) virusInfoSize) := by
  unfold recordTurn absorbTurn
  dsimp only [DatLoop.core]
  rw [decryptSector_eq_plain c _ _ h, Nat.mul_comm i virusInfoSize]

/-- The puts of the inner loop are those of the records of the buffer. -/
theorem observed_loadRecord (c : CSM4Crypto) (o : DatOutcomes) (is : List Nat) (s : DatLoop)
    (h : s.pVirusInfoOut.length = virusInfoSize) :
    observed (recordTurn c o) (loadRecord c o) s is
      = observed (absorbTurn c o) (absorb c o) s.core
          (is.map (fun i => slice s.pBuffer (virusInfoSize * i) virusInfoSize)) := by
  induction is generalizing s with
  | nil => rfl
  | cons i is ih =>
      have hone := tracks_loadRecord c o s i h
      rw [List.map_cons]
      cases hload : loadRecord c o s i with
      | error e =>
          rw [hload] at hone
          rw [observed_cons_error _ _ s e i is hload, observed_cons_error _ _ _ e _ _ hone,
            recordTurn_eq c o s i h]
      | ok s' =>
          rw [hload] at hone
          rcases hone with ⟨habs, hbuf, hout, -⟩
          rw [observed_cons_ok _ _ s s' i is hload, observed_cons_ok _ _ _ _ _ _ habs,
            recordTurn_eq c o s i h, ih s' hout, hbuf]

/-- The puts of the outer loop are those of the records of the file. Induction
    on what is left of the file. -/
theorem datTurns_eq (c : CSM4Crypto) (o : DatOutcomes) (n : Nat) :
    ∀ (rest : List UInt8) (k : Nat) (s : DatLoop), rest.length = n →
      s.pVirusInfoOut.length = virusInfoSize → (s.iReadCount = batchCount ∨ rest = []) →
      datTurns c o rest k s
        = observed (absorbTurn c o) (absorb c o) s.core (datRecords o.readOk rest k) := by
  induction n using Nat.strongRecOn with
  | ind n ih =>
      intro rest k s hn hout hcount
      rw [datTurns, datRecords]
      by_cases hread : o.readOk k = false
      · rw [if_pos hread, if_pos hread]
        rfl
      rw [if_neg hread, if_neg hread]
      have hsize : batchCount * virusInfoSize = 16320 := rfl
      by_cases hrest : rest.length = 0
      · rw [dif_pos hrest, dif_pos (by rw [List.length_take, hrest]; omega)]
        rfl
      have hne : rest ≠ [] := fun hnil => hrest (by rw [hnil]; rfl)
      -- One batch: the puts of its records, and then those of the rest of the file.
      rw [dif_neg hrest, dif_neg (by rw [List.length_take]; omega),
        readCount_eq rest s.iReadCount (hcount.resolve_right hne), observed_append]
      have htracks := tracks_foldlM c o
        (List.range (min (batchCount * virusInfoSize) rest.length / virusInfoSize))
        (s.batch rest) hout
      have hturns := observed_loadRecord c o
        (List.range (min (batchCount * virusInfoSize) rest.length / virusInfoSize))
        (s.batch rest) hout
      have hcore : (s.batch rest).core = s.core := rfl
      rw [batch_records, hcore] at htracks hturns
      change observed _ _ (s.batch rest) _ ++ (match List.foldlM (loadRecord c o) (s.batch rest) _
        with
        | .error _ => []
        | .ok s' => _) = _
      rw [hturns]
      refine congrArg _ ?_
      -- A fault ends both; otherwise what is left of the file is shorter by a batch.
      cases hfold : (List.range (min (batchCount * virusInfoSize) rest.length
          / virusInfoSize)).foldlM (loadRecord c o) (s.batch rest) with
      | error e =>
          rw [hfold] at htracks
          have herr : List.foldlM (absorb c o) s.core _ = Except.error e := htracks
          rw [herr]
      | ok s' =>
          rw [hfold] at htracks
          rcases htracks with ⟨habs, -, -, hcount'⟩
          rw [habs]
          refine ih (rest.drop (batchCount * virusInfoSize)).length ?_ _ _ _ rfl
            List.length_replicate (batch_next rest _ hcount')
          rw [List.length_drop]
          omega

/-- The puts on a file are those of its records. -/
theorem datTurns_file (c : CSM4Crypto) (o : DatOutcomes) (file : List UInt8) (txn : MdbTxn) :
    datTurns c o (file.drop headerSize) 0 (loopStart o txn file)
      = observed (absorbTurn c o) (absorb c o) (loopStart o txn file).core
          (recordsRead o file) :=
  datTurns_eq c o _ _ 0 _ rfl o.outHeap_length (Or.inl rfl)

/-! ### Where the function makes them -/

/-- Everything before the transaction succeeds. -/
structure Prepares (o : DatOutcomes) (file : List UInt8) : Prop where
  newOk : o.newOk = true
  headerReadOk : o.headerReadOk = true
  magic : hasMagic (headerBuffer o file) = true
  sm3Malloc : o.sm3Malloc = true
  outMalloc : o.outMalloc = true

theorem Reaches.prepares {o : DatOutcomes} {file : List UInt8} (h : Reaches o file) :
    Prepares o file :=
  ⟨h.newOk, h.headerReadOk, h.magic, h.sm3Malloc, h.outMalloc⟩

/-- A prepared function goes to its transaction. -/
theorem datBody_prepares (sm3 : Sm3) (c : CSM4Crypto) (o : DatOutcomes) (env : MdbEnv)
    (file : List UInt8) (h : Prepares o file) :
    datBody sm3 c o env false (some file)
        = datTransaction sm3 c o env file (zeroHash (headerBuffer o file))
            (storedHash (headerBuffer o file)) (datVersion (headerBuffer o file)) ∧
      datBodyCalls sm3 c o env false (some file) = datTransactionCalls sm3 c o env file := by
  have hbuf : poke o.heap 0 (file.take headerSize) = headerBuffer o file := rfl
  unfold datBody datBodyCalls
  simp only [Bool.false_eq_true, if_false, h.newOk, h.headerReadOk, hbuf, h.magic, h.sm3Malloc,
    h.outMalloc, Bool.true_eq_false, and_self]

/-- Without the preparations there are no calls. -/
theorem datBodyCalls_cases (sm3 : Sm3) (c : CSM4Crypto) (o : DatOutcomes) (env : MdbEnv)
    (pathEmpty : Bool) (file : Option (List UInt8)) :
    datBodyCalls sm3 c o env pathEmpty file = [] ∨
      ∃ F, pathEmpty = false ∧ file = some F ∧ Prepares o F := by
  unfold datBodyCalls
  by_cases hpath : pathEmpty = true
  · -- Each of the early returns comes before the transaction.
    exact Or.inl (if_pos hpath)
  rw [if_neg hpath]
  cases file with
  | none => exact Or.inl rfl
  | some F =>
      dsimp only
      by_cases hnew : o.newOk = false
      · exact Or.inl (if_pos hnew)
      by_cases hhead : o.headerReadOk = false
      · exact Or.inl (by rw [if_neg hnew, if_pos hhead])
      by_cases hmagic : hasMagic (headerBuffer o F) = false
      · exact Or.inl (by rw [if_neg hnew, if_neg hhead, if_pos hmagic])
      by_cases hsm3 : o.sm3Malloc = false
      · exact Or.inl (by rw [if_neg hnew, if_neg hhead, if_neg hmagic, if_pos hsm3])
      by_cases hmalloc : o.outMalloc = false
      · exact Or.inl (by
          rw [if_neg hnew, if_neg hhead, if_neg hmagic, if_neg hsm3, if_pos hmalloc])
      · exact Or.inr ⟨F, Bool.eq_false_iff.mpr hpath, rfl, eq_true_of_ne_false hnew,
          eq_true_of_ne_false hhead, eq_true_of_ne_false hmagic, eq_true_of_ne_false hsm3,
          eq_true_of_ne_false hmalloc⟩

/-- The calls of a transaction whose loops are reached. -/
theorem datTransactionCalls_reaches (sm3 : Sm3) (c : CSM4Crypto) (o : DatOutcomes) (env : MdbEnv)
    (henv : env.Usable) (file : List UInt8) (h : Reaches o file) :
    datTransactionCalls sm3 c o env file
      = .begin mdbSuccess :: .dbiOpen :: .cursorOpen ::
          ((datTurns c o (file.drop headerSize) 0 (loopStart o env.writeTxn file)).map .cursorPut ++
            match datBatches c o (file.drop headerSize) 0 (loopStart o env.writeTxn file) with
            | .error _ => []
            | .ok s => datFinishCalls sm3 o (env.record .begun)
                (storedHash (headerBuffer o file)) s) := by
  unfold datTransactionCalls
  rw [h.txnBegin, mdbTxnBegin_write env henv]
  dsimp only
  rw [if_neg (not_not.mpr h.dbiOpen), if_neg (not_not.mpr h.cursorOpen)]

/-- The clean-up makes no put. -/
theorem not_put_datCleanupCalls (e : DatExit) (t : DatTurn) :
    TxnCall.cursorPut t ∉ datCleanupCalls e := by
  unfold datCleanupCalls
  cases e.pTxn with
  | none => exact List.not_mem_nil
  | some txn =>
      dsimp only
      by_cases hret : e.iRet ≠ mdbSuccess
      · rw [if_pos hret]
        simp only [List.mem_cons, reduceCtorEq, List.not_mem_nil, or_self, not_false_eq_true]
      · rw [if_neg hret]
        exact List.not_mem_nil

/-- Neither does the end. -/
theorem not_put_datFinishCalls (sm3 : Sm3) (o : DatOutcomes) (env : MdbEnv) (check : List UInt8)
    (s : DatLoop) (t : DatTurn) : TxnCall.cursorPut t ∉ datFinishCalls sm3 o env check s := by
  unfold datFinishCalls
  by_cases hhash : (sm3 s.fed).toList = check
  · rw [if_pos hhash]
    simp only [List.mem_cons, reduceCtorEq, List.not_mem_nil, or_self, not_false_eq_true]
  · rw [if_neg hhash]
    simp only [List.mem_cons, reduceCtorEq, List.not_mem_nil, or_self, not_false_eq_true]

/-- A put is made in a transaction whose loops are reached. -/
theorem reaches_of_put (sm3 : Sm3) (c : CSM4Crypto) (o : DatOutcomes) (env : MdbEnv)
    (file : List UInt8) (hprepares : Prepares o file) (t : DatTurn)
    (h : TxnCall.cursorPut t ∈ datTransactionCalls sm3 c o env file) :
    env.Usable ∧ Reaches o file := by
  unfold datTransactionCalls at h
  cases hbegin : mdbTxnBegin env false o.txnBegin with
  | error e =>
      rw [hbegin] at h
      exact absurd h List.not_mem_nil
  | ok x =>
      have husable := usable_of_mdbTxnBegin env o.txnBegin x hbegin
      refine ⟨husable, ?_⟩
      -- The calls of a transaction that is left early have no put among them.
      by_cases htxn : o.txnBegin = mdbSuccess
      · rw [htxn, mdbTxnBegin_write env husable] at h
        dsimp only at h
        by_cases hdbi : o.dbiOpen = mdbSuccess
        · by_cases hcursor : o.cursorOpen = mdbSuccess
          · exact ⟨hprepares.newOk, hprepares.headerReadOk, hprepares.magic, hprepares.sm3Malloc,
              hprepares.outMalloc, htxn, hdbi, hcursor⟩
          · rw [if_neg (not_not_intro hdbi), if_pos hcursor] at h
            exact absurd h (by simp only [List.mem_cons, reduceCtorEq, List.not_mem_nil, or_self,
              not_false_eq_true])
        · rw [if_pos hdbi] at h
          exact absurd h (by simp only [List.mem_cons, reduceCtorEq, List.not_mem_nil, or_self,
            not_false_eq_true])
      · have hopened : ¬ env.handle ≠ .opened := not_not_intro husable.opened
        have hfreed : ¬ ((false : Bool) = false ∧ env.txn0Freed = true) := by
          rw [husable.txn0]
          exact fun hf => Bool.false_ne_true hf.2
        rw [mdbTxnBegin, if_neg hopened, if_neg hfreed, if_pos htxn] at h
        exact absurd h (by simp only [List.mem_cons, reduceCtorEq, List.not_mem_nil, or_self,
          not_false_eq_true])

/-- The puts of the function are those of the records that are read. -/
theorem put_mem_loadDatCalls (sm3 : Sm3) (c : CSM4Crypto) (o : DatOutcomes) (env : MdbEnv)
    (pathEmpty : Bool) (file : Option (List UInt8)) (t : DatTurn) :
    TxnCall.cursorPut t ∈ loadDatCalls sm3 c o env pathEmpty file ↔
      ∃ F, pathEmpty = false ∧ file = some F ∧ env.Usable ∧ Reaches o F ∧
        t ∈ observed (absorbTurn c o) (absorb c o) (loopStart o env.writeTxn F).core
          (recordsRead o F) := by
  have hclean : TxnCall.cursorPut t ∈ loadDatCalls sm3 c o env pathEmpty file ↔
      TxnCall.cursorPut t ∈ datBodyCalls sm3 c o env pathEmpty file := by
    unfold loadDatCalls
    rw [List.mem_append]
    refine or_iff_left ?_
    cases datBody sm3 c o env pathEmpty file with
    | error e => exact List.not_mem_nil
    | ok e => exact not_put_datCleanupCalls e t
  rw [hclean]
  -- In a transaction whose loops are reached, no other call is a put.
  have hreached : ∀ F, env.Usable → Reaches o F →
      (TxnCall.cursorPut t ∈ datBodyCalls sm3 c o env false (some F) ↔
        t ∈ observed (absorbTurn c o) (absorb c o) (loopStart o env.writeTxn F).core
          (recordsRead o F)) := by
    intro F henv hreaches
    rw [(datBody_prepares sm3 c o env F hreaches.prepares).2,
      datTransactionCalls_reaches sm3 c o env henv F hreaches, datTurns_file]
    simp only [List.mem_cons, reduceCtorEq, false_or, List.mem_append, List.mem_map,
      TxnCall.cursorPut.injEq, exists_eq_right]
    refine or_iff_left ?_
    cases datBatches c o (F.drop headerSize) 0 (loopStart o env.writeTxn F) with
    | error e => exact List.not_mem_nil
    | ok s => exact not_put_datFinishCalls sm3 o _ _ s t
  constructor
  · intro h
    rcases datBodyCalls_cases sm3 c o env pathEmpty file with hnone | ⟨F, rfl, rfl, hprepares⟩
    · rw [hnone] at h
      exact absurd h List.not_mem_nil
    · have hput := h
      rw [(datBody_prepares sm3 c o env F hprepares).2] at hput
      rcases reaches_of_put sm3 c o env F hprepares t hput with ⟨henv, hreaches⟩
      exact ⟨F, rfl, rfl, henv, hreaches, (hreached F henv hreaches).mp h⟩
  · rintro ⟨F, rfl, rfl, henv, hreaches, h⟩
    exact (hreached F henv hreaches).mpr h

/-! ### Puts inside their records -/

/-- The bytes of the record that are read: those of the key, unless lmdb refuses
    its size, and those that are printed. -/
def DatTurn.Reads (t : DatTurn) (k : Nat) : Prop :=
  (¬ t.keySize - 1 ≥ mdbMaxKeySize ∧ 1 ≤ k ∧ k < 1 + t.keySize.toNat) ∨
    ∃ n, t.hexLength = some n ∧ 1 ≤ k ∧ k < 1 + n.toNat

/-- The sizes are those of a hash, and only the field `Hash` is read, which is
    the thirty-two bytes behind the first. -/
structure TurnSafe (t : DatTurn) : Prop where
  keySize : 1 ≤ t.keySize.toNat ∧ t.keySize.toNat ≤ 32
  hexLength : ∀ n, t.hexLength = some n → 1 ≤ n.toNat ∧ n.toNat ≤ 32
  reads : ∀ k, t.Reads k → 1 ≤ k ∧ k < 1 + 32

/-- The length of a hash of known type, as both calls take it. -/
theorem hashLength_bounds (virusInfo : List UInt8) (h : validHashType virusInfo) :
    (1 ≤ (UInt64.ofInt (getHashLengthByType (virusHashType virusInfo))).toNat ∧
      (UInt64.ofInt (getHashLengthByType (virusHashType virusInfo))).toNat ≤ 32) ∧
    1 ≤ (UInt32.ofInt (getHashLengthByType (virusHashType virusInfo))).toNat ∧
      (UInt32.ofInt (getHashLengthByType (virusHashType virusInfo))).toNat ≤ 32 := by
  rcases validHashType_cases h with ht | ht | ht | ht
  all_goals
    rw [ht]
    decide

/-- The put of a record is safe when its type is known: of any other the size of
    the key is minus one. -/
theorem turnSafe_iff (c : CSM4Crypto) (o : DatOutcomes) (t : DatCore) (r : List UInt8) :
    TurnSafe (absorbTurn c o t r) ↔ validHashType (plain c r) := by
  constructor
  · intro hsafe
    by_contra hinvalid
    have hsize := hsafe.keySize.2
    unfold absorbTurn at hsize
    dsimp only at hsize
    -- Minus one as a `size_t` is more than any hash has.
    rw [hashLength_invalid _ hinvalid] at hsize
    exact absurd hsize (by decide)
  · intro hvalid
    rcases hashLength_bounds (plain c r) hvalid with ⟨hkey, hhex⟩
    have hprinted : ∀ n, (absorbTurn c o t r).hexLength = some n → 1 ≤ n.toNat ∧ n.toNat ≤ 32 := by
      intro n hn
      unfold absorbTurn at hn
      dsimp only at hn
      split at hn
      · exact absurd hn (by simp only [reduceCtorEq, not_false_eq_true])
      · rw [Option.some.injEq] at hn
        exact hn ▸ hhex
    refine ⟨hkey, hprinted, ?_⟩
    -- The key begins behind the type, as what is printed does.
    rintro k (⟨-, hone, hlt⟩ | ⟨n, hn, hone, hlt⟩)
    · have hle : (absorbTurn c o t r).keySize.toNat ≤ 32 := hkey.2
      exact ⟨hone, by omega⟩
    · have hle := (hprinted n hn).2
      exact ⟨hone, by omega⟩

/-- The puts of records are safe when the records have known types. Induction on
    the records: one of unknown type is the last whose put is made. -/
theorem observed_safe_iff (c : CSM4Crypto) (o : DatOutcomes) (rs : List (List UInt8))
    (t : DatCore) :
    (∀ turn ∈ observed (absorbTurn c o) (absorb c o) t rs, TurnSafe turn) ↔
      ∀ r ∈ rs, validHashType (plain c r) := by
  induction rs generalizing t with
  | nil =>
      rw [observed]
      exact iff_of_true (fun _ h => absurd h List.not_mem_nil)
        (fun _ h => absurd h List.not_mem_nil)
  | cons r rs ih =>
      have habsorb := absorb_eq c o t r
      rw [List.forall_mem_cons]
      by_cases hvalid : validHashType (plain c r)
      · rw [if_pos hvalid] at habsorb
        rw [observed_cons_ok _ _ _ _ r rs habsorb, List.forall_mem_cons, turnSafe_iff, ih]
      · rw [if_neg hvalid] at habsorb
        rw [observed_cons_error _ _ _ _ r rs habsorb]
        -- The put is made before the size is found to be wrong.
        refine iff_of_false (fun h => hvalid ?_) (fun h => hvalid h.1)
        exact (turnSafe_iff c o t r).mp (h _ (List.mem_singleton_self _))

/-- All puts and prints of the function stay inside the hashes of the records
    exactly when no record that is read has an unknown type, unless the loops
    are not reached. -/
theorem puts_safe_iff (sm3 : Sm3) (c : CSM4Crypto) (o : DatOutcomes) (env : MdbEnv)
    (pathEmpty : Bool) (file : Option (List UInt8)) :
    (∀ t, TxnCall.cursorPut t ∈ loadDatCalls sm3 c o env pathEmpty file → TurnSafe t) ↔
      ∀ F, pathEmpty = false → file = some F → env.Usable → Reaches o F →
        ∀ r ∈ recordsRead o F, validHashType (plain c r) := by
  constructor
  · intro hsafe F hpath hfile henv hreaches
    refine (observed_safe_iff c o (recordsRead o F) (loopStart o env.writeTxn F).core).mp
      (fun t ht => hsafe t ?_)
    exact (put_mem_loadDatCalls sm3 c o env pathEmpty file t).mpr
      ⟨F, hpath, hfile, henv, hreaches, ht⟩
  · intro hvalid t ht
    rcases (put_mem_loadDatCalls sm3 c o env pathEmpty file t).mp ht with
      ⟨F, hpath, hfile, henv, hreaches, hmem⟩
    exact (observed_safe_iff c o _ _).mpr (hvalid F hpath hfile henv hreaches) t hmem

/-- The put of a record of zeros, whose type is zero, is not safe. -/
theorem puts_notSafe :
    ¬ ∀ (sm3 : Sm3) (c : CSM4Crypto) (o : DatOutcomes) (env : MdbEnv) (file : List UInt8),
      slice file 0 3 = [65, 82, 83] →
      ∀ t, TxnCall.cursorPut t ∈ loadDatCalls sm3 c o env false (some file) → TurnSafe t := by
  intro h
  have hmagic := hasMagic_headerBuffer DatOutcomes.allGood blankHeader
    ([List.replicate virusInfoSize 0].flatMap (sealRecord CSM4Crypto.getInstance)) rfl (by decide)
  have hreaches := DatOutcomes.allGood_good.reaches _ hmagic
  have hrecords := datRecords_sealed CSM4Crypto.getInstance DatOutcomes.allGood.readOk
    DatOutcomes.allGood_good.readOk blankHeader rfl [List.replicate virusInfoSize 0] (by decide)
  -- All calls of the file succeed, so its one record is read and put.
  have hvalid := (observed_safe_iff CSM4Crypto.getInstance DatOutcomes.allGood _
    (loopStart DatOutcomes.allGood MdbEnv.fresh.writeTxn _).core).mp (fun t ht =>
      h standardSm3 CSM4Crypto.getInstance DatOutcomes.allGood MdbEnv.fresh
        _ rfl t ((put_mem_loadDatCalls _ _ _ _ _ _ t).mpr
          ⟨_, rfl, rfl, MdbEnv.fresh_usable, hreaches, ht⟩))
  -- The record that is read is the one that was sealed.
  have hmem : List.replicate virusInfoSize 0 ∈ (recordsRead DatOutcomes.allGood
      (blankHeader ++ [List.replicate virusInfoSize 0].flatMap
        (sealRecord CSM4Crypto.getInstance))).map (plain CSM4Crypto.getInstance) := by
    rw [recordsRead, hrecords]
    exact List.mem_singleton_self _
  rcases List.mem_map.mp hmem with ⟨r, hr, hplain⟩
  have htype := hvalid r hr
  rw [hplain] at htype
  exact absurd htype (by decide)

end Feature

end Defender
