import Mathlib.Logic.Function.Basic

/-!
# The Database Under the Features

What the scanner uses of lmdb: one environment with one database, read and
write transactions over it, and the calls that end them. A database is what a
key gives; a transaction has its own view, and a commit makes the view of a
write transaction the database.

Four things are kept because the callers run into them. An environment that
was not opened has nothing to begin a transaction in. A write transaction
whose page operations failed is marked, and a marked transaction refuses
everything, the commit included. A write transaction in which nothing was
written is clean, and its commit has no pages to write and cannot fail. And
the environment has a single write transaction object: ending it twice frees
the object, and what a later write transaction does with the freed object is
not defined. Calls that can fail for reasons outside the program take the code
they fail with as a parameter.

## Main definitions

* `Db`, `Db.Has`, `Db.insertNew`: A database, its keys, and an insertion that
  does not overwrite.
* `MdbEnv`, `MdbTxn`: The environment and a transaction.
* `mdbEnvCreate`, `mdbEnvOpen`, `mdbEnvClose`: The environment's life.
* `mdbTxnBegin`, `mdbTxnCommit`, `mdbTxnAbort`, `mdbTxnReset`: Transactions.
* `mdbCursorPut`, `mdbGet`, `mdbDrop`: What is done in them.

## Theorems

* `mdbCursorPut_valid`: What a put with a key of valid size does.
* `usable_of_mdbTxnBegin`: Where a write transaction can be begun.
* `insertAll_isSome`: Which keys are there after many insertions.
* `insertAll_of_known`: Insertions that change nothing.
-/

namespace Defender

namespace Feature

/-- What every key gives. -/
abbrev Db := List UInt8 → Option (List UInt8)

/-- The database of no keys. -/
def Db.empty : Db := fun _ => none

/-- A database has a key. -/
def Db.Has (db : Db) (k : List UInt8) : Prop :=
  (db k).isSome = true

instance (db : Db) (k : List UInt8) : Decidable (db.Has k) :=
  inferInstanceAs (Decidable (_ = true))

/-- Insert under a key unless the key is taken. -/
def Db.insertNew (db : Db) (key value : List UInt8) : Db :=
  fun k => if k = key ∧ db key = none then some value else db k

/-- Insert the records in order, each under its key. -/
def Db.insertAll (db : Db) (records : List (List UInt8 × List UInt8)) : Db :=
  records.foldl (fun db r => db.insertNew r.1 r.2) db

/-- The codes the callers compare with. -/
def mdbSuccess : Int := 0

def mdbKeyExist : Int := -30799

def mdbNotFound : Int := -30798

def mdbBadTxn : Int := -30782

def mdbBadValSize : Int := -30781

def eacces : Int := 13

/-- `MDB_MAXKEYSIZE`. -/
def mdbMaxKeySize : UInt64 := 511

/-- How a call can end the process, or leave it by an exception. -/
inductive Crash where
  | accessViolation
  | useAfterFree
  | badAlloc
  deriving DecidableEq, Repr

/-- What happened to transactions. -/
inductive MdbEvent where
  | begun
  | committed
  | aborted
  | freed
  deriving DecidableEq, Repr

/-- How far an environment has come: not there, there but not opened, and
    opened. -/
inductive EnvHandle where
  | null
  | created
  | opened
  deriving DecidableEq, Repr

/-- An environment: how far it has come, the database on disk, whether its
    write transaction object has been freed, and what happened in it. -/
structure MdbEnv where
  handle : EnvHandle
  committed : Db
  txn0Freed : Bool
  events : List MdbEvent

/-- A transaction. It is dirty when it has pages to write. -/
structure MdbTxn where
  rdonly : Bool
  db : Db
  dirty : Bool
  error : Bool
  finished : Bool

def MdbEnv.record (env : MdbEnv) (e : MdbEvent) : MdbEnv :=
  { env with events := env.events ++ [e] }

/-- `mdb_env_create`. When it fails the pointer is left alone. -/
def mdbEnvCreate (env : MdbEnv) (rc : Int) : Int × MdbEnv :=
  if rc ≠ mdbSuccess then (rc, env) else (mdbSuccess, { env with handle := .created })

/-- `mdb_env_open`. -/
def mdbEnvOpen (env : MdbEnv) (rc : Int) : Int × MdbEnv :=
  if rc ≠ mdbSuccess then (rc, env)
  else (mdbSuccess, { env with handle := .opened, txn0Freed := false })

/-- `mdb_env_close`, and the pointer set to null. -/
def mdbEnvClose (env : MdbEnv) : MdbEnv :=
  { env with handle := .null }

/-- `mdb_txn_begin` without a parent. `rc` is the code it fails with, if it
    does. -/
def mdbTxnBegin (env : MdbEnv) (rdonly : Bool) (rc : Int) :
    Except Crash (Int × Option MdbTxn × MdbEnv) :=
  if env.handle ≠ .opened then .error .accessViolation
  else if rdonly = false ∧ env.txn0Freed = true then .error .useAfterFree
  else if rc ≠ mdbSuccess then .ok (rc, none, env)
  else
    .ok (mdbSuccess,
      some { rdonly := rdonly, db := env.committed, dirty := false, error := false,
             finished := false },
      env.record .begun)

/-- `mdb_txn_abort`. A write transaction that is finished already is freed,
    and with it the environment's only one. -/
def mdbTxnAbort (env : MdbEnv) (txn : MdbTxn) : MdbEnv × MdbTxn :=
  if txn.rdonly = false ∧ txn.finished = true then
    ({ env with txn0Freed := true }.record .freed, txn)
  else (env.record .aborted, { txn with finished := true })

/-- `mdb_txn_reset`: nothing, on a write transaction. -/
def mdbTxnReset (txn : MdbTxn) : MdbTxn :=
  if txn.rdonly = false then txn else { txn with finished := true }

/-- `mdb_txn_commit`. `rc` is the code the writing of the pages fails with, if
    there are pages and it does; a commit that fails ends the transaction all the
    same. -/
def mdbTxnCommit (env : MdbEnv) (txn : MdbTxn) (rc : Int) : Int × MdbEnv × MdbTxn :=
  if txn.rdonly = true then (mdbSuccess, env.record .committed, { txn with finished := true })
  -- A marked transaction is aborted by the commit itself.
  else if txn.finished = true ∨ txn.error = true then
    (mdbBadTxn, mdbTxnAbort env txn)
  -- A clean one is ended without anything being written.
  else if txn.dirty = false then
    (mdbSuccess, env.record .committed, { txn with finished := true })
  else if rc ≠ mdbSuccess then (rc, mdbTxnAbort env txn)
  else
    (mdbSuccess, { env with committed := txn.db }.record .committed, { txn with finished := true })

/-- `mdb_cursor_put` with `MDB_NOOVERWRITE`. `fault` is the code a page
    operation fails with, if one does, and whether it marks the transaction. One
    that does not comes before any page is touched, or finds no room for more
    dirty pages, so that a clean transaction stays clean. -/
def mdbCursorPut (txn : MdbTxn) (key : List UInt8) (keySize : UInt64) (value : List UInt8)
    (fault : Option (Int × Bool)) : Int × MdbTxn :=
  if txn.rdonly = true then (eacces, txn)
  else if txn.finished = true ∨ txn.error = true then (mdbBadTxn, txn)
  -- In unsigned arithmetic, so that an empty key fails as well.
  else if keySize - 1 ≥ mdbMaxKeySize then (mdbBadValSize, txn)
  else
    match fault with
    | some (rc, marks) => (rc, { txn with error := marks })
    | none =>
        if (txn.db key).isSome = true then (mdbKeyExist, txn)
        else (mdbSuccess, { txn with db := txn.db.insertNew key value, dirty := true })

/-- `mdb_get`. -/
def mdbGet (txn : MdbTxn) (key : List UInt8) (fault : Option Int) : Int × Option (List UInt8) :=
  if txn.finished = true ∨ txn.error = true then (mdbBadTxn, none)
  else
    match fault with
    | some rc => (rc, none)
    | none =>
        if key = [] then (mdbBadValSize, none)
        else
          match txn.db key with
          | none => (mdbNotFound, none)
          | some value => (mdbSuccess, some value)

/-- `mdb_drop` that keeps the database and drops what is in it. -/
def mdbDrop (txn : MdbTxn) (fault : Option Int) : Int × MdbTxn :=
  if txn.rdonly = true then (eacces, txn)
  else
    match fault with
    | some rc => (rc, { txn with error := true })
    | none => (mdbSuccess, { txn with db := Db.empty, dirty := true })

theorem insertNew_of_some (db : Db) (key value : List UInt8) (h : (db key).isSome = true) :
    db.insertNew key value = db := by
  funext k
  unfold Db.insertNew
  rw [if_neg]
  rintro ⟨-, hnone⟩
  rw [hnone] at h
  exact absurd h (by decide)

/-- An environment a write transaction can be begun in. -/
structure MdbEnv.Usable (env : MdbEnv) : Prop where
  opened : env.handle = .opened
  txn0 : env.txn0Freed = false

/-- A write transaction that was not ended. -/
structure MdbTxn.Live (txn : MdbTxn) : Prop where
  write : txn.rdonly = false
  live : txn.finished = false

/-- The write transaction an environment begins. -/
def MdbEnv.writeTxn (env : MdbEnv) : MdbTxn where
  rdonly := false
  db := env.committed
  dirty := false
  error := false
  finished := false

theorem writeTxn_live (env : MdbEnv) : env.writeTxn.Live :=
  ⟨rfl, rfl⟩

theorem mdbTxnBegin_write (env : MdbEnv) (h : env.Usable) :
    mdbTxnBegin env false mdbSuccess
      = .ok (mdbSuccess, some env.writeTxn, env.record .begun) := by
  rw [mdbTxnBegin, if_neg (not_not_intro h.opened), if_neg (by rw [h.txn0]; decide),
    if_neg (by decide)]
  rfl

/-- A transaction to read in. -/
def MdbEnv.readTxn (env : MdbEnv) : MdbTxn where
  rdonly := true
  db := env.committed
  dirty := false
  error := false
  finished := false

theorem mdbTxnBegin_read (env : MdbEnv) (h : env.handle = .opened) (rc : Int) :
    mdbTxnBegin env true rc
      = if rc ≠ mdbSuccess then .ok (rc, none, env)
        else .ok (mdbSuccess, some env.readTxn, env.record .begun) := by
  have hwrite : ¬ ((true : Bool) = false ∧ env.txn0Freed = true) :=
    fun hw => Bool.false_ne_true hw.1.symm
  rw [mdbTxnBegin, if_neg (not_not_intro h), if_neg hwrite]
  rfl

/-- Nothing is dropped in a transaction to read in. -/
theorem mdbDrop_read (env : MdbEnv) (fault : Option Int) :
    mdbDrop env.readTxn fault = (eacces, env.readTxn) := by
  have hread : env.readTxn.rdonly = true := rfl
  unfold mdbDrop
  rw [if_pos hread]

/-- A write transaction is only begun in an environment that has one. -/
theorem usable_of_mdbTxnBegin (env : MdbEnv) (rc : Int) (x : Int × Option MdbTxn × MdbEnv)
    (h : mdbTxnBegin env false rc = .ok x) : env.Usable := by
  unfold mdbTxnBegin at h
  by_cases hopened : env.handle ≠ .opened
  · rw [if_pos hopened] at h
    exact absurd h (by simp only [reduceCtorEq, not_false_eq_true])
  rw [if_neg hopened] at h
  by_cases hfreed : env.txn0Freed = true
  · rw [if_pos ⟨rfl, hfreed⟩] at h
    exact absurd h (by simp only [reduceCtorEq, not_false_eq_true])
  exact ⟨not_not.mp hopened, Bool.eq_false_iff.mpr hfreed⟩

/-- A put with a key of valid size. It is there afterwards unless a page
    operation failed, and the transaction is marked when one says so. A key that
    was not there makes it dirty. -/
theorem mdbCursorPut_valid (txn : MdbTxn) (key value : List UInt8) (keySize : UInt64)
    (fault : Option (Int × Bool)) (h : txn.Live) (hsize : ¬ keySize - 1 ≥ mdbMaxKeySize) :
    let txn' := (mdbCursorPut txn key keySize value fault).2
    txn'.Live ∧
      (txn'.error = false ↔ txn.error = false ∧ ∀ rc, fault ≠ some (rc, true)) ∧
      (txn'.error = false →
        txn'.db = if fault = none then txn.db.insertNew key value else txn.db) ∧
      (txn'.error = false →
        (txn'.dirty = true ↔ txn.dirty = true ∨ fault = none ∧ txn.db key = none)) := by
  have hr : ¬ txn.rdonly = true := by rw [h.write]; decide
  unfold mdbCursorPut
  rw [if_neg hr]
  by_cases herr : txn.error = true
  · -- A marked transaction stays as it is.
    rw [if_pos (Or.inr herr)]
    refine ⟨h, ?_, fun hsound => absurd (herr.symm.trans hsound) (by decide),
      fun hsound => absurd (herr.symm.trans hsound) (by decide)⟩
    simp only [herr, Bool.true_eq_false, false_and]
  have hsound : txn.error = false := Bool.eq_false_iff.mpr herr
  have he : ¬ (txn.finished = true ∨ txn.error = true) := by rw [h.live, hsound]; decide
  rw [if_neg he, if_neg hsize]
  cases fault with
  | some fault =>
      refine ⟨⟨h.write, h.live⟩, ?_, fun _ => rfl, fun _ => ?_⟩
      · simp only [hsound, true_and, ne_eq, Option.some.injEq]
        constructor
        · rintro hmark rc rfl
          exact absurd hmark.symm Bool.false_ne_true
        · intro hmark
          exact Bool.eq_false_iff.mpr (fun htrue => hmark fault.1 (Prod.ext rfl htrue))
      · simp only [reduceCtorEq, false_and, or_false]
  | none =>
      by_cases hkey : (txn.db key).isSome = true
      · simp only [if_pos hkey]
        refine ⟨h, ?_, fun _ => (insertNew_of_some txn.db key value hkey).symm, fun _ => ?_⟩
        · simp only [ne_eq, reduceCtorEq, not_false_eq_true, implies_true, and_true]
        · have hthere : txn.db key ≠ none := Option.isSome_iff_ne_none.mp hkey
          simp only [hthere, and_false, or_false]
      · simp only [if_neg hkey]
        have hnone : txn.db key = none := Option.not_isSome_iff_eq_none.mp hkey
        refine ⟨⟨h.write, h.live⟩, ?_, fun _ => rfl, fun _ => ?_⟩
        · simp only [ne_eq, reduceCtorEq, not_false_eq_true, implies_true, and_true]
        · simp only [hnone, and_self, or_true]

/-- A key of invalid size is never found to be there. -/
theorem mdbCursorPut_badSize (txn : MdbTxn) (key value : List UInt8) (keySize : UInt64)
    (fault : Option (Int × Bool)) (hsize : keySize - 1 ≥ mdbMaxKeySize) :
    (mdbCursorPut txn key keySize value fault).1 ≠ mdbKeyExist := by
  have hacces : eacces ≠ mdbKeyExist := by decide
  have hbad : mdbBadTxn ≠ mdbKeyExist := by decide
  have hval : mdbBadValSize ≠ mdbKeyExist := by decide
  unfold mdbCursorPut
  rw [if_pos hsize]
  split
  · exact hacces
  split
  · exact hbad
  · exact hval

theorem insertNew_apply (db : Db) (key value k : List UInt8) :
    db.insertNew key value k = if k = key ∧ db key = none then some value else db k := rfl

/-- A key is there after the insertions when it was there before or a record
    was inserted under it. Induction on the records. -/
theorem insertAll_isSome (records : List (List UInt8 × List UInt8)) (db : Db) (k : List UInt8) :
    (db.insertAll records k).isSome = true ↔
      (db k).isSome = true ∨ ∃ r ∈ records, r.1 = k := by
  induction records generalizing db with
  | nil => simp only [Db.insertAll, List.foldl_nil, List.not_mem_nil, false_and, exists_false,
      or_false]
  | cons r rs ih =>
      have hcons : db.insertAll (r :: rs) = (db.insertNew r.1 r.2).insertAll rs := rfl
      have hnew : (db.insertNew r.1 r.2 k).isSome = true ↔ (db k).isSome = true ∨ r.1 = k := by
        rw [insertNew_apply]
        by_cases hk : k = r.1
        · cases hdb : db r.1 with
          | none => simp only [hk, and_self, if_true, Option.isSome_some, or_true]
          | some v =>
              simp only [hk, reduceCtorEq, and_false, if_false, hdb, Option.isSome_some, true_or]
        · simp only [hk, false_and, if_false, Ne.symm hk, or_false]
      rw [hcons, ih, hnew, or_assoc]
      refine or_congr Iff.rfl ?_
      constructor
      · rintro (hr | ⟨r', hr', hk⟩)
        · exact ⟨r, List.mem_cons_self, hr⟩
        · exact ⟨r', List.mem_cons_of_mem r hr', hk⟩
      · rintro ⟨r', hr', hk⟩
        rcases List.mem_cons.mp hr' with rfl | hr'
        · exact Or.inl hk
        · exact Or.inr ⟨r', hr', hk⟩

/-- Keys that are there already are not inserted again. -/
theorem insertAll_of_known (records : List (List UInt8 × List UInt8)) (db : Db)
    (h : ∀ r ∈ records, (db r.1).isSome = true) : db.insertAll records = db := by
  induction records with
  | nil => rfl
  | cons r rs ih =>
      have hcons : db.insertAll (r :: rs) = (db.insertNew r.1 r.2).insertAll rs := rfl
      rw [hcons, insertNew_of_some db r.1 r.2 (h r List.mem_cons_self)]
      exact ih (fun r' hr' => h r' (List.mem_cons_of_mem r hr'))

end Feature

end Defender
