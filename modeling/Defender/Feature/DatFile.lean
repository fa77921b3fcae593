import Defender.Feature.LoadDat

/-!
# What Loading a Feature File Does

The two loops of `loadDat` go through one buffer, a record count that shrinks
and a read position. None of that is left in what they compute: `datRecords`
is the list of encrypted records the reads deliver, `absorb` is what one of
them does to the transaction and to the bytes fed to SM3, and the loops are
`absorb` folded over `datRecords`.

From there on the file is a list of records. When everything outside succeeds
and the records are valid, the fold inserts them in order and feeds them in
order, and the hash decides between commit and abort. In the other direction,
a file that was accepted has fed its header and its records, and since a
decrypted record determines the encrypted one, equal feeds come from equal
records. What is not fed is what `uncovered` gives: the bytes behind the last
record.

## Main definitions

* `plain`: A record decrypted.
* `datRecords`: The records the reads deliver.
* `absorb`: What one record does.
* `sealRecord`: A record encrypted.
* `DatOutcomes.Good`: Nothing outside the program fails.
* `Accepted`: The files that are accepted.
* `sealedFile`: A file with the hash it should have.
* `uncovered`: The bytes of a file no record holds.

## Theorems

* `datBatches_eq`: The loops fold `absorb` over `datRecords`.
* `datRecords_flatten`, `datRecords_length`: The records read are the front of
  the file, and all of it that is whole records.
* `loadDat_good`: What `loadDat` returns and commits when nothing fails.
* `loadDat_accepted`: What an accepted file has fed.
* `loadDat_exact`: All or nothing, and all of the file.
* `checksum_iff`: Equal feeds mean equal files up to the uncovered bytes.
* `checksum_trailing`: A byte behind the header that no check sees.
-/

namespace Defender

namespace Feature

open Wire Crypto

/-! ### The loops as a fold -/

/-- A record decrypted. -/
def plain (c : CSM4Crypto) (r : List UInt8) : List UInt8 :=
  c.decryptSector r (List.replicate virusInfoSize 0) (virusInfoSize / cryptoUnitSize)

theorem length_plain (c : CSM4Crypto) (r : List UInt8) : (plain c r).length = virusInfoSize :=
  length_decryptSector c r _ 5 List.length_replicate

/-- What is decrypted does not depend on what the output held. -/
theorem decryptSector_eq_plain (c : CSM4Crypto) (r out : List UInt8)
    (h : out.length = virusInfoSize) :
    c.decryptSector r out (virusInfoSize / cryptoUnitSize) = plain c r := by
  have hfive : virusInfoSize / cryptoUnitSize = 5 := rfl
  have hzero : (List.replicate virusInfoSize (0 : UInt8)).length = 16 * 5 := List.length_replicate
  rw [plain, hfive, decryptSector_eq c r out 5 h, decryptSector_eq c r _ 5 hzero]

/-- What the loops carry from record to record. -/
structure DatCore where
  txn : MdbTxn
  fed : List UInt8
  puts : Nat

def DatLoop.core (s : DatLoop) : DatCore where
  txn := s.txn
  fed := s.fed
  puts := s.puts

/-- What one record does: it is decrypted, inserted and fed. -/
def absorb (c : CSM4Crypto) (o : DatOutcomes) (t : DatCore) (r : List UInt8) :
    Except Crash DatCore :=
  let out := plain c r
  let length := getHashLengthByType (virusHashType out)
  let (iRet, txn) := mdbCursorPut t.txn (virusKey out) (UInt64.ofInt length) out (o.put t.puts)
  let next := { txn := txn, fed := t.fed ++ out, puts := t.puts + 1 }
  if iRet = mdbKeyExist then .ok next
  else
    match hexToWStr (virusHash out) (UInt32.ofInt length) with
    | .error e => .error e
    | .ok _ => .ok next

/-- The records the reads deliver from the rest of a file: whole records of
    each batch, until a read fails or gives nothing. -/
def datRecords (readOk : Nat → Bool) (rest : List UInt8) (k : Nat) : List (List UInt8) :=
  if readOk k = false then []
  else if _hrest : rest.length = 0 then []
  else
    (List.range (min (batchCount * virusInfoSize) rest.length / virusInfoSize)).map
        (fun i => slice rest (virusInfoSize * i) virusInfoSize)
      ++ datRecords readOk (rest.drop (batchCount * virusInfoSize)) (k + 1)
termination_by rest.length
decreasing_by
  rw [List.length_drop]
  simp only [batchCount, bufSize, virusInfoSize]
  omega

/-- A turn of the loop and what it stands for: the same crash, or the same
    core with the buffer and the count left alone. -/
def Tracks (s : DatLoop) : Except Crash DatLoop → Except Crash DatCore → Prop
  | .error e, a => a = .error e
  | .ok s', a => a = .ok s'.core ∧ s'.pBuffer = s.pBuffer ∧
      s'.pVirusInfoOut.length = virusInfoSize ∧ s'.iReadCount = s.iReadCount

theorem tracks_loadRecord (c : CSM4Crypto) (o : DatOutcomes) (s : DatLoop) (i : Nat)
    (h : s.pVirusInfoOut.length = virusInfoSize) :
    Tracks s (loadRecord c o s i)
      (absorb c o s.core (slice s.pBuffer (virusInfoSize * i) virusInfoSize)) := by
  unfold loadRecord absorb
  dsimp only [DatLoop.core]
  rw [decryptSector_eq_plain c _ _ h, Nat.mul_comm i virusInfoSize]
  have hlen := length_plain c (slice s.pBuffer (virusInfoSize * i) virusInfoSize)
  revert hlen
  -- Both sides test the same code and print the same hash.
  generalize plain c (slice s.pBuffer (virusInfoSize * i) virusInfoSize) = out
  intro hlen
  by_cases hkey : (mdbCursorPut s.txn (virusKey out)
      (UInt64.ofInt (getHashLengthByType (virusHashType out))) out (o.put s.puts)).1 = mdbKeyExist
  · rw [if_pos hkey, if_pos hkey]
    exact ⟨rfl, rfl, hlen, rfl⟩
  · rw [if_neg hkey, if_neg hkey]
    cases hexToWStr (virusHash out) (UInt32.ofInt (getHashLengthByType (virusHashType out))) with
    | error e => exact rfl
    | ok w => exact ⟨rfl, rfl, hlen, rfl⟩

/-- The inner loop absorbs the records of the buffer. -/
theorem tracks_foldlM (c : CSM4Crypto) (o : DatOutcomes) (is : List Nat) (s : DatLoop)
    (h : s.pVirusInfoOut.length = virusInfoSize) :
    Tracks s (is.foldlM (loadRecord c o) s)
      ((is.map (fun i => slice s.pBuffer (virusInfoSize * i) virusInfoSize)).foldlM (absorb c o)
        s.core) := by
  induction is generalizing s with
  | nil => exact ⟨rfl, rfl, h, rfl⟩
  | cons i is ih =>
      have hone := tracks_loadRecord c o s i h
      rw [List.foldlM_cons, List.map_cons, List.foldlM_cons]
      cases hload : loadRecord c o s i with
      | error e =>
          rw [hload] at hone
          have habs : absorb c o s.core _ = Except.error e := hone
          rw [habs]
          exact rfl
      | ok s' =>
          rw [hload] at hone
          rcases hone with ⟨habs, hbuf, hout, hcount⟩
          have hrest := ih s' hout
          rw [hbuf] at hrest
          rw [habs]
          -- The rest of the loop starts from the same buffer.
          cases hmore : is.foldlM (loadRecord c o) s' with
          | error e =>
              rw [hmore] at hrest
              simp only [bind, Except.bind, hmore]
              exact hrest
          | ok s'' =>
              rw [hmore] at hrest
              simp only [bind, Except.bind, hmore]
              exact ⟨hrest.1, hrest.2.1.trans hbuf, hrest.2.2.1, hrest.2.2.2.trans hcount⟩

/-- A record inside a batch is a record of the file. -/
theorem slice_poke_take (buffer rest : List UInt8) (n i m : Nat) (h : i + m ≤ n)
    (hrest : i + m ≤ rest.length) :
    slice (poke buffer 0 (rest.take n)) i m = slice rest i m := by
  have hfront : poke buffer 0 (rest.take n) = rest.take n ++ buffer.drop (rest.take n).length := by
    rw [poke, List.take_zero, List.nil_append, Nat.zero_add]
  rw [hfront, slice_append_left _ _ _ _ (by rw [List.length_take]; omega)]
  have htake : rest.take n = slice rest 0 n := by rw [slice, List.drop_zero]
  rw [htake, slice_slice _ _ _ _ _ h, Nat.zero_add]

/-- The record count of a batch: full or short, it is that of the whole records
    read. -/
theorem readCount_eq (rest : List UInt8) (iReadCount : Nat) (h : iReadCount = batchCount) :
    (if (rest.take (batchCount * virusInfoSize)).length < batchCount * virusInfoSize
        then (rest.take (batchCount * virusInfoSize)).length / virusInfoSize else iReadCount)
      = min (batchCount * virusInfoSize) rest.length / virusInfoSize := by
  have hsize : batchCount * virusInfoSize = 16320 := rfl
  rw [List.length_take]
  split
  · rfl
  · have hmin : min (batchCount * virusInfoSize) rest.length = batchCount * virusInfoSize := by
      omega
    rw [hmin, h]
    rfl

/-- The loop at the start of a batch. -/
def DatLoop.batch (s : DatLoop) (rest : List UInt8) : DatLoop :=
  { s with
    pBuffer := poke s.pBuffer 0 (rest.take (batchCount * virusInfoSize))
    iReadCount := min (batchCount * virusInfoSize) rest.length / virusInfoSize }

/-- The records of a batch are those of the file. -/
theorem batch_records (s : DatLoop) (rest : List UInt8) :
    (List.range (min (batchCount * virusInfoSize) rest.length / virusInfoSize)).map
        (fun i => slice (s.batch rest).pBuffer (virusInfoSize * i) virusInfoSize)
      = (List.range (min (batchCount * virusInfoSize) rest.length / virusInfoSize)).map
        (fun i => slice rest (virusInfoSize * i) virusInfoSize) := by
  have hsize : batchCount * virusInfoSize = 16320 := rfl
  have hone : virusInfoSize = 80 := rfl
  refine List.map_congr_left (fun i hi => ?_)
  rw [List.mem_range, hsize, hone] at hi
  refine slice_poke_take _ _ _ _ _ ?_ ?_
  · rw [hsize, hone]
    omega
  · rw [hone]
    omega

/-- Behind a batch comes a full one, or nothing. -/
theorem batch_next (rest : List UInt8) (iReadCount : Nat)
    (h : iReadCount = min (batchCount * virusInfoSize) rest.length / virusInfoSize) :
    iReadCount = batchCount ∨ rest.drop (batchCount * virusInfoSize) = [] := by
  by_cases hshort : rest.length ≤ batchCount * virusInfoSize
  · exact Or.inr (List.drop_eq_nil_of_le hshort)
  · left
    have hmin : min (batchCount * virusInfoSize) rest.length = batchCount * virusInfoSize := by
      omega
    rw [h, hmin]
    rfl

/-- The outer loop absorbs the records of the file. Induction on what is left
    of the file; the record count is that of a full batch until a short one,
    behind which there is nothing to read. -/
theorem datBatches_eq (c : CSM4Crypto) (o : DatOutcomes) (n : Nat) :
    ∀ (rest : List UInt8) (k : Nat) (s : DatLoop), rest.length = n →
      s.pVirusInfoOut.length = virusInfoSize → (s.iReadCount = batchCount ∨ rest = []) →
      (datBatches c o rest k s).map DatLoop.core
        = (datRecords o.readOk rest k).foldlM (absorb c o) s.core := by
  induction n using Nat.strongRecOn with
  | ind n ih =>
      intro rest k s hn hout hcount
      rw [datBatches, datRecords]
      by_cases hread : o.readOk k = false
      · rw [if_pos hread, if_pos hread]
        rfl
      rw [if_neg hread, if_neg hread]
      have hsize : batchCount * virusInfoSize = 16320 := rfl
      by_cases hrest : rest.length = 0
      · rw [dif_pos hrest, dif_pos (by rw [List.length_take, hrest]; omega)]
        rfl
      have hne : rest ≠ [] := fun hnil => hrest (by rw [hnil]; rfl)
      -- There is more to read, so every batch before was full.
      rw [dif_neg hrest, dif_neg (by rw [List.length_take]; omega),
        readCount_eq rest s.iReadCount (hcount.resolve_right hne), List.foldlM_append]
      have htracks := tracks_foldlM c o
        (List.range (min (batchCount * virusInfoSize) rest.length / virusInfoSize))
        (s.batch rest) hout
      have hcore : (s.batch rest).core = s.core := rfl
      rw [batch_records, hcore] at htracks
      cases hfold : (List.range (min (batchCount * virusInfoSize) rest.length
          / virusInfoSize)).foldlM (loadRecord c o) (s.batch rest) with
      | error e =>
          rw [hfold] at htracks
          simp only [DatLoop.batch] at hfold
          simp only [hfold]
          have herr : List.foldlM (absorb c o) s.core _ = Except.error e := htracks
          rw [herr]
          rfl
      | ok s' =>
          rw [hfold] at htracks
          rcases htracks with ⟨habs, -, -, hcount'⟩
          simp only [DatLoop.batch] at hfold
          simp only [hfold]
          rw [habs]
          refine ih (rest.drop (batchCount * virusInfoSize)).length ?_ _ _ _ rfl
            List.length_replicate (batch_next rest _ hcount')
          rw [List.length_drop]
          omega

/-! ### The records -/

/-- The records of one batch. -/
theorem flatten_batch (rest : List UInt8) (n : Nat) :
    ((List.range n).map (fun i => slice rest (virusInfoSize * i) virusInfoSize)).flatten
      = rest.take (virusInfoSize * n) := by
  rw [← List.flatMap_def, blocks_slice]

/-- Every record read is a whole one. -/
theorem length_of_mem_datRecords (readOk : Nat → Bool) (rest : List UInt8) (k : Nat) :
    ∀ r ∈ datRecords readOk rest k, r.length = virusInfoSize := by
  induction rest, k using datRecords.induct readOk with
  | case1 rest k hread =>
      intro r hr
      rw [datRecords, if_pos hread] at hr
      exact absurd hr List.not_mem_nil
  | case2 rest k hread hrest =>
      intro r hr
      rw [datRecords, if_neg hread, dif_pos hrest] at hr
      exact absurd hr List.not_mem_nil
  | case3 rest k hread hrest ih =>
      intro r hr
      rw [datRecords, if_neg hread, dif_neg hrest, List.mem_append] at hr
      rcases hr with hr | hr
      · rcases List.mem_map.mp hr with ⟨i, hi, rfl⟩
        rw [List.mem_range] at hi
        refine length_slice _ _ _ ?_
        simp only [virusInfoSize] at hi ⊢
        omega
      · exact ih r hr

/-- The records read are the front of what is there. Induction on the
    batches: behind a short one there is nothing. -/
theorem datRecords_flatten (readOk : Nat → Bool) (rest : List UInt8) (k : Nat) :
    (datRecords readOk rest k).flatten
      = rest.take (virusInfoSize * (datRecords readOk rest k).length) := by
  induction rest, k using datRecords.induct readOk with
  | case1 rest k hread =>
      rw [datRecords, if_pos hread, List.length_nil, Nat.mul_zero, List.take_zero]
      rfl
  | case2 rest k hread hrest =>
      rw [datRecords, if_neg hread, dif_pos hrest, List.length_nil, Nat.mul_zero, List.take_zero]
      rfl
  | case3 rest k hread hrest ih =>
      rw [datRecords, if_neg hread, dif_neg hrest, List.flatten_append, flatten_batch, ih,
        List.length_append, List.length_map, List.length_range, Nat.mul_add, List.take_add]
      refine congrArg _ ?_
      have hsize : batchCount * virusInfoSize = virusInfoSize * 204 := rfl
      rw [hsize]
      by_cases hshort : rest.length ≤ virusInfoSize * 204
      · -- A short batch leaves no record behind it.
        rw [List.drop_eq_nil_of_le hshort, datRecords]
        simp only [List.length_nil, dif_pos, ite_self, Nat.mul_zero, List.take_zero]
      · have hmin : min (virusInfoSize * 204) rest.length / virusInfoSize = 204 := by
          rw [Nat.min_eq_left (by omega)]
          rfl
        rw [hmin]

/-- When every read succeeds the records are all that is whole. -/
theorem datRecords_length (readOk : Nat → Bool) (hread : ∀ k, readOk k = true) (rest : List UInt8)
    (k : Nat) : (datRecords readOk rest k).length = rest.length / virusInfoSize := by
  induction rest, k using datRecords.induct readOk with
  | case1 rest k hfail => exact absurd (hread k) (by rw [hfail]; decide)
  | case2 rest k hok hrest =>
      rw [datRecords, if_neg hok, dif_pos hrest, hrest]
      rfl
  | case3 rest k hok hrest ih =>
      rw [datRecords, if_neg hok, dif_neg hrest, List.length_append, ih, List.length_map,
        List.length_range, List.length_drop]
      simp only [batchCount, bufSize, virusInfoSize]
      omega

/-- Whole records are read as they are. -/
theorem datRecords_eq (readOk : Nat → Bool) (hread : ∀ k, readOk k = true)
    (records : List (List UInt8)) (hlen : ∀ r ∈ records, r.length = virusInfoSize) (k : Nat) :
    datRecords readOk records.flatten k = records := by
  -- As many records are read as were written, so they are the same blocks.
  have htotal : records.flatten.length = virusInfoSize * records.length := by
    clear hread
    induction records with
    | nil => rfl
    | cons r rs ih =>
        rw [List.flatten_cons, List.length_append, hlen r List.mem_cons_self,
          ih (fun x hx => hlen x (List.mem_cons_of_mem r hx)), List.length_cons, Nat.mul_succ,
          Nat.add_comm]
  have hcount := datRecords_length readOk hread records.flatten k
  have hflat := datRecords_flatten readOk records.flatten k
  rw [hcount, htotal, Nat.mul_div_cancel_left _ (by decide), ← htotal, List.take_length] at hflat
  exact eq_of_flatten_eq virusInfoSize (by decide) _ _ (length_of_mem_datRecords readOk _ k) hlen
    hflat

/-! ### What a record does -/

/-- The types a record can name its hash with. -/
def validHashType (virusInfo : List UInt8) : Prop :=
  virusHashType virusInfo ∈ [1, 2, 3, 4]

instance (virusInfo : List UInt8) : Decidable (validHashType virusInfo) :=
  inferInstanceAs (Decidable (_ ∈ _))

/-- The known types are four, and the lengths of their hashes constants. -/
theorem validHashType_cases {virusInfo : List UInt8} (h : validHashType virusInfo) :
    virusHashType virusInfo = 1 ∨ virusHashType virusInfo = 2 ∨
      virusHashType virusInfo = 3 ∨ virusHashType virusInfo = 4 := by
  simpa only [validHashType, List.mem_cons, List.not_mem_nil, or_false] using h

/-- A hash of valid type is a key lmdb takes, inside the record. -/
theorem hashLength_valid (virusInfo : List UInt8) (h : validHashType virusInfo) :
    ¬ UInt64.ofInt (getHashLengthByType (virusHashType virusInfo)) - 1 ≥ mdbMaxKeySize ∧
      (UInt32.ofInt (getHashLengthByType (virusHashType virusInfo))).toNat ≤ 32 := by
  rcases validHashType_cases h with ht | ht | ht | ht
  all_goals
    rw [ht]
    decide

/-- The length of any other hash is minus one. -/
theorem hashLength_invalid (virusInfo : List UInt8) (h : ¬ validHashType virusInfo) :
    getHashLengthByType (virusHashType virusInfo) = -1 := by
  simp only [validHashType, List.mem_cons, List.not_mem_nil, or_false, not_or] at h
  rcases h with ⟨h1, h2, h3, h4⟩
  unfold getHashLengthByType
  rw [if_neg h3, if_neg h1, if_neg h2, if_neg h4]

/-- What one record of valid type does. -/
def absorbed (c : CSM4Crypto) (o : DatOutcomes) (t : DatCore) (r : List UInt8) : DatCore where
  txn := (mdbCursorPut t.txn (virusKey (plain c r))
    (UInt64.ofInt (getHashLengthByType (virusHashType (plain c r)))) (plain c r) (o.put t.puts)).2
  fed := t.fed ++ plain c r
  puts := t.puts + 1

/-- A record of another type ends the process: its hash, minus one bytes long,
    is printed. -/
theorem absorb_eq (c : CSM4Crypto) (o : DatOutcomes) (t : DatCore) (r : List UInt8) :
    absorb c o t r
      = if validHashType (plain c r) then .ok (absorbed c o t r) else .error .accessViolation := by
  have hlen := length_plain c r
  have hsize : virusInfoSize = 80 := rfl
  have hreadable : (virusHash (plain c r)).length = 79 := by
    rw [virusHash, List.length_drop, hlen]
    rfl
  unfold absorb absorbed
  dsimp only
  by_cases hvalid : validHashType (plain c r)
  · rcases hashLength_valid _ hvalid with ⟨-, hhash⟩
    -- Printing the hash stays inside the record, so both branches go on.
    have hroom : ¬ (virusHash (plain c r)).length
        < (UInt32.ofInt (getHashLengthByType (virusHashType (plain c r)))).toNat := by omega
    rw [if_pos hvalid, hexToWStr, if_neg hroom]
    split <;> rfl
  · have hneg := hashLength_invalid _ hvalid
    -- The put fails for its size, so the branch that prints is taken.
    have hput := mdbCursorPut_badSize t.txn (virusKey (plain c r)) (plain c r)
      (UInt64.ofInt (getHashLengthByType (virusHashType (plain c r)))) (o.put t.puts)
      (by rw [hneg]; decide)
    have hlong : (UInt32.ofInt (getHashLengthByType (virusHashType (plain c r)))).toNat
        = 4294967295 := by
      rw [hneg]
      rfl
    have hpast : (virusHash (plain c r)).length
        < (UInt32.ofInt (getHashLengthByType (virusHashType (plain c r)))).toNat := by omega
    rw [if_neg hvalid, if_neg hput, hexToWStr, if_pos hpast]

/-- The loops come to their end when every record is of valid type. -/
theorem foldlM_absorb_eq (c : CSM4Crypto) (o : DatOutcomes) (rs : List (List UInt8))
    (t : DatCore) :
    rs.foldlM (absorb c o) t
      = if ∀ r ∈ rs, validHashType (plain c r) then .ok (rs.foldl (absorbed c o) t)
        else .error .accessViolation := by
  induction rs generalizing t with
  | nil => rw [if_pos (fun r hr => absurd hr List.not_mem_nil)]; rfl
  | cons r rs ih =>
      rw [List.foldlM_cons, absorb_eq]
      by_cases hr : validHashType (plain c r)
      · have hall : (∀ x ∈ r :: rs, validHashType (plain c x))
            ↔ ∀ x ∈ rs, validHashType (plain c x) := by
          rw [List.forall_mem_cons]
          exact and_iff_right hr
        rw [if_pos hr]
        exact (ih (absorbed c o t r)).trans (if_congr hall.symm rfl rfl)
      · rw [if_neg hr, if_neg (fun hall => hr (hall r List.mem_cons_self))]
        rfl

/-- What the loops feed: the records, decrypted, in order. -/
theorem foldl_absorbed_fed (c : CSM4Crypto) (o : DatOutcomes) (rs : List (List UInt8))
    (t : DatCore) : (rs.foldl (absorbed c o) t).fed = t.fed ++ rs.flatMap (plain c) := by
  induction rs generalizing t with
  | nil => rw [List.foldl_nil, List.flatMap_nil, List.append_nil]
  | cons r rs ih =>
      rw [List.foldl_cons, ih, List.flatMap_cons, ← List.append_assoc]
      rfl

/-- The record with the key it is inserted under. -/
def keyed (virusInfo : List UInt8) : List UInt8 × List UInt8 :=
  (virusKey virusInfo, virusInfo)

/-- The records, from put number `k` on, whose put does not fail. -/
def putRecords (o : DatOutcomes) : List (List UInt8) → Nat → List (List UInt8)
  | [], _ => []
  | v :: vs, k => if o.put k = none then v :: putRecords o vs (k + 1) else putRecords o vs (k + 1)

theorem putRecords_eq (o : DatOutcomes) (hput : ∀ k, o.put k = none) (vs : List (List UInt8))
    (k : Nat) : putRecords o vs k = vs := by
  induction vs generalizing k with
  | nil => rfl
  | cons v vs ih => rw [putRecords, if_pos (hput k), ih]

/-- A record that is inserted first makes no difference to whether there is a
    new one among the records. -/
theorem exists_new_insertNew (db : Db) (key value : List UInt8) (vs : List (List UInt8)) :
    (db key = none ∨ ∃ v ∈ vs, db.insertNew key value (virusKey v) = none) ↔
      db key = none ∨ ∃ v ∈ vs, db (virusKey v) = none := by
  by_cases hnew : db key = none
  · exact iff_of_true (Or.inl hnew) (Or.inl hnew)
  · rw [insertNew_of_some db key value (Option.isSome_iff_ne_none.mpr hnew)]

/-- What the put of a record does to the transaction. -/
theorem absorbed_txn (c : CSM4Crypto) (o : DatOutcomes) (r : List UInt8)
    (hvalid : validHashType (plain c r)) (t : DatCore) (hlive : t.txn.Live) :
    (absorbed c o t r).txn.Live ∧
      ((absorbed c o t r).txn.error = false ↔
        t.txn.error = false ∧ ∀ rc, o.put t.puts ≠ some (rc, true)) ∧
      ((absorbed c o t r).txn.error = false → (absorbed c o t r).txn.db
        = if o.put t.puts = none then t.txn.db.insertNew (virusKey (plain c r)) (plain c r)
          else t.txn.db) ∧
      ((absorbed c o t r).txn.error = false → ((absorbed c o t r).txn.dirty = true ↔
        t.txn.dirty = true ∨ o.put t.puts = none ∧ t.txn.db (virusKey (plain c r)) = none)) :=
  mdbCursorPut_valid t.txn (virusKey (plain c r)) (plain c r) _ (o.put t.puts) hlive
    (hashLength_valid _ hvalid).1

/-- The loops keep the write transaction, and it is marked when a put marks it.
    Induction on the records, each put shifting the ones behind it. -/
theorem foldl_absorbed_error (c : CSM4Crypto) (o : DatOutcomes) (rs : List (List UInt8))
    (hvalid : ∀ r ∈ rs, validHashType (plain c r)) (t : DatCore) (hlive : t.txn.Live) :
    (rs.foldl (absorbed c o) t).txn.Live ∧
      ((rs.foldl (absorbed c o) t).txn.error = false ↔
        t.txn.error = false ∧ ∀ k < rs.length, ∀ rc, o.put (t.puts + k) ≠ some (rc, true)) := by
  induction rs generalizing t with
  | nil =>
      refine ⟨hlive, ?_⟩
      simp only [List.foldl_nil, List.length_nil, Nat.not_lt_zero, false_implies, implies_true,
        and_true]
  | cons r rs ih =>
      rcases absorbed_txn c o r (hvalid r List.mem_cons_self) t hlive with ⟨hlive₁, herr₁, -, -⟩
      rcases ih (fun x hx => hvalid x (List.mem_cons_of_mem r hx)) (absorbed c o t r) hlive₁ with
        ⟨hlive₂, herr₂⟩
      have hputs : (absorbed c o t r).puts = t.puts + 1 := rfl
      refine ⟨hlive₂, ?_⟩
      rw [List.foldl_cons, herr₂]
      -- The first put is that of `r`, the others are shifted by one.
      constructor
      · rintro ⟨hone, hrest⟩
        rcases herr₁.mp hone with ⟨hsound, hfirst⟩
        refine ⟨hsound, fun k hk rc => ?_⟩
        cases k with
        | zero => exact hfirst rc
        | succ k =>
            rw [List.length_cons] at hk
            have hshift : t.puts + (k + 1) = (absorbed c o t r).puts + k := by
              omega
            rw [hshift]
            exact hrest k (by omega) rc
      · rintro ⟨hsound, hall⟩
        refine ⟨herr₁.mpr ⟨hsound, hall 0 (Nat.succ_pos _)⟩, fun k hk rc => ?_⟩
        have hshift : (absorbed c o t r).puts + k = t.puts + (k + 1) := by
          omega
        rw [hshift]
        exact hall (k + 1) (Nat.succ_lt_succ hk) rc

/-- Where no put has marked it, it has the records that are put, in order, and is
    dirty when one of them is new. Induction on the records. -/
theorem foldl_absorbed_db (c : CSM4Crypto) (o : DatOutcomes) (rs : List (List UInt8))
    (hvalid : ∀ r ∈ rs, validHashType (plain c r)) (t : DatCore) (hlive : t.txn.Live)
    (hsound : (rs.foldl (absorbed c o) t).txn.error = false) :
    (rs.foldl (absorbed c o) t).txn.db
        = t.txn.db.insertAll ((putRecords o (rs.map (plain c)) t.puts).map keyed) ∧
      ((rs.foldl (absorbed c o) t).txn.dirty = true ↔ t.txn.dirty = true ∨
        ∃ v ∈ putRecords o (rs.map (plain c)) t.puts, t.txn.db (virusKey v) = none) := by
  induction rs generalizing t with
  | nil =>
      refine ⟨rfl, ?_⟩
      simp only [List.foldl_nil, List.map_nil, putRecords, List.not_mem_nil, false_and,
        exists_false, or_false]
  | cons r rs ih =>
      have hrest : ∀ x ∈ rs, validHashType (plain c x) :=
        fun x hx => hvalid x (List.mem_cons_of_mem r hx)
      rcases absorbed_txn c o r (hvalid r List.mem_cons_self) t hlive with
        ⟨hlive₁, -, hdb₁, hdirty₁⟩
      rw [List.foldl_cons] at hsound ⊢
      have hone := ((foldl_absorbed_error c o rs hrest _ hlive₁).2.mp hsound).1
      have hputs : (absorbed c o t r).puts = t.puts + 1 := rfl
      rcases ih hrest (absorbed c o t r) hlive₁ hsound with ⟨hdb₂, hdirty₂⟩
      rw [hdb₂, hdirty₂, hdb₁ hone, hdirty₁ hone, hputs, List.map_cons, putRecords, or_assoc]
      by_cases hput : o.put t.puts = none
      · rw [if_pos hput, if_pos hput, List.map_cons, Db.insertAll, Db.insertAll, List.foldl_cons,
          keyed, List.exists_mem_cons_iff, and_iff_right hput, exists_new_insertNew]
        exact ⟨rfl, Iff.rfl⟩
      · rw [if_neg hput, if_neg hput]
        simp only [hput, false_and, false_or, and_self]

/-! ### The function -/

/-- The buffer when the header has been read. -/
def headerBuffer (o : DatOutcomes) (file : List UInt8) : List UInt8 :=
  poke o.heap 0 (file.take headerSize)

/-- What is fed of the header. -/
def headerFed (o : DatOutcomes) (file : List UInt8) : List UInt8 :=
  slice (zeroHash (headerBuffer o file)) 0 headerSize

/-- Where the loops start in a transaction. -/
def loopStart (o : DatOutcomes) (txn : MdbTxn) (file : List UInt8) : DatLoop where
  txn := txn
  fed := headerFed o file
  pBuffer := poke (zeroHash (headerBuffer o file)) 0
    (List.replicate (min headerSize file.length) 0)
  pVirusInfoOut := o.outHeap
  iReadCount := batchCount
  puts := 0

/-- The records the reads deliver of a file. -/
def recordsRead (o : DatOutcomes) (file : List UInt8) : List (List UInt8) :=
  datRecords o.readOk (file.drop headerSize) 0

/-- Everything before the loops succeeds. -/
structure Reaches (o : DatOutcomes) (file : List UInt8) : Prop where
  newOk : o.newOk = true
  headerReadOk : o.headerReadOk = true
  magic : hasMagic (headerBuffer o file) = true
  sm3Malloc : o.sm3Malloc = true
  outMalloc : o.outMalloc = true
  txnBegin : o.txnBegin = mdbSuccess
  dbiOpen : o.dbiOpen = mdbSuccess
  cursorOpen : o.cursorOpen = mdbSuccess

/-- The loops on a file absorb its records. -/
theorem datBatches_file (c : CSM4Crypto) (o : DatOutcomes) (file : List UInt8) (txn : MdbTxn) :
    (datBatches c o (file.drop headerSize) 0 (loopStart o txn file)).map DatLoop.core
      = if ∀ r ∈ recordsRead o file, validHashType (plain c r) then
          .ok ((recordsRead o file).foldl (absorbed c o) (loopStart o txn file).core)
        else .error .accessViolation := by
  rw [datBatches_eq c o _ _ 0 _ rfl o.outHeap_length (Or.inl rfl)]
  exact foldlM_absorb_eq c o _ _

/-- A function that returned before the loops left the database alone. -/
structure Untouched (env : MdbEnv) (r : DatResult) : Prop where
  bRet : r.bRet = false
  handle : r.env.handle = env.handle
  committed : r.env.committed = env.committed

/-- The transaction, from where it is begun. -/
theorem datTransaction_reaches (sm3 : Sm3) (c : CSM4Crypto) (o : DatOutcomes) (env : MdbEnv)
    (henv : env.Usable) (file : List UInt8) (h : Reaches o file) :
    datTransaction sm3 c o env file (zeroHash (headerBuffer o file))
        (storedHash (headerBuffer o file)) (datVersion (headerBuffer o file))
      = (datBatches c o (file.drop headerSize) 0 (loopStart o env.writeTxn file)).map
          (datFinish sm3 o (env.record .begun) (storedHash (headerBuffer o file))
            (datVersion (headerBuffer o file))) := by
  unfold datTransaction
  simp only [h.txnBegin, mdbTxnBegin_write env henv, h.dbiOpen, h.cursorOpen, ne_eq,
    not_true_eq_false, if_false]
  unfold loopStart headerFed
  split <;> rename_i hloop <;> rw [hloop] <;> rfl

/-- When everything before the loops succeeds, the result is what the loops
    and the end come to. -/
theorem loadDat_reaches (sm3 : Sm3) (c : CSM4Crypto) (o : DatOutcomes) (env : MdbEnv)
    (henv : env.Usable) (file : List UInt8) (h : Reaches o file) :
    loadDat sm3 c o env false (some file)
      = (datBatches c o (file.drop headerSize) 0 (loopStart o env.writeTxn file)).map
          (fun s => datCleanup (datFinish sm3 o (env.record .begun)
            (storedHash (headerBuffer o file)) (datVersion (headerBuffer o file)) s)) := by
  have hbuf : poke o.heap 0 (file.take headerSize) = headerBuffer o file := rfl
  unfold loadDat datBody
  simp only [Bool.false_eq_true, if_false, h.newOk, h.headerReadOk, hbuf, h.magic, h.sm3Malloc,
    h.outMalloc, Bool.true_eq_false, datTransaction_reaches sm3 c o env henv file h]
  split <;> rename_i hloop <;>
    cases hbatches : datBatches c o (file.drop headerSize) 0 (loopStart o env.writeTxn file) <;>
    rw [hbatches] at hloop <;> cases hloop <;> rfl

/-- Ending a transaction without committing it leaves the database alone. -/
theorem mdbTxnAbort_env (env : MdbEnv) (txn : MdbTxn) :
    (mdbTxnAbort env txn).1.handle = env.handle ∧
      (mdbTxnAbort env txn).1.committed = env.committed := by
  unfold mdbTxnAbort
  split <;> exact ⟨rfl, rfl⟩

theorem datCleanup_env (e : DatExit) :
    (datCleanup e).bRet = e.bRet ∧ (datCleanup e).fed = e.fed ∧
      (datCleanup e).env.handle = e.env.handle ∧
      (datCleanup e).env.committed = e.env.committed := by
  unfold datCleanup
  cases e.pTxn with
  | none => exact ⟨rfl, rfl, rfl, rfl⟩
  | some txn =>
      dsimp only
      split
      · exact ⟨rfl, rfl, mdbTxnAbort_env e.env (mdbTxnReset txn)⟩
      · exact ⟨rfl, rfl, rfl, rfl⟩

theorem untouched_cleanup (env : MdbEnv) (e : DatExit) (hret : e.bRet = false)
    (hhandle : e.env.handle = env.handle) (hcommitted : e.env.committed = env.committed) :
    Untouched env (datCleanup e) := by
  rcases datCleanup_env e with ⟨h1, -, h3, h4⟩
  exact ⟨h1.trans hret, h3.trans hhandle, h4.trans hcommitted⟩

/-- The transaction is left early, or everything before the loops succeeded. -/
theorem datTransaction_cases (sm3 : Sm3) (c : CSM4Crypto) (o : DatOutcomes) (env : MdbEnv)
    (file pBuffer check : List UInt8) (version : String) (e : DatExit)
    (h : datTransaction sm3 c o env file pBuffer check version = .ok e) :
    (Untouched env (datCleanup e) ∧
        ¬ (o.txnBegin = mdbSuccess ∧ o.dbiOpen = mdbSuccess ∧ o.cursorOpen = mdbSuccess)) ∨
      (env.Usable ∧ o.txnBegin = mdbSuccess ∧ o.dbiOpen = mdbSuccess ∧
        o.cursorOpen = mdbSuccess) := by
  unfold datTransaction at h
  dsimp only at h
  cases hbegin : mdbTxnBegin env false o.txnBegin with
  | error e =>
      rw [hbegin] at h
      exact absurd h (by simp only [reduceCtorEq, not_false_eq_true])
  | ok x =>
      have husable := usable_of_mdbTxnBegin env o.txnBegin x hbegin
      by_cases htxn : o.txnBegin = mdbSuccess
      · rw [htxn, mdbTxnBegin_write env husable] at h
        dsimp only at h
        -- Without the database or the cursor the cleanup aborts what was begun.
        by_cases hdbi : o.dbiOpen = mdbSuccess
        · by_cases hcursor : o.cursorOpen = mdbSuccess
          · exact Or.inr ⟨husable, htxn, hdbi, hcursor⟩
          · rw [if_neg (not_not_intro hdbi), if_pos hcursor] at h
            rw [← Except.ok.inj h]
            exact Or.inl ⟨untouched_cleanup env _ rfl rfl rfl, fun hall => hcursor hall.2.2⟩
        · rw [if_pos hdbi] at h
          rw [← Except.ok.inj h]
          exact Or.inl ⟨untouched_cleanup env _ rfl rfl rfl, fun hall => hdbi hall.2.1⟩
      · -- Without a transaction there is nothing to end.
        have hopened : ¬ env.handle ≠ .opened := not_not_intro husable.opened
        have hfreed : ¬ ((false : Bool) = false ∧ env.txn0Freed = true) := by
          rw [husable.txn0]
          exact fun hf => Bool.false_ne_true hf.2
        rw [mdbTxnBegin, if_neg hopened, if_neg hfreed, if_pos htxn] at h
        rw [← Except.ok.inj h]
        exact Or.inl ⟨untouched_cleanup env _ rfl rfl rfl, fun hall => htxn hall.1⟩

/-- `LoadDat` returns before the loops, or everything before them succeeded. -/
theorem loadDat_cases (sm3 : Sm3) (c : CSM4Crypto) (o : DatOutcomes) (env : MdbEnv)
    (pathEmpty : Bool) (file : Option (List UInt8)) (r : DatResult)
    (h : loadDat sm3 c o env pathEmpty file = .ok r) :
    (Untouched env r ∧ ∀ F, pathEmpty = false → file = some F → ¬ Reaches o F) ∨
      ∃ F, pathEmpty = false ∧ file = some F ∧ Reaches o F ∧ env.Usable := by
  unfold loadDat at h
  cases hbody : datBody sm3 c o env pathEmpty file with
  | error e =>
      rw [hbody] at h
      exact absurd h (by simp only [reduceCtorEq, not_false_eq_true])
  | ok e =>
      rw [hbody] at h
      rw [← Except.ok.inj h]
      unfold datBody at hbody
      -- Every way out before the transaction touches nothing.
      have hearly : ∀ version fed, Except.ok (DatExit.early env version fed)
          = (Except.ok e : Except Crash DatExit) → Untouched env (datCleanup e) := by
        intro version fed heq
        rw [← Except.ok.inj heq]
        exact untouched_cleanup env _ rfl rfl rfl
      by_cases hpath : pathEmpty = true
      · rw [if_pos hpath] at hbody
        refine Or.inl ⟨hearly _ _ hbody, fun F hfalse => ?_⟩
        exact absurd (hpath.symm.trans hfalse) (by decide)
      rw [if_neg hpath] at hbody
      cases file with
      | none => exact Or.inl ⟨hearly _ _ hbody, fun F _ hnone => absurd hnone.symm (by
          simp only [reduceCtorEq, not_false_eq_true])⟩
      | some F =>
          dsimp only at hbody
          by_cases hnew : o.newOk = false
          · rw [if_pos hnew] at hbody
            exact absurd hbody (by simp only [reduceCtorEq, not_false_eq_true])
          rw [if_neg hnew] at hbody
          have hleft : ∀ version fed, Except.ok (DatExit.early env version fed)
              = (Except.ok e : Except Crash DatExit) → ¬ Reaches o F →
              (Untouched env (datCleanup e) ∧
                ∀ F', pathEmpty = false → some F = some F' → ¬ Reaches o F') ∨
              ∃ F', pathEmpty = false ∧ some F = some F' ∧ Reaches o F' ∧ env.Usable := by
            intro version fed heq hnot
            refine Or.inl ⟨hearly version fed heq, fun F' _ hF => ?_⟩
            rw [← Option.some.inj hF]
            exact hnot
          by_cases hhead : o.headerReadOk = false
          · rw [if_pos hhead] at hbody
            exact hleft _ _ hbody (fun hr => absurd (hr.headerReadOk.symm.trans hhead) (by decide))
          rw [if_neg hhead] at hbody
          by_cases hmagic : hasMagic (headerBuffer o F) = false
          · have hmagic' : hasMagic (poke o.heap 0 (F.take headerSize)) = false := hmagic
            rw [if_pos hmagic'] at hbody
            exact hleft _ _ hbody (fun hr => absurd (hr.magic.symm.trans hmagic) (by decide))
          have hmagic' : ¬ hasMagic (poke o.heap 0 (F.take headerSize)) = false := hmagic
          rw [if_neg hmagic'] at hbody
          by_cases hsm3 : o.sm3Malloc = false
          · rw [if_pos hsm3] at hbody
            exact hleft _ _ hbody (fun hr => absurd (hr.sm3Malloc.symm.trans hsm3) (by decide))
          rw [if_neg hsm3] at hbody
          by_cases hmalloc : o.outMalloc = false
          · rw [if_pos hmalloc] at hbody
            exact hleft _ _ hbody (fun hr => absurd (hr.outMalloc.symm.trans hmalloc) (by decide))
          rw [if_neg hmalloc] at hbody
          rcases datTransaction_cases sm3 c o env F _ _ _ e hbody with
            ⟨huntouched, hnot⟩ | ⟨husable, htxn, hdbi, hcursor⟩
          · refine Or.inl ⟨huntouched, fun F' _ hF hr => hnot ?_⟩
            exact ⟨hr.txnBegin, hr.dbiOpen, hr.cursorOpen⟩
          · exact Or.inr ⟨F, Bool.eq_false_iff.mpr hpath, rfl,
              ⟨eq_true_of_ne_false hnew, eq_true_of_ne_false hhead,
                eq_true_of_ne_false hmagic, eq_true_of_ne_false hsm3,
                eq_true_of_ne_false hmalloc, htxn, hdbi, hcursor⟩, husable⟩

/-- The end of the function: it returns true when the hash is as stored, no put
    marked the transaction and the commit succeeds or has nothing to write, and
    only then the database is what the loops made of it. -/
theorem datFinish_spec (sm3 : Sm3) (o : DatOutcomes) (env : MdbEnv) (check : List UInt8)
    (version : String) (s : DatLoop) (hlive : s.txn.Live)
    (hclean : s.txn.error = false → s.txn.dirty = false → s.txn.db = env.committed) :
    let r := datCleanup (datFinish sm3 o env check version s)
    r.fed = s.fed ∧ r.env.handle = env.handle ∧
      (r.bRet = true ↔
        (sm3 s.fed).toList = check ∧ s.txn.error = false ∧
          (s.txn.dirty = false ∨ o.commit = mdbSuccess)) ∧
      (r.bRet = true → r.env.committed = s.txn.db) ∧
      (r.bRet = false → r.env.committed = env.committed) := by
  have hwrite : ¬ s.txn.rdonly = true := by rw [hlive.write]; decide
  have hfinished : ¬ (s.txn.rdonly = false ∧ s.txn.finished = true) := by
    rw [hlive.live]
    exact fun h => Bool.false_ne_true h.2
  intro r
  rcases datCleanup_env (datFinish sm3 o env check version s) with ⟨hret, hfed, hhandle, hdb⟩
  have habort := mdbTxnAbort_env env s.txn
  have hgoal : r.bRet = (datFinish sm3 o env check version s).bRet := hret
  rw [hgoal, hfed, hhandle, hdb]
  unfold datFinish
  by_cases hhash : (sm3 s.fed).toList = check
  · rw [if_pos hhash, mdbTxnCommit, if_neg hwrite]
    by_cases herr : s.txn.error = true
    · -- A marked transaction is refused by the commit.
      rw [if_pos (Or.inr herr)]
      refine ⟨rfl, habort.1, iff_of_false Bool.false_ne_true (fun h => ?_),
        fun h => absurd h Bool.false_ne_true, fun _ => habort.2⟩
      exact absurd (herr.symm.trans h.2.1) (by decide)
    have hsound : s.txn.error = false := Bool.eq_false_iff.mpr herr
    have hrefused : ¬ (s.txn.finished = true ∨ s.txn.error = true) := by
      rw [hlive.live, hsound]
      decide
    rw [if_neg hrefused]
    by_cases hdirty : s.txn.dirty = false
    · -- Nothing was written, so the database is that of the transaction already.
      rw [if_pos hdirty]
      exact ⟨rfl, rfl, iff_of_true rfl ⟨hhash, hsound, Or.inl hdirty⟩,
        fun _ => (hclean hsound hdirty).symm, fun h => absurd h.symm Bool.false_ne_true⟩
    rw [if_neg hdirty]
    by_cases hcommit : o.commit = mdbSuccess
    -- The hash is right, no put failed, and the pages were written.
    · rw [if_neg (not_not_intro hcommit)]
      exact ⟨rfl, rfl, iff_of_true rfl ⟨hhash, hsound, Or.inr hcommit⟩, fun _ => rfl,
        fun h => absurd h.symm Bool.false_ne_true⟩
    · rw [if_pos hcommit]
      have hcode : (o.commit == mdbSuccess) = false := beq_eq_false_iff_ne.mpr hcommit
      refine ⟨rfl, habort.1, iff_of_false ?_ (fun h => h.2.2.elim hdirty hcommit), fun h => ?_,
        fun _ => habort.2⟩
      · exact fun h => absurd (hcode.symm.trans h) (by decide)
      · exact absurd (hcode.symm.trans h) (by decide)
  · rw [if_neg hhash]
    exact ⟨rfl, habort.1, iff_of_false Bool.false_ne_true (fun h => hhash h.1),
      fun h => absurd h Bool.false_ne_true, fun _ => habort.2⟩

/-- The records of a file whose put does not fail. -/
def recordsPut (c : CSM4Crypto) (o : DatOutcomes) (file : List UInt8) : List (List UInt8) :=
  putRecords o ((recordsRead o file).map (plain c)) 0

/-- Every key that is put is known already, so that there is nothing to write. -/
def PutsNothing (c : CSM4Crypto) (o : DatOutcomes) (known : List UInt8 → Prop)
    (file : List UInt8) : Prop :=
  ∀ v ∈ recordsPut c o file, known (virusKey v)

/-- The files that are accepted, by the keys that are known before. -/
structure Accepted (sm3 : Sm3) (c : CSM4Crypto) (o : DatOutcomes) (known : List UInt8 → Prop)
    (file : List UInt8) : Prop where
  reaches : Reaches o file
  valid : ∀ r ∈ recordsRead o file, validHashType (plain c r)
  unmarked : ∀ k < (recordsRead o file).length, ∀ rc, o.put k ≠ some (rc, true)
  hash : (sm3 (headerFed o file ++ (recordsRead o file).flatMap (plain c))).toList
    = storedHash (headerBuffer o file)
  commit : PutsNothing c o known file ∨ o.commit = mdbSuccess

/-- With valid records the loops come to their end. The transaction is still a
    write transaction, it is marked when a put marks it, and else it has the
    records put, in order, and is clean when they were all there. -/
theorem datBatches_ok (c : CSM4Crypto) (o : DatOutcomes) (env : MdbEnv) (file : List UInt8)
    (hvalid : ∀ r ∈ recordsRead o file, validHashType (plain c r)) :
    ∃ s, datBatches c o (file.drop headerSize) 0 (loopStart o env.writeTxn file) = .ok s ∧
      s.txn.Live ∧ s.fed = headerFed o file ++ (recordsRead o file).flatMap (plain c) ∧
      (s.txn.error = false ↔
        ∀ k < (recordsRead o file).length, ∀ rc, o.put k ≠ some (rc, true)) ∧
      (s.txn.error = false →
        s.txn.db = env.committed.insertAll ((recordsPut c o file).map keyed)) ∧
      (s.txn.error = false →
        (s.txn.dirty = false ↔ PutsNothing c o env.committed.Has file)) := by
  have hbatches := datBatches_file c o file env.writeTxn
  rw [if_pos hvalid] at hbatches
  cases hloop : datBatches c o (file.drop headerSize) 0 (loopStart o env.writeTxn file) with
  | error e =>
      rw [hloop] at hbatches
      exact absurd hbatches (by simp only [Except.map, reduceCtorEq, not_false_eq_true])
  | ok s =>
      rw [hloop] at hbatches
      have hcore : s.core = (recordsRead o file).foldl (absorbed c o)
          (loopStart o env.writeTxn file).core := Except.ok.inj hbatches
      -- What the loops did to the transaction and to the hash, seen from their start.
      rcases foldl_absorbed_error c o (recordsRead o file) hvalid
        (loopStart o env.writeTxn file).core (writeTxn_live env) with ⟨hlive, herr⟩
      have hwritten := foldl_absorbed_db c o (recordsRead o file) hvalid
        (loopStart o env.writeTxn file).core (writeTxn_live env)
      rw [← hcore] at hlive herr hwritten
      have hfed : s.fed = headerFed o file ++ (recordsRead o file).flatMap (plain c) :=
        (congrArg DatCore.fed hcore).trans (foldl_absorbed_fed c o _ _)
      refine ⟨s, rfl, hlive, hfed, herr.trans ((and_iff_right rfl).trans ?_),
        fun hsound => (hwritten hsound).1, fun hsound => ?_⟩
      · refine forall_congr' (fun k => ?_)
        have hzero : (loopStart o env.writeTxn file).core.puts + k = k := Nat.zero_add k
        rw [hzero]
      · -- It began clean, so that only a new key can have made it dirty.
        have hnew : s.txn.dirty = true ↔
            ∃ v ∈ recordsPut c o file, env.committed (virusKey v) = none :=
          (hwritten hsound).2.trans (or_iff_right Bool.false_ne_true)
        rw [← Bool.not_eq_true, hnew]
        simp only [PutsNothing, Db.Has, not_exists, not_and, ← Option.not_isSome_iff_eq_none,
          not_not]

/-- With valid records the function returns. -/
theorem loadDat_runs (sm3 : Sm3) (c : CSM4Crypto) (o : DatOutcomes) (env : MdbEnv)
    (henv : env.Usable) (file : List UInt8) (h : Reaches o file)
    (hvalid : ∀ r ∈ recordsRead o file, validHashType (plain c r)) :
    ∃ r, loadDat sm3 c o env false (some file) = .ok r := by
  rcases datBatches_ok c o env file hvalid with ⟨s, hloop, -⟩
  rw [loadDat_reaches sm3 c o env henv file h, hloop]
  exact ⟨_, rfl⟩

/-- With a record that is not valid it crashes. -/
theorem loadDat_crashes (sm3 : Sm3) (c : CSM4Crypto) (o : DatOutcomes) (env : MdbEnv)
    (henv : env.Usable) (file : List UInt8) (h : Reaches o file)
    (hinvalid : ¬ ∀ r ∈ recordsRead o file, validHashType (plain c r)) (r : DatResult) :
    loadDat sm3 c o env false (some file) ≠ .ok r := by
  have hbatches := datBatches_file c o file env.writeTxn
  rw [if_neg hinvalid] at hbatches
  rw [loadDat_reaches sm3 c o env henv file h]
  cases hloop : datBatches c o (file.drop headerSize) 0 (loopStart o env.writeTxn file) with
  | error e => simp only [Except.map, ne_eq, reduceCtorEq, not_false_eq_true]
  | ok s =>
      rw [hloop] at hbatches
      exact absurd hbatches (by simp only [Except.map, reduceCtorEq, not_false_eq_true])

/-- What `LoadDat` did when it returned: it returned true for the accepted
    files, whose records are then in the database in order, and else the
    database is as it was. -/
theorem loadDat_spec (sm3 : Sm3) (c : CSM4Crypto) (o : DatOutcomes) (env : MdbEnv)
    (pathEmpty : Bool) (file : Option (List UInt8)) (r : DatResult)
    (h : loadDat sm3 c o env pathEmpty file = .ok r) :
    r.env.handle = env.handle ∧
      (r.bRet = true ↔ pathEmpty = false ∧
        ∃ F, file = some F ∧ Accepted sm3 c o env.committed.Has F) ∧
      (∀ F, file = some F → r.bRet = true →
        r.fed = headerFed o F ++ (recordsRead o F).flatMap (plain c) ∧
        r.env.committed = env.committed.insertAll ((recordsPut c o F).map keyed)) ∧
      (r.bRet = false → r.env.committed = env.committed) := by
  rcases loadDat_cases sm3 c o env pathEmpty file r h with
    ⟨huntouched, hnot⟩ | ⟨F, hpath, hfile, hreaches, husable⟩
  · have hret : ¬ r.bRet = true := by rw [huntouched.bRet]; decide
    refine ⟨huntouched.handle, iff_of_false hret ?_, fun _ _ htrue => absurd htrue hret,
      fun _ => huntouched.committed⟩
    rintro ⟨hpath, F, hfile, haccepted⟩
    exact hnot F hpath hfile haccepted.reaches
  · rw [hpath, hfile] at h
    by_cases hvalid : ∀ x ∈ recordsRead o F, validHashType (plain c x)
    · -- The loops were reached, and came to their end.
      rcases datBatches_ok c o env F hvalid with ⟨s, hloop, hlive, hfed, herr, hdb, hdirty⟩
      have hclean : s.txn.error = false → s.txn.dirty = false →
          s.txn.db = (env.record .begun).committed := by
        intro hsound hclean
        rw [hdb hsound]
        refine insertAll_of_known _ _ (fun x hx => ?_)
        rcases List.mem_map.mp hx with ⟨v, hv, rfl⟩
        exact (hdirty hsound).mp hclean v hv
      rw [loadDat_reaches sm3 c o env husable F hreaches, hloop] at h
      rcases datFinish_spec sm3 o (env.record .begun) (storedHash (headerBuffer o F))
        (datVersion (headerBuffer o F)) s hlive hclean with ⟨hrfed, hhandle, hret, htrue, hfalse⟩
      have hr : datCleanup (datFinish sm3 o (env.record .begun)
          (storedHash (headerBuffer o F)) (datVersion (headerBuffer o F)) s) = r :=
        Except.ok.inj h
      rw [hr] at hrfed hhandle hret htrue hfalse
      refine ⟨hhandle, hret.trans ?_, ?_, hfalse⟩
      · rw [hfed]
        constructor
        · rintro ⟨hhash, hsound, hcommit⟩
          exact ⟨hpath, F, hfile, hreaches, hvalid, herr.mp hsound, hhash,
            hcommit.imp_left (hdirty hsound).mp⟩
        · rintro ⟨-, F', hF, haccepted⟩
          have hsame : F = F' := Option.some.inj (hfile.symm.trans hF)
          rw [← hsame] at haccepted
          have hsound := herr.mpr haccepted.unmarked
          exact ⟨haccepted.hash, hsound, haccepted.commit.imp_left (hdirty hsound).mpr⟩
      · intro F' hF htrue'
        have hsame : F = F' := Option.some.inj (hfile.symm.trans hF)
        rw [← hsame]
        have hsound := (hret.mp htrue').2.1
        exact ⟨hrfed.trans hfed, (htrue htrue').trans (hdb hsound)⟩
    · exact absurd h (loadDat_crashes sm3 c o env husable F hreaches hvalid r)

/-- What an accepted file has fed: its header and the records read of it, and
    they hash to what the header says. -/
theorem loadDat_accepted (sm3 : Sm3) (c : CSM4Crypto) (o : DatOutcomes) (env : MdbEnv)
    (file : List UInt8) (r : DatResult) (h : loadDat sm3 c o env false (some file) = .ok r)
    (hret : r.bRet = true) :
    r.fed = headerFed o file ++ (recordsRead o file).flatMap (plain c) ∧
      (sm3 r.fed).toList = storedHash (headerBuffer o file) := by
  rcases loadDat_spec sm3 c o env false (some file) r h with ⟨-, hiff, htrue, -⟩
  have hfed := (htrue file rfl hret).1
  rcases (hiff.mp hret).2 with ⟨F, hF, haccepted⟩
  rw [← Option.some.inj hF] at haccepted
  refine ⟨hfed, ?_⟩
  rw [hfed]
  exact haccepted.hash

/-- Nothing outside the program fails. -/
structure DatOutcomes.Good (o : DatOutcomes) : Prop where
  newOk : o.newOk = true
  headerReadOk : o.headerReadOk = true
  sm3Malloc : o.sm3Malloc = true
  outMalloc : o.outMalloc = true
  txnBegin : o.txnBegin = mdbSuccess
  dbiOpen : o.dbiOpen = mdbSuccess
  cursorOpen : o.cursorOpen = mdbSuccess
  readOk : ∀ k, o.readOk k = true
  put : ∀ k, o.put k = none
  commit : o.commit = mdbSuccess

theorem DatOutcomes.Good.reaches {o : DatOutcomes} (h : o.Good) (file : List UInt8)
    (hmagic : hasMagic (headerBuffer o file) = true) : Reaches o file :=
  ⟨h.newOk, h.headerReadOk, hmagic, h.sm3Malloc, h.outMalloc, h.txnBegin, h.dbiOpen, h.cursorOpen⟩

/-- What `LoadDat` returns and commits when nothing outside fails and the
    records are valid. -/
theorem loadDat_good (sm3 : Sm3) (c : CSM4Crypto) (o : DatOutcomes) (hgood : o.Good)
    (env : MdbEnv) (henv : env.Usable) (file : List UInt8)
    (hmagic : hasMagic (headerBuffer o file) = true) (records : List (List UInt8))
    (hrecords : (recordsRead o file).map (plain c) = records)
    (hvalid : ∀ v ∈ records, validHashType v) :
    ∃ r, loadDat sm3 c o env false (some file) = .ok r ∧
      (r.bRet = true ↔
        (sm3 (headerFed o file ++ records.flatten)).toList = storedHash (headerBuffer o file)) ∧
      (r.bRet = true → r.fed = headerFed o file ++ records.flatten) ∧
      (r.bRet = true → r.env.committed = env.committed.insertAll (records.map keyed)) ∧
      (r.bRet = false → r.env.committed = env.committed) := by
  have hreaches := hgood.reaches file hmagic
  have hvalid' : ∀ r ∈ recordsRead o file, validHashType (plain c r) :=
    fun r hr => hvalid _ (hrecords ▸ List.mem_map_of_mem hr)
  have hput : recordsPut c o file = records := by
    rw [recordsPut, putRecords_eq o hgood.put, hrecords]
  have hfeds : (recordsRead o file).flatMap (plain c) = records.flatten := by
    rw [← hrecords, List.flatMap_def]
  -- No put fails, so that the transaction is not marked as broken by one.
  have hunmarked : ∀ k < (recordsRead o file).length, ∀ rc, o.put k ≠ some (rc, true) := by
    intro k _ rc hk
    exact absurd ((hgood.put k).symm.trans hk) (by simp only [reduceCtorEq, not_false_eq_true])
  rcases loadDat_runs sm3 c o env henv file hreaches hvalid' with ⟨r, hr⟩
  rcases loadDat_spec sm3 c o env false (some file) r hr with ⟨-, hret, htrue, hfalse⟩
  rw [← hfeds]
  refine ⟨r, hr, hret.trans ?_, fun h => (htrue file rfl h).1, fun h => ?_, hfalse⟩
  · constructor
    · rintro ⟨-, F, hF, haccepted⟩
      rw [Option.some.inj hF]
      exact haccepted.hash
    · exact fun hhash => ⟨rfl, file, rfl, hreaches, hvalid', hunmarked, hhash, Or.inr hgood.commit⟩
  · rw [← hput]
    exact (htrue file rfl h).2

/-! ### Whole files -/

/-- A header that is there is what is read of it. -/
theorem headerBuffer_eq (o : DatOutcomes) (header body : List UInt8)
    (hlen : header.length = headerSize) :
    headerBuffer o (header ++ body) = header ++ o.heap.drop headerSize := by
  rw [headerBuffer, ← hlen, List.take_left, poke, List.take_zero, List.nil_append, Nat.zero_add]

/-- The letters are those of the header. -/
theorem hasMagic_headerBuffer (o : DatOutcomes) (header body : List UInt8)
    (hlen : header.length = headerSize) (hmagic : hasMagic header = true) :
    hasMagic (headerBuffer o (header ++ body)) = true := by
  have hsize : headerSize = 96 := rfl
  rw [headerBuffer_eq o header body hlen, hasMagic, byteAt_append_left _ _ _ (by omega),
    byteAt_append_left _ _ _ (by omega), byteAt_append_left _ _ _ (by omega)]
  exact hmagic

theorem headerFed_eq (o : DatOutcomes) (header body : List UInt8)
    (hlen : header.length = headerSize) : headerFed o (header ++ body) = zeroHash header := by
  have hsize : headerSize = 96 := rfl
  have hzero : zeroHash (header ++ o.heap.drop headerSize)
      = zeroHash header ++ o.heap.drop headerSize := by
    rw [zeroHash, zeroHash, poke, poke, List.take_append_of_le_length (by omega),
      List.length_replicate, List.drop_append_of_le_length (by omega), List.append_assoc,
      List.append_assoc, List.append_assoc]
  have hlen' : (zeroHash header).length = headerSize := by
    rw [zeroHash, length_poke _ _ _ (by rw [List.length_replicate]; omega), hlen]
  rw [headerFed, headerBuffer_eq o header body hlen, hzero,
    slice_append_left _ _ _ _ (by omega), slice_all _ _ (by omega)]

/-- A record encrypted. -/
def sealRecord (c : CSM4Crypto) (virusInfo : List UInt8) : List UInt8 :=
  c.encryptSector virusInfo (List.replicate virusInfoSize 0) (virusInfoSize / cryptoUnitSize)

theorem length_sealRecord (c : CSM4Crypto) (v : List UInt8) :
    (sealRecord c v).length = virusInfoSize :=
  length_encryptSector c v _ 5 List.length_replicate

theorem plain_sealRecord (c : CSM4Crypto) (v : List UInt8) (h : v.length = virusInfoSize) :
    plain c (sealRecord c v) = v :=
  decryptSector_encryptSector c v _ _ 5 h List.length_replicate List.length_replicate

theorem sealRecord_plain (c : CSM4Crypto) (r : List UInt8) (h : r.length = virusInfoSize) :
    sealRecord c (plain c r) = r :=
  encryptSector_decryptSector c r _ _ 5 h List.length_replicate List.length_replicate

/-- What is undone on every member of a list is undone on the list. -/
theorem map_map_cancel {α β : Type} (f : α → β) (g : β → α) (l : List α)
    (h : ∀ x ∈ l, g (f x) = x) : (l.map f).map g = l := by
  induction l with
  | nil => rfl
  | cons x xs ih =>
      rw [List.map_cons, List.map_cons, h x List.mem_cons_self,
        ih (fun y hy => h y (List.mem_cons_of_mem x hy))]

/-- The records behind the header are read and decrypted to what they were. -/
theorem datRecords_sealed (c : CSM4Crypto) (readOk : Nat → Bool) (hread : ∀ k, readOk k = true)
    (header : List UInt8) (hheader : header.length = headerSize) (records : List (List UInt8))
    (hlen : ∀ v ∈ records, v.length = virusInfoSize) :
    (datRecords readOk ((header ++ records.flatMap (sealRecord c)).drop headerSize) 0).map (plain c)
      = records := by
  have hsealed : ∀ r ∈ records.map (sealRecord c), r.length = virusInfoSize := by
    intro r hr
    rcases List.mem_map.mp hr with ⟨v, -, rfl⟩
    exact length_sealRecord c v
  rw [← hheader, List.drop_left, List.flatMap_def, datRecords_eq readOk hread _ hsealed,
    map_map_cancel (sealRecord c) (plain c) records (fun v hv => plain_sealRecord c v (hlen v hv))]

/-- `LoadDat` on a header and any number of records: it returns true when the
    hash is that of all of it, the database then has the records in order, and
    else is as it was. -/
theorem loadDat_exact (sm3 : Sm3) (c : CSM4Crypto) (o : DatOutcomes) (hgood : o.Good)
    (env : MdbEnv) (henv : env.Usable) (header : List UInt8)
    (hheader : header.length = headerSize) (hmagic : hasMagic header = true)
    (records : List (List UInt8)) (hlen : ∀ v ∈ records, v.length = virusInfoSize)
    (hvalid : ∀ v ∈ records, validHashType v) :
    ∃ r, loadDat sm3 c o env false (some (header ++ records.flatMap (sealRecord c))) = .ok r ∧
      (r.bRet = true ↔ storedHash header = (sm3 (zeroHash header ++ records.flatten)).toList) ∧
      (r.bRet = true → r.env.committed = env.committed.insertAll (records.map keyed)) ∧
      (r.bRet = false → r.env.committed = env.committed) := by
  have hsize : headerSize = 96 := rfl
  have hread : (recordsRead o (header ++ records.flatMap (sealRecord c))).map (plain c) = records :=
    datRecords_sealed c o.readOk hgood.readOk header hheader records hlen
  have hmagic' := hasMagic_headerBuffer o header (records.flatMap (sealRecord c)) hheader hmagic
  have hstored : storedHash (headerBuffer o (header ++ records.flatMap (sealRecord c)))
      = storedHash header := by
    rw [headerBuffer_eq o header _ hheader]
    exact slice_append_left _ _ _ _ (by omega)
  rcases loadDat_good sm3 c o hgood env henv _ hmagic' records hread hvalid with
    ⟨r, hr, hret, -, htrue, hfalse⟩
  rw [hstored, headerFed_eq o header _ hheader] at hret
  exact ⟨r, hr, hret.trans eq_comm, htrue, hfalse⟩

/-- Everything succeeds, and fresh memory is zero. -/
def DatOutcomes.allGood : DatOutcomes where
  newOk := true
  heap := List.replicate bufSize 0
  headerReadOk := true
  sm3Malloc := true
  outMalloc := true
  outHeap := List.replicate virusInfoSize 0
  txnBegin := mdbSuccess
  dbiOpen := mdbSuccess
  cursorOpen := mdbSuccess
  readOk := fun _ => true
  put := fun _ => none
  commit := mdbSuccess
  heap_length := List.length_replicate
  outHeap_length := List.length_replicate

theorem DatOutcomes.allGood_good : DatOutcomes.allGood.Good :=
  ⟨rfl, rfl, rfl, rfl, rfl, rfl, rfl, fun _ => rfl, fun _ => rfl, rfl⟩

/-- An environment nothing has happened in. -/
def MdbEnv.fresh : MdbEnv where
  handle := .opened
  committed := Db.empty
  txn0Freed := false
  events := []

theorem MdbEnv.fresh_usable : MdbEnv.fresh.Usable :=
  ⟨rfl, rfl⟩

/-- The header of ninety-three zeros behind the letters. -/
def blankHeader : List UInt8 :=
  65 :: 82 :: 83 :: List.replicate 93 0

/-- A header with the hash of the file it is in front of. -/
def sealedHeader (sm3 : Sm3) (payload : List UInt8) : List UInt8 :=
  65 :: 82 :: 83 :: (List.replicate 61 0 ++ (sm3 (blankHeader ++ payload)).toList)

theorem length_sealedHeader (sm3 : Sm3) (payload : List UInt8) :
    (sealedHeader sm3 payload).length = headerSize := by
  simp only [sealedHeader, List.length_cons, List.length_append, List.length_replicate,
    Vector.length_toList]
  rfl

/-- The stored hash is behind the first sixty-four bytes. -/
theorem storedHash_sealedHeader (sm3 : Sm3) (payload : List UInt8) :
    storedHash (sealedHeader sm3 payload) = (sm3 (blankHeader ++ payload)).toList := by
  have hright := slice_append_right (65 :: 82 :: 83 :: List.replicate 61 0)
    (sm3 (blankHeader ++ payload)).toList 0 32
  exact hright.trans (slice_all _ _ (Nat.le_of_eq Vector.length_toList))

theorem zeroHash_sealedHeader (sm3 : Sm3) (payload : List UInt8) :
    zeroHash (sealedHeader sm3 payload) = blankHeader := by
  have hmiddle := poke_middle (65 :: 82 :: 83 :: List.replicate 61 0)
    (sm3 (blankHeader ++ payload)).toList [] (List.replicate 32 0)
    (by rw [Vector.length_toList, List.length_replicate])
  rw [List.append_nil, List.append_nil] at hmiddle
  exact hmiddle

/-- A header and one record of type one. -/
theorem loadDat_exact_oneRecord :
    ∃ r, loadDat standardSm3 CSM4Crypto.getInstance DatOutcomes.allGood MdbEnv.fresh false
        (some (sealedHeader standardSm3 (1 :: List.replicate 79 0) ++
          [1 :: List.replicate 79 0].flatMap (sealRecord CSM4Crypto.getInstance))) = .ok r ∧
      r.bRet = true ∧
      r.env.committed = Db.empty.insertAll ([1 :: List.replicate 79 0].map keyed) := by
  rcases loadDat_exact standardSm3 CSM4Crypto.getInstance _ DatOutcomes.allGood_good MdbEnv.fresh
    MdbEnv.fresh_usable (sealedHeader standardSm3 (1 :: List.replicate 79 0))
    (length_sealedHeader _ _) rfl [1 :: List.replicate 79 0] (by decide) (by decide) with
    ⟨r, hr, hret, htrue, -⟩
  rw [storedHash_sealedHeader, zeroHash_sealedHeader] at hret
  exact ⟨r, hr, hret.mpr rfl, htrue (hret.mpr rfl)⟩

/-- A feature file with these records. -/
def sealedFile (sm3 : Sm3) (c : CSM4Crypto) (records : List (List UInt8)) : List UInt8 :=
  sealedHeader sm3 records.flatten ++ records.flatMap (sealRecord c)

section SealedFile

variable (sm3 : Sm3) (c : CSM4Crypto) (o : DatOutcomes) (records : List (List UInt8))

theorem hasMagic_sealedFile : hasMagic (headerBuffer o (sealedFile sm3 c records)) = true :=
  hasMagic_headerBuffer o _ _ (length_sealedHeader sm3 _) rfl

/-- Its records are read of it. -/
theorem recordsRead_sealedFile (hread : ∀ k, o.readOk k = true)
    (hlen : ∀ v ∈ records, v.length = virusInfoSize) :
    (recordsRead o (sealedFile sm3 c records)).map (plain c) = records :=
  datRecords_sealed c o.readOk hread _ (length_sealedHeader sm3 _) records hlen

/-- Its hash is as stored. -/
theorem hash_sealedFile (hread : ∀ k, o.readOk k = true)
    (hlen : ∀ v ∈ records, v.length = virusInfoSize) :
    (sm3 (headerFed o (sealedFile sm3 c records)
        ++ (recordsRead o (sealedFile sm3 c records)).flatMap (plain c))).toList
      = storedHash (headerBuffer o (sealedFile sm3 c records)) := by
  have hsize : headerSize = 96 := rfl
  have hlength := length_sealedHeader sm3 records.flatten
  rw [List.flatMap_def, recordsRead_sealedFile sm3 c o records hread hlen, sealedFile,
    headerFed_eq _ _ _ hlength, zeroHash_sealedHeader, headerBuffer_eq _ _ _ hlength]
  exact ((slice_append_left _ _ _ _ (by omega)).trans (storedHash_sealedHeader sm3 _)).symm

/-- It is accepted, whatever is known. -/
theorem sealedFile_accepted (hgood : o.Good) (known : List UInt8 → Prop)
    (hlen : ∀ v ∈ records, v.length = virusInfoSize) (hvalid : ∀ v ∈ records, validHashType v) :
    Accepted sm3 c o known (sealedFile sm3 c records) where
  reaches := hgood.reaches _ (hasMagic_sealedFile sm3 c o records)
  valid r hr := by
    have hmem := List.mem_map_of_mem (f := plain c) hr
    rw [recordsRead_sealedFile sm3 c o records hgood.readOk hlen] at hmem
    exact hvalid _ hmem
  unmarked k _ rc hk := absurd ((hgood.put k).symm.trans hk) (by
    simp only [reduceCtorEq, not_false_eq_true])
  hash := hash_sealedFile sm3 c o records hgood.readOk hlen
  commit := Or.inr hgood.commit

end SealedFile

/-! ### What no check sees -/

/-- The bytes of a file behind the last record read. -/
def uncovered (o : DatOutcomes) (file : List UInt8) : List UInt8 :=
  (file.drop headerSize).drop
    (virusInfoSize * (recordsRead o file).length)

/-- When every read succeeds only a last piece shorter than a record is
    uncovered. -/
theorem uncovered_eq (o : DatOutcomes) (hread : ∀ k, o.readOk k = true) (file : List UInt8) :
    uncovered o file
      = file.drop (headerSize + virusInfoSize * ((file.length - headerSize) / virusInfoSize)) := by
  rw [uncovered, recordsRead, datRecords_length o.readOk hread, List.length_drop, List.drop_drop]

/-- A file is its header, its records and the uncovered bytes. -/
theorem file_eq (o : DatOutcomes) (file : List UInt8) :
    file.take headerSize ++ ((recordsRead o file).flatten ++ uncovered o file) = file := by
  rw [uncovered, recordsRead, datRecords_flatten, List.take_append_drop, List.take_append_drop]

theorem length_headerBuffer (o : DatOutcomes) (file : List UInt8) :
    (headerBuffer o file).length = bufSize := by
  have hsize : headerSize = 96 := rfl
  have hbuf : bufSize = 16384 := rfl
  rw [headerBuffer, length_poke, o.heap_length]
  rw [List.length_take, o.heap_length]
  omega

theorem length_headerFed (o : DatOutcomes) (file : List UInt8) :
    (headerFed o file).length = headerSize := by
  have hsize : headerSize = 96 := rfl
  have hbuf : bufSize = 16384 := rfl
  have hheader := length_headerBuffer o file
  rw [headerFed, length_slice]
  rw [zeroHash, length_poke _ _ _ (by rw [List.length_replicate]; omega)]
  omega

/-- The bytes fed of a header and its stored hash give the header back, as far
    as the file goes. -/
theorem header_of_fed (o : DatOutcomes) (file : List UInt8) :
    file.take headerSize = slice (slice (headerFed o file) 0 64 ++ storedHash (headerBuffer o file))
      0 (min headerSize file.length) := by
  have hsize : headerSize = 96 := rfl
  have hbuf : bufSize = 16384 := rfl
  have hheader := length_headerBuffer o file
  -- Only the stored hash was set to zero.
  have hfront : slice (headerFed o file) 0 64 = slice (headerBuffer o file) 0 64 := by
    rw [headerFed, slice_slice _ _ _ _ _ (by omega), zeroHash,
      slice_poke_before _ _ _ _ _ (by omega) (by omega)]
  have hjoin : slice (headerBuffer o file) 0 64 ++ storedHash (headerBuffer o file)
      = slice (headerBuffer o file) 0 headerSize := (slice_add _ 0 64 32).symm
  have hread := slice_poke_self o.heap (file.take headerSize) 0 (Nat.zero_le _)
  rw [List.length_take] at hread
  rw [hfront, hjoin, slice_slice _ _ _ _ _ (by omega), Nat.zero_add]
  exact hread.symm

/-- Equal plaintexts come from equal records. -/
theorem records_of_plain (c : CSM4Crypto) (rs rs' : List (List UInt8))
    (hrs : ∀ r ∈ rs, r.length = virusInfoSize) (hrs' : ∀ r ∈ rs', r.length = virusInfoSize)
    (h : rs.flatMap (plain c) = rs'.flatMap (plain c)) : rs = rs' := by
  have hplain : ∀ l : List (List UInt8), ∀ p ∈ l.map (plain c), p.length = virusInfoSize := by
    intro l p hp
    rcases List.mem_map.mp hp with ⟨r, -, rfl⟩
    exact length_plain c r
  have hmap : rs.map (plain c) = rs'.map (plain c) :=
    eq_of_flatten_eq virusInfoSize (by decide) _ _ (hplain rs) (hplain rs')
      (by rw [← List.flatMap_def, ← List.flatMap_def]; exact h)
  -- Sealing both sides again gives the records.
  have hback : ∀ l : List (List UInt8), (∀ r ∈ l, r.length = virusInfoSize) →
      (l.map (plain c)).map (sealRecord c) = l := fun l hl =>
    map_map_cancel (plain c) (sealRecord c) l (fun r hr => sealRecord_plain c r (hl r hr))
  rw [← hback rs hrs, hmap, hback rs' hrs']

/-- Behind such a header there may be anything shorter than a record. -/
theorem sealedHeader_accepted (sm3 : Sm3) (c : CSM4Crypto) (body : List UInt8)
    (hbody : body.length < virusInfoSize) :
    ∃ r, loadDat sm3 c DatOutcomes.allGood MdbEnv.fresh false (some (sealedHeader sm3 [] ++ body))
        = .ok r ∧ r.bRet = true ∧ r.fed = blankHeader := by
  have hsize : headerSize = 96 := rfl
  have hlen := length_sealedHeader sm3 []
  have hread : ∀ k, DatOutcomes.allGood.readOk k = true := fun _ => rfl
  have hnone : (recordsRead DatOutcomes.allGood (sealedHeader sm3 [] ++ body)).map (plain c) = [] := by
    rw [recordsRead, ← hlen, List.drop_left, List.map_eq_nil_iff, ← List.length_eq_zero_iff,
      datRecords_length _ hread, Nat.div_eq_of_lt hbody]
  have hmagic : hasMagic (headerBuffer DatOutcomes.allGood (sealedHeader sm3 [] ++ body)) = true := by
    rw [headerBuffer_eq _ _ _ hlen]
    rfl
  rcases loadDat_good sm3 c _ DatOutcomes.allGood_good MdbEnv.fresh MdbEnv.fresh_usable _ hmagic []
    hnone (fun v hv => absurd hv List.not_mem_nil) with ⟨r, hr, hret, hfed, -, -⟩
  rw [headerFed_eq _ _ _ hlen, zeroHash_sealedHeader, List.flatten_nil, List.append_nil]
    at hfed hret
  have htrue : r.bRet = true := by
    refine hret.mpr ?_
    rw [headerBuffer_eq _ _ _ hlen]
    exact ((slice_append_left _ _ _ _ (by omega)).trans (storedHash_sealedHeader sm3 [])).symm
  exact ⟨r, hr, htrue, hfed htrue⟩

/-- Two accepted files that fed the same bytes are the same exactly when they
    are equally long and agree on the uncovered bytes. -/
theorem checksum_iff (sm3 : Sm3) (c : CSM4Crypto) (o₁ o₂ : DatOutcomes) (env₁ env₂ : MdbEnv)
    (file₁ file₂ : List UInt8) (r₁ r₂ : DatResult)
    (h₁ : loadDat sm3 c o₁ env₁ false (some file₁) = .ok r₁) (hret₁ : r₁.bRet = true)
    (h₂ : loadDat sm3 c o₂ env₂ false (some file₂) = .ok r₂) (hret₂ : r₂.bRet = true)
    (hfed : r₁.fed = r₂.fed) :
    file₁ = file₂ ↔ file₁.length = file₂.length ∧ uncovered o₁ file₁ = uncovered o₂ file₂ := by
  rcases loadDat_accepted sm3 c o₁ env₁ file₁ r₁ h₁ hret₁ with ⟨hfed₁, hhash₁⟩
  rcases loadDat_accepted sm3 c o₂ env₂ file₂ r₂ h₂ hret₂ with ⟨hfed₂, hhash₂⟩
  rw [recordsRead] at hfed₁ hfed₂
  -- Both are what SM3 makes of the same bytes.
  have hstored : storedHash (headerBuffer o₁ file₁) = storedHash (headerBuffer o₂ file₂) := by
    rw [← hhash₁, ← hhash₂, hfed]
  rw [hfed₁, hfed₂] at hfed
  rcases List.append_inj hfed (by rw [length_headerFed, length_headerFed]) with ⟨hhead, hplain⟩
  have hrecords := records_of_plain c _ _ (length_of_mem_datRecords o₁.readOk _ 0)
    (length_of_mem_datRecords o₂.readOk _ 0) hplain
  constructor
  · intro h
    refine ⟨congrArg List.length h, ?_⟩
    rw [uncovered, uncovered, recordsRead, recordsRead, hrecords, h]
  -- Header, records and the rest are the whole file.
  · rintro ⟨hlen, hrest⟩
    have htake : file₁.take headerSize = file₂.take headerSize := by
      rw [header_of_fed o₁ file₁, header_of_fed o₂ file₂, hhead, hstored, hlen]
    rw [← file_eq o₁ file₁, ← file_eq o₂ file₂, htake, recordsRead, recordsRead, hrecords, hrest]

/-- Whatever the hash function, a byte behind the header goes unseen. -/
theorem checksum_trailing : ¬ ∃ sm3 : Sm3, ∀ (c : CSM4Crypto) (o : DatOutcomes) (env : MdbEnv)
    (file₁ file₂ : List UInt8) (r₁ r₂ : DatResult),
    loadDat sm3 c o env false (some file₁) = .ok r₁ → r₁.bRet = true →
    loadDat sm3 c o env false (some file₂) = .ok r₂ → r₂.bRet = true →
    storedHash file₁ = storedHash file₂ → r₁.fed = r₂.fed → file₁ = file₂ := by
  rintro ⟨sm3, hall⟩
  have hsize : headerSize = 96 := rfl
  have hlen := length_sealedHeader sm3 []
  rcases sealedHeader_accepted sm3 CSM4Crypto.getInstance [] (by decide) with ⟨r₁, h₁, hret₁, hfed₁⟩
  rcases sealedHeader_accepted sm3 CSM4Crypto.getInstance [0] (by decide)
    with ⟨r₂, h₂, hret₂, hfed₂⟩
  have hstored : storedHash (sealedHeader sm3 [] ++ [])
      = storedHash (sealedHeader sm3 [] ++ [0]) := by
    rw [storedHash, storedHash, slice_append_left _ _ _ _ (by omega),
      slice_append_left _ _ _ _ (by omega)]
  have hsame := hall _ _ _ _ _ r₁ r₂ h₁ hret₁ h₂ hret₂ hstored (hfed₁.trans hfed₂.symm)
  have hlength := congrArg List.length hsame
  simp only [List.length_append, List.length_nil, List.length_cons] at hlength
  omega

/-- A header of its own hash with nothing and with a byte behind it, told apart
    by what is uncovered. -/
theorem checksum_iff_trailing :
    ∃ r₁ r₂, loadDat standardSm3 CSM4Crypto.getInstance DatOutcomes.allGood MdbEnv.fresh false
        (some (sealedHeader standardSm3 [] ++ [])) = .ok r₁ ∧
      loadDat standardSm3 CSM4Crypto.getInstance DatOutcomes.allGood MdbEnv.fresh false
        (some (sealedHeader standardSm3 [] ++ [0])) = .ok r₂ ∧
      (sealedHeader standardSm3 [] ++ [] = sealedHeader standardSm3 [] ++ [0] ↔
        (sealedHeader standardSm3 [] ++ []).length = (sealedHeader standardSm3 [] ++ [0]).length ∧
          uncovered DatOutcomes.allGood (sealedHeader standardSm3 [] ++ [])
            = uncovered DatOutcomes.allGood (sealedHeader standardSm3 [] ++ [0])) := by
  rcases sealedHeader_accepted standardSm3 CSM4Crypto.getInstance [] (by decide) with
    ⟨r₁, h₁, hret₁, hfed₁⟩
  rcases sealedHeader_accepted standardSm3 CSM4Crypto.getInstance [0] (by decide) with
    ⟨r₂, h₂, hret₂, hfed₂⟩
  exact ⟨r₁, r₂, h₁, h₂, checksum_iff _ _ _ _ _ _ _ _ r₁ r₂ h₁ hret₁ h₂ hret₂
    (hfed₁.trans hfed₂.symm)⟩

end Feature

end Defender
