import Defender.Feature.Digests
import Defender.Feature.FeatureSet
import Mathlib.Data.List.Forall2

/-!
# Checking Files

`CheckRansomware` hashes a file and asks the database for the hash. A type that
is not known becomes MD5. The hash is computed into memory fresh from the heap,
and `FetchFileHash` returns true when a page of the view could not be read, so
after such an error the database is asked for what the heap held.

A check leaves the database as it was. So any checks after a successful `Load`
are answered from one and the same set of keys, whatever their order
(`checks_after_load`), and the hashes are those of the standards.

## Main definitions

* `Check`: A call of `CheckRansomware` and what its calls come to.
* `CFeatureDB.checkRansomware`, `CFeatureDB.checks`: One call, and any number.
* `Check.key`: What the database is asked for.
* `Check.Asks`, `Check.Never`: The database is asked, and the check does not
  come back.

## Theorems

* `isHashExist_open`: A query on an open database, whatever its calls come to.
* `checkRansomware_open`: A check on an open database.
* `checks_open`: Any number of checks.
* `checks_after_load`: The verdicts after a `Load`.
-/

namespace Defender

namespace Feature

open Wire Crypto

/-! ### Queries on an open database -/

/-- The calls of a query succeed. -/
structure QueryOutcomes.Succeeds (q : QueryOutcomes) : Prop where
  txnBegin : q.txnBegin = mdbSuccess
  dbiOpen : q.dbiOpen = mdbSuccess
  get : q.get = none

/-- An object with its environment open, and what is in its database. -/
structure OpenOn (db : Db) (this : CFeatureDB) : Prop where
  init : this.m_bInit = true
  opened : this.m_pEnv.handle = .opened
  committed : this.m_pEnv.committed = db

/-- A query leaves an open database as it was, and finds a hash if it is there
    and its calls succeed. -/
theorem isHashExist_open (db : Db) (this : CFeatureDB) (hopen : OpenOn db this)
    (q : QueryOutcomes) (hfault : q.get ≠ some mdbSuccess) (hash : List UInt8)
    (hlen : IsHashLength hash) :
    ∃ r, this.isHashExist q (some hash) hash.length false = .ok r ∧ OpenOn db r.this ∧
      ((r.bRet && r.bExist) = true ↔ q.Succeeds ∧ (db hash).isSome = true) := by
  have hlong : ¬ (hash.length : Int) < 16 := by
    unfold IsHashLength at hlen
    omega
  have hready : this.ready q.envCreate q.envOpen = (true, this) := by
    rw [CFeatureDB.ready, if_pos hopen.init]
  have hroom : ¬ hash.length < (UInt32.ofInt (hash.length : Int)).toNat := by
    rcases hlen with hlen | hlen | hlen <;> rw [hlen] <;> decide
  have hkey : hash.take (hash.length : Int).toNat = hash := List.take_length
  have hne : hash ≠ [] := by
    intro hnil
    rw [hnil] at hlen
    exact absurd hlen (by unfold IsHashLength; decide)
  unfold CFeatureDB.isHashExist
  simp only [if_neg hlong, hready, Bool.true_eq_false, if_false]
  rw [mdbTxnBegin_read this.m_pEnv hopen.opened]
  by_cases hbegin : q.txnBegin ≠ mdbSuccess
  · rw [if_pos hbegin]
    exact ⟨_, rfl, hopen, iff_of_false Bool.false_ne_true (fun h => hbegin h.1.txnBegin)⟩
  rw [if_neg hbegin]
  dsimp only
  -- From here on the transaction is reset and aborted.
  by_cases hdbi : q.dbiOpen ≠ mdbSuccess
  · rw [if_pos hdbi]
    exact ⟨_, rfl, ⟨hopen.init, hopen.opened, hopen.committed⟩,
      iff_of_false Bool.false_ne_true (fun h => hdbi h.1.dbiOpen)⟩
  rw [if_neg hdbi, hexToWStr, if_neg hroom, hkey]
  simp only [mdbGet, MdbEnv.readTxn, Bool.false_eq_true, or_self, if_neg hne, if_false,
    hopen.committed]
  cases hget : q.get with
  | some rc =>
      have hrc : rc ≠ mdbSuccess := fun h => hfault (by rw [hget, h])
      dsimp only
      rw [if_pos hrc]
      refine ⟨_, rfl, ⟨hopen.init, hopen.opened, hopen.committed⟩, iff_of_false ?_ (fun h => ?_)⟩
      · rw [Bool.and_false]
        exact Bool.false_ne_true
      · exact absurd (hget.symm.trans h.1.get) (by simp only [reduceCtorEq, not_false_eq_true])
  | none =>
      have hsucceeds : q.Succeeds := ⟨not_not.mp hbegin, not_not.mp hdbi, hget⟩
      cases hdb : db hash with
      | none =>
          exact ⟨_, rfl, ⟨hopen.init, hopen.opened, hopen.committed⟩,
            iff_of_false Bool.false_ne_true (fun h => Bool.false_ne_true h.2)⟩
      | some value =>
          exact ⟨_, rfl, ⟨hopen.init, hopen.opened, hopen.committed⟩,
            iff_of_true rfl ⟨hsucceeds, rfl⟩⟩

/-! ### The function -/

/-- A call of `CheckRansomware`: its arguments, what the file of that name has in
    it, what is in the memory that `new` gives, and what the calls come to. A
    failure of `mdb_get` has a code that is not the one of success. -/
structure Check where
  wstrFileName : String
  nType : Int
  file : List UInt8
  heap : Nat → UInt8
  hash : FileHashOutcomes
  query : QueryOutcomes
  get_fault : query.get ≠ some mdbSuccess

/-- The type that is used. -/
def Check.type (k : Check) : Int :=
  if k.nType < 1 ∨ k.nType > 4 then 3 else k.nType

/-- How a call can end without a value. -/
inductive Stop where
  | crash (e : Crash)
  | never

/-- `CFeatureDB::CheckRansomware`, with the contexts that the hash functions have
    on the stack: the value returned, and the object. -/
def CFeatureDB.checkRansomware (this : CFeatureDB) (stack : HashStack) (k : Check) :
    Except Stop (Bool × CFeatureDB) :=
  if k.wstrFileName.isEmpty = true then .ok (false, this)
  else
    let nType := k.type
    let nLength := getHashLengthByType nType
    if nLength ≤ 0 then .ok (false, this)
    else
      let pHash := (List.range nLength.toNat).map k.heap
      match stack.fetchFileHash k.hash (some pHash) nLength nType k.file with
      | none => .error .never
      | some (false, _) => .ok (false, this)
      | some (true, pHash) =>
          match this.isHashExist k.query pHash nLength false with
          | .error e => .error (.crash e)
          | .ok r => .ok (if r.bRet = false then false else r.bExist, r.this)

/-- Checks one after the other: their values. -/
def CFeatureDB.checks (this : CFeatureDB) (stack : HashStack) :
    List Check → Except Stop (List Bool × CFeatureDB)
  | [] => .ok ([], this)
  | k :: ks =>
      match this.checkRansomware stack k with
      | .error e => .error e
      | .ok (bRet, this) =>
          match this.checks stack ks with
          | .error e => .error e
          | .ok (bRets, this) => .ok (bRet :: bRets, this)

/-- The bytes that are hashed, unless a page cannot be read. -/
def Check.hashed (k : Check) : Option (List UInt8) :=
  fed k.hash.inPage k.file (arriving k.hash k.type k.file)

/-- What the database is asked for: the digest of what is hashed, or what was in
    the memory. -/
def Check.key (k : Check) : List UInt8 :=
  match k.hashed with
  | none => (List.range (getHashLengthByType k.type).toNat).map k.heap
  | some bytes => standardDigest k.type bytes

/-- The database is asked. -/
structure Check.Asks (k : Check) : Prop where
  name : k.wstrFileName.isEmpty = false
  calls : FetchCalls k.hash

/-- The check does not come back: MD5 leaves the view of one of the longest
    files. -/
def Check.Never (k : Check) : Prop :=
  k.Asks ∧ ∃ bytes, k.hashed = some bytes ∧ k.type = 3 ∧ 4294967232 ≤ bytes.length

/-! ### One check -/

/-- The type is one of the four. -/
theorem Check.isHashType (k : Check) : IsHashType k.type (getHashLengthByType k.type) := by
  have hrange : k.type = 1 ∨ k.type = 2 ∨ k.type = 3 ∨ k.type = 4 := by
    unfold Check.type
    split <;> omega
  rcases hrange with h | h | h | h
  · exact Or.inl ⟨h, by rw [h]; rfl⟩
  · exact Or.inr (Or.inl ⟨h, by rw [h]; rfl⟩)
  · exact Or.inr (Or.inr (Or.inl ⟨h, by rw [h]; rfl⟩))
  · exact Or.inr (Or.inr (Or.inr ⟨h, by rw [h]; rfl⟩))

theorem Check.length_key (k : Check) : (k.key.length : Int) = getHashLengthByType k.type := by
  have hpos := (isHashType_length _ _ k.isHashType).1
  have hdigest := fun bytes => length_digestOf standardLibs k.type _ k.isHashType bytes
  unfold Check.key
  cases k.hashed with
  | none =>
      dsimp only
      rw [List.length_map, List.length_range]
      omega
  | some bytes =>
      have hlen := hdigest bytes
      rw [digestOf_standardLibs] at hlen
      dsimp only
      rw [hlen]
      omega

theorem Check.isHashLength_key (k : Check) : IsHashLength k.key := by
  have hlen := k.length_key
  unfold IsHashLength
  rcases k.isHashType with ⟨-, h⟩ | ⟨-, h⟩ | ⟨-, h⟩ | ⟨-, h⟩ <;> omega

/-- When a call before the hashing fails the function returns false. -/
theorem stack_fetchFileHash_fails (stack : HashStack) (o : FileHashOutcomes)
    (hcalls : ¬ FetchCalls o) (pHash : List UInt8) (nLength nType : Int) (file : List UInt8) :
    stack.fetchFileHash o (some pHash) nLength nType file = some (false, some pHash) := by
  unfold HashStack.fetchFileHash
  dsimp only
  split
  · rfl
  by_cases hopen : o.openOk = false
  · rw [if_pos hopen]
  rw [if_neg hopen]
  by_cases hmap : o.mapOk = false
  · rw [if_pos hmap]
  rw [if_neg hmap]
  by_cases hview : o.viewOk = false
  · rw [if_pos hview]
  exact absurd ⟨eq_true_of_ne_false hopen, eq_true_of_ne_false hmap, eq_true_of_ne_false hview⟩
    hcalls

/-- What the hashing leaves in the memory is the key. -/
theorem Check.fetchFileHash_key (k : Check) (stack : HashStack) (hasks : k.Asks)
    (hnever : ¬ k.Never) :
    stack.fetchFileHash k.hash
        (some ((List.range (getHashLengthByType k.type).toNat).map k.heap))
        (getHashLengthByType k.type) k.type k.file
      = some (true, some k.key) := by
  have hfetch := stack_fetchFileHash_eq stack k.hash hasks.calls
    ((List.range (getHashLengthByType k.type).toNat).map k.heap) _ k.type
    (isHashType_length _ _ k.isHashType).1 rfl k.file
  rw [hfetch, ← Check.hashed, Check.key]
  cases hhashed : k.hashed with
  | none => rfl
  | some bytes =>
      have hstrays : ¬ Strays k.type bytes.length := by
        rintro ⟨h1, h2, h4, hlong⟩
        have htype : k.type = 3 := by
          rcases k.isHashType with ⟨h, -⟩ | ⟨h, -⟩ | ⟨h, -⟩ | ⟨h, -⟩ <;> omega
        exact hnever ⟨hasks, bytes, hhashed, htype, hlong⟩
      have hlength := length_digestOf standardLibs k.type _ k.isHashType bytes
      rw [digestOf_standardLibs] at hlength
      dsimp only
      rw [if_neg hstrays, poke_all _ _ (by rw [hlength, List.length_map, List.length_range])]

/-- A check on an open database leaves it as it was, and returns true exactly
    when it asks, its query succeeds, and the key is there. -/
theorem checkRansomware_open (stack : HashStack) (db : Db) (this : CFeatureDB)
    (hopen : OpenOn db this) (k : Check) (hnever : ¬ k.Never) :
    ∃ bRet this', this.checkRansomware stack k = .ok (bRet, this') ∧ OpenOn db this' ∧
      (bRet = true ↔ k.Asks ∧ k.query.Succeeds ∧ (db k.key).isSome = true) := by
  have hpos := (isHashType_length _ _ k.isHashType).1
  unfold CFeatureDB.checkRansomware
  by_cases hname : k.wstrFileName.isEmpty = true
  · rw [if_pos hname]
    refine ⟨_, _, rfl, hopen, iff_of_false Bool.false_ne_true (fun h => ?_)⟩
    exact Bool.false_ne_true (h.1.name.symm.trans hname)
  rw [if_neg hname]
  dsimp only
  rw [if_neg (by omega)]
  by_cases hcalls : FetchCalls k.hash
  · have hasks : k.Asks := ⟨Bool.eq_false_iff.mpr hname, hcalls⟩
    rcases isHashExist_open db this hopen k.query k.get_fault k.key k.isHashLength_key with
      ⟨r, hquery, hopen', hfound⟩
    rw [k.length_key] at hquery
    rw [k.fetchFileHash_key stack hasks hnever]
    dsimp only
    rw [hquery]
    refine ⟨_, _, rfl, hopen', ?_⟩
    rw [← hfound.trans (and_iff_right hasks).symm]
    cases r.bRet <;> cases r.bExist <;> decide
  · rw [stack_fetchFileHash_fails stack k.hash hcalls]
    exact ⟨_, _, rfl, hopen, iff_of_false Bool.false_ne_true (fun h => hcalls h.1.calls)⟩

/-! ### Any number of checks -/

/-- Checks are answered from the database as it was before the first of them.
    Induction on the checks. -/
theorem checks_open (stack : HashStack) (db : Db) (this : CFeatureDB) (hopen : OpenOn db this)
    (ks : List Check) (hnever : ∀ k ∈ ks, ¬ k.Never) :
    ∃ bRets this', this.checks stack ks = .ok (bRets, this') ∧ OpenOn db this' ∧
      List.Forall₂ (fun k bRet => bRet = true ↔
        k.Asks ∧ k.query.Succeeds ∧ (db k.key).isSome = true) ks bRets := by
  induction ks generalizing this with
  | nil => exact ⟨[], this, rfl, hopen, List.Forall₂.nil⟩
  | cons k ks ih =>
      rcases checkRansomware_open stack db this hopen k (hnever k List.mem_cons_self) with
        ⟨bRet, next, hcheck, hnext, hverdict⟩
      rcases ih next hnext (fun k' hk' => hnever k' (List.mem_cons_of_mem k hk')) with
        ⟨bRets, last, hchecks, hlast, hverdicts⟩
      refine ⟨bRet :: bRets, last, ?_, hlast, List.Forall₂.cons hverdict hverdicts⟩
      rw [CFeatureDB.checks, hcheck]
      dsimp only
      rw [hchecks]

/-- After `Load` of a directory returned true, with an environment to load into,
    every check is answered, if none of them is one that does not come back: with
    true exactly when it gets to ask, its query succeeds, and the key was there
    before or is one that an accepted file of the directory put. -/
theorem checks_after_load (stack : HashStack) (c : CSM4Crypto) (o : LoadOutcomes)
    (this : CFeatureDB) (strHashstoreDir strSuffix : String) (r : LoadResult)
    (hdir : o.attributes (loadPath o strHashstoreDir) = some true)
    (h : this.load standardLibs.sm3 c o strHashstoreDir strSuffix = .ok r) (hret : r.bRet = true)
    (hready : CanBeReady this o.envCreate o.envOpen) (ks : List Check)
    (hnever : ∀ k ∈ ks, ¬ k.Never) :
    ∃ bRets this', r.this.checks stack ks = .ok (bRets, this') ∧
      List.Forall₂ (fun k bRet => bRet = true ↔ k.Asks ∧ k.query.Succeeds ∧
        (this.m_pEnv.committed.Has k.key ∨
          ∃ i, Accepts standardLibs.sm3 c o this.m_pEnv.committed.Has
            (o.listed strHashstoreDir strSuffix) i ∧ k.key ∈ putKeysAt c o i)) ks bRets := by
  unfold CFeatureDB.load at h
  rw [hdir] at h
  rcases load_directory standardLibs.sm3 c o this _ _ r h hret with
    ⟨hnot, -⟩ | ⟨-, hinit, hopened, -, -, hkeys⟩
  · exact absurd hready hnot
  rcases checks_open stack _ r.this ⟨hinit, hopened, rfl⟩ ks hnever with
    ⟨bRets, last, hchecks, -, hverdicts⟩
  refine ⟨bRets, last, hchecks, hverdicts.imp (fun k bRet hverdict => ?_)⟩
  rw [hverdict, ← Db.Has, hkeys k.key, LoadOutcomes.listed]

theorem good_get_ne : QueryOutcomes.good.get ≠ some mdbSuccess := by
  simp only [QueryOutcomes.good, ne_eq, reduceCtorEq, not_false_eq_true]

/-- A check of a file of two letters. The type is not known, so that it becomes
    MD5. -/
def Check.letters : Check where
  wstrFileName := "E:\\a.exe"
  nType := 9
  file := [0x4D, 0x5A]
  heap := fun _ => 0xCD
  hash := FileHashOutcomes.good
  query := QueryOutcomes.good
  get_fault := good_get_ne

theorem Check.letters_key : Check.letters.key = rfcMd5 [0x4D, 0x5A] :=
  rfl

/-- A directory has a file with the MD5 of the letters in it, and the check after
    it finds them. -/
theorem checks_after_load_letters : ∃ r,
    (CFeatureDB.withKey (List.replicate 16 0)).load standardLibs.sm3 CSM4Crypto.getInstance
      (LoadOutcomes.md5 (rfcMd5 [0x4D, 0x5A])) "D:" ".dat" = .ok r ∧ r.bRet = true ∧
    ∃ this', r.this.checks HashStack.fresh [Check.letters] = .ok ([true], this') := by
  rcases load_md5 (List.replicate 16 0) (rfcMd5 [0x4D, 0x5A]) (length_rfcMd5 _) with
    ⟨r, hr, hret, haccepts, hkeys⟩
  have hnever : ¬ Check.letters.Never := by
    rintro ⟨-, bytes, hbytes, -, hlong⟩
    have hsome : Check.letters.hashed = some [0x4D, 0x5A] := rfl
    rw [hsome, Option.some.injEq] at hbytes
    rw [← hbytes] at hlong
    exact absurd hlong (by decide)
  rcases checks_after_load HashStack.fresh CSM4Crypto.getInstance
    (LoadOutcomes.md5 (rfcMd5 [0x4D, 0x5A])) (CFeatureDB.withKey (List.replicate 16 0)) "D:" ".dat" r
    rfl hr hret (Or.inl rfl) [Check.letters] (List.forall_mem_singleton.mpr hnever) with
    ⟨bRets, this', hchecks, hverdicts⟩
  rcases List.forall₂_cons_left_iff.mp hverdicts with ⟨bRet, rest, hverdict, hrest, rfl⟩
  rw [List.forall₂_nil_left_iff.mp hrest] at hchecks
  -- The key is the one that the only file of the directory puts.
  have htrue : bRet = true := by
    refine hverdict.mpr ⟨⟨rfl, rfl, rfl, rfl⟩, ⟨rfl, rfl, rfl⟩, Or.inr ⟨0, (haccepts _ 0).mpr rfl, ?_⟩⟩
    rw [(hkeys 0).2, Check.letters_key]
    exact List.mem_singleton_self _
  rw [htrue] at hchecks
  exact ⟨r, hr, hret, this', hchecks⟩

end Feature

end Defender
