import Defender.Feature.Calls

/-!
# How the Transaction of a Feature File Ends

`CFeatureDB::LoadDat` ends its transaction at two places: where the hashes were
compared, by a commit or an abort, and in the clean-up, when there is a
transaction and the code in `iRet` is not that of success. After an abort that
code is set to success, so the clean-up does nothing. After a commit it is the
code of the commit. But a commit that fails has ended the transaction, and then
the clean-up resets and aborts it again (`datFinish_fails`).

So of a transaction that was begun `EndsOnce` fails when a commit that is made
fails, because a put has marked the transaction or because its pages cannot be
written, and pages there are when a record was new. It fails too where the
function does not return, in a record of unknown type. Everywhere else it holds
(`endsOnce_iff`).

## Main definitions

* `TxnCall.ends`, `lockHeld`: Which calls end it, and who has the lock.
* `EndsOnce`: It is ended once, by the last call, and the lock is free.

## Theorems

* `datFinish_mismatch`, `datFinish_commits`, `datFinish_fails`: The end.
* `endsOnce_iff`: When the transaction is ended once.
* `endsOnce_not`: A new record, and a commit whose pages are not written.
-/

namespace Defender

namespace Feature

open Wire Crypto Machine

/-- A commit ends the transaction, whatever its code, and so does an abort. -/
def TxnCall.ends : TxnCall → Bool
  | .commit _ => true
  | .abort => true
  | _ => false

/-- Whether the lock of the writer is held, from what happened to transactions.
    A transaction that is freed has given it back before. -/
def lockHeld (events : List MdbEvent) : Bool :=
  events.foldl (fun held e =>
    match e with
    | .begun => true
    | .committed => false
    | .aborted => false
    | .freed => held) false

/-- If the transaction was begun the function returns, the last of its calls
    ends it and none before, the lock of the writer is free, and it returned
    true when that call was a commit that succeeded. -/
def EndsOnce (sm3 : Sm3) (c : CSM4Crypto) (o : DatOutcomes) (env : MdbEnv) (pathEmpty : Bool)
    (file : Option (List UInt8)) : Prop :=
  TxnCall.begin mdbSuccess ∈ loadDatCalls sm3 c o env pathEmpty file →
    ∃ r calls e events, loadDat sm3 c o env pathEmpty file = .ok r ∧
      loadDatCalls sm3 c o env pathEmpty file = calls ++ [e] ∧ e.ends = true ∧
      (∀ x ∈ calls, x.ends = false) ∧ r.env.events = env.events ++ events ∧
      lockHeld events = false ∧ (r.bRet = true ↔ e = .commit mdbSuccess)

/-- Where a call before the last ends it, it is not ended once. -/
theorem not_endsOnce_of_early {sm3 : Sm3} {c : CSM4Crypto} {o : DatOutcomes} {env : MdbEnv}
    {pathEmpty : Bool} {file : Option (List UInt8)} {e : TxnCall} {before after : List TxnCall}
    (hbegin : TxnCall.begin mdbSuccess ∈ loadDatCalls sm3 c o env pathEmpty file)
    (hcalls : loadDatCalls sm3 c o env pathEmpty file = before ++ e :: after)
    (hends : e.ends = true) (hafter : after ≠ []) : ¬ EndsOnce sm3 c o env pathEmpty file := by
  intro hend
  rcases hend hbegin with ⟨-, calls, e', -, -, hcalls', -, hnone, -⟩
  rw [hcalls] at hcalls'
  -- The last call is among those behind.
  have hsplit : before ++ e :: after.dropLast = calls := by
    have hlast := congrArg List.dropLast hcalls'
    rw [List.dropLast_concat, List.dropLast_append_of_ne_nil (List.cons_ne_nil e after),
      List.dropLast_cons_of_ne_nil hafter] at hlast
    exact hlast
  have hmem : e ∈ calls := by
    rw [← hsplit]
    exact List.mem_append_right _ List.mem_cons_self
  rw [hnone e hmem] at hends
  exact absurd hends Bool.false_ne_true

/-! ### The end -/

/-- An abort of a transaction that was not ended. -/
theorem mdbTxnAbort_live (env : MdbEnv) (txn : MdbTxn) (hlive : txn.Live) :
    mdbTxnAbort env txn = (env.record .aborted, { txn with finished := true }) := by
  unfold mdbTxnAbort
  rw [if_neg]
  rw [hlive.live]
  exact fun h => Bool.false_ne_true h.2

section End

variable (sm3 : Sm3) (o : DatOutcomes) (env : MdbEnv) (check : List UInt8) (version : String)
  (s : DatLoop) (hlive : s.txn.Live)
include hlive

/-- The hash is another: an abort, and nothing in the clean-up. -/
theorem datFinish_mismatch (hhash : ¬ (sm3 s.fed).toList = check) :
    datFinishCalls sm3 o env check s = [.cursorClose, .abort] ∧
      datCleanupCalls (datFinish sm3 o env check version s) = [] ∧
      (datCleanup (datFinish sm3 o env check version s)).bRet = false ∧
      (datCleanup (datFinish sm3 o env check version s)).env.events
        = env.events ++ [.aborted] := by
  unfold datFinishCalls datFinish
  rw [if_neg hhash, if_neg hhash, mdbTxnAbort_live env s.txn hlive]
  exact ⟨rfl, rfl, rfl, rfl⟩

/-- The hash is right and the commit succeeds, or has nothing to write. -/
theorem datFinish_commits (hhash : (sm3 s.fed).toList = check) (hsound : s.txn.error = false)
    (hcommit : s.txn.dirty = false ∨ o.commit = mdbSuccess) :
    datFinishCalls sm3 o env check s = [.cursorClose, .commit mdbSuccess] ∧
      datCleanupCalls (datFinish sm3 o env check version s) = [] ∧
      (datCleanup (datFinish sm3 o env check version s)).bRet = true ∧
      (datCleanup (datFinish sm3 o env check version s)).env.events
        = env.events ++ [.committed] := by
  -- The transaction is for writing, and no put has marked it.
  have hwrite : ¬ s.txn.rdonly = true := by rw [hlive.write]; decide
  have hrefused : ¬ (s.txn.finished = true ∨ s.txn.error = true) := by
    rw [hlive.live, hsound]
    decide
  unfold datFinishCalls datFinish
  rw [if_pos hhash, if_pos hhash, mdbTxnCommit, if_neg hwrite, if_neg hrefused]
  by_cases hdirty : s.txn.dirty = false
  · rw [if_pos hdirty]
    exact ⟨rfl, rfl, rfl, rfl⟩
  · rw [if_neg hdirty, if_neg (not_not_intro (hcommit.resolve_left hdirty))]
    exact ⟨rfl, rfl, rfl, rfl⟩

/-- The hash is right and the commit fails, and the clean-up goes on with the
    transaction that the commit has ended. -/
theorem datFinish_fails (hhash : (sm3 s.fed).toList = check)
    (hfails : ¬ (s.txn.error = false ∧ (s.txn.dirty = false ∨ o.commit = mdbSuccess))) :
    ∃ iRet, datFinishCalls sm3 o env check s = [.cursorClose, .commit iRet] ∧
      datCleanupCalls (datFinish sm3 o env check version s) = [.reset, .abort] := by
  have hwrite : ¬ s.txn.rdonly = true := by rw [hlive.write]; decide
  have hbad : mdbBadTxn ≠ mdbSuccess := by decide
  unfold datFinishCalls datFinish datCleanupCalls
  rw [if_pos hhash, if_pos hhash, mdbTxnCommit, if_neg hwrite]
  by_cases herr : s.txn.finished = true ∨ s.txn.error = true
  · -- A transaction that a put has marked is refused by the commit.
    rw [if_pos herr]
    exact ⟨mdbBadTxn, rfl, if_pos hbad⟩
  · -- No put has marked it, so it is the code of the commit.
    have hsound : s.txn.error = false := Bool.eq_false_iff.mpr (fun h => herr (Or.inr h))
    have hdirty : ¬ s.txn.dirty = false := fun hdirty => hfails ⟨hsound, Or.inl hdirty⟩
    have hcommit : o.commit ≠ mdbSuccess := fun hcommit => hfails ⟨hsound, Or.inr hcommit⟩
    rw [if_neg herr, if_neg hdirty, if_pos hcommit]
    exact ⟨o.commit, rfl, if_pos hcommit⟩

end End

/-! ### The function -/

/-- The calls of a function whose loops are reached. -/
theorem loadDatCalls_reaches (sm3 : Sm3) (c : CSM4Crypto) (o : DatOutcomes) (env : MdbEnv)
    (henv : env.Usable) (file : List UInt8) (h : Reaches o file) :
    loadDatCalls sm3 c o env false (some file)
      = .begin mdbSuccess :: .dbiOpen :: .cursorOpen ::
          ((datTurns c o (file.drop headerSize) 0 (loopStart o env.writeTxn file)).map .cursorPut ++
            match datBatches c o (file.drop headerSize) 0 (loopStart o env.writeTxn file) with
            | .error _ => []
            | .ok s =>
                datFinishCalls sm3 o (env.record .begun) (storedHash (headerBuffer o file)) s ++
                  datCleanupCalls (datFinish sm3 o (env.record .begun)
                    (storedHash (headerBuffer o file)) (datVersion (headerBuffer o file)) s)) := by
  rcases datBody_prepares sm3 c o env file h.prepares with ⟨hbody, hcalls⟩
  unfold loadDatCalls
  rw [hbody, hcalls, datTransaction_reaches sm3 c o env henv file h,
    datTransactionCalls_reaches sm3 c o env henv file h]
  cases datBatches c o (file.drop headerSize) 0 (loopStart o env.writeTxn file) with
  | error e =>
      dsimp only [Except.map]
      rw [List.append_nil, List.append_nil]
  | ok s =>
      dsimp only [Except.map]
      rw [List.cons_append, List.cons_append, List.cons_append, List.append_assoc]

/-- A function whose loops are reached begins the transaction. -/
theorem begin_mem_of_reaches (sm3 : Sm3) (c : CSM4Crypto) (o : DatOutcomes) (env : MdbEnv)
    (henv : env.Usable) (file : List UInt8) (h : Reaches o file) :
    TxnCall.begin mdbSuccess ∈ loadDatCalls sm3 c o env false (some file) := by
  rw [loadDatCalls_reaches sm3 c o env henv file h]
  exact List.mem_cons_self

/-- A transaction that was begun was begun in an environment that can, after all
    preparations. -/
theorem begins_of_mem (sm3 : Sm3) (c : CSM4Crypto) (o : DatOutcomes) (env : MdbEnv)
    (pathEmpty : Bool) (file : Option (List UInt8))
    (h : TxnCall.begin mdbSuccess ∈ loadDatCalls sm3 c o env pathEmpty file) :
    ∃ F, pathEmpty = false ∧ file = some F ∧ Prepares o F ∧ env.Usable ∧
      o.txnBegin = mdbSuccess := by
  have hbody : TxnCall.begin mdbSuccess ∈ datBodyCalls sm3 c o env pathEmpty file := by
    unfold loadDatCalls at h
    rcases List.mem_append.mp h with hbody | hclean
    · exact hbody
    · cases hexit : datBody sm3 c o env pathEmpty file with
      | error e =>
          rw [hexit] at hclean
          exact absurd hclean List.not_mem_nil
      | ok e =>
          rw [hexit] at hclean
          dsimp only [datCleanupCalls] at hclean
          cases hpTxn : e.pTxn with
          | none =>
              rw [hpTxn] at hclean
              exact absurd hclean List.not_mem_nil
          | some txn =>
              rw [hpTxn] at hclean
              dsimp only at hclean
              split at hclean
              · exact absurd hclean (by simp only [List.mem_cons, reduceCtorEq, List.not_mem_nil,
                  or_self, not_false_eq_true])
              · exact absurd hclean List.not_mem_nil
  rcases datBodyCalls_cases sm3 c o env pathEmpty file with hnone | ⟨F, rfl, rfl, hprepares⟩
  · rw [hnone] at hbody
    exact absurd hbody List.not_mem_nil
  rw [(datBody_prepares sm3 c o env F hprepares).2, datTransactionCalls] at hbody
  cases hbegin : mdbTxnBegin env false o.txnBegin with
  | error e =>
      rw [hbegin] at hbody
      exact absurd hbody List.not_mem_nil
  | ok x =>
      have husable := usable_of_mdbTxnBegin env o.txnBegin x hbegin
      -- The environment can, so a begin that fails does so with its own code.
      refine ⟨F, rfl, rfl, hprepares, husable, ?_⟩
      by_contra htxn
      have hopened : ¬ env.handle ≠ .opened := not_not_intro husable.opened
      have hfreed : ¬ ((false : Bool) = false ∧ env.txn0Freed = true) := by
        rw [husable.txn0]
        exact fun hf => Bool.false_ne_true hf.2
      rw [mdbTxnBegin, if_neg hopened, if_neg hfreed, if_pos htxn] at hbody
      -- The only call is a begin with the code of the failure.
      have hcode := TxnCall.begin.inj (List.mem_singleton.mp hbody)
      exact htxn hcode.symm

/-- A transaction that is left before the loops is aborted in the clean-up. -/
theorem endsOnce_early (sm3 : Sm3) (c : CSM4Crypto) (o : DatOutcomes) (env : MdbEnv)
    (henv : env.Usable) (file : List UInt8) (hprepares : Prepares o file)
    (htxn : o.txnBegin = mdbSuccess)
    (hearly : ¬ (o.dbiOpen = mdbSuccess ∧ o.cursorOpen = mdbSuccess)) :
    EndsOnce sm3 c o env false (some file) := by
  intro _
  rcases datBody_prepares sm3 c o env file hprepares with ⟨hbody, hcalls⟩
  have hlive := writeTxn_live env
  unfold loadDat loadDatCalls
  rw [hbody, hcalls]
  unfold datTransaction datTransactionCalls
  rw [htxn, mdbTxnBegin_write env henv]
  dsimp only
  -- Either way the clean-up finds the code not 0 and aborts.
  by_cases hdbi : o.dbiOpen = mdbSuccess
  · have hcursor : o.cursorOpen ≠ mdbSuccess := fun hcursor => hearly ⟨hdbi, hcursor⟩
    rw [if_neg (not_not_intro hdbi), if_neg (not_not_intro hdbi), if_pos hcursor, if_pos hcursor]
    dsimp only [DatExit.early, datCleanup, datCleanupCalls]
    rw [if_pos hcursor, if_pos hcursor]
    refine ⟨_, [.begin mdbSuccess, .dbiOpen, .cursorOpen, .reset], .abort, [.begun, .aborted], rfl,
      rfl, rfl, ?_, ?_, rfl, ?_⟩
    · simp only [List.mem_cons, List.not_mem_nil, or_false, forall_eq_or_imp, forall_eq,
        TxnCall.ends, and_self]
    · exact List.append_assoc env.events [.begun] [.aborted]
    · simp only [Bool.false_eq_true, reduceCtorEq]
  · rw [if_pos hdbi, if_pos hdbi]
    dsimp only [DatExit.early, datCleanup, datCleanupCalls]
    rw [if_pos hdbi, if_pos hdbi]
    refine ⟨_, [.begin mdbSuccess, .dbiOpen, .reset], .abort, [.begun, .aborted], rfl, rfl, rfl, ?_,
      ?_, rfl, ?_⟩
    · simp only [List.mem_cons, List.not_mem_nil, or_false, forall_eq_or_imp, forall_eq,
        TxnCall.ends, and_self]
    · exact List.append_assoc env.events [.begun] [.aborted]
    · simp only [Bool.false_eq_true, reduceCtorEq]

/-- What the end needs: no commit that is made fails. -/
def CommitsWhereMade (sm3 : Sm3) (c : CSM4Crypto) (o : DatOutcomes) (env : MdbEnv)
    (file : List UInt8) : Prop :=
  (sm3 (headerFed o file ++ (recordsRead o file).flatMap (plain c))).toList
      = storedHash (headerBuffer o file) →
    (∀ k < (recordsRead o file).length, ∀ rc, o.put k ≠ some (rc, true)) ∧
      (PutsNothing c o env.committed.Has file ∨ o.commit = mdbSuccess)

/-- The calls before the one that ends the transaction, when the loops come to
    their end. -/
def callsBefore (turns : List DatTurn) : List TxnCall :=
  .begin mdbSuccess :: .dbiOpen :: .cursorOpen :: (turns.map .cursorPut ++ [.cursorClose])

theorem callsBefore_append (turns : List DatTurn) (e : TxnCall) (after : List TxnCall) :
    TxnCall.begin mdbSuccess :: .dbiOpen :: .cursorOpen ::
        (turns.map .cursorPut ++ ([.cursorClose, e] ++ after))
      = callsBefore turns ++ e :: after := by
  have hlast : turns.map TxnCall.cursorPut ++ ([.cursorClose, e] ++ after)
      = turns.map TxnCall.cursorPut ++ [.cursorClose] ++ e :: after := by
    rw [List.append_assoc]
    rfl
  rw [hlast]
  rfl

/-- None of them ends it. -/
theorem ends_callsBefore (turns : List DatTurn) (x : TxnCall) (h : x ∈ callsBefore turns) :
    x.ends = false := by
  simp only [callsBefore, List.mem_cons, List.mem_append, List.mem_map, List.not_mem_nil,
    or_false] at h
  rcases h with rfl | rfl | rfl | ⟨t, -, rfl⟩ | rfl <;> rfl

/-- With valid records the transaction is ended once when no commit fails. -/
theorem endsOnce_reaches (sm3 : Sm3) (c : CSM4Crypto) (o : DatOutcomes) (env : MdbEnv)
    (henv : env.Usable) (file : List UInt8) (h : Reaches o file)
    (hvalid : ∀ r ∈ recordsRead o file, validHashType (plain c r)) :
    EndsOnce sm3 c o env false (some file) ↔ CommitsWhereMade sm3 c o env file := by
  -- Known types only, so the loops come to their end and the hashes are compared.
  rcases datBatches_ok c o env file hvalid with ⟨s, hloop, hlive, hfed, herr, -, hdirty⟩
  have hcalls := loadDatCalls_reaches sm3 c o env henv file h
  have hresult := loadDat_reaches sm3 c o env henv file h
  rw [hloop] at hcalls hresult
  dsimp only [Except.map] at hcalls hresult
  unfold CommitsWhereMade
  rw [← hfed, ← herr, and_congr_right (fun hsound => or_congr_left (hdirty hsound).symm)]
  by_cases hhash : (sm3 s.fed).toList = storedHash (headerBuffer o file)
  · by_cases hgood : s.txn.error = false ∧ (s.txn.dirty = false ∨ o.commit = mdbSuccess)
    · refine iff_of_true (fun _ => ?_) (fun _ => hgood)
      rcases datFinish_commits sm3 o (env.record .begun) (storedHash (headerBuffer o file))
        (datVersion (headerBuffer o file)) s hlive hhash hgood.1 hgood.2 with
        ⟨hend, hclean, hret, hevents⟩
      rw [hend, hclean, callsBefore_append] at hcalls
      refine ⟨_, callsBefore _, .commit mdbSuccess, [.begun, .committed], hresult, hcalls, rfl,
        ends_callsBefore _, ?_, rfl, iff_of_true hret rfl⟩
      rw [hevents]
      exact List.append_assoc env.events [.begun] [.committed]
    · -- The commit that fails is followed by the calls of the clean-up.
      rcases datFinish_fails sm3 o (env.record .begun) (storedHash (headerBuffer o file))
        (datVersion (headerBuffer o file)) s hlive hhash hgood with ⟨iRet, hend, hclean⟩
      rw [hend, hclean, callsBefore_append] at hcalls
      refine iff_of_false ?_ (fun hall => hgood (hall hhash))
      exact not_endsOnce_of_early (begin_mem_of_reaches sm3 c o env henv file h) hcalls rfl
        (List.cons_ne_nil _ _)
  · -- Without a commit there is none that fails.
    refine iff_of_true (fun _ => ?_) (fun hsame => absurd hsame hhash)
    rcases datFinish_mismatch sm3 o (env.record .begun) (storedHash (headerBuffer o file))
      (datVersion (headerBuffer o file)) s hlive hhash with ⟨hend, hclean, hret, hevents⟩
    rw [hend, hclean, callsBefore_append] at hcalls
    refine ⟨_, callsBefore _, .abort, [.begun, .aborted], hresult, hcalls, rfl,
      ends_callsBefore _, ?_, rfl, ?_⟩
    · rw [hevents]
      exact List.append_assoc env.events [.begun] [.aborted]
    · rw [hret]
      exact iff_of_false Bool.false_ne_true (by simp only [reduceCtorEq, not_false_eq_true])

/-- The transaction is ended once, by the last call for it, exactly when no
    record that is read has an unknown type and no commit that is made fails,
    unless the loops are not reached. -/
theorem endsOnce_iff (sm3 : Sm3) (c : CSM4Crypto) (o : DatOutcomes) (env : MdbEnv)
    (pathEmpty : Bool) (file : Option (List UInt8)) :
    EndsOnce sm3 c o env pathEmpty file ↔
      ∀ F, pathEmpty = false → file = some F → env.Usable → Reaches o F →
        (∀ r ∈ recordsRead o F, validHashType (plain c r)) ∧ CommitsWhereMade sm3 c o env F := by
  constructor
  · rintro hend F rfl rfl henv hreaches
    by_cases hvalid : ∀ r ∈ recordsRead o F, validHashType (plain c r)
    · exact ⟨hvalid, (endsOnce_reaches sm3 c o env henv F hreaches hvalid).mp hend⟩
    · -- The first record of unknown type ends the process inside the transaction.
      rcases hend (begin_mem_of_reaches sm3 c o env henv F hreaches) with ⟨r, -, -, -, hr, -⟩
      exact absurd hr (loadDat_crashes sm3 c o env henv F hreaches hvalid r)
  · intro hall hbegin
    rcases begins_of_mem sm3 c o env pathEmpty file hbegin with
      ⟨F, rfl, rfl, hprepares, henv, htxn⟩
    by_cases hloops : o.dbiOpen = mdbSuccess ∧ o.cursorOpen = mdbSuccess
    · have hreaches : Reaches o F := ⟨hprepares.newOk, hprepares.headerReadOk, hprepares.magic,
        hprepares.sm3Malloc, hprepares.outMalloc, htxn, hloops.1, hloops.2⟩
      rcases hall F rfl rfl henv hreaches with ⟨hvalid, hcommits⟩
      exact (endsOnce_reaches sm3 c o env henv F hreaches hvalid).mpr hcommits hbegin
    · exact endsOnce_early sm3 c o env henv F hprepares htxn hloops hbegin

/-- A file with one record, which is new, and a commit whose pages are not
    written: it ends the transaction, and the clean-up ends it again. -/
theorem endsOnce_not :
    ¬ ∀ (sm3 : Sm3) (c : CSM4Crypto) (o : DatOutcomes) (env : MdbEnv) (pathEmpty : Bool)
      (file : Option (List UInt8)), EndsOnce sm3 c o env pathEmpty file := by
  intro h
  let o := { DatOutcomes.allGood with commit := eacces }
  let record : List UInt8 := 1 :: List.replicate 79 0
  let file := sealedFile standardSm3 CSM4Crypto.getInstance [record]
  have hlen : ∀ v ∈ [record], v.length = virusInfoSize := by decide
  have hread : (recordsRead o file).map (plain CSM4Crypto.getInstance) = [record] :=
    recordsRead_sealedFile _ _ o [record] (fun _ => rfl) hlen
  have hreaches : Reaches o file := ⟨rfl, rfl, hasMagic_sealedFile _ _ o _, rfl, rfl, rfl, rfl, rfl⟩
  have hvalid : ∀ r ∈ recordsRead o file, validHashType (plain CSM4Crypto.getInstance r) := by
    intro r hr
    have hmem := List.mem_map_of_mem (f := plain CSM4Crypto.getInstance) hr
    rw [hread, List.mem_singleton] at hmem
    rw [hmem]
    decide
  have hcommits := (endsOnce_reaches standardSm3 CSM4Crypto.getInstance o MdbEnv.fresh
    MdbEnv.fresh_usable file hreaches hvalid).mp (h _ _ _ _ _ _)
  -- The key of the record is not in a database without keys, and the code is not that of success.
  rcases (hcommits (hash_sealedFile _ _ o [record] (fun _ => rfl) hlen)).2 with hknown | hcode
  · have hput : record ∈ recordsPut CSM4Crypto.getInstance o file := by
      rw [recordsPut, hread]
      exact List.mem_singleton_self record
    exact absurd (hknown record hput) Bool.false_ne_true
  · exact absurd hcode (by decide)

end Feature

end Defender
