import Defender.Ipc.Threads

/-!
# The Accounting of Blocks

The accounting is by blocks, one for each write that returned zero. The blocks
the reads returned are these in order, each read returning whole ones, and
what is left is pending. `Balance` says so about lists alone; `Accounted`
says it of a state, where the one call that may be inside can have appended a
block and not returned, or taken some and not returned.

One step of a call keeps the balance as long as nobody else touches the
mapping between its steps, so the run theorem is for any invariant of the
system that keeps two calls from being inside together. What that invariant
is, and when there is one, is `Ipc.Exclusion`.

## Main definitions

* `Environment`: Whether the mutex is there, who calls, and whether the
  mapping calls succeed.
* `Balance`: Blocks written, blocks read, bytes pending.
* `Accounted`: The balance of a state.
* `CallPc.Fits`: What a call relies on from its earlier steps.
* `Ledger`: The accounting invariant.

## Theorems

* `balance_append`, `balance_drain`: A write and a read, on lists.
* `callStep_balance`: A step of a call keeps the balance.
* `ledger_step`: Steps between exclusive states keep the accounting.
* `ledger_run`: So does a run of them.
-/

namespace Defender

namespace Ipc

namespace Threads

open Wire

/-- What the program does not decide: whether another program made the mutex,
    which threads call, and whether mapping calls are known to succeed. -/
structure Environment where
  mutexExists : Bool
  callers : Nat → Prop
  mapOk : Bool

/-- The labels an environment has. -/
def Environment.Admits (env : Environment) : Label → Prop
  | .construct _ n _ => env.mapOk = true → mappingSize n ≠ 0
  | .construction _ ok _ => env.mapOk = true → ok = true
  | .call t _ _ => env.callers t
  | .step _ => True

/-- The block of a write that returned zero. -/
def Returned.written (r : Returned) : Option (List UInt8) :=
  match r.result with
  | .writeData n pData => if r.code = 0 then some ((pData.getD []).take n.toNat) else none
  | .readData _ => none

/-- The block of a read that returned zero. -/
def Returned.read (r : Returned) : Option (List UInt8) :=
  match r.result with
  | .writeData _ _ => none
  | .readData out => if r.code = 0 then some (out.pDataBuffer.getD []) else none

/-- The blocks of the writes that returned zero, in order. -/
def System.written (s : System) : List (List UInt8) :=
  s.history.filterMap Returned.written

/-- The blocks of the reads that returned zero, in order. -/
def System.read (s : System) : List (List UInt8) :=
  s.history.filterMap Returned.read

/-- The block a call has appended and not yet returned from. -/
def CallPc.appended : CallPc → List (List UInt8)
  | .releasing (.writeData n pData) => [(pData.getD []).take n.toNat]
  | _ => []

/-- The block a call has taken and not yet returned. -/
def CallPc.taken : CallPc → List (List UInt8)
  | .releasing (.readData out) => [out.pDataBuffer.getD []]
  | _ => []

/-- What thread `t` has appended and not yet returned from. -/
def System.appended (s : System) (t : Nat) : List (List UInt8) :=
  match s.threads t with
  | .inCall _ pc => pc.appended
  | _ => []

/-- What thread `t` has taken and not yet returned. -/
def System.taken (s : System) (t : Nat) : List (List UInt8) :=
  match s.threads t with
  | .inCall _ pc => pc.taken
  | _ => []

/-- The blocks written fall into groups, one for each block read, and a rest
    that is pending. -/
def Balance (written read : List (List UInt8)) (pend : List UInt8) : Prop :=
  ∃ (groups : List (List (List UInt8))) (rest : List (List UInt8)),
    written = groups.flatten ++ rest ∧ read = groups.map List.flatten ∧ pend = rest.flatten

/-- Every write that returned zero is pending, or was returned by exactly one
    read, up to what the one thread inside has in hand. -/
def Accounted (s : System) : Prop :=
  ∀ t, (∀ u, Inside s u → u = t) →
    Balance (s.written ++ s.appended t) (s.read ++ s.taken t) (pending s.mem)

/-- Appending a block is one more write. -/
theorem balance_append (w r : List (List UInt8)) (pend d : List UInt8) (h : Balance w r pend) :
    Balance (w ++ [d]) r (pend ++ d) := by
  rcases h with ⟨groups, rest, hw, hr, hp⟩
  refine ⟨groups, rest ++ [d], ?_, hr, ?_⟩
  · rw [hw, List.append_assoc]
  · rw [hp, List.flatten_append, List.flatten_singleton]

/-- Draining is one more read, of everything pending. -/
theorem balance_drain (w r : List (List UInt8)) (pend : List UInt8) (h : Balance w r pend) :
    Balance w (r ++ [pend]) [] := by
  rcases h with ⟨groups, rest, hw, hr, hp⟩
  refine ⟨groups ++ [rest], [], ?_, ?_, rfl⟩
  · rw [hw, List.flatten_append, List.flatten_singleton, List.append_nil]
  · rw [hr, hp, List.map_append, List.map_singleton]

/-- The count stays inside the mapping, whose size a DWORD holds up to the
    rounding. -/
structure Bound (mem : List UInt8) : Prop where
  count_le : 4 + (curDataSize mem).toNat ≤ mem.length
  length_le : mem.length ≤ 2 ^ 32

/-- What a call relies on from its earlier steps, as long as nobody else has
    touched the mapping or its container since. -/
def CallPc.Fits (c : CWLIPCMmf) (mem : List UInt8) : CallPc → Prop
  | .writeUpdating n data =>
      4 + (curDataSize mem).toNat + n.toNat ≤ mem.length ∧
        slice mem (4 + (curDataSize mem).toNat) n.toNat = data.take n.toNat
  | .readSizing buffer _ => buffer.take (curDataSize mem).toNat = pending mem
  | .readResetting buffer out => buffer.take out.dwDataSize.toNat = pending mem
  | .failing _ => c.dwErrorCode ≠ 0
  | _ => True

/-- The copy of a write leaves what is pending alone, and puts the block
    behind it. -/
theorem fits_writeCopying (mem mem' data : List UInt8) (n : UInt32) (hb : Bound mem)
    (h : memcpy mem (4 + (curDataSize mem).toNat) data n.toNat = some mem') :
    Bound mem' ∧ pending mem' = pending mem ∧
      4 + (curDataSize mem').toNat + n.toNat ≤ mem'.length ∧
        slice mem' (4 + (curDataSize mem').toNat) n.toNat = data.take n.toNat := by
  have hle := hb.count_le
  rcases (memcpy_eq_some _ _ _ _ _).mp h with ⟨hdata, hroom, rfl⟩
  have htake : (data.take n.toNat).length = n.toNat := by
    rw [List.length_take]
    omega
  have hcount : curDataSize (poke mem (4 + (curDataSize mem).toNat) (data.take n.toNat))
      = curDataSize mem := dwordAt_poke_before mem _ _ 0 (by omega) (by omega)
  have hlen := length_poke mem (data.take n.toNat) (4 + (curDataSize mem).toNat) (by omega)
  refine ⟨⟨by rw [hcount, hlen]; exact hle, by rw [hlen]; exact hb.length_le⟩, ?_, ?_, ?_⟩
  · rw [pending, hcount, slice_poke_before mem _ _ 4 _ (by omega) (by omega)]
    rfl
  · rw [hcount, hlen]
    omega
  · have hself := slice_poke_self mem (data.take n.toNat) (4 + (curDataSize mem).toNat) (by omega)
    rw [hcount]
    rwa [htake] at hself

/-- The copy of a read puts what is pending at the front of the buffer. -/
theorem fits_readCopying (mem buffer buffer' : List UInt8)
    (h : memcpy buffer 0 (mem.drop 4) (curDataSize mem).toNat = some buffer') :
    buffer'.take (curDataSize mem).toNat = pending mem := by
  rcases (memcpy_eq_some _ _ _ _ _).mp h with ⟨hmem, -, rfl⟩
  have hself := slice_poke_self buffer ((mem.drop 4).take (curDataSize mem).toNat) 0 (Nat.zero_le _)
  rw [List.length_take, Nat.min_eq_left hmem, slice, List.drop_zero] at hself
  exact hself

/-- The update of a write puts the block behind the count among what is pending. -/
theorem fits_writeUpdating (mem : List UInt8) (n : UInt32) (hb : Bound mem)
    (hroom : 4 + (curDataSize mem).toNat + n.toNat ≤ mem.length) :
    Bound (poke mem 0 (le32 (curDataSize mem + n))) ∧
      pending (poke mem 0 (le32 (curDataSize mem + n)))
        = pending mem ++ slice mem (4 + (curDataSize mem).toNat) n.toNat := by
  rcases raise_pending mem n hb.length_le hroom with ⟨hcount, hpend⟩
  have hle := hb.count_le
  have hlen := length_poke mem (le32 (curDataSize mem + n)) 0 (by rw [length_le32]; omega)
  refine ⟨⟨?_, ?_⟩, hpend⟩
  · rw [hcount, hlen]
    omega
  · rw [hlen]
    exact hb.length_le

/-- The reset of a read leaves nothing pending. -/
theorem fits_readResetting (mem : List UInt8) (hb : Bound mem) :
    Bound (poke mem 0 (le32 0)) ∧ pending (poke mem 0 (le32 0)) = [] := by
  rcases reset_pending mem with ⟨hcount, hpend⟩
  have hle := hb.count_le
  have hlen := length_poke mem (le32 0) 0 (by rw [length_le32]; omega)
  refine ⟨⟨?_, ?_⟩, hpend⟩
  · rw [hcount, hlen, UInt32.toNat_zero]
    omega
  · rw [hlen]
    exact hb.length_le

/-- The error codes a mapped container can fail with are not zero. -/
theorem failed_code (c : CWLIPCMmf) (e : IpcErrorCode) (he : e ≠ .mapViewOfFileError) :
    (c.failed e).dwErrorCode ≠ 0 := by
  cases e with
  | mapViewOfFileError => exact absurd rfl he
  | writeDataOutRangeError =>
      exact fun hz => absurd hz (by simp only [CWLIPCMmf.failed, IpcErrorCode.toDword]; decide)
  | nullPointerError =>
      exact fun hz => absurd hz (by simp only [CWLIPCMmf.failed, IpcErrorCode.toDword]; decide)
  | catchError =>
      exact fun hz => absurd hz (by simp only [CWLIPCMmf.failed, IpcErrorCode.toDword]; decide)

/-- A step of a call on a mapped container keeps what the call relies on and
    the balance. One case for each place in the source; only the two updates
    of the count move the balance, by a write and by a read. -/
theorem callStep_balance (c c' : CWLIPCMmf) (mem mem' : List UInt8) (pc next : CallPc)
    (hmap : c.pMapView = true) (hb : Bound mem) (hfits : pc.Fits c mem)
    (h : callStep c mem pc = .go c' mem' next) :
    Bound mem' ∧ next.Fits c' mem' ∧
      ∀ w r, Balance (w ++ pc.appended) (r ++ pc.taken) (pending mem) →
        Balance (w ++ next.appended) (r ++ next.taken) (pending mem') := by
  have hview : ¬ c.pMapView = false := by rw [hmap]; decide
  cases pc with
  | waiting call =>
      cases call <;> exact absurd h (by simp only [callStep, reduceCtorEq, not_false_eq_true])
  | writeChecking n pData =>
      cases pData with
      | none =>
          rcases Outcome.go.inj h with ⟨rfl, rfl, rfl⟩
          exact ⟨hb, failed_code c _ (by decide), fun _ _ hbal => hbal⟩
      | some data =>
          rw [callStep, if_neg hview] at h
          split at h
          · rcases Outcome.go.inj h with ⟨rfl, rfl, rfl⟩
            exact ⟨hb, failed_code c _ (by decide), fun _ _ hbal => hbal⟩
          · rcases Outcome.go.inj h with ⟨rfl, rfl, rfl⟩
            exact ⟨hb, trivial, fun _ _ hbal => hbal⟩
  | writeCopying n data =>
      rw [callStep] at h
      cases hcopy : memcpy mem (4 + (curDataSize mem).toNat) data n.toNat with
      | none =>
          rw [hcopy] at h
          exact absurd h (by simp only [reduceCtorEq, not_false_eq_true])
      | some mid =>
          rw [hcopy] at h
          rcases Outcome.go.inj h with ⟨rfl, rfl, rfl⟩
          rcases fits_writeCopying mem mid data n hb hcopy with ⟨hb', hpend, hroom, hslice⟩
          exact ⟨hb', ⟨hroom, hslice⟩, fun _ _ hbal => by rw [hpend]; exact hbal⟩
  | writeUpdating n data =>
      rcases Outcome.go.inj h with ⟨rfl, rfl, rfl⟩
      rcases fits_writeUpdating mem n hb hfits.1 with ⟨hb', hpend⟩
      refine ⟨hb', trivial, fun w r hbal => ?_⟩
      -- The bytes behind the pending ones are the block, so this is one write.
      rw [hpend, hfits.2]
      have hone := balance_append _ _ _ (data.take n.toNat) hbal
      simp only [CallPc.appended, CallPc.taken, List.append_nil, Option.getD_some] at hone ⊢
      exact hone
  | readChecking alloc out =>
      rw [callStep, if_neg hview] at h
      split at h
      · rcases Outcome.go.inj h with ⟨rfl, rfl, rfl⟩
        exact ⟨hb, failed_code c _ (by decide), fun _ _ hbal => hbal⟩
      · rcases Outcome.go.inj h with ⟨rfl, rfl, rfl⟩
        exact ⟨hb, trivial, fun _ _ hbal => hbal⟩
  | readAllocating alloc out =>
      rw [callStep] at h
      split at h
      · rcases Outcome.go.inj h with ⟨rfl, rfl, rfl⟩
        exact ⟨hb, failed_code c _ (by decide), fun _ _ hbal => hbal⟩
      · rcases Outcome.go.inj h with ⟨rfl, rfl, rfl⟩
        exact ⟨hb, trivial, fun _ _ hbal => hbal⟩
  | readCopying buffer out =>
      rw [callStep] at h
      cases hcopy : memcpy buffer 0 (mem.drop 4) (curDataSize mem).toNat with
      | none =>
          rw [hcopy] at h
          exact absurd h (by simp only [reduceCtorEq, not_false_eq_true])
      | some buffer' =>
          rw [hcopy] at h
          rcases Outcome.go.inj h with ⟨rfl, rfl, rfl⟩
          exact ⟨hb, fits_readCopying mem buffer buffer' hcopy, fun _ _ hbal => hbal⟩
  | readSizing buffer out =>
      rcases Outcome.go.inj h with ⟨rfl, rfl, rfl⟩
      exact ⟨hb, hfits, fun _ _ hbal => hbal⟩
  | readResetting buffer out =>
      rcases Outcome.go.inj h with ⟨rfl, rfl, rfl⟩
      rcases fits_readResetting mem hb with ⟨hb', hpend⟩
      refine ⟨hb', trivial, fun w r hbal => ?_⟩
      -- The buffer holds everything that was pending, so this is one read.
      rw [hpend]
      have hall := balance_drain _ _ _ hbal
      have hfull : buffer.take out.dwDataSize.toNat = pending mem := hfits
      simp only [CallPc.appended, CallPc.taken, List.append_nil, Option.getD_some, hfull] at hall ⊢
      exact hall
  | releasing result => exact absurd h (by simp only [callStep, reduceCtorEq, not_false_eq_true])
  | failing result => exact absurd h (by simp only [callStep, reduceCtorEq, not_false_eq_true])

/-- How far a constructor has got with the mapping, when its calls succeed. -/
def Box.MapOk (mapping : Option (List UInt8)) : Box → Prop
  | .absent => True
  | .constructing .createFileMapping n c =>
      mappingSize n ≠ 0 ∧ (c.hMff = true → mapping.isSome = true)
  | .constructing .mapViewOfFile _ c => c.hMff = true ∧ mapping.isSome = true
  | .constructing _ n _ => mappingSize n ≠ 0
  | .ready c => c.pMapView = true ∧ mapping.isSome = true

/-- The accounting invariant: the mapping is in bounds, the containers are
    mapped, every call has what it relies on, and the blocks balance. -/
structure Ledger (s : System) : Prop where
  bound : ∀ mem, s.mapping = some mem → Bound mem
  boxes : ∀ b, (s.boxes b).MapOk s.mapping
  ready : ∀ t b pc, s.threads t = .inCall b pc → ∃ c, s.boxes b = .ready c
  fits : ∀ t b pc c, s.threads t = .inCall b pc → s.boxes b = .ready c → pc.Fits c s.mem
  accounted : Accounted s

theorem ledger_start (mutexExists : Bool) : Ledger (start mutexExists) where
  bound := fun _ h => absurd h (by simp only [start, reduceCtorEq, not_false_eq_true])
  boxes := fun _ => trivial
  ready := fun _ _ _ h => absurd h (by simp only [start, reduceCtorEq, not_false_eq_true])
  fits := fun _ _ _ _ h => absurd h (by simp only [start, reduceCtorEq, not_false_eq_true])
  accounted := fun _ _ => ⟨[], [], rfl, rfl, rfl⟩

/-- A mapping that stays keeps what the containers made of it. -/
theorem mapOk_mono (m m' : Option (List UInt8)) (x : Box)
    (hm : m.isSome = true → m'.isSome = true) (h : x.MapOk m) : x.MapOk m' := by
  cases x with
  | absent => trivial
  | ready c => exact ⟨h.1, hm h.2⟩
  | constructing pc n c =>
      cases pc with
      | openMutex => exact h
      | createMutex => exact h
      | openFileMapping => exact h
      | createFileMapping => exact ⟨h.1, fun hc => hm (h.2 hc)⟩
      | mapViewOfFile => exact ⟨h.1, hm h.2⟩

/-- A constructor's step whose kernel call succeeds gets on with the mapping. -/
theorem constructorStep_mapOk (s : System) (b : Nat) (n : UInt32) (c : CWLIPCMmf)
    (lastError : UInt32) (pc : ConstructorPc) (h : (Box.constructing pc n c).MapOk s.mapping) :
    ((constructorStep s b n c true lastError pc).boxes b).MapOk
      (constructorStep s b n c true lastError pc).mapping := by
  cases pc with
  | openMutex =>
      simp only [constructorStep, System.setBox, if_true]
      exact h
  | createMutex =>
      simp only [constructorStep]
      split
      · simp only [System.setBox, if_true]
        exact h
      · simp only [System.setBox, if_true]
        exact h
  | openFileMapping =>
      simp only [constructorStep, System.setBox, if_true, Bool.and_true]
      exact ⟨h, fun hc => hc⟩
  | createFileMapping =>
      simp only [constructorStep]
      split
      · rename_i hmff
        simp only [System.setBox, if_true]
        exact ⟨hmff, h.2 hmff⟩
      · -- The handle did not open, so the mapping is made here.
        have hsize : mappingSize n ≠ 0 := h.1
        simp only [System.setBox, if_true, createFileMapping, Bool.true_eq_false, if_false]
        cases hm : s.mapping with
        | some mem => exact ⟨rfl, rfl⟩
        | none =>
            simp only [if_neg hsize]
            exact ⟨rfl, rfl⟩
  | mapViewOfFile =>
      simp only [constructorStep, if_pos h.1, if_true, System.setBox]
      exact ⟨rfl, h.2⟩

/-- A new mapping is empty. -/
theorem bound_replicate (k : Nat) (h : k ≠ 0) (n : UInt32) (hk : k = mappingSize n) :
    Bound (List.replicate k 0) ∧ pending (List.replicate k 0) = [] := by
  have hcount : curDataSize (List.replicate k 0) = 0 := by
    have hbyte : ∀ i, byteAt (List.replicate k 0) i = 0 := by
      intro i
      rw [byteAt, List.getD_eq_getElem?_getD, List.getElem?_replicate]
      split <;> rfl
    simp only [curDataSize, dwordAt, hbyte]
    rfl
  have hsize : 4096 ≤ k ∧ k ≤ 2 ^ 32 := by
    rw [hk, mappingSize] at h ⊢
    omega
  refine ⟨⟨?_, ?_⟩, ?_⟩
  · rw [hcount, List.length_replicate, UInt32.toNat_zero]
    omega
  · rw [List.length_replicate]
    exact hsize.2
  · rw [pending, hcount]
    exact slice_zero _ 4

theorem not_inside_inHand (s : System) (t : Nat) (h : ¬ Inside s t) :
    s.appended t = [] ∧ s.taken t = [] := by
  unfold System.appended System.taken
  cases hth : s.threads t with
  | idle => exact ⟨rfl, rfl⟩
  | killed => exact ⟨rfl, rfl⟩
  | inCall b pc =>
      cases pc with
      | waiting call => exact ⟨rfl, rfl⟩
      | _ => exact absurd ⟨b, _, hth, trivial⟩ h

/-- A change that leaves the containers and the mapped bytes alone and moves
    only thread `t`. -/
theorem ledger_of_thread (s s' : System) (t : Nat) (h : Ledger s) (hmap : s'.mapping = s.mapping)
    (hboxes : s'.boxes = s.boxes) (hothers : ∀ u, u ≠ t → s'.threads u = s.threads u)
    (hself : ∀ b pc, s'.threads t = .inCall b pc →
      (∃ c, s.boxes b = .ready c) ∧ ∀ c, s.boxes b = .ready c → pc.Fits c s.mem)
    (hacc : Accounted s') : Ledger s' := by
  have hmem : s'.mem = s.mem := by rw [System.mem, hmap, System.mem]
  refine ⟨?_, ?_, fun u b pc hu => ?_, fun u b pc c hu hc => ?_, hacc⟩
  · rw [hmap]
    exact h.bound
  · rw [hmap, hboxes]
    exact h.boxes
  · rw [hboxes]
    by_cases hut : u = t
    · rw [hut] at hu
      exact (hself b pc hu).1
    · rw [hothers u hut] at hu
      exact h.ready u b pc hu
  · rw [hboxes] at hc
    rw [hmem]
    by_cases hut : u = t
    · rw [hut] at hu
      exact (hself b pc hu).2 c hc
    · rw [hothers u hut] at hu
      exact h.fits u b pc c hu hc

/-- Thread `t` was inside alone and is not any more: what it had in hand is
    now in the history. -/
theorem accounted_leaves (s s' : System) (t : Nat) (x : Thread) (hx : ∀ b pc, x ≠ .inCall b pc)
    (hthreads : s'.threads = (s.setThread t x).threads) (hmap : s'.mapping = s.mapping)
    (halone : ∀ u, Inside s u → u = t) (hw : s'.written = s.written ++ s.appended t)
    (hr : s'.read = s.read ++ s.taken t) (h : Accounted s) : Accounted s' := by
  intro v _
  have hbal := h t halone
  have hout : ¬ Inside s' v := by
    intro hv
    rw [inside_congr (s.setThread t x) s' v (by rw [hthreads])] at hv
    rcases inside_of_leaves s t v x hx hv with ⟨hvt, hv'⟩
    exact hvt (halone v hv')
  rcases not_inside_inHand s' v hout with ⟨ha, hk⟩
  rw [ha, hk, List.append_nil, List.append_nil, hw, hr, System.mem, hmap]
  exact hbal

theorem inHand_inCall (s : System) (t b : Nat) (pc : CallPc) (h : s.threads t = .inCall b pc) :
    s.appended t = pc.appended ∧ s.taken t = pc.taken := by
  simp only [System.appended, System.taken, h, and_self]

/-- A wait takes nothing in hand, whatever it does to the mutex. -/
theorem ledger_wait (s : System) (t b : Nat) (c : CWLIPCMmf) (pc next : CallPc) (m : RecLock Nat)
    (h : Ledger s) (hth : s.threads t = .inCall b pc) (hbox : s.boxes b = .ready c)
    (hout : callStep c s.mem pc = .wait next) :
    Ledger ({ s with mutex := m }.setThread t (.inCall b next)) := by
  -- Past the wait the call has nothing in hand and relies on nothing.
  have hnext : (∀ c mem, next.Fits c mem) ∧ next.appended = pc.appended ∧
      next.taken = pc.taken ∧ next.IsInside := by
    rcases callStep_wait _ _ _ _ hout with ⟨n, p, rfl, rfl⟩ | ⟨alloc, out, rfl, rfl⟩
    · exact ⟨fun _ _ => trivial, rfl, rfl, trivial⟩
    · exact ⟨fun _ _ => trivial, rfl, rfl, trivial⟩
  rcases hnext with ⟨hfits, ha, hk, hin⟩
  refine ledger_of_thread s _ t h rfl rfl (fun u hu => ?_) (fun b' pc' hb' => ?_) (fun v hv => ?_)
  · simp only [System.setThread, if_neg hu]
  · simp only [System.setThread, if_true, Thread.inCall.injEq] at hb'
    rcases hb' with ⟨rfl, rfl⟩
    exact ⟨⟨c, hbox⟩, fun c' _ => hfits c' s.mem⟩
  -- Only the thread that got past its wait can be inside alone.
  · have htv : t = v := hv t ((inside_setThread_self _ t b next).mpr hin)
    have halone : ∀ u, Inside s u → u = v := by
      intro u hu
      by_cases hut : u = t
      · rw [hut, htv]
      · exact hv u ((inside_setThread_of_ne { s with mutex := m } t u _ hut).mpr hu)
    have hbal := h.accounted v halone
    rcases inHand_inCall s t b pc hth with ⟨ha₀, hk₀⟩
    rcases inHand_inCall ({ s with mutex := m }.setThread t (.inCall b next)) t b next
      (by simp only [System.setThread, if_true]) with ⟨ha₁, hk₁⟩
    rw [← htv] at hbal ⊢
    rw [ha₁, hk₁, ha, hk, ← ha₀, ← hk₀]
    exact hbal

/-- A step inside a call keeps the balance, since nobody else is inside. -/
theorem ledger_go (s : System) (t b : Nat) (c c' : CWLIPCMmf) (pc next : CallPc)
    (mem mem' : List UInt8) (hex : Exclusive s) (h : Ledger s)
    (hth : s.threads t = .inCall b pc) (hbox : s.boxes b = .ready c)
    (hmapping : s.mapping = some mem) (hout : callStep c mem pc = .go c' mem' next) :
    Ledger (({ s with mapping := some mem' }.setBox b (.ready c')).setThread t
      (.inCall b next)) := by
  have hmem : s.mem = mem := by rw [System.mem, hmapping, Option.getD_some]
  rcases callStep_go c c' mem mem' pc next hout with ⟨hin, hin', -, hview⟩
  have hready := h.boxes b
  rw [hbox] at hready
  have hfits := h.fits t b pc c hth hbox
  rw [hmem] at hfits
  rcases callStep_balance c c' mem mem' pc next hready.1 (h.bound mem hmapping) hfits hout with
    ⟨hbound, hfits', hbal⟩
  -- Whoever else is in a call is waiting, so nothing of theirs changed.
  have hthread : ∀ u b' pc', ((({ s with mapping := some mem' }.setBox b (.ready c')).setThread t
      (.inCall b next)).threads u = .inCall b' pc') →
      (u = t ∧ b' = b ∧ pc' = next) ∨ (s.threads u = .inCall b' pc' ∧ ¬ pc'.IsInside) := by
    intro u b' pc' hu
    by_cases hut : u = t
    · simp only [System.setThread, hut, if_true, Thread.inCall.injEq] at hu
      exact Or.inl ⟨hut, hu.1.symm, hu.2.symm⟩
    · simp only [System.setThread, System.setBox, if_neg hut] at hu
      exact Or.inr ⟨hu, fun hpc => hut (hex u t ⟨b', pc', hu, hpc⟩ ⟨b, pc, hth, hin⟩)⟩
  refine ⟨fun mem₁ hmem₁ => ?_, fun i => ?_, fun u b' pc' hu => ?_, fun u b' pc' c₁ hu hc₁ => ?_,
    fun v hv => ?_⟩
  · simp only [System.setThread, System.setBox, Option.some.injEq] at hmem₁
    exact hmem₁ ▸ hbound
  · by_cases hib : i = b
    · simp only [System.setThread, System.setBox, hib, if_true]
      exact ⟨hview.trans hready.1, rfl⟩
    · simp only [System.setThread, System.setBox, if_neg hib]
      exact mapOk_mono s.mapping _ _ (fun _ => rfl) (h.boxes i)
  · by_cases hbb : b' = b
    · exact ⟨c', by simp only [System.setThread, System.setBox, hbb, if_true]⟩
    · simp only [System.setThread, System.setBox, if_neg hbb]
      rcases hthread u b' pc' hu with ⟨-, hb', -⟩ | ⟨hu', -⟩
      · exact absurd hb' hbb
      · exact h.ready u b' pc' hu'
  · rcases hthread u b' pc' hu with ⟨-, rfl, rfl⟩ | ⟨-, hwait⟩
    · simp only [System.setThread, System.setBox, if_true, Box.ready.injEq] at hc₁
      rw [← hc₁]
      exact hfits'
    · cases pc' with
      | waiting call => trivial
      | _ => exact absurd trivial hwait
  -- The balance is that of the thread that moved.
  · have htv : t = v := hv t ((inside_setThread_self _ t b next).mpr hin')
    have hbal₀ := h.accounted t (fun u hu => hex u t hu ⟨b, pc, hth, hin⟩)
    rcases inHand_inCall s t b pc hth with ⟨ha₀, hk₀⟩
    rcases inHand_inCall (({ s with mapping := some mem' }.setBox b (.ready c')).setThread t
      (.inCall b next)) t b next (by simp only [System.setThread, if_true]) with ⟨ha₁, hk₁⟩
    rw [ha₀, hk₀, hmem] at hbal₀
    rw [← htv, ha₁, hk₁]
    exact hbal _ _ hbal₀

/-- A call that faults had nothing in hand. -/
theorem ledger_fault (s : System) (t b : Nat) (c : CWLIPCMmf) (pc : CallPc) (hex : Exclusive s)
    (h : Ledger s) (hth : s.threads t = .inCall b pc)
    (hout : callStep c s.mem pc = .fault) :
    Ledger ({ s with mutex := s.mutex.abandon t }.setThread t .killed) := by
  rcases inHand_inCall s t b pc hth with ⟨ha, hk⟩
  have hnone : pc.appended = [] ∧ pc.taken = [] ∧ pc.IsInside := by
    rcases callStep_fault _ _ _ hout with ⟨n, data, rfl⟩ | ⟨buffer, out, rfl⟩
    · exact ⟨rfl, rfl, trivial⟩
    · exact ⟨rfl, rfl, trivial⟩
  refine ledger_of_thread s _ t h rfl rfl (fun u hu => ?_) (fun b' pc' hb' => ?_)
    (accounted_leaves s _ t .killed (fun _ _ => ?_) rfl rfl
      (fun u hu => hex u t hu ⟨b, pc, hth, hnone.2.2⟩) ?_ ?_ h.accounted)
  · simp only [System.setThread, if_neg hu]
  · simp only [System.setThread, if_true] at hb'
    exact absurd hb' (by simp only [reduceCtorEq, not_false_eq_true])
  · simp only [ne_eq, reduceCtorEq, not_false_eq_true]
  · rw [ha, hnone.1, List.append_nil]
    rfl
  · rw [hk, hnone.2.1, List.append_nil]
    rfl

/-- A call that returns leaves what it had in hand in the history. -/
theorem ledger_ret (s : System) (t b : Nat) (c : CWLIPCMmf) (pc : CallPc) (m : RecLock Nat)
    (release : Bool) (code : UInt32) (result : CallResult) (hex : Exclusive s) (h : Ledger s)
    (hth : s.threads t = .inCall b pc) (hbox : s.boxes b = .ready c)
    (hout : callStep c s.mem pc = .ret release code result) :
    Ledger ({ s with
      mutex := m
      history := s.history ++ [Returned.mk t code result] }.setThread t .idle) := by
  have hfits := h.fits t b pc c hth hbox
  rcases inHand_inCall s t b pc hth with ⟨ha, hk⟩
  -- A release returns zero, so its block counts; a failure does not.
  have hhand : [Returned.mk t code result].filterMap Returned.written = pc.appended ∧
      [Returned.mk t code result].filterMap Returned.read = pc.taken ∧ pc.IsInside := by
    rcases callStep_ret _ _ _ _ _ _ hout with ⟨rfl, -, rfl⟩ | ⟨rfl, -, rfl⟩
    · cases result with
      | writeData n pData => exact ⟨rfl, rfl, trivial⟩
      | readData out => exact ⟨rfl, rfl, trivial⟩
    · have hcode : c.dwErrorCode ≠ 0 := hfits
      cases result <;> simp only [List.filterMap_cons, List.filterMap_nil, Returned.written,
        Returned.read, if_neg hcode, CallPc.appended, CallPc.taken, CallPc.IsInside, and_self]
  refine ledger_of_thread s _ t h rfl rfl (fun u hu => ?_) (fun b' pc' hb' => ?_)
    (accounted_leaves s _ t .idle (fun _ _ => ?_) rfl rfl
      (fun u hu => hex u t hu ⟨b, pc, hth, hhand.2.2⟩) ?_ ?_ h.accounted)
  · simp only [System.setThread, if_neg hu]
  · simp only [System.setThread, if_true] at hb'
    exact absurd hb' (by simp only [reduceCtorEq, not_false_eq_true])
  · simp only [ne_eq, reduceCtorEq, not_false_eq_true]
  · rw [ha, ← hhand.1]
    exact List.filterMap_append
  · rw [hk, ← hhand.2.1]
    exact List.filterMap_append

/-- A step of a thread keeps the accounting when nobody else is inside with
    it. Four cases, for the four things a step of a call can come to. -/
theorem ledger_thread (s s' : System) (t : Nat) (hex : Exclusive s) (h : Ledger s)
    (hstep : step s (.step t) = some s') : Ledger s' := by
  rcases step_cases s s' t hstep with ⟨b, pc, c, hth, hbox, happ⟩
  cases hout : callStep c s.mem pc with
  | wait next =>
      rw [hout] at happ
      by_cases hh : c.hMutex = true
      · rcases apply_wait hh happ with ⟨m, -, rfl⟩
        exact ledger_wait s t b c pc next m h hth hbox hout
      · rw [apply, if_neg hh] at happ
        exact Option.some.inj happ ▸ ledger_wait s t b c pc next s.mutex h hth hbox hout
  | go c' mem' next =>
      have hready := h.boxes b
      rw [hbox] at hready
      rcases Option.isSome_iff_exists.mp hready.2 with ⟨mem, hmapping⟩
      have hmem : s.mem = mem := by rw [System.mem, hmapping, Option.getD_some]
      simp only [hout, apply, hmapping, Option.map_some, Option.some.injEq] at happ
      exact happ ▸ ledger_go s t b c c' pc next mem mem' hex h hth hbox hmapping (hmem ▸ hout)
  | fault =>
      simp only [hout, apply, Option.some.injEq] at happ
      exact happ ▸ ledger_fault s t b c pc hex h hth hout
  | ret release code result =>
      simp only [hout, apply, Option.some.injEq] at happ
      exact happ ▸ ledger_ret s t b c pc _ release code result hex h hth hbox hout

/-- A constructor's step whose kernel call succeeds keeps the accounting: at
    most it makes the mapping, and then nobody is in a call yet. -/
theorem ledger_construction (s : System) (b : Nat) (n : UInt32) (c : CWLIPCMmf)
    (lastError : UInt32) (pc : ConstructorPc) (h : Ledger s)
    (hbox : s.boxes b = .constructing pc n c) :
    Ledger (constructorStep s b n c true lastError pc) := by
  rcases constructorStep_frame s b n c true lastError pc with
    ⟨hth, hhist, -, hothers, hmapping⟩
  have hok := h.boxes b
  rw [hbox] at hok
  have hok' := constructorStep_mapOk s b n c lastError pc hok
  -- The mapping that is made is empty, like the memory before it.
  have hpend : pending (constructorStep s b n c true lastError pc).mem = pending s.mem := by
    rcases hmapping with hsame | ⟨hnone, hsize, hnew⟩
    · rw [System.mem, hsame, System.mem]
    · rw [System.mem, hnew, System.mem, hnone, Option.getD_some, Option.getD_none,
        (bound_replicate _ hsize n rfl).2]
      rfl
  have hcall : ∀ t b' pc', s.threads t = .inCall b' pc' →
      (constructorStep s b n c true lastError pc).boxes b' = s.boxes b' ∧
        (constructorStep s b n c true lastError pc).mem = s.mem := by
    intro t b' pc' hcall
    rcases h.ready t b' pc' hcall with ⟨c', hc'⟩
    have hne : b' ≠ b := by
      intro heq
      rw [heq, hbox] at hc'
      exact absurd hc' (by simp only [reduceCtorEq, not_false_eq_true])
    refine ⟨hothers b' hne, ?_⟩
    have hmapped := h.boxes b'
    rw [hc'] at hmapped
    rcases hmapping with hsame | ⟨hnone, -, -⟩
    · rw [System.mem, hsame, System.mem]
    · rw [hnone] at hmapped
      exact absurd hmapped.2 (by decide)
  refine ⟨fun mem hmem => ?_, fun i => ?_, fun t b' pc' ht => ?_, fun t b' pc' c' ht hc' => ?_,
    fun v hv => ?_⟩
  -- The mapping is the old one, or new and empty.
  · rcases hmapping with hsame | ⟨-, hsize, hnew⟩
    · exact h.bound mem (hsame ▸ hmem)
    · rw [hnew, Option.some.injEq] at hmem
      exact hmem ▸ (bound_replicate _ hsize n rfl).1
  · by_cases hib : i = b
    · rw [hib]
      exact hok'
    · rw [hothers i hib]
      refine mapOk_mono s.mapping _ _ (fun hm => ?_) (h.boxes i)
      rcases hmapping with hsame | ⟨-, -, hnew⟩
      · rw [hsame]
        exact hm
      · rw [hnew]
        rfl
  · rw [hth] at ht
    rw [(hcall t b' pc' ht).1]
    exact h.ready t b' pc' ht
  · rw [hth] at ht
    rw [(hcall t b' pc' ht).1] at hc'
    rw [(hcall t b' pc' ht).2]
    exact h.fits t b' pc' c' ht hc'
  · have hbal := h.accounted v
      (fun u hu => hv u ((inside_congr s _ u (by rw [hth])).mpr hu))
    rw [hpend, System.written, System.read, hhist, System.appended, System.taken, hth]
    exact hbal

/-- Steps of an environment whose mapping calls succeed keep the accounting,
    from any state in which nobody shares the inside. -/
theorem ledger_step (env : Environment) (hok : env.mapOk = true) (s : System) (l : Label)
    (s' : System) (hadm : env.Admits l) (hex : Exclusive s) (h : Ledger s)
    (hstep : step s l = some s') : Ledger s' := by
  cases l with
  | construct b n heap =>
      rcases step_construct_cases s s' b n heap hstep with ⟨habsent, rfl⟩
      refine ⟨h.bound, fun i => ?_, fun t b' pc ht => ?_, fun t b' pc c ht hc => ?_, h.accounted⟩
      · by_cases hib : i = b
        · simp only [System.setBox, hib, if_true]
          exact hadm hok
        · simp only [System.setBox, if_neg hib]
          exact h.boxes i
      · rcases h.ready t b' pc ht with ⟨c, hc⟩
        have hne : b' ≠ b := by
          intro heq
          rw [heq, habsent] at hc
          exact absurd hc (by simp only [reduceCtorEq, not_false_eq_true])
        exact ⟨c, by simp only [System.setBox, if_neg hne, hc]⟩
      · by_cases hbb : b' = b
        · simp only [System.setBox, hbb, if_true] at hc
          exact absurd hc (by simp only [reduceCtorEq, not_false_eq_true])
        · simp only [System.setBox, if_neg hbb] at hc
          exact h.fits t b' pc c ht hc
  | construction b ok lastError =>
      rcases step_construction_cases s s' b ok lastError hstep with ⟨pc, n, c, hbox, rfl⟩
      have htrue : ok = true := hadm hok
      rw [htrue]
      exact ledger_construction s b n c lastError pc h hbox
  | call t b call =>
      rcases step_call_cases s s' t b call hstep with ⟨hidle, ⟨c, hc⟩, rfl⟩
      refine ledger_of_thread s _ t h rfl rfl (fun u hu => ?_) (fun b' pc hb' => ?_)
        (fun v hv => ?_)
      · simp only [System.setThread, if_neg hu]
      · simp only [System.setThread, if_true, Thread.inCall.injEq] at hb'
        rcases hb' with ⟨rfl, rfl⟩
        exact ⟨⟨c, hc⟩, fun _ _ => trivial⟩
      -- A call that begins has nothing in hand.
      · have hbal := h.accounted v (fun u hu => by
          by_cases hut : u = t
          · rcases hu with ⟨b', pc, hth, -⟩
            rw [hut, hidle] at hth
            exact absurd hth (by simp only [reduceCtorEq, not_false_eq_true])
          · exact hv u ((inside_setThread_of_ne s t u _ hut).mpr hu))
        have hhand : (s.setThread t (.inCall b (.waiting call))).appended v = s.appended v ∧
            (s.setThread t (.inCall b (.waiting call))).taken v = s.taken v := by
          by_cases hvt : v = t
          · simp only [System.appended, System.taken, System.setThread, hvt, if_true, hidle,
              CallPc.appended, CallPc.taken, and_self]
          · simp only [System.appended, System.taken, System.setThread, if_neg hvt, and_self]
        rw [hhand.1, hhand.2]
        exact hbal
  | step t => exact ledger_thread s s' t hex h hstep

end Threads

end Ipc

end Defender
