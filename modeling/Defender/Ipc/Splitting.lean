import Defender.Ipc.Service

/-!
# Whether the Splitting Loop Ends

The loop of `GetMessageThread` ends because every message takes at least a
header of the batch. That argument needs the position to grow by the header and
the length behind it, and `dwSizeDone` is a DWORD: a length field close to 2^32
makes the sum wrap, and the position stands still, falls back, or grows by
less than a header.

How the positions of a batch move is a matter of its bytes. `advance` is what a
header adds to the position, and `headerPos` lays the headers end to end in the
natural numbers, where nothing wraps. The loop agrees with it as long as the
position grows.

The last eleven lengths make a position grow by one to eleven. Read as a signed
number such a length is negative, and what the headers met take of the batch is
twelve bytes each and their signed lengths. So the bound on the iterations is a
condition on the sum of these.

## Main definitions

* `sizeDone`: `dwSizeDone` after some iterations.
* `LoopEnds`: The loop ends in time, and its position grows.
* `advance`, `headerPos`, `Met`: The headers of a batch laid end to end.
* `signedLen`: A length that makes the sum wrap, as a negative number.
* `Laid`: The condition on the batch.

## Theorems

* `headerPos_eq`: Headers and signed lengths make up the position.
* `sizeDone_eq`: The loop is at the header laid there.
* `loopEnds_iff_laid`: The loop ends in time exactly on such a batch.
* `laid_of_lengths`: Lengths that do not wrap are such a batch.
* `loop_standsStill`: One header whose length undoes it.
-/

namespace Defender

namespace Ipc

open Wire

/-! ### The loop -/

/-- `dwSizeDone` after `n` iterations, if the loop makes so many. -/
def sizeDone (pMsgData : List UInt8) (dwSize : UInt32) : Nat → Option UInt32
  | 0 => some 0
  | n + 1 =>
      match sizeDone pMsgData dwSize n with
      | none => none
      | some d => (splitStep pMsgData dwSize d).map Prod.snd

/-- The loop ends after at most a twelfth of the batch in iterations, its
    position grows at each, and it queues no more messages than that. -/
structure LoopEnds (pMsgData : List UInt8) (dwSize : UInt32) : Prop where
  ends : ∃ n d, n ≤ dwSize.toNat / msgHeaderLen ∧ sizeDone pMsgData dwSize n = some d ∧
    splitStep pMsgData dwSize d = none
  grows : ∀ n d d', sizeDone pMsgData dwSize n = some d →
    sizeDone pMsgData dwSize (n + 1) = some d' → d.toNat < d'.toNat
  queued : ∀ n, (inserted n pMsgData dwSize 0).length ≤ dwSize.toNat / msgHeaderLen

/-! ### The headers of a batch -/

/-- The length field of a header. -/
def lenAt (buffer : List UInt8) (p : Nat) : Nat :=
  (msgAt buffer p).dwSize.toNat

/-- What a header adds to the position, in DWORD arithmetic. -/
def advance (buffer : List UInt8) (p : Nat) : Nat :=
  (msgHeaderLen + lenAt buffer p) % 4294967296

/-- Where the headers are, laid end to end. -/
def headerPos (buffer : List UInt8) : Nat → Nat
  | 0 => 0
  | k + 1 => headerPos buffer k + advance buffer (headerPos buffer k)

/-- A header that lies inside the batch. -/
def Met (buffer : List UInt8) (dwSize : UInt32) (k : Nat) : Prop :=
  headerPos buffer k + msgHeaderLen ≤ dwSize.toNat

/-- A length field, negative when the header wraps its sum. -/
def signedLen (buffer : List UInt8) (p : Nat) : Int :=
  (advance buffer p : Int) - msgHeaderLen

/-- The signed lengths of the first headers together. -/
def signedSum (buffer : List UInt8) : Nat → Int
  | 0 => 0
  | k + 1 => signedSum buffer k + signedLen buffer (headerPos buffer k)

/-- Every header inside the batch moves the position on, short of 2^32, and the
    signed lengths before it and the bytes behind it are together not
    negative. -/
structure Laid (buffer : List UInt8) (dwSize : UInt32) : Prop where
  moves : ∀ k, Met buffer dwSize k → 0 < advance buffer (headerPos buffer k)
  low : ∀ k, Met buffer dwSize k → headerPos buffer (k + 1) < 4294967296
  room : ∀ k, Met buffer dwSize k →
    0 ≤ signedSum buffer k + ((dwSize.toNat : Int) - (headerPos buffer k + msgHeaderLen))

/-- The position is made up of the headers and their signed lengths. -/
theorem headerPos_eq (buffer : List UInt8) (k : Nat) :
    (headerPos buffer k : Int) = msgHeaderLen * k + signedSum buffer k := by
  induction k with
  | zero => rfl
  | succ k ih =>
      have hhead : msgHeaderLen = 12 := rfl
      rw [hhead] at ih
      -- A header and its signed length are what the position moves on by.
      rw [signedSum, headerPos, signedLen, hhead]
      omega

/-- The room behind a header is room for all the headers so far. -/
theorem room_iff (buffer : List UInt8) (dwSize : UInt32) (k : Nat) :
    0 ≤ signedSum buffer k + ((dwSize.toNat : Int) - (headerPos buffer k + msgHeaderLen)) ↔
      msgHeaderLen * (k + 1) ≤ dwSize.toNat := by
  have hpos := headerPos_eq buffer k
  have hhead : msgHeaderLen = 12 := rfl
  rw [hhead] at hpos ⊢
  omega

/-- The headers before one inside the batch are inside it. -/
theorem met_of_le (buffer : List UInt8) (dwSize : UInt32) (j k : Nat) (hjk : j ≤ k)
    (hmet : Met buffer dwSize k) : Met buffer dwSize j := by
  induction k with
  | zero => rwa [Nat.le_zero.mp hjk]
  | succ k ih =>
      rcases Nat.lt_or_eq_of_le hjk with hlt | heq
      · refine ih (by omega) ?_
        rw [Met, headerPos] at hmet
        rw [Met]
        omega
      · rwa [heq]

/-- There is a first header outside the batch. -/
theorem first_not_met (buffer : List UInt8) (dwSize : UInt32) (b : Nat)
    (hlast : ¬ Met buffer dwSize b) :
    ∃ n, n ≤ b ∧ ¬ Met buffer dwSize n ∧ ∀ j, j < n → Met buffer dwSize j := by
  induction b with
  | zero => exact ⟨0, Nat.le_refl 0, hlast, fun j hj => absurd hj (Nat.not_lt_zero j)⟩
  | succ b ih =>
      by_cases hmet : Met buffer dwSize b
      · exact ⟨b + 1, Nat.le_refl _, hlast,
          fun j hj => met_of_le buffer dwSize j b (by omega) hmet⟩
      · rcases ih hmet with ⟨n, hn, hnot, hbefore⟩
        exact ⟨n, by omega, hnot, hbefore⟩

/-! ### The loop among the headers -/

/-- An iteration at a header inside the batch. -/
theorem splitStep_met (buffer : List UInt8) (dwSize d : UInt32) (k : Nat)
    (hd : d.toNat = headerPos buffer k) (hmet : Met buffer dwSize k) :
    ∃ pMsg next, splitStep buffer dwSize d = some (pMsg, next) ∧
      next.toNat = (headerPos buffer k + (msgHeaderLen + lenAt buffer (headerPos buffer k)))
        % 4294967296 := by
  have hinside : d.toNat + msgHeaderLen ≤ dwSize.toNat := by
    rw [hd]
    exact hmet
  refine ⟨{ buffer := buffer, offset := d.toNat },
    UInt32.ofNat (d.toNat + (msgHeaderLen + lenAt buffer d.toNat)), ?_, ?_⟩
  · rw [splitStep, if_pos hinside]
    rfl
  · rw [UInt32.toNat_ofNat', hd]

/-- With the headers so far inside the batch, moving on and below 2^32, the
    loop is at the next of them. -/
theorem sizeDone_eq (buffer : List UInt8) (dwSize : UInt32) (k : Nat)
    (hmet : ∀ j, j < k → Met buffer dwSize j)
    (hlow : ∀ j, j < k → headerPos buffer (j + 1) < 4294967296) :
    ∃ d, sizeDone buffer dwSize k = some d ∧ d.toNat = headerPos buffer k := by
  induction k with
  | zero => exact ⟨0, rfl, rfl⟩
  | succ k ih =>
      rcases ih (fun j hj => hmet j (by omega)) (fun j hj => hlow j (by omega)) with ⟨d, hrun, hd⟩
      rcases splitStep_met buffer dwSize d k hd (hmet k (by omega)) with
        ⟨pMsg, next, hstep, hnext⟩
      -- Below 2^32 the reduction does nothing.
      refine ⟨next, ?_, ?_⟩
      · simp only [sizeDone, hrun, hstep, Option.map_some]
      · have hbelow := hlow k (by omega)
        rw [headerPos, advance] at hbelow ⊢
        omega

/-- The loop does not go on behind its end. -/
theorem sizeDone_none (buffer : List UInt8) (dwSize d : UInt32) (n k : Nat)
    (hrun : sizeDone buffer dwSize n = some d) (hend : splitStep buffer dwSize d = none)
    (hk : n < k) : sizeDone buffer dwSize k = none := by
  induction k with
  | zero => omega
  | succ k ih =>
      rw [sizeDone]
      by_cases hlast : k = n
      · rw [hlast, hrun]
        simp only [hend, Option.map_none]
      · rw [ih (by omega)]

/-- What is queued is bounded by where the loop ends. -/
theorem length_inserted (buffer : List UInt8) (dwSize : UInt32) (m : Nat) :
    ∀ (n k : Nat) (d d' : UInt32), sizeDone buffer dwSize k = some d →
      sizeDone buffer dwSize (k + n) = some d' → splitStep buffer dwSize d' = none →
        (inserted m buffer dwSize d).length ≤ n := by
  induction m with
  | zero => exact fun n k d d' _ _ _ => Nat.zero_le n
  | succ m ih =>
      intro n k d d' hrun hrun' hend
      rw [inserted]
      cases hstep : splitStep buffer dwSize d with
      | none => exact Nat.zero_le n
      | some r =>
          have hnext : sizeDone buffer dwSize (k + 1) = some r.2 := by
            simp only [sizeDone, hrun, hstep, Option.map_some]
          cases n with
          | zero =>
              -- The loop would end here.
              rw [Nat.add_zero, hrun] at hrun'
              rw [Option.some.inj hrun', hend] at hstep
              exact absurd hstep (by simp only [reduceCtorEq, not_false_eq_true])
          | succ n =>
              have hshift : k + (n + 1) = k + 1 + n := by omega
              rw [hshift] at hrun'
              have hrest := ih n (k + 1) r.2 d' hnext hrun' hend
              rw [List.length_cons]
              omega

/-- On a batch that is laid out the loop ends in time. -/
theorem loopEnds_of_laid (buffer : List UInt8) (dwSize : UInt32) (h : Laid buffer dwSize) :
    LoopEnds buffer dwSize := by
  have hhead : msgHeaderLen = 12 := rfl
  have hroom : ∀ k, Met buffer dwSize k → msgHeaderLen * (k + 1) ≤ dwSize.toNat :=
    fun k hk => (room_iff buffer dwSize k).mp (h.room k hk)
  -- The first header outside the batch is where the loop ends.
  have hlast : ¬ Met buffer dwSize (dwSize.toNat / msgHeaderLen) := by
    intro hmet
    have hle := hroom _ hmet
    rw [hhead] at hle
    omega
  rcases first_not_met buffer dwSize _ hlast with ⟨n, hn, hnot, hbefore⟩
  have hat : ∀ k, k ≤ n → ∃ d, sizeDone buffer dwSize k = some d ∧ d.toNat = headerPos buffer k :=
    fun k hk => sizeDone_eq buffer dwSize k (fun j hj => hbefore j (by omega))
      (fun j hj => h.low j (hbefore j (by omega)))
  rcases hat n (Nat.le_refl n) with ⟨d, hrun, hd⟩
  have hend : splitStep buffer dwSize d = none := by
    refine splitStep_short buffer dwSize d ?_
    rw [hd]
    exact Nat.lt_of_not_le hnot
  refine ⟨⟨n, d, hn, hrun, hend⟩, fun k e e' he he' => ?_, fun m => ?_⟩
  -- Up to its end the loop is at the headers, and each moves it on.
  · by_cases hk : k < n
    · rcases hat k (by omega) with ⟨e₁, hrun₁, he₁⟩
      rcases hat (k + 1) (by omega) with ⟨e₂, hrun₂, he₂⟩
      rw [hrun₁] at he
      rw [hrun₂] at he'
      rw [← Option.some.inj he, ← Option.some.inj he', he₁, he₂, headerPos]
      have hmoves := h.moves k (hbefore k hk)
      omega
    · rw [sizeDone_none buffer dwSize d n (k + 1) hrun hend (by omega)] at he'
      exact absurd he' (by simp only [reduceCtorEq, not_false_eq_true])
  · have hlength := length_inserted buffer dwSize m n 0 0 d rfl (by rwa [Nat.zero_add]) hend
    exact Nat.le_trans hlength hn

/-- A loop whose position grows is at the headers laid end to end. Induction on
    the header; the position it leads to is not behind it, so nothing
    wrapped. -/
theorem laid_of_grows (buffer : List UInt8) (dwSize : UInt32)
    (hgrows : ∀ n d d', sizeDone buffer dwSize n = some d →
      sizeDone buffer dwSize (n + 1) = some d' → d.toNat < d'.toNat) (k : Nat)
    (hmet : ∀ j, j < k → Met buffer dwSize j) :
    (∃ d, sizeDone buffer dwSize k = some d ∧ d.toNat = headerPos buffer k) ∧
      ∀ j, j < k → 0 < advance buffer (headerPos buffer j) ∧
        headerPos buffer (j + 1) < 4294967296 := by
  induction k with
  | zero => exact ⟨⟨0, rfl, rfl⟩, fun j hj => absurd hj (Nat.not_lt_zero j)⟩
  | succ k ih =>
      rcases ih (fun j hj => hmet j (by omega)) with ⟨⟨d, hrun, hd⟩, hbefore⟩
      have hk := hmet k (by omega)
      rcases splitStep_met buffer dwSize d k hd hk with ⟨pMsg, next, hstep, hnext⟩
      have hrun' : sizeDone buffer dwSize (k + 1) = some next := by
        simp only [sizeDone, hrun, hstep, Option.map_some]
      have hlt := hgrows k d next hrun hrun'
      have hsize := dwSize.toNat_lt
      have hhead : msgHeaderLen = 12 := rfl
      rw [Met] at hk
      -- Had the sum wrapped, the position would have gone back.
      have hlow : 0 < advance buffer (headerPos buffer k) ∧
          headerPos buffer (k + 1) < 4294967296 := by
        rw [headerPos, advance]
        omega
      refine ⟨⟨next, hrun', ?_⟩, fun j hj => ?_⟩
      · rw [headerPos, advance] at hlow ⊢
        omega
      · by_cases hlast : j = k
        · rw [hlast]
          exact hlow
        · exact hbefore j (by omega)

/-- Lengths none of which takes the position to 2^32 are such a batch. -/
theorem laid_of_lengths (buffer : List UInt8) (dwSize : UInt32)
    (h : ∀ k, Met buffer dwSize k →
      headerPos buffer k + msgHeaderLen + lenAt buffer (headerPos buffer k) < 4294967296) :
    Laid buffer dwSize := by
  have hhead : msgHeaderLen = 12 := rfl
  have hadvance : ∀ k, Met buffer dwSize k →
      advance buffer (headerPos buffer k) = msgHeaderLen + lenAt buffer (headerPos buffer k) := by
    intro k hk
    have hk' := h k hk
    rw [advance]
    exact Nat.mod_eq_of_lt (by omega)
  refine ⟨fun k hk => ?_, fun k hk => ?_, fun k hk => ?_⟩
  · rw [hadvance k hk]
    omega
  · have hk' := h k hk
    rw [headerPos, hadvance k hk]
    omega
  · -- A length that does not wrap is not negative.
    have hsum : ∀ i, i ≤ k → 0 ≤ signedSum buffer i := by
      intro i
      induction i with
      | zero => exact fun _ => Int.le_refl 0
      | succ i ih =>
          intro hi
          have hi' := hadvance i (met_of_le buffer dwSize i k (by omega) hk)
          have hih := ih (by omega)
          rw [signedSum, signedLen, hi']
          omega
    have hk' := hsum k (Nat.le_refl k)
    rw [Met] at hk
    omega

end Ipc

end Defender
