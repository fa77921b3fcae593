import Defender.Crypto.HashStream
import Defender.Crypto.Sm4

/-!
# SHA-1

`sha1.c` against the standard. The standard moves five registers along in
each of its eighty rounds and reads a schedule of eighty words. The source
moves nothing: its eighty lines name the registers in five rotations, so that
a line writes the two that change and the next line reads them in their new
roles. And it has sixteen words, each overwritten by the word sixteen places
on when its line comes.

Line `t` of the source names the registers `t` places back, which is what the
subtractions in `Fin 5` say. `Lines` relates the registers and the words at a
line to those of the standard, and every line keeps it.

## Main definitions

* `sha1P`, `sha1R`, `sha1Line`, `sha1Process`: The macros and the lines.
* `Sha1Ctx`, `sha1Starts`, `sha1Update`, `sha1Finish`: The functions.
* `fipsF`, `fipsK`, `fipsW`, `fipsRound`, `fipsCompress`: The standard.
* `fipsSha1`: The digest of a message.
* `Lines`: Where the source is in the standard.
* `TookSha1`: A context that has taken a message.

## Theorems

* `lines_step`: A line is a round.
* `sha1Process_eq`: The eighty lines are the compression function.
* `sha1Finish_eq`: The digest of what a context has taken.
* `sha1_chunks`: The digest of the pieces is that of the message.
-/

namespace Defender

namespace Crypto

open Wire BlockHash

/-! ### The source -/

/-- `S(x,n)`. -/
def sha1S (x n : UInt32) : UInt32 :=
  (x <<< n) ||| ((x &&& 0xFFFFFFFF) >>> (32 - n))

/-- `F`, as it is defined at line `t`. -/
def sha1F (t : Nat) (x y z : UInt32) : UInt32 :=
  if t < 20 then z ^^^ (x &&& (y ^^^ z))
  else if t < 40 then x ^^^ y ^^^ z
  else if t < 60 then (x &&& y) ||| (z &&& (x ||| y))
  else x ^^^ y ^^^ z

/-- `K`, as it is defined at line `t`. -/
def sha1K (t : Nat) : UInt32 :=
  if t < 20 then 0x5A827999
  else if t < 40 then 0x6ED9EBA1
  else if t < 60 then 0x8F1BBCDC
  else 0xCA62C1D6

/-- `P(a,b,c,d,e,x)`, on the registers at these places. -/
def sha1P (t : Nat) (r : Vector UInt32 5) (a b c d e : Fin 5) (x : UInt32) : Vector UInt32 5 :=
  let r := r.set e
    (r.get e + (sha1S (r.get a) 5 + sha1F t (r.get b) (r.get c) (r.get d) + sha1K t + x))
  r.set b (sha1S (r.get b) 30)

/-- `R(t)`: the word, and the array with the word in it. -/
def sha1R (W : Vector UInt32 16) (t : Nat) : UInt32 × Vector UInt32 16 :=
  let temp := W[(t - 3) % 16] ^^^ W[(t - 8) % 16] ^^^ W[(t - 14) % 16] ^^^ W[t % 16]
  (sha1S temp 1, W.set (t % 16) (sha1S temp 1))

/-- Line `t`. The first names the registers `A, B, C, D, E`, the second
    `E, A, B, C, D`, and so on. -/
def sha1Line (v : Vector UInt32 5 × Vector UInt32 16) (t : Nat) :
    Vector UInt32 5 × Vector UInt32 16 :=
  let (x, W) := if t < 16 then (v.2[t % 16], v.2) else sha1R v.2 t
  let q := Fin.ofNat 5 t
  (sha1P t v.1 (0 - q) (1 - q) (2 - q) (3 - q) (4 - q) x, W)

/-- `sha1_process`. -/
def sha1Process (state : Vector UInt32 5) (data : List UInt8) : Vector UInt32 5 :=
  let W : Vector UInt32 16 := Vector.ofFn (fun i => dwordBeAt data (4 * i.val))
  let r := ((List.range 80).foldl sha1Line (state, W)).1
  Vector.zipWith (· + ·) state r

/-- `sha1_context`. -/
abbrev Sha1Ctx := HashCtx (Vector UInt32 5)

/-- `sha1_starts`. -/
def sha1Starts (ctx : Sha1Ctx) : Sha1Ctx :=
  hashStart ctx #v[0x67452301, 0xEFCDAB89, 0x98BADCFE, 0x10325476, 0xC3D2E1F0]

/-- `sha1_update` on the `length` bytes at `input`, which are the list. -/
def sha1Update (ctx : Sha1Ctx) (input : List UInt8) : Sha1Ctx :=
  hashUpdate sha1Process ctx input

/-- `sha1_finish`: what it writes to `digest`. -/
def sha1Finish (ctx : Sha1Ctx) : List UInt8 :=
  (hashFinish sha1Process ctx).state.toList.flatMap be32

/-! ### The standard -/

/-- The logical function of round `t`. -/
def fipsF (t : Nat) (x y z : UInt32) : UInt32 :=
  if t < 20 then (x &&& y) ^^^ (~~~x &&& z)
  else if t < 40 then x ^^^ y ^^^ z
  else if t < 60 then (x &&& y) ^^^ (x &&& z) ^^^ (y &&& z)
  else x ^^^ y ^^^ z

/-- The constant of round `t`. -/
def fipsK (t : Nat) : UInt32 :=
  if t < 20 then 0x5A827999
  else if t < 40 then 0x6ED9EBA1
  else if t < 60 then 0x8F1BBCDC
  else 0xCA62C1D6

/-- The schedule of a block. -/
def fipsW (M : List UInt8) (t : Nat) : UInt32 :=
  if t < 16 then dwordBeAt M (4 * t)
  else rotl (fipsW M (t - 3) ^^^ fipsW M (t - 8) ^^^ fipsW M (t - 14) ^^^ fipsW M (t - 16)) 1

/-- Round `t`. -/
def fipsRound (M : List UInt8) (v : Vector UInt32 5) (t : Nat) : Vector UInt32 5 :=
  let T := rotl v[0] 5 + fipsF t v[1] v[2] v[3] + v[4] + fipsK t + fipsW M t
  #v[T, v[0], rotl v[1] 30, v[2], v[3]]

/-- The compression function. -/
def fipsCompress (H : Vector UInt32 5) (M : List UInt8) : Vector UInt32 5 :=
  Vector.zipWith (· + ·) H ((List.range 80).foldl (fipsRound M) H)

/-- The initial hash value. -/
def fipsInit : Vector UInt32 5 :=
  #v[0x67452301, 0xEFCDAB89, 0x98BADCFE, 0x10325476, 0xC3D2E1F0]

/-- The digest of a message. -/
def fipsSha1 (m : List UInt8) : List UInt8 :=
  (absorb 64 fipsCompress fipsInit (m ++ padding 64 m.length (be64 (8 * m.length)))).toList.flatMap
    be32

/-! ### The lines and the rounds -/

theorem sha1S_eq (x n : UInt32) : sha1S x n = rotl x n := by
  have hmask : x &&& 0xFFFFFFFF = x := UInt32.and_neg_one
  rw [sha1S, rotl, hmask]

theorem sha1F_eq (t : Nat) (x y z : UInt32) : sha1F t x y z = fipsF t x y z := by
  rw [sha1F, fipsF, choose_eq, majority_eq]

/-- The role after the last is the first. -/
theorem ofNat5_succ (t : Nat) : Fin.ofNat 5 (t + 1) = Fin.ofNat 5 t + 1 := by
  apply Fin.ext
  simp only [Fin.ofNat, Fin.val_add]
  omega

/-- The array at line `t` has the last sixteen words of the schedule. -/
def Scheduled (M : List UInt8) (t : Nat) (W : Vector UInt32 16) : Prop :=
  ∀ s, s < max t 16 → max t 16 ≤ s + 16 → W[s % 16] = fipsW M s

/-- Where the source is in the standard at line `t`. -/
structure Lines (M : List UInt8) (t : Nat) (v : Vector UInt32 5 × Vector UInt32 16)
    (u : Vector UInt32 5) : Prop where
  registers : roles (Fin.ofNat 5 t) v.1 = u
  words : Scheduled M t v.2

/-- The two registers a line writes, and the next roles. -/
theorem along_set (v : Vector UInt32 5) (y z : UInt32) :
    along ((v.set 4 y).set 1 z) = #v[y, v[0], z, v[2], v[3]] := by
  refine ext_get _ _ (fun k => ?_)
  have h4 : (v.set 4 y).get (k - 1) = if 4 = k - 1 then y else v.get (k - 1) :=
    get_set v 4 (k - 1) y
  have h1 : ((v.set 4 y).set 1 z).get (k - 1) = if 1 = k - 1 then z else (v.set 4 y).get (k - 1) :=
    get_set (v.set 4 y) 1 (k - 1) z
  rw [get_along]
  refine h1.trans ?_
  rw [h4]
  match k with
  | 0 | 1 | 2 | 3 | 4 => rfl

/-- A line on registers is a round, in the roles of the next line. -/
theorem roles_sha1P (M : List UInt8) (t : Nat) (r : Vector UInt32 5) :
    let q := Fin.ofNat 5 t
    roles (q + 1) (sha1P t r (0 - q) (1 - q) (2 - q) (3 - q) (4 - q) (fipsW M t))
      = fipsRound M (roles q r) t := by
  intro q
  have hsum : ∀ e s f k w : UInt32, e + (s + f + k + w) = s + f + e + k + w := by
    intro e s f k w
    ac_rfl
  have hb : ∀ y, (r.set (4 - q : Fin 5).val y).get (1 - q) = r.get (1 - q) := by
    intro y
    rw [get_set, if_neg (by rw [sub_left_inj]; decide)]
  dsimp only [sha1P]
  rw [hb, roles_succ, roles_set, roles_set, hsum, sha1S_eq, sha1S_eq, sha1F_eq]
  simp only [← get_roles]
  exact along_set (roles q r) _ _

/-- The sixteen words of a block. -/
theorem scheduled_zero (M : List UInt8) :
    Scheduled M 0 (Vector.ofFn (fun i => dwordBeAt M (4 * i.val))) := by
  intro s hs _
  have hlt : s < 16 := hs
  rw [Vector.getElem_ofFn, fipsW, if_pos hlt]
  simp only [Nat.mod_eq_of_lt hlt]

/-- The word of a line, and the words after it. -/
theorem scheduled_step (M : List UInt8) (t : Nat) (W : Vector UInt32 16) (h : Scheduled M t W) :
    (if t < 16 then (W[t % 16], W) else sha1R W t).1 = fipsW M t ∧
      Scheduled M (t + 1) (if t < 16 then (W[t % 16], W) else sha1R W t).2 := by
  by_cases ht : t < 16
  · rw [if_pos ht]
    refine ⟨h t (by omega) (by omega), fun s hs hle => h s (by omega) (by omega)⟩
  · rw [if_neg ht]
    have hword : (sha1R W t).1 = fipsW M t := by
      have h16 := h (t - 16) (by omega) (by omega)
      have hmod : (t - 16) % 16 = t % 16 := by omega
      simp only [hmod] at h16
      rw [fipsW, if_neg ht, sha1R, h (t - 3) (by omega) (by omega), h (t - 8) (by omega) (by omega),
        h (t - 14) (by omega) (by omega), h16, sha1S_eq]
    refine ⟨hword, fun s hs hle => ?_⟩
    have hset : (sha1R W t).2[s % 16] = if t % 16 = s % 16 then (sha1R W t).1 else W[s % 16] :=
      Vector.getElem_set (Nat.mod_lt t (by decide)) (Nat.mod_lt s (by decide))
    rw [hset, hword]
    by_cases hst : s = t
    · rw [if_pos (by rw [hst]), hst]
    · rw [if_neg (by omega)]
      exact h s (by omega) (by omega)

/-- A line is a round. -/
theorem lines_step (M : List UInt8) (t : Nat) (v : Vector UInt32 5 × Vector UInt32 16)
    (u : Vector UInt32 5) (h : Lines M t v u) :
    Lines M (t + 1) (sha1Line v t) (fipsRound M u t) := by
  rcases scheduled_step M t v.2 h.words with ⟨hword, hwords⟩
  refine ⟨?_, hwords⟩
  rw [ofNat5_succ, ← h.registers, ← roles_sha1P, ← hword]
  rfl

/-- The eighty lines are the compression function. -/
theorem sha1Process_eq (state : Vector UInt32 5) (data : List UInt8) :
    sha1Process state data = fipsCompress state data := by
  have hend := foldl_range_rel (Lines data) sha1Line (fipsRound data) 80
    (fun t r v _ h => lines_step data t r v h)
    (state, Vector.ofFn (fun i => dwordBeAt data (4 * i.val))) state
    ⟨roles_zero state, scheduled_zero data⟩
  have hregisters := hend.registers
  rw [show Fin.ofNat 5 80 = 0 from rfl, roles_zero] at hregisters
  rw [sha1Process, fipsCompress, ← hregisters]

/-! ### The context -/

/-- A context that has taken a message. -/
def TookSha1 (m : List UInt8) (ctx : Sha1Ctx) : Prop :=
  Took sha1Process fipsInit m.length m ctx

/-- The pieces a fresh context takes. -/
theorem tookSha1_foldl (ctx : Sha1Ctx) (hbuffer : ctx.buffer.length = 64)
    (chunks : List (List UInt8)) (hlength : ∀ c ∈ chunks, c.length < 4294967296) :
    TookSha1 chunks.flatten (chunks.foldl sha1Update (sha1Starts ctx)) := by
  have htook := took_foldl sha1Process fipsInit 0 [] _
    (took_hashStart sha1Process fipsInit ctx hbuffer) chunks
  rw [Nat.zero_add, List.nil_append, counted_eq chunks hlength] at htook
  exact htook

theorem length_fipsSha1 (m : List UInt8) : (fipsSha1 m).length = 20 := by
  rw [fipsSha1, length_flatMap_be32, Vector.length_toList]

/-- What is written to the digest. -/
theorem sha1Finish_eq (m : List UInt8) (ctx : Sha1Ctx) (h : TookSha1 m ctx) :
    sha1Finish ctx = fipsSha1 m := by
  have hprocess : sha1Process = fipsCompress := funext fun s => funext (sha1Process_eq s)
  have hstate := hashFinish_state sha1Process fipsInit _ _ _ h
  rw [fipsSha1, ← hprocess, ← hstate]
  rfl

/-- The digest of the pieces is that of the message, however it is cut and
    whatever the context held. -/
theorem sha1_chunks (ctx : Sha1Ctx) (hbuffer : ctx.buffer.length = 64)
    (chunks : List (List UInt8)) (hlength : ∀ c ∈ chunks, c.length < 4294967296) :
    sha1Finish (chunks.foldl sha1Update (sha1Starts ctx)) = fipsSha1 chunks.flatten := by
  have htook := tookSha1_foldl ctx hbuffer chunks hlength
  exact sha1Finish_eq chunks.flatten _ htook

/-- A context of what happens to be in memory. -/
def Sha1Ctx.fresh : Sha1Ctx where
  total0 := 0xCCCCCCCC
  total1 := 0xCCCCCCCC
  state := Vector.replicate 5 0xCCCCCCCC
  buffer := List.replicate 64 0xCC

/-- Three bytes in two pieces. -/
theorem sha1_chunks_two :
    sha1Finish ([[97], [98, 99]].foldl sha1Update (sha1Starts Sha1Ctx.fresh))
      = fipsSha1 [97, 98, 99] :=
  sha1_chunks Sha1Ctx.fresh rfl [[97], [98, 99]] (by decide)

end Crypto

end Defender
