import Defender.Crypto.Sha1
import Defender.Pe.Failures

/-!
# The Image Digest with the Program's Own SHA-1

`ImageDigestCalcExt` and `ImageDigestCalcExtBySHA1Lib` hash the same stream,
the one with `sha1.c` and the other with a library. The stream arrives in
blocks of one buffer at most, whatever the reads come to, so no block is too
long for the counters of `sha1.c`, and the two functions give the same digest
and the same result on every file and whatever fails.

## Main definitions

* `digestSha1`: The function the blocks are passed to.
* `imageDigestCalcExt`: The function.

## Theorems

* `emit_small`: The blocks fit in the buffer.
* `imageDigest_agrees`: The two functions are the same.
-/

namespace Defender

namespace Pe

open Wire Crypto

/-- `digest_sha1`. -/
def digestSha1 (refdata : Sha1Ctx) (pData : List UInt8) : Sha1Ctx :=
  sha1Update refdata pData

/-- `ImageDigestCalcExt`, with what the file is opened to and the context that
    happens to be on the stack. -/
def imageDigestCalcExt (ctx : Sha1Ctx) (opened : Bool) (o : IoOutcomes) (file digest : List UInt8)
    (bForce : Bool) : Bool × List UInt8 :=
  if opened = false then (false, digest)
  else
    let r := auImageGetDigestStream o file [] bForce
    (r.bRet, poke digest 0 (sha1Finish (r.blocks.foldl digestSha1 (sha1Starts ctx))))

/-- Every block fits in the buffer of `Emit`. -/
def Small (d : Handle) : Prop :=
  ∀ b ∈ d.blocks, b.length ≤ emitBufferSize

theorem calcLoop_small (o : IoOutcomes) (file : List UInt8) (left : Nat) (d : Handle)
    (h : Small d) : Small (calcLoop o file left d).2 := by
  induction left using Nat.strongRecOn generalizing d with
  | ind left ih =>
      by_cases hleft : left = 0
      · rw [calcLoop, dif_pos hleft]
        exact h
      have hbuffer : emitBufferSize = 40960 := rfl
      have hblocks := readFile_blocks o file d (min left emitBufferSize)
      rw [calcLoop, dif_neg hleft]
      dsimp only
      rcases hread : readFile o file d (min left emitBufferSize) with ⟨data, d'⟩
      rw [hread] at hblocks
      have hsmall : Small d' := fun b hb => h b (hblocks ▸ hb)
      cases data with
      | none => exact hsmall
      | some data =>
          dsimp only
          split
          · exact hsmall
          · rename_i hfull
            refine ih _ (by omega) _ (fun b hb => ?_)
            rcases List.mem_append.mp hb with hb | hb
            · exact hsmall b hb
            · rw [List.mem_singleton.mp hb]
              omega

theorem calculate_small (o : IoOutcomes) (file : List UInt8) (Offset size : Nat) (d : Handle)
    (h : Small d) : Small (calculate o file Offset size d).2 := by
  rw [calculate, setFilePointerEx]
  by_cases hseek : o.seekOk d.calls = false ∨ (Offset : Int) < 0
  · rw [if_pos hseek]
    exact h
  · rw [if_neg hseek]
    exact calcLoop_small o file _ _ h

theorem calculateAll_small (o : IoOutcomes) (file : List UInt8) (ps : List (Nat × Nat))
    (d : Handle) (h : Small d) : Small (calculateAll o file ps d).2 := by
  induction ps generalizing d with
  | nil => exact h
  | cons p ps ih =>
      have hfirst := calculate_small o file p.1 p.2 d h
      rw [calculateAll]
      rcases hcalc : calculate o file p.1 p.2 d with ⟨ok, d'⟩
      rw [hcalc] at hfirst
      cases ok with
      | false => exact hfirst
      | true => exact ih d' hfirst

/-- The blocks fit in the buffer, whatever the calls come to. -/
theorem emit_small (o : IoOutcomes) (file : List UInt8) (rs : List ExcludeRange) (Size : Nat)
    (d : Handle) (h : Small d) : Small (emit o file rs Size d).2 := by
  rw [emit]
  split
  · exact h
  · rw [emitLoop_eq]
    exact calculateAll_small o file _ d h

theorem stream_small (o : IoOutcomes) (file : List UInt8) (bForce : Bool) :
    ∀ b ∈ (auImageGetDigestStream o file [] bForce).blocks, b.length ≤ emitBufferSize := by
  have hnil := emitStart_blocks o file bForce
  rw [auImageGetDigestStream_eq]
  rcases hstart : emitStart o file bForce with ⟨rc | rs, d⟩
  · rw [hstart] at hnil
    intro b hb
    have hempty : b ∈ ([] : List (List UInt8)) := hnil ▸ hb
    exact absurd hempty List.not_mem_nil
  · rw [hstart] at hnil
    have hsmall : Small d := fun b hb => by
      rw [hnil] at hb
      exact absurd hb List.not_mem_nil
    exact emit_small o file rs _ d hsmall

/-- The two functions give the same result and the same digest, on every file
    and whatever the calls come to, if the library's function is SHA-1. -/
theorem imageDigest_agrees (ctx : Sha1Ctx) (hctx : ctx.buffer.length = 64) (opened : Bool)
    (o : IoOutcomes) (file digest : List UInt8) (bForce : Bool) :
    imageDigestCalcExt ctx opened o file digest bForce
      = imageDigestCalcExtBySHA1Lib fipsSha1 opened o file digest bForce := by
  have hsmall := stream_small o file bForce
  have hbuffer : emitBufferSize = 40960 := rfl
  have hlength : ∀ b ∈ (auImageGetDigestStream o file [] bForce).blocks,
      b.length < 4294967296 := by
    intro b hb
    have := hsmall b hb
    omega
  have hdigest := sha1Finish_eq _ _ (tookSha1_foldl ctx hctx _ hlength)
  rw [imageDigestCalcExt, imageDigestCalcExtBySHA1Lib]
  split
  · rfl
  · dsimp only
    rw [← hdigest]
    rfl

theorem imageDigest_agrees_noStub :
    imageDigestCalcExt Sha1Ctx.fresh true goodOutcomes noStub (List.replicate 20 0) true
      = imageDigestCalcExtBySHA1Lib fipsSha1 true goodOutcomes noStub (List.replicate 20 0) true :=
  imageDigest_agrees Sha1Ctx.fresh rfl true goodOutcomes noStub (List.replicate 20 0) true

end Pe

end Defender
