import Defender.Lib.CString

/-!
# The Serial Number of a Disk

`flipAndCodeBytes` makes a text of what a disk answers. Some disks send the
number in hexadecimal, and some with each pair of characters swapped. So the
text is read as hexadecimal digits first, a space being a zero. If there is
another character, or if two digits make a character that cannot be printed,
the text is taken as it stands, and if that cannot be printed either there is
none. Then the pairs are swapped if the caller asks for it, and the spaces at
both ends are taken away.

All of it happens in one buffer, in loops that overwrite what they have read.
What comes out is said here without a buffer. A text of an odd length loses its
last character when it is swapped, since that trades places with the terminator,
and a text of spaces only is left as it is.

What the functions of `ctype.h` answer for a character that is not ASCII is
left open, since the characters are signed here. The results hold whatever that
is.

## Main definitions

* `Ctype`: The functions of `ctype.h`.
* `hexLoop`, `rawLoop`, `flipLoop`, `scanSpaces`, `moveDown`: The loops.
* `flipAndCodeBytes`: All of it.
* `decodeText`, `serialText`, `flipPairs`, `trimSpaces`: What comes out.

## Theorems

* `hexLoop_eq`, `rawLoop_eq`, `flipLoop_eq`, `scanSpaces_eq`, `moveDown_eq`: One
  lemma for each loop.
* `flipAndCodeBytes_eq`: What comes out, inside the buffer.
* `serial_comes_back`: A number that was swapped and encoded comes back.
-/

namespace Defender

namespace Disk

open CString

/-- The functions of `ctype.h`, of which the C locale decides for ASCII. -/
structure Ctype where
  isspace : UInt8 → Bool
  isprint : UInt8 → Bool
  tolower : UInt8 → UInt8
  isspace_ascii : ∀ c < 128, isspace c = (c == 32 || decide (9 ≤ c ∧ c ≤ 13))
  isprint_ascii : ∀ c < 128, isprint c = decide (32 ≤ c ∧ c ≤ 126)
  tolower_ascii : ∀ c < 128, tolower c = if 65 ≤ c ∧ c ≤ 90 then c + 32 else c

variable (ct : Ctype)

/-! ### The function -/

/-- The value of a digit, of a character in lower case. -/
def hexDigit (c : UInt8) : Option UInt8 :=
  if 48 ≤ c ∧ c ≤ 57 then some (c - 48)
  else if 97 ≤ c ∧ c ≤ 102 then some (c - 97 + 10)
  else none

/-- The character of the loop over the digits: in lower case, and `0` for a
    space. -/
def digitChar (ch : UInt8) : UInt8 :=
  if ct.isspace (ct.tolower ch) then 48 else ct.tolower ch

/-- The loop over the digits: `p` of them are in the character at `k`. -/
def hexLoop : List UInt8 → Nat → Nat → List UInt8 → Except Fault (Bool × Nat × List UInt8)
  | [], _, k, buf => .ok (true, k, buf)
  | ch :: text, p, k, buf => do
      let buf ← store buf k (buf.getD k 0 <<< 4)
      match hexDigit (digitChar ct ch) with
      | none => .ok (false, k, buf)
      | some digit =>
          let buf ← store buf k (buf.getD k 0 ||| digit)
          if p + 1 = 2 then
            if buf.getD k 0 ≠ 0 ∧ ct.isprint (buf.getD k 0) = false then .ok (false, k, buf)
            else do
              let buf ← store buf (k + 1) 0
              hexLoop text 0 (k + 1) buf
          else hexLoop text (p + 1) k buf

/-- The loop that takes the characters as they are. -/
def rawLoop : List UInt8 → Nat → List UInt8 → Except Fault (Bool × Nat × List UInt8)
  | [], k, buf => .ok (true, k, buf)
  | c :: text, k, buf =>
      if ct.isprint c = false then .ok (false, k, buf)
      else do
        let buf ← store buf k c
        rawLoop text (k + 1) buf

/-- `n` passes of the loop that swaps, from `j` on. -/
def flipLoop : Nat → Nat → List UInt8 → Except Fault (List UInt8)
  | 0, _, buf => .ok buf
  | n + 1, j, buf => do
      let t := buf.getD j 0
      let buf ← store buf j (buf.getD (j + 1) 0)
      let buf ← store buf (j + 1) t
      flipLoop n (j + 2) buf

/-- The loop that looks for the first and the last character that is no space,
    where `none` is `-1`. -/
def scanSpaces : List UInt8 → Nat → Option Nat → Option Nat → Option Nat × Option Nat
  | [], _, i, j => (i, j)
  | c :: s, k, i, j =>
      if ct.isspace c then scanSpaces s (k + 1) i j
      else scanSpaces s (k + 1) (if i = none then some k else i) (some k)

/-- `n` passes of the loop that moves the text to the beginning, from `k` on. -/
def moveDown (i j : Nat) : Nat → Nat → List UInt8 → Except Fault (Nat × List UInt8)
  | 0, k, buf => .ok (k, buf)
  | n + 1, k, buf =>
      if k ≤ j ∧ buf.getD k 0 ≠ 0 then do
        let buf ← store buf (k - i) (buf.getD k 0)
        moveDown i j n (k + 1) buf
      else .ok (k, buf)

/-- The end of `flipAndCodeBytes`, where the spaces are taken away. -/
def trimBuffer (buf : List UInt8) : Except Fault (List UInt8) :=
  if 0 ∉ buf then .error .overrun
  else
    match scanSpaces ct (cstr buf) 0 none none with
    | (some i, some j) => do
        let (k, buf) ← moveDown i j (j + 1 - i) i buf
        store buf (k - i) 0
    | _ => .ok buf

/-- The part of `flipAndCodeBytes` that fills the buffer: how many characters
    there are, and the buffer. -/
def gather (text buf : List UInt8) : Except Fault (Nat × List UInt8) := do
  let buf ← store buf 0 0
  let (j, k, buf) ← hexLoop ct text 0 0 buf
  let (j, k, buf) ← if j then .ok (true, k, buf) else rawLoop ct text 0 buf
  let k := if j then k else 0
  let buf ← store buf k 0
  .ok (k, buf)

/-- `flipAndCodeBytes`. The text at `pos` has to end inside `str`. -/
def flipAndCodeBytes (str : List UInt8) (pos : Int) (flip : Bool) (buf : List UInt8) :
    Except Fault (List UInt8) := do
  let buf ← store buf 0 0
  if pos ≤ 0 then .ok buf
  else if 0 ∉ str.drop pos.toNat then .error .overrun
  else do
    let (k, buf) ← gather ct (cstr (str.drop pos.toNat)) buf
    let buf ← if flip then flipLoop ((k + 1) / 2) 0 buf else .ok buf
    trimBuffer ct buf

/-! ### What comes out -/

/-- Digits two by two; an odd one is left out. -/
def decodeText : List UInt8 → Option (List UInt8)
  | [] => some []
  | [a] => (hexDigit (digitChar ct a)).map fun _ => []
  | a :: b :: text =>
      match hexDigit (digitChar ct a), hexDigit (digitChar ct b) with
      | some x, some y =>
          if x <<< 4 ||| y ≠ 0 ∧ ct.isprint (x <<< 4 ||| y) = false then none
          else (decodeText text).map ((x <<< 4 ||| y) :: ·)
      | _, _ => none

/-- The text that is made of a text. -/
def serialText (text : List UInt8) : List UInt8 :=
  match decodeText ct text with
  | some s => s
  | none => if text.all ct.isprint then text else []

/-- The characters swapped two by two; an odd one is lost. -/
def flipPairs : List UInt8 → List UInt8
  | a :: b :: s => b :: a :: flipPairs s
  | _ => []

/-- Without the spaces at both ends, unless there is nothing else. -/
def trimSpaces (s : List UInt8) : List UInt8 :=
  if s.all ct.isspace then s
  else ((s.dropWhile ct.isspace).reverse.dropWhile ct.isspace).reverse

/-! ### The loops -/

theorem getD_append_length (out rest : List UInt8) (x : UInt8) :
    (out ++ x :: rest).getD out.length 0 = x := by
  rw [List.getD_eq_getElem?_getD, List.getElem?_append_right (Nat.le_refl _), Nat.sub_self]
  rfl

/-- A character is stored behind what is done. -/
theorem store_append_length (out rest : List UInt8) (x a : UInt8) :
    store (out ++ x :: rest) out.length a = .ok (out ++ a :: rest) := by
  rw [store_eq_ok a (by rw [List.length_append, List.length_cons]; omega),
    List.set_append_right _ _ (Nat.le_refl _), Nat.sub_self, List.set_cons_zero]

/-- One pass of the loop over the digits. -/
theorem hexLoop_digit (ch : UInt8) (text : List UInt8) (p : Nat) (out rest : List UInt8)
    (x digit : UInt8) (h : hexDigit (digitChar ct ch) = some digit) :
    hexLoop ct (ch :: text) p out.length (out ++ x :: rest) =
      if p + 1 = 2 then
        if x <<< 4 ||| digit ≠ 0 ∧ ct.isprint (x <<< 4 ||| digit) = false then
          .ok (false, out.length, out ++ (x <<< 4 ||| digit) :: rest)
        else store (out ++ (x <<< 4 ||| digit) :: rest) (out.length + 1) 0
          >>= hexLoop ct text 0 (out.length + 1)
      else hexLoop ct text (p + 1) out.length (out ++ (x <<< 4 ||| digit) :: rest) := by
  rw [hexLoop, getD_append_length, store_append_length, ok_bind, h]
  simp only [getD_append_length, store_append_length, ok_bind]

/-- At a character that is no digit the loop ends. -/
theorem hexLoop_other (ch : UInt8) (text : List UInt8) (p : Nat) (out rest : List UInt8)
    (x : UInt8) (h : hexDigit (digitChar ct ch) = none) :
    hexLoop ct (ch :: text) p out.length (out ++ x :: rest)
      = .ok (false, out.length, out ++ (x <<< 4) :: rest) := by
  rw [hexLoop, getD_append_length, store_append_length, ok_bind, h]

/-- Two digits make a character. -/
theorem hexLoop_pair (a b : UInt8) (text out rest : List UInt8) (x y : UInt8)
    (ha : hexDigit (digitChar ct a) = some x) (hb : hexDigit (digitChar ct b) = some y) :
    hexLoop ct (a :: b :: text) 0 out.length (out ++ 0 :: rest) =
      if x <<< 4 ||| y ≠ 0 ∧ ct.isprint (x <<< 4 ||| y) = false then
        .ok (false, out.length, out ++ (x <<< 4 ||| y) :: rest)
      else store (out ++ (x <<< 4 ||| y) :: rest) (out.length + 1) 0
        >>= hexLoop ct text 0 (out.length + 1) := by
  rw [hexLoop_digit ct a (b :: text) 0 out rest 0 x ha, if_neg (by decide), UInt8.zero_shiftLeft,
    UInt8.zero_or, hexLoop_digit ct b text (0 + 1) out rest x y hb, if_pos rfl]

/-- The loop over the digits leaves what the text decodes to, and behind it a
    character of no matter. -/
theorem hexLoop_eq (text out rest : List UInt8) (hroom : text.length ≤ rest.length) :
    (∀ s, decodeText ct text = some s → ∃ x rest',
        hexLoop ct text 0 out.length (out ++ 0 :: rest)
          = .ok (true, (out ++ s).length, out ++ s ++ x :: rest') ∧
        (s ++ rest').length = rest.length) ∧
      (decodeText ct text = none → ∃ k buf,
        hexLoop ct text 0 out.length (out ++ 0 :: rest) = .ok (false, k, buf) ∧
        buf.length = (out ++ 0 :: rest).length) := by
  induction text using decodeText.induct ct generalizing out rest with
  | case1 =>
      refine ⟨fun s hs => ?_, fun h => absurd h (by simp only [decodeText, reduceCtorEq,
        not_false_eq_true])⟩
      rw [decodeText, Option.some.injEq] at hs
      subst hs
      rw [List.append_nil]
      exact ⟨0, rest, rfl, rfl⟩
  | case2 a =>
      rw [decodeText]
      cases ha : hexDigit (digitChar ct a) with
      | none =>
          refine ⟨fun s hs => absurd hs (by simp only [Option.map_none, reduceCtorEq,
            not_false_eq_true]), fun _ => ⟨_, _, hexLoop_other ct a [] 0 out rest 0 ha, ?_⟩⟩
          simp only [List.length_append, List.length_cons]
      | some x =>
          refine ⟨fun s hs => ?_, fun h => absurd h (by simp only [Option.map_some, reduceCtorEq,
            not_false_eq_true])⟩
          rw [Option.map_some, Option.some.injEq] at hs
          subst hs
          rw [hexLoop_digit ct a [] 0 out rest 0 x ha, if_neg (by decide), List.append_nil]
          exact ⟨_, rest, rfl, rfl⟩
  | case3 a b text x y hb ha hbad =>
      have hnone : decodeText ct (a :: b :: text) = none := by
        rw [decodeText, ha, hb]
        exact if_pos hbad
      rw [hnone, hexLoop_pair ct a b text out rest x y ha hb, if_pos hbad]
      refine ⟨fun s hs => absurd hs (by simp only [reduceCtorEq, not_false_eq_true]),
        fun _ => ⟨_, _, rfl, ?_⟩⟩
      simp only [List.length_append, List.length_cons]
  | case4 a b text x y hb ha hgood ih =>
      have hsome : decodeText ct (a :: b :: text)
          = (decodeText ct text).map ((x <<< 4 ||| y) :: ·) := by
        rw [decodeText, ha, hb]
        exact if_neg hgood
      rw [hsome, hexLoop_pair ct a b text out rest x y ha hb, if_neg hgood]
      cases rest with
      | nil =>
          rw [List.length_nil, List.length_cons] at hroom
          omega
      | cons z rest =>
          -- The character is done, and the next one begins with a zero.
          have hnext : store (out ++ (x <<< 4 ||| y) :: z :: rest) (out.length + 1) 0
              = .ok (out ++ [x <<< 4 ||| y] ++ 0 :: rest) := by
            have h := store_append_length (out ++ [x <<< 4 ||| y]) rest z 0
            rw [List.append_assoc, List.length_append] at h
            exact h
          have hlen : out.length + 1 = (out ++ [x <<< 4 ||| y]).length := by
            rw [List.length_append, List.length_singleton]
          rw [hnext, ok_bind, hlen]
          have hmore := ih (out ++ [x <<< 4 ||| y]) rest (by
            simp only [List.length_cons] at hroom
            omega)
          refine ⟨fun s hs => ?_, fun h => ?_⟩
          · rcases Option.map_eq_some_iff.mp hs with ⟨s', hs', rfl⟩
            rcases hmore.1 s' hs' with ⟨w, rest', hloop, hrest⟩
            rw [hloop, List.append_assoc out, List.singleton_append]
            refine ⟨w, rest', rfl, ?_⟩
            rw [List.cons_append, List.length_cons, List.length_cons, hrest]
          · rcases hmore.2 (Option.map_eq_none_iff.mp h) with ⟨k, buf, hloop, hbuf⟩
            refine ⟨k, buf, hloop, hbuf.trans ?_⟩
            simp only [List.length_append, List.length_cons, List.length_nil]
            omega
  | case5 a b text h =>
      have hnone : decodeText ct (a :: b :: text) = none := by
        unfold decodeText
        split
        · next x y ha hb => exact absurd hb (fun hb => h x y ha hb)
        · rfl
      rw [hnone]
      refine ⟨fun s hs => absurd hs (by simp only [reduceCtorEq, not_false_eq_true]), fun _ => ?_⟩
      have hlength : ∀ c, (out ++ c :: rest).length = (out ++ 0 :: rest).length := by
        intro c
        simp only [List.length_append, List.length_cons]
      cases ha : hexDigit (digitChar ct a) with
      | none => exact ⟨_, _, hexLoop_other ct a _ 0 out rest 0 ha, hlength _⟩
      | some x =>
          cases hb : hexDigit (digitChar ct b) with
          | some y => exact absurd hb (fun hb => h x y ha hb)
          | none =>
              refine ⟨out.length, out ++ (((0 : UInt8) <<< 4 ||| x) <<< 4) :: rest, ?_, hlength _⟩
              rw [hexLoop_digit ct a (b :: text) 0 out rest 0 x ha, if_neg (by decide)]
              exact hexLoop_other ct b text (0 + 1) out rest _ hb

/-- The other loop leaves the text, if it can be printed. -/
theorem rawLoop_eq (text out rest : List UInt8) (hroom : text.length ≤ rest.length) :
    (text.all ct.isprint = true → rawLoop ct text out.length (out ++ rest)
        = .ok (true, (out ++ text).length, out ++ text ++ rest.drop text.length)) ∧
      (text.all ct.isprint = false → ∃ k buf,
        rawLoop ct text out.length (out ++ rest) = .ok (false, k, buf) ∧
        buf.length = (out ++ rest).length) := by
  induction text generalizing out rest with
  | nil =>
      refine ⟨fun _ => ?_, fun h => absurd h (by simp only [List.all_nil, Bool.true_eq_false,
        not_false_eq_true])⟩
      rw [rawLoop, List.append_nil, List.length_nil, List.drop_zero]
  | cons c text ih =>
      cases rest with
      | nil =>
          rw [List.length_nil, List.length_cons] at hroom
          omega
      | cons z rest =>
          rw [List.all_cons]
          cases hc : ct.isprint c with
          | false =>
              -- A byte that cannot be printed ends the loop where it is.
              refine ⟨fun h => absurd h Bool.false_ne_true, fun _ => ⟨out.length, _, ?_, rfl⟩⟩
              rw [rawLoop, if_pos hc]
          | true =>
              -- The byte is stored, and the others by induction.
              have hone : out.length + 1 = (out ++ [c]).length := by
                rw [List.length_append, List.length_singleton]
              have hloop : rawLoop ct (c :: text) out.length (out ++ z :: rest)
                  = rawLoop ct text (out ++ [c]).length (out ++ [c] ++ rest) := by
                rw [rawLoop, if_neg (by rw [hc]; decide), store_append_length, ok_bind, hone,
                  List.append_assoc, List.singleton_append]
              have hmore := ih (out ++ [c]) rest (by
                simp only [List.length_cons] at hroom
                omega)
              rw [hloop, Bool.true_and]
              refine ⟨fun h => ?_, fun h => ?_⟩
              · rw [hmore.1 h, List.append_assoc out, List.singleton_append, List.length_cons,
                  List.drop_succ_cons]
              · rcases hmore.2 h with ⟨k, buf, hrun, hbuf⟩
                refine ⟨k, buf, hrun, hbuf.trans ?_⟩
                simp only [List.length_append, List.length_cons, List.length_nil]
                omega

/-- One pass of the loop that swaps. -/
theorem flipLoop_pair (n : Nat) (out rest : List UInt8) (a b : UInt8) :
    flipLoop (n + 1) out.length (out ++ a :: b :: rest)
      = flipLoop n (out ++ [b, a]).length (out ++ [b, a] ++ rest) := by
  have hlen : out.length + 1 = (out ++ [b]).length := by
    rw [List.length_append, List.length_singleton]
  have hsecond : (out ++ a :: b :: rest).getD (out.length + 1) 0 = b := by
    have h := getD_append_length (out ++ [a]) rest b
    rw [List.length_append, List.append_assoc] at h
    exact h
  have hstore := store_append_length (out ++ [b]) rest b a
  rw [← hlen, List.append_assoc, List.append_assoc, List.singleton_append,
    List.singleton_append] at hstore
  rw [flipLoop, getD_append_length, hsecond, store_append_length, ok_bind, hstore, ok_bind,
    List.length_append, List.append_assoc]
  rfl

/-- The loop that swaps leaves the pairs swapped, and a terminator behind them. -/
theorem flipLoop_eq (s out rest : List UInt8) :
    ∃ rest', flipLoop ((s.length + 1) / 2) out.length (out ++ (s ++ 0 :: rest))
      = .ok (out ++ (flipPairs s ++ 0 :: rest')) ∧
        (flipPairs s ++ 0 :: rest').length = (s ++ 0 :: rest).length := by
  induction s using flipPairs.induct generalizing out with
  | case1 a b s ih =>
      have hcount : ((a :: b :: s).length + 1) / 2 = (s.length + 1) / 2 + 1 := by
        simp only [List.length_cons]
        omega
      rcases ih (out ++ [b, a]) with ⟨rest', hloop, hlength⟩
      refine ⟨rest', ?_, ?_⟩
      · rw [hcount, List.cons_append, List.cons_append, flipLoop_pair, hloop, List.append_assoc]
        rfl
      · simp only [flipPairs, List.cons_append, List.length_cons, hlength]
  | case2 s h =>
      cases s with
      | nil => exact ⟨rest, rfl, rfl⟩
      | cons a s =>
          cases s with
          | cons b s => exact absurd rfl (h a b s)
          | nil =>
              -- The last character trades places with the terminator.
              refine ⟨a :: rest, ?_, rfl⟩
              rw [show ([a].length + 1) / 2 = 0 + 1 by rw [List.length_singleton],
                List.singleton_append,
                flipLoop_pair, flipLoop, List.append_assoc]
              rfl

/-! ### The spaces -/

theorem scanSpaces_spaces (s : List UInt8) (h : s.all ct.isspace = true) (k : Nat)
    (i j : Option Nat) : scanSpaces ct s k i j = (i, j) := by
  induction s generalizing k with
  | nil => rfl
  | cons c s ih =>
      rw [List.all_cons, Bool.and_eq_true] at h
      rw [scanSpaces, if_pos h.1]
      exact ih h.2 (k + 1)

theorem scanSpaces_append (s t : List UInt8) (k : Nat) (i j : Option Nat) :
    scanSpaces ct (s ++ t) k i j
      = scanSpaces ct t (k + s.length) (scanSpaces ct s k i j).1 (scanSpaces ct s k i j).2 := by
  induction s generalizing k i j with
  | nil => rfl
  | cons c s ih =>
      have hk : k + (c :: s).length = k + 1 + s.length := by
        rw [List.length_cons]
        omega
      rw [List.cons_append, hk]
      by_cases hc : ct.isspace c = true
      · rw [scanSpaces, if_pos hc, ih, scanSpaces, if_pos hc]
      · rw [scanSpaces, if_neg hc, ih, scanSpaces, if_neg hc]

/-- The first character that is no space stays the first. -/
theorem scanSpaces_first (s : List UInt8) (k x : Nat) (j : Option Nat) :
    (scanSpaces ct s k (some x) j).1 = some x := by
  induction s generalizing k j with
  | nil => rfl
  | cons c s ih =>
      by_cases hc : ct.isspace c = true
      · rw [scanSpaces, if_pos hc, ih]
      · rw [scanSpaces, if_neg hc, if_neg (by simp only [reduceCtorEq, not_false_eq_true]), ih]

/-- What is left when the spaces at the beginning are dropped begins with
    something else. -/
theorem exists_dropWhile (s : List UInt8) (h : s.all ct.isspace = false) :
    ∃ c m, s.dropWhile ct.isspace = c :: m ∧ ct.isspace c = false := by
  have hne : s.dropWhile ct.isspace ≠ [] := by
    intro hnil
    rw [List.dropWhile_eq_nil_iff] at hnil
    exact absurd (h.symm.trans (List.all_eq_true.mpr hnil)) Bool.false_ne_true
  have hhead := List.head_dropWhile_not ct.isspace hne
  rcases List.exists_cons_of_ne_nil hne with ⟨c, m, hcm⟩
  simp only [hcm, List.head_cons] at hhead
  exact ⟨c, m, hcm, hhead⟩

/-- A text is spaces, what begins and ends with something else, and spaces. -/
theorem exists_trimmed (s : List UInt8) (h : s.all ct.isspace = false) :
    ∃ a b, a.all ct.isspace = true ∧ b.all ct.isspace = true ∧ s = a ++ (trimSpaces ct s ++ b) ∧
      (∃ c m, trimSpaces ct s = c :: m ∧ ct.isspace c = false) ∧
      ∃ m c, trimSpaces ct s = m ++ [c] ∧ ct.isspace c = false := by
  have htake : ∀ t : List UInt8, (t.takeWhile ct.isspace).all ct.isspace = true :=
    fun t => List.all_takeWhile
  rcases exists_dropWhile ct s h with ⟨c, m, hcm, hc⟩
  have hrest : (s.dropWhile ct.isspace).reverse.all ct.isspace = false := by
    rw [List.all_reverse, hcm, List.all_cons, hc, Bool.false_and]
  rcases exists_dropWhile ct _ hrest with ⟨c', m', hcm', hc'⟩
  have htrim : trimSpaces ct s = m'.reverse ++ [c'] := by
    rw [trimSpaces, h, if_neg Bool.false_ne_true, hcm', List.reverse_cons]
  -- The rest behind the spaces is what is left of it and the spaces at its end.
  have hsplit : s.dropWhile ct.isspace = trimSpaces ct s
      ++ ((s.dropWhile ct.isspace).reverse.takeWhile ct.isspace).reverse := by
    rw [htrim, ← List.reverse_cons, ← hcm', ← List.reverse_append, List.takeWhile_append_dropWhile,
      List.reverse_reverse]
  refine ⟨s.takeWhile ct.isspace, ((s.dropWhile ct.isspace).reverse.takeWhile ct.isspace).reverse,
    htake s, ?_, ?_, ?_, m'.reverse, c', htrim, hc'⟩
  · rw [List.all_reverse]
    exact htake (s.dropWhile ct.isspace).reverse
  · rw [← hsplit, List.takeWhile_append_dropWhile]
  · cases hm : trimSpaces ct s with
    | nil =>
        rw [htrim] at hm
        exact absurd hm (List.append_ne_nil_of_right_ne_nil _ (List.cons_ne_nil _ _))
    | cons d n =>
        rw [hm, hcm, List.cons_append, List.cons.injEq] at hsplit
        exact ⟨d, n, rfl, hsplit.1 ▸ hc⟩

/-- What the loop finds: the first and the last character that is no space. -/
theorem scanSpaces_eq (s : List UInt8) (h : s.all ct.isspace = false) :
    ∃ a b m c, s = a ++ (trimSpaces ct s ++ b) ∧ trimSpaces ct s = m ++ [c] ∧
      scanSpaces ct s 0 none none = (some a.length, some (a.length + m.length)) := by
  rcases exists_trimmed ct s h with ⟨a, b, ha, hb, hs, ⟨c, m, hfirst, hc⟩, m', c', hlast, hc'⟩
  refine ⟨a, b, m', c', hs, hlast, ?_⟩
  have hi : (scanSpaces ct (trimSpaces ct s) a.length none none).1 = some a.length := by
    rw [hfirst, scanSpaces, if_neg (by rw [hc]; decide), if_pos rfl]
    exact scanSpaces_first ct m _ _ _
  have hj : (scanSpaces ct (trimSpaces ct s) a.length none none).2
      = some (a.length + m'.length) := by
    rw [hlast, scanSpaces_append, scanSpaces, if_neg (by rw [hc']; decide)]
    rfl
  rw [hs, scanSpaces_append, scanSpaces_spaces ct a ha, Nat.zero_add]
  dsimp only
  rw [scanSpaces_append, hi, hj, scanSpaces_spaces ct b hb]

/-- The loop that moves the text leaves it behind what is there. -/
theorem moveDown_eq (i j n : Nat) (out mid : List UInt8) (hroom : i + n ≤ mid.length)
    (hend : i + out.length + n ≤ j + 1) (hnonzero : 0 ∉ (mid.drop i).take n) :
    moveDown i j n (i + out.length) (out ++ mid)
      = .ok (i + out.length + n, out ++ (mid.drop i).take n ++ mid.drop n) := by
  induction n generalizing out mid with
  | zero => rw [moveDown, List.take_zero, List.drop_zero, List.append_nil, Nat.add_zero]
  | succ n ih =>
      cases mid with
      | nil =>
          rw [List.length_nil] at hroom
          omega
      | cons y mid =>
          rw [List.length_cons] at hroom
          have hlt : i < (y :: mid).length := by
            rw [List.length_cons]
            omega
          have hdrop : (y :: mid).drop i = (y :: mid)[i] :: mid.drop i := by
            rw [List.drop_eq_getElem_cons hlt, List.drop_succ_cons]
          have hread : (out ++ y :: mid).getD (i + out.length) 0 = (y :: mid)[i] := by
            rw [List.getD_eq_getElem?_getD, List.getElem?_append_right (Nat.le_add_left _ _),
              Nat.add_sub_cancel, List.getElem?_eq_getElem hlt, Option.getD_some]
          rw [hdrop, List.take_succ_cons, List.mem_cons, not_or] at hnonzero
          have hlen : i + out.length + 1 = i + (out ++ [(y :: mid)[i]]).length := by
            rw [List.length_append, List.length_singleton, Nat.add_assoc]
          rw [moveDown, hread, if_pos ⟨by omega, fun h => hnonzero.1 h.symm⟩,
            Nat.add_sub_cancel_left, store_append_length, ok_bind, hlen]
          -- What is read next has not been written yet.
          have hmore := ih (out ++ [(y :: mid)[i]]) mid (by omega) (by
            rw [← hlen]
            omega) hnonzero.2
          rw [List.append_assoc, List.singleton_append] at hmore
          rw [hmore, ← hlen, hdrop, List.take_succ_cons, List.drop_succ_cons, List.append_assoc,
            List.append_assoc, List.append_assoc, List.singleton_append, List.cons_append]
          refine congrArg (fun k => Except.ok (k, _)) ?_
          omega

/-! ### What comes out -/

/-- The buffer is filled with the text that is made of the text. -/
theorem gather_eq (text buf : List UInt8) (hroom : text.length < buf.length) :
    ∃ rest, gather ct text buf
        = .ok ((serialText ct text).length, serialText ct text ++ 0 :: rest) ∧
      (serialText ct text ++ 0 :: rest).length = buf.length := by
  cases buf with
  | nil =>
      rw [List.length_nil] at hroom
      omega
  | cons z tail =>
      rw [List.length_cons] at hroom
      have hfirst := store_append_length [] tail z 0
      rw [List.nil_append, List.length_nil, List.nil_append] at hfirst
      have hhex := hexLoop_eq ct text [] tail (by omega)
      simp only [List.nil_append, List.length_nil] at hhex
      cases hdecode : decodeText ct text with
      | some s =>
          rcases hhex.1 s hdecode with ⟨x, rest', hloop, hlength⟩
          have htext : serialText ct text = s := by
            rw [serialText, hdecode]
          rw [htext]
          refine ⟨rest', ?_, ?_⟩
          · rw [gather, hfirst, ok_bind, hloop, ok_bind]
            dsimp only
            rw [if_pos rfl, ok_bind]
            dsimp only
            rw [if_pos rfl, store_append_length, ok_bind]
          · rw [List.length_append] at hlength ⊢
            rw [List.length_cons, List.length_cons]
            omega
      | none =>
          rcases hhex.2 hdecode with ⟨k, buf, hloop, hlength⟩
          rw [List.length_cons] at hlength
          have hraw := rawLoop_eq ct text [] buf (by omega)
          simp only [List.nil_append, List.length_nil] at hraw
          have htext : serialText ct text = if text.all ct.isprint then text else [] := by
            rw [serialText, hdecode]
          rw [htext]
          cases hall : text.all ct.isprint with
          | true =>
              -- One more character has room behind the text.
              have hdrop : buf.drop text.length ≠ [] := by
                rw [ne_eq, List.drop_eq_nil_iff]
                omega
              rcases List.exists_cons_of_ne_nil hdrop with ⟨x, rest', hrest⟩
              refine ⟨rest', ?_, ?_⟩
              · rw [gather, hfirst, ok_bind, hloop, ok_bind]
                dsimp only
                rw [if_neg Bool.false_ne_true, hraw.1 hall, ok_bind, hrest]
                dsimp only
                rw [if_pos rfl, store_append_length, ok_bind]
                rfl
              · have hlen := congrArg List.length hrest
                rw [List.length_drop, List.length_cons] at hlen
                rw [if_pos rfl, List.length_append, List.length_cons, List.length_cons]
                omega
          | false =>
              rcases hraw.2 hall with ⟨k', buf', hloop', hlength'⟩
              cases buf' with
              | nil =>
                  rw [List.length_nil] at hlength'
                  omega
              | cons y rest' =>
                  have hlast := store_append_length [] rest' y 0
                  rw [List.nil_append, List.length_nil, List.nil_append] at hlast
                  refine ⟨rest', ?_, ?_⟩
                  · rw [gather, hfirst, ok_bind, hloop, ok_bind]
                    dsimp only
                    rw [if_neg Bool.false_ne_true, hloop', ok_bind]
                    dsimp only
                    rw [if_neg Bool.false_ne_true, hlast, ok_bind]
                    rfl
                  · rw [List.length_cons] at hlength'
                    rw [if_neg Bool.false_ne_true, List.nil_append, List.length_cons,
                      List.length_cons]
                    omega

/-- The spaces are taken away from the text in the buffer. -/
theorem trimBuffer_eq (s rest : List UInt8) (hs : 0 ∉ s) :
    ∃ buf, trimBuffer ct (s ++ 0 :: rest) = .ok buf ∧
      buf.length = (s ++ 0 :: rest).length ∧ cstr buf = trimSpaces ct s := by
  have hzero : ¬ 0 ∉ s ++ 0 :: rest :=
    not_not.mpr (List.mem_append_right s List.mem_cons_self)
  have hcstr : cstr (s ++ 0 :: rest) = s := by
    have h := cstr_append_zero hs rest
    rwa [List.append_assoc, List.singleton_append] at h
  rw [trimBuffer, if_neg hzero, hcstr]
  cases hall : s.all ct.isspace with
  | true =>
      rw [scanSpaces_spaces ct s hall]
      refine ⟨_, rfl, rfl, ?_⟩
      rw [hcstr, trimSpaces, if_pos hall]
  | false =>
      rcases scanSpaces_eq ct s hall with ⟨a, b, m, c, hsplit, htrim, hscan⟩
      rw [hscan]
      dsimp only
      have hlen : (trimSpaces ct s).length = a.length + m.length + 1 - a.length := by
        rw [htrim, List.length_append, List.length_singleton]
        omega
      have hbuf : s ++ 0 :: rest = a ++ (trimSpaces ct s ++ (b ++ 0 :: rest)) := by
        conv_lhs => rw [hsplit, List.append_assoc, List.append_assoc]
      have htaken : ((s ++ 0 :: rest).drop a.length).take (trimSpaces ct s).length
          = trimSpaces ct s := by
        rw [hbuf, List.drop_left, List.take_left]
      have hlength := congrArg List.length hsplit
      rw [List.length_append, List.length_append] at hlength
      have htotal : (s ++ 0 :: rest).length = s.length + rest.length + 1 := by
        rw [List.length_append, List.length_cons, Nat.add_assoc]
      have hnonzero : 0 ∉ trimSpaces ct s := by
        intro hmem
        rw [hsplit] at hs
        exact hs (List.mem_append_right a (List.mem_append_left b hmem))
      have hmove := moveDown_eq a.length (a.length + m.length) (trimSpaces ct s).length []
        (s ++ 0 :: rest) (by omega) (by rw [List.length_nil]; omega) (htaken.symm ▸ hnonzero)
      rw [List.nil_append, List.nil_append, List.length_nil, Nat.add_zero, htaken] at hmove
      -- Behind the text that was moved there is room for the terminator.
      have hdrop : (s ++ 0 :: rest).drop (trimSpaces ct s).length ≠ [] := by
        rw [ne_eq, List.drop_eq_nil_iff]
        omega
      rcases List.exists_cons_of_ne_nil hdrop with ⟨x, rest', hrest⟩
      have hrestLen := congrArg List.length hrest
      rw [List.length_drop, List.length_cons] at hrestLen
      rw [← hlen, hmove, ok_bind]
      dsimp only
      rw [Nat.add_sub_cancel_left, hrest, store_append_length]
      refine ⟨_, rfl, ?_, ?_⟩
      · rw [List.length_append, List.length_cons]
        omega
      · have h := cstr_append_zero hnonzero rest'
        rwa [List.append_assoc, List.singleton_append] at h

/-- What comes out, for every text that ends inside `str` and has room in the
    buffer: the text that is made of it, swapped if asked for, up to the first
    zero and without the spaces at its ends. Everything is written inside the
    buffer. -/
theorem flipAndCodeBytes_eq (str : List UInt8) (pos : Int) (flip : Bool) (buf : List UInt8)
    (hpos : 0 < pos) (hend : 0 ∈ str.drop pos.toNat)
    (hroom : (cstr (str.drop pos.toNat)).length < buf.length) :
    ∃ out, flipAndCodeBytes ct str pos flip buf = .ok out ∧ out.length = buf.length ∧
      cstr out = trimSpaces ct (cstr (if flip then
          flipPairs (serialText ct (cstr (str.drop pos.toNat)))
        else serialText ct (cstr (str.drop pos.toNat)))) := by
  -- A buffer with a terminator is its string, a zero, and something.
  have htrim : ∀ t rest : List UInt8, ∃ out, trimBuffer ct (t ++ 0 :: rest) = .ok out ∧
      out.length = (t ++ 0 :: rest).length ∧ cstr out = trimSpaces ct (cstr t) := by
    intro t rest
    have hnot : 0 ∉ cstr t := by
      intro hmem
      have h := List.mem_takeWhile_imp (show (0 : UInt8) ∈ t.takeWhile (· ≠ 0) from hmem)
      exact absurd rfl (of_decide_eq_true h)
    rcases eq_cstr_append t with ht | ⟨t', ht⟩
    · have h := trimBuffer_eq ct (cstr t) rest hnot
      rw [← ht] at h ⊢
      exact h
    · have h := trimBuffer_eq ct (cstr t) (t' ++ 0 :: rest) hnot
      rw [← List.cons_append, ← List.append_assoc, ← ht] at h
      exact h
  cases buf with
  | nil =>
      rw [List.length_nil] at hroom
      omega
  | cons z tail =>
      have hfirst := store_append_length [] tail z 0
      rw [List.nil_append, List.length_nil, List.nil_append] at hfirst
      rcases gather_eq ct (cstr (str.drop pos.toNat)) (0 :: tail) hroom with
        ⟨rest, hgather, hlength⟩
      rw [flipAndCodeBytes, hfirst, ok_bind, if_neg (by omega), if_neg (not_not.mpr hend), hgather,
        ok_bind]
      dsimp only
      cases flip with
      | false =>
          rcases htrim (serialText ct (cstr (str.drop pos.toNat))) rest with
            ⟨out, hout, hlen, hcstr⟩
          exact ⟨out, hout, hlen.trans hlength, hcstr⟩
      | true =>
          rcases flipLoop_eq (serialText ct (cstr (str.drop pos.toNat))) [] rest with
            ⟨rest', hflip, hflipLen⟩
          simp only [List.nil_append, List.length_nil] at hflip
          rcases htrim (flipPairs (serialText ct (cstr (str.drop pos.toNat)))) rest' with
            ⟨out, hout, hlen, hcstr⟩
          rw [if_pos rfl, hflip, ok_bind]
          exact ⟨out, hout, hlen.trans (hflipLen.trans hlength), hcstr⟩

/-- The C locale, with nothing beyond ASCII. -/
def cLocale : Ctype where
  isspace c := c == 32 || decide (9 ≤ c ∧ c ≤ 13)
  isprint c := decide (32 ≤ c ∧ c ≤ 126)
  tolower c := if 65 ≤ c ∧ c ≤ 90 then c + 32 else c
  isspace_ascii _ _ := rfl
  isprint_ascii _ _ := rfl
  tolower_ascii _ _ := rfl

/-- A text with a character that is no digit, and a space before it. -/
theorem flipAndCodeBytes_eq_plain :
    ∃ out, flipAndCodeBytes cLocale [1, 32, 87, 68, 0] 1 false (List.replicate 6 0) = .ok out ∧
      cstr out = [87, 68] := by
  rcases flipAndCodeBytes_eq cLocale [1, 32, 87, 68, 0] 1 false (List.replicate 6 0) (by decide)
    (by decide) (by decide) with ⟨out, hout, -, hcstr⟩
  exact ⟨out, hout, hcstr.trans (by decide)⟩

/-! ### Numbers that come back -/

/-- The character for a digit. -/
def hexChar (upper : Bool) (n : UInt8) : UInt8 :=
  if n < 10 then 48 + n else if upper then 55 + n else 87 + n

/-- A text in hexadecimal, in either case. -/
def hexEncode (upper : Bool) : List UInt8 → List UInt8
  | [] => []
  | c :: s => hexChar upper (c >>> 4) :: hexChar upper (c &&& 15) :: hexEncode upper s

/-- A character of a number: it can be printed. -/
def Printable (c : UInt8) : Prop :=
  32 ≤ c ∧ c ≤ 126

instance (c : UInt8) : Decidable (Printable c) :=
  inferInstanceAs (Decidable (_ ∧ _))

/-- A character in lower case, of ASCII. -/
def lower (c : UInt8) : UInt8 :=
  if 65 ≤ c ∧ c ≤ 90 then c + 32 else c

/-- An ASCII character is read as the C locale has it. -/
theorem digitChar_ascii (c : UInt8) (h : c < 128) :
    digitChar ct c
      = if lower c == 32 || decide (9 ≤ lower c ∧ lower c ≤ 13) then 48 else lower c := by
  have hlower : lower c < 128 := by
    unfold lower
    split
    · next hc =>
        rw [UInt8.lt_iff_toNat_lt, UInt8.toNat_add]
        rw [UInt8.le_iff_toNat_le, UInt8.le_iff_toNat_le] at hc
        change (c.toNat + 32) % 256 < 128
        have h90 : c.toNat ≤ 90 := hc.2
        omega
    · exact h
  rw [digitChar, ct.tolower_ascii c h, ← lower, ct.isspace_ascii (lower c) hlower]

/-- The characters of the digits are read as them. -/
theorem hexDigit_hexChar (upper : Bool) (n : UInt8) (h : n < 16) :
    hexDigit (digitChar ct (hexChar upper n)) = some n := by
  have hall : ∀ upper : Bool, ∀ i : Fin 16,
      hexChar upper (UInt8.ofNat i.val) < 128 ∧
        hexDigit (if lower (hexChar upper (UInt8.ofNat i.val)) == 32 ||
            decide (9 ≤ lower (hexChar upper (UInt8.ofNat i.val)) ∧
              lower (hexChar upper (UInt8.ofNat i.val)) ≤ 13)
          then 48 else lower (hexChar upper (UInt8.ofNat i.val)))
          = some (UInt8.ofNat i.val) := by
    decide
  have hn := hall upper ⟨n.toNat, UInt8.lt_iff_toNat_lt.mp h⟩
  rw [show UInt8.ofNat n.toNat = n from UInt8.ofNat_toNat] at hn
  rw [digitChar_ascii ct _ hn.1]
  exact hn.2

/-- The two digits of a character. -/
theorem digits_of (c : UInt8) :
    c >>> 4 < 16 ∧ c &&& 15 < 16 ∧ (c >>> 4) <<< 4 ||| c &&& 15 = c := by
  have hall : ∀ i : Fin 256, UInt8.ofNat i.val >>> 4 < 16 ∧ UInt8.ofNat i.val &&& 15 < 16 ∧
      (UInt8.ofNat i.val >>> 4) <<< 4 ||| UInt8.ofNat i.val &&& 15 = UInt8.ofNat i.val := by
    decide +kernel
  have h := hall ⟨c.toNat, c.toNat_lt⟩
  rwa [UInt8.ofNat_toNat] at h

/-- A text in hexadecimal decodes to it. -/
theorem decodeText_hexEncode (upper : Bool) (s : List UInt8) (h : ∀ c ∈ s, Printable c) :
    decodeText ct (hexEncode upper s) = some s := by
  induction s with
  | nil => rfl
  | cons c s ih =>
      have hc := h c List.mem_cons_self
      rcases digits_of c with ⟨hhigh, hlow, hboth⟩
      have hprint : ct.isprint c = true := by
        rw [ct.isprint_ascii c (Std.lt_of_le_of_lt hc.2 (by decide))]
        exact decide_eq_true hc
      rw [hexEncode, decodeText, hexDigit_hexChar ct upper _ hhigh,
        hexDigit_hexChar ct upper _ hlow]
      simp only [hboth]
      rw [if_neg (fun hbad => absurd (hprint.symm.trans hbad.2) Bool.noConfusion),
        ih (fun d hd => h d (List.mem_cons_of_mem c hd)), Option.map_some]

/-- Swapping twice gives back a text of an even length. -/
theorem flipPairs_even (s : List UInt8) (h : s.length % 2 = 0) :
    flipPairs (flipPairs s) = s ∧ (flipPairs s).length = s.length := by
  induction s using flipPairs.induct with
  | case1 a b s ih =>
      simp only [List.length_cons] at h
      rcases ih (by omega) with ⟨htwice, hlength⟩
      simp only [flipPairs, htwice, List.length_cons, hlength, and_self]
  | case2 s hs =>
      cases s with
      | nil => exact ⟨rfl, rfl⟩
      | cons a s =>
          cases s with
          | nil =>
              rw [List.length_singleton] at h
              omega
          | cons b s => exact absurd rfl (hs a b s)

theorem mem_flipPairs (s : List UInt8) : ∀ c ∈ flipPairs s, c ∈ s := by
  induction s using flipPairs.induct with
  | case1 a b s ih =>
      intro c hc
      rw [flipPairs, List.mem_cons, List.mem_cons] at hc
      rcases hc with rfl | rfl | hc
      · exact List.mem_cons_of_mem a List.mem_cons_self
      · exact List.mem_cons_self
      · exact List.mem_cons_of_mem a (List.mem_cons_of_mem b (ih c hc))
  | case2 s hs =>
      intro c hc
      unfold flipPairs at hc
      split at hc
      · next a b s => exact absurd rfl (hs a b s)
      · exact absurd hc List.not_mem_nil

theorem length_hexEncode (upper : Bool) (s : List UInt8) :
    (hexEncode upper s).length = 2 * s.length := by
  induction s with
  | nil => rfl
  | cons c s ih =>
      simp only [hexEncode, List.length_cons, ih]
      omega

/-- No digit is a terminator. -/
theorem zero_not_mem_hexEncode (upper : Bool) (s : List UInt8) : 0 ∉ hexEncode upper s := by
  have hall : ∀ upper : Bool, ∀ i : Fin 16, hexChar upper (UInt8.ofNat i.val) ≠ 0 := by decide
  have hone : ∀ n : UInt8, n < 16 → 0 ≠ hexChar upper n := by
    intro n hn h
    have hn' := hall upper ⟨n.toNat, UInt8.lt_iff_toNat_lt.mp hn⟩
    rw [UInt8.ofNat_toNat] at hn'
    exact hn' h.symm
  induction s with
  | nil => exact List.not_mem_nil
  | cons c s ih =>
      rcases digits_of c with ⟨hhigh, hlow, -⟩
      rw [hexEncode, List.mem_cons, List.mem_cons]
      exact fun h => h.elim (hone _ hhigh) (fun h => h.elim (hone _ hlow) ih)

/-- A number of an even length that the disk swaps and encodes comes back, but
    for the spaces at its ends. -/
theorem serial_comes_back (upper : Bool) (s before behind buf : List UInt8)
    (hprint : ∀ c ∈ s, Printable c) (heven : s.length % 2 = 0) (hpos : before ≠ [])
    (hroom : 2 * s.length < buf.length) :
    ∃ out, flipAndCodeBytes ct (before ++ (hexEncode upper (flipPairs s) ++ [0] ++ behind))
        before.length true buf = .ok out ∧ cstr out = trimSpaces ct s := by
  have hdrop : (before ++ (hexEncode upper (flipPairs s) ++ [0] ++ behind)).drop
      (before.length : Int).toNat = hexEncode upper (flipPairs s) ++ [0] ++ behind := by
    rw [Int.toNat_natCast, List.drop_left]
  have hcstr := cstr_append_zero (zero_not_mem_hexEncode upper (flipPairs s)) behind
  have hdecode := decodeText_hexEncode ct upper (flipPairs s)
    (fun c hc => hprint c (mem_flipPairs s c hc))
  have htext : serialText ct (hexEncode upper (flipPairs s)) = flipPairs s := by
    rw [serialText, hdecode]
  have hzero : 0 ∉ s := fun h => absurd (hprint 0 h) (by decide)
  have hlength := List.length_pos_of_ne_nil hpos
  rcases flipAndCodeBytes_eq ct (before ++ (hexEncode upper (flipPairs s) ++ [0] ++ behind))
    before.length true buf (by omega) (by
      rw [hdrop]
      exact List.mem_append_left _ (List.mem_append_right _ List.mem_cons_self)) (by
      rw [hdrop, hcstr, length_hexEncode, (flipPairs_even s heven).2]
      exact hroom) with ⟨out, hout, -, hresult⟩
  refine ⟨out, hout, hresult.trans ?_⟩
  rw [hdrop, hcstr, htext, if_pos rfl, (flipPairs_even s heven).1, cstr_of_not_mem hzero]

theorem serial_comes_back_letters :
    ∃ out, flipAndCodeBytes cLocale [7, 52, 50, 52, 49, 0] 1 true (List.replicate 6 0) = .ok out ∧
      cstr out = [65, 66] :=
  serial_comes_back cLocale false [65, 66] [7] [] (List.replicate 6 0)
    (List.forall_mem_cons.mpr ⟨by decide, List.forall_mem_singleton.mpr (by decide)⟩)
    (by decide) (by decide) (by decide)

end Disk

end Defender
