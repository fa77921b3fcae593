import Mathlib.Data.List.Basic
import Mathlib.Data.List.TakeWhile
import Mathlib.Algebra.Group.Nat.Defs

/-!
# C Strings and Calls with Bounds

A C string is what comes before the first zero of a memory, and the memory behind
the zero is where the next one begins. A buffer with a string in it is the string,
the size of the buffer being given to each call.

The calls that end in `_s` get the size of what they write to, and end the
process when the result does not fit. Writing without a check goes beyond the
buffer instead. Either is a `Fault`, and a program that writes is a computation
that may have one.

## Main definitions

* `Fault`: Beyond the buffer, or ended by a check.
* `cstr`, `next`: The first string of a memory, and what is behind it.
* `strcpyS`, `strcatS`, `strncatS`: Copying and appending with a check.
* `putLast`: A character over the zero, and a new zero behind it.
* `store`: An entry of an array.
* `Safe`: No fault.

## Theorems

* `takeWhile_terminated`, `cstr_append_zero`, `next_append_zero`: A string that is
  terminated.
* `eq_cstr_append`: What is behind a string.
* `safe_bind_iff`, `safe_bind_iff_of_safe`: Both parts are safe.
* `safe_foldlM_iff`, `foldlM_eq_ok`: All passes of a loop are.
* `safe_mapM_iff`, `mapM_eq_ok`: All calls for the elements of a list are.
* `foldl_pair`, `foldl_set_range`: Loops that fill arrays.
* `strcpyS_safe_iff`, `strcatS_eq_ok`, `putLast_safe_iff`, `store_eq_ok`: When
  a result fits.
-/

namespace Defender

namespace CString

/-- What goes wrong with a write. -/
inductive Fault where
  | overrun
  | terminated
deriving DecidableEq

/-- No fault. -/
def Safe {β : Type*} (r : Except Fault β) : Prop :=
  ∃ b, r = .ok b

/-- The string at the beginning of a memory. -/
def cstr (mem : List UInt8) : List UInt8 :=
  mem.takeWhile (· ≠ 0)

/-- What is behind its zero. -/
def next (mem : List UInt8) : List UInt8 :=
  mem.drop ((cstr mem).length + 1)

section

variable {α : Type*}

/-- `strcpy_s` to a buffer of `size` characters, and every other call that writes a whole
    text there. -/
def strcpyS (size : Nat) (src : List α) : Except Fault (List α) :=
  if src.length < size then .ok src else .error .terminated

/-- `strcat_s`. -/
def strcatS (size : Nat) (dst src : List α) : Except Fault (List α) :=
  strcpyS size (dst ++ src)

/-- `strncat_s`. The count is converted to `size_t`: -1 is `_TRUNCATE`, and the other negative
    ones are more than any string has. -/
def strncatS (size : Nat) (dst src : List α) (count : Int) : Except Fault (List α) :=
  if count = -1 then
    .ok ((dst ++ src).take (size - 1))
  else if count < 0 then
    strcpyS size (dst ++ src)
  else
    strcpyS size (dst ++ src.take count.toNat)

/-- `strncpy_s`, with a count that is not negative. -/
def strncpyS (size : Nat) (src : List α) (count : Nat) : Except Fault (List α) :=
  strcpyS size (src.take count)

/-- A character is written over the zero, and a zero behind it. -/
def putLast (size : Nat) (dst : List α) (c : α) : Except Fault (List α) :=
  if dst.length + 1 < size then .ok (dst ++ [c]) else .error .overrun

/-- An entry of an array. -/
def store (array : List α) (i : Nat) (a : α) : Except Fault (List α) :=
  if i < array.length then .ok (array.set i a) else .error .overrun

/-! ### Strings -/

section

variable {α : Type*} [DecidableEq α] {z : α} {s : List α}

/-- A text ends in front of its terminator, whatever is behind it. -/
theorem takeWhile_terminated (hs : z ∉ s) (rest : List α) :
    (s ++ [z] ++ rest).takeWhile (· ≠ z) = s := by
  have hall : ∀ c ∈ s, decide (c ≠ z) = true := fun c hc =>
    decide_eq_true (fun hz => hs (hz ▸ hc))
  rw [List.append_assoc, List.takeWhile_append_of_pos hall, List.singleton_append,
    List.takeWhile_cons_of_neg (by simp), List.append_nil]

/-- A text without a terminator is all there is. -/
theorem takeWhile_of_not_mem (hs : z ∉ s) : s.takeWhile (· ≠ z) = s :=
  List.takeWhile_eq_self_iff.mpr fun _ hc => decide_eq_true (fun hz => hs (hz ▸ hc))

end

theorem cstr_append_zero {s : List UInt8} (hs : 0 ∉ s) (rest : List UInt8) :
    cstr (s ++ [0] ++ rest) = s :=
  takeWhile_terminated hs rest

theorem cstr_of_not_mem {s : List UInt8} (hs : 0 ∉ s) : cstr s = s :=
  takeWhile_of_not_mem hs

theorem cstr_cons_zero (s : List UInt8) : cstr (0 :: s) = [] :=
  List.takeWhile_cons_of_neg (by decide)

theorem cstr_cons_of_ne {c : UInt8} (hc : c ≠ 0) (s : List UInt8) : cstr (c :: s) = c :: cstr s :=
  List.takeWhile_cons_of_pos (decide_eq_true hc)

theorem length_cstr_le (s : List UInt8) : (cstr s).length ≤ s.length :=
  (List.takeWhile_sublist _).length_le

/-- Behind the first string of a memory there is a zero, if there is anything. -/
theorem eq_cstr_append (s : List UInt8) : s = cstr s ∨ ∃ t, s = cstr s ++ 0 :: t := by
  induction s with
  | nil => exact Or.inl rfl
  | cons c s ih =>
      by_cases hc : c = 0
      · refine Or.inr ⟨s, ?_⟩
        rw [hc, cstr_cons_zero, List.nil_append]
      · rw [cstr_cons_of_ne hc]
        rcases ih with hs | ⟨t, hs⟩
        · exact Or.inl (congrArg (c :: ·) hs)
        · exact Or.inr ⟨t, congrArg (c :: ·) hs⟩

theorem next_append_zero {s : List UInt8} (hs : 0 ∉ s) (rest : List UInt8) :
    next (s ++ [0] ++ rest) = rest := by
  rw [next, cstr_append_zero hs]
  exact List.drop_left' (by rw [List.length_append, List.length_singleton])

/-! ### Calls that fit -/

theorem safe_ok {β : Type*} (b : β) : Safe (.ok b) := ⟨b, rfl⟩

theorem not_safe_error {β : Type*} (e : Fault) : ¬ Safe (.error e : Except Fault β) := by
  rintro ⟨b, hb⟩
  exact absurd hb (by simp only [reduceCtorEq, not_false_eq_true])

/-- A computation is safe when its first part is, and the rest behind it. -/
theorem safe_bind_iff {β γ : Type} (x : Except Fault β) (f : β → Except Fault γ) :
    Safe (x >>= f) ↔ ∃ b, x = .ok b ∧ Safe (f b) := by
  cases x with
  | error e =>
      refine iff_of_false (not_safe_error e) ?_
      rintro ⟨b, hb, -⟩
      exact absurd hb (by simp only [reduceCtorEq, not_false_eq_true])
  | ok b =>
      constructor
      · intro h
        exact ⟨b, rfl, h⟩
      · rintro ⟨b', hb, h⟩
        rw [Except.ok.injEq] at hb
        exact hb ▸ h

theorem ok_bind {β γ : Type} (b : β) (f : β → Except Fault γ) : (Except.ok b >>= f) = f b := rfl

theorem safe_ok_bind {β γ : Type} (b : β) (f : β → Except Fault γ) :
    Safe (Except.ok b >>= f) ↔ Safe (f b) :=
  Iff.rfl

/-- What can not go wrong may be left out. -/
theorem safe_bind_iff_of_safe {β γ : Type} (x : Except Fault β) {f : β → Except Fault γ}
    (hf : ∀ b, Safe (f b)) : Safe (x >>= f) ↔ Safe x := by
  rw [safe_bind_iff]
  exact ⟨fun ⟨b, hb, _⟩ => ⟨b, hb⟩, fun ⟨b, hb⟩ => ⟨b, hb, hf b⟩⟩

theorem safe_bind_pure_iff {β γ : Type} (x : Except Fault β) (g : β → γ) :
    Safe (x >>= fun b => pure (g b)) ↔ Safe x :=
  safe_bind_iff_of_safe x (fun b => safe_ok (g b))

/-! ### Loops -/

section

variable {σ ι : Type} (step : σ → ι → Except Fault σ) (Inv : σ → Prop)

/-- A loop is safe when each pass is, where what a pass needs does not depend on the passes
    before it. -/
theorem safe_foldlM_iff (C : ι → Prop) (l : List ι)
    (hsafe : ∀ s, Inv s → ∀ i ∈ l, (Safe (step s i) ↔ C i))
    (hinv : ∀ s t, Inv s → ∀ i ∈ l, step s i = .ok t → Inv t) (s : σ) (hs : Inv s) :
    Safe (l.foldlM step s) ↔ ∀ i ∈ l, C i := by
  induction l generalizing s with
  | nil => exact iff_of_true (safe_ok s) (fun i hi => absurd hi List.not_mem_nil)
  | cons i l ih =>
      -- The later passes begin with whatever the first one leaves.
      have hlater := ih (fun s hs j hj => hsafe s hs j (List.mem_cons_of_mem i hj))
        (fun s t hs j hj => hinv s t hs j (List.mem_cons_of_mem i hj))
      rw [List.foldlM_cons, safe_bind_iff, List.forall_mem_cons,
        ← hsafe s hs i List.mem_cons_self]
      constructor
      · rintro ⟨t, ht, hrest⟩
        exact ⟨⟨t, ht⟩, (hlater t (hinv s t hs i List.mem_cons_self ht)).mp hrest⟩
      · rintro ⟨⟨t, ht⟩, hrest⟩
        exact ⟨t, ht, (hlater t (hinv s t hs i List.mem_cons_self ht)).mpr hrest⟩

/-- A loop whose passes succeed does what they do, one after the other. -/
theorem foldlM_eq_ok (f : σ → ι → σ) (l : List ι)
    (hok : ∀ s, Inv s → ∀ i ∈ l, step s i = .ok (f s i))
    (hinv : ∀ s, Inv s → ∀ i ∈ l, Inv (f s i)) (s : σ) (hs : Inv s) :
    l.foldlM step s = .ok (l.foldl f s) := by
  induction l generalizing s with
  | nil => rfl
  | cons i l ih =>
      rw [List.foldlM_cons, hok s hs i List.mem_cons_self, ok_bind, List.foldl_cons]
      exact ih (fun s hs j hj => hok s hs j (List.mem_cons_of_mem i hj))
        (fun s hs j hj => hinv s hs j (List.mem_cons_of_mem i hj)) _
        (hinv s hs i List.mem_cons_self)

/-- Two loops that do not need each other, run as one. -/
theorem foldl_pair {τ : Type*} (f : σ → ι → σ) (g : τ → ι → τ) (l : List ι) (s : σ) (t : τ) :
    l.foldl (fun p i => (f p.1 i, g p.2 i)) (s, t) = (l.foldl f s, l.foldl g t) := by
  induction l generalizing s t with
  | nil => rfl
  | cons i l ih => exact ih (f s i) (g t i)

/-- An array that is filled from its beginning. -/
theorem foldl_set_range (f : Nat → σ) (array : List σ) (n : Nat) (h : n ≤ array.length) :
    (List.range n).foldl (fun array i => array.set i (f i)) array
      = (List.range n).map f ++ array.drop n := by
  induction n with
  | zero => rfl
  | succ n ih =>
      have hlen : ((List.range n).map f).length = n := by rw [List.length_map, List.length_range]
      rw [List.range_succ, List.foldl_append, ih (by omega), List.foldl_cons, List.foldl_nil,
        List.set_append_right _ _ (Nat.le_of_eq hlen), hlen, Nat.sub_self,
        List.drop_eq_getElem_cons h, List.set_cons_zero, List.map_append, List.map_singleton,
        List.append_assoc, List.singleton_append]

end

section

variable {σ ι : Type} (f : ι → Except Fault σ)

/-- The same calls for all of a list. -/
theorem safe_mapM_iff (l : List ι) : Safe (l.mapM f) ↔ ∀ i ∈ l, Safe (f i) := by
  induction l with
  | nil => exact iff_of_true (safe_ok []) (fun i hi => absurd hi List.not_mem_nil)
  | cons i l ih =>
      rw [List.mapM_cons, List.forall_mem_cons, ← ih, safe_bind_iff]
      constructor
      · rintro ⟨b, hb, hrest⟩
        exact ⟨⟨b, hb⟩, (safe_bind_pure_iff _ (b :: ·)).mp hrest⟩
      · rintro ⟨⟨b, hb⟩, hrest⟩
        exact ⟨b, hb, (safe_bind_pure_iff _ (b :: ·)).mpr hrest⟩

theorem mapM_eq_ok (g : ι → σ) (l : List ι) (h : ∀ i ∈ l, f i = .ok (g i)) :
    l.mapM f = .ok (l.map g) := by
  induction l with
  | nil => rfl
  | cons i l ih =>
      rw [List.mapM_cons, h i List.mem_cons_self, ok_bind,
        ih (fun j hj => h j (List.mem_cons_of_mem i hj)), ok_bind, List.map_cons]
      rfl

end

/-! ### Calls with a check -/

theorem strcpyS_eq_ok {size : Nat} {src : List α} (h : src.length < size) :
    strcpyS size src = .ok src :=
  if_pos h

theorem strcpyS_safe_iff (size : Nat) (src : List α) :
    Safe (strcpyS size src) ↔ src.length < size := by
  unfold strcpyS
  by_cases h : src.length < size
  · rw [if_pos h]
    exact iff_of_true (safe_ok src) h
  · rw [if_neg h]
    exact iff_of_false (not_safe_error _) h

theorem strcatS_eq_ok {size : Nat} {dst src : List α} (h : dst.length + src.length < size) :
    strcatS size dst src = .ok (dst ++ src) :=
  strcpyS_eq_ok (by rw [List.length_append]; exact h)

/-- At most `count` characters fit where `count` is less than the size. -/
theorem strncpyS_eq_ok {size count : Nat} (src : List α) (h : count < size) :
    strncpyS size src count = .ok (src.take count) := by
  refine strcpyS_eq_ok ?_
  rw [List.length_take]
  omega

theorem putLast_safe_iff (size : Nat) (dst : List α) (c : α) :
    Safe (putLast size dst c) ↔ dst.length + 1 < size := by
  unfold putLast
  by_cases h : dst.length + 1 < size
  · rw [if_pos h]
    exact iff_of_true (safe_ok _) h
  · rw [if_neg h]
    exact iff_of_false (not_safe_error _) h

theorem putLast_eq_ok {size : Nat} {dst : List α} {c : α} (h : dst.length + 1 < size) :
    putLast size dst c = .ok (dst ++ [c]) :=
  if_pos h

theorem store_eq_ok {array : List α} {i : Nat} (a : α) (h : i < array.length) :
    store array i a = .ok (array.set i a) :=
  if_pos h

theorem store_safe_iff (array : List α) (i : Nat) (a : α) :
    Safe (store array i a) ↔ i < array.length := by
  unfold store
  by_cases h : i < array.length
  · rw [if_pos h]
    exact iff_of_true (safe_ok _) h
  · rw [if_neg h]
    exact iff_of_false (not_safe_error _) h

end

end CString

end Defender
