import Defender.SysLog.Analyse

/-!
# Events that Overrun the Buffers

Which records can be analysed without a write outside a buffer and without a call
that ends the process. The field for the time, the texts of 512 and of 1000 bytes,
the addresses of the strings and the field for the description are always large
enough (`length_eventTime`, `listStrings_eq_ok`, `unformatted_eq_ok`,
`appendString_eq_ok`, `describe_eq_ok`).

The names have to fit into their fields. And the text in the block grows by a blank
for each string, which the counter of what is left does not stop: `textSize` is the
size that it comes to, and it has to leave room for the zero
(`analyEventData_safe_iff`). A record with some six thousand empty strings is
enough for it not to (`analyEventData_emptyStrings`).

## Main definitions

* `added`, `textSize`: What the strings add to the text.
* `accepted`: The strings before the first that is too long.
* `Fits`: The records that fit.

## Theorems

* `appendString_eq_ok`, `appendString_not_safe`: One string.
* `formatStrings_safe_iff`: The loop over the strings.
* `analyEventData_safe_iff`: When an event is analysed safely.
* `analyEventData_emptyStrings`: When it is not.
-/

namespace Defender

namespace SysLog

namespace Analyse

open Wire CString

/-- The number of bytes that a string adds to the text, when `left` is left by the counter. -/
def added (left : Int) (s : List UInt8) : Nat :=
  if stringSize s < left then (if left < 0 then s.length else min s.length left.toNat) else 0

/-- The size of the text with a blank behind each string. -/
def textSize : Int → List (List UInt8) → Nat
  | _, [] => 0
  | left, s :: ss => added left s + 1 + textSize (toInt (left - (stringSize s + 2))) ss

/-- The strings before the first that is too long. -/
def accepted (ss : List (List UInt8)) : List (List UInt8) :=
  ss.takeWhile (fun s => decide (stringSize s < (maxPath : Int) - 1))

/-- The names fit into their fields, and the text of the strings into the block, if there
    is one. -/
structure Fits (sys : Outside) (r : LogRecord) : Prop where
  source : (sys.convertA2W r.sourceName).length < 128
  computer : (sys.convertA2W r.computerName).length < 64
  text : sys.malloc = false ∨
    textSize maxDescriptionSize (accepted r.strings) ≤ maxDescriptionSize

/-! ### What is printed -/

theorem length_decimal_le {n k : Nat} (hk : 0 < k) (h : n < 10 ^ k) :
    (decimal n).length ≤ k := by
  unfold decimal
  by_cases hn : n = 0
  · rw [if_pos hn, List.length_singleton]
    omega
  · rw [if_neg hn, List.length_map, List.length_reverse]
    exact (Nat.digits_length_le_iff (by decide) n).mpr h

theorem length_padded {width : Nat} {text : List Char} (c : Char) (h : text.length ≤ width) :
    (padded width c text).length = width := by
  rw [padded, List.length_append, List.length_replicate]
  omega

/-- The time has 19 characters. -/
theorem length_eventTime (tm : Tm) : (wide (eventTime tm)).length = 19 := by
  have hyear := tm.year_le
  have hmon := tm.mon_lt
  have hmday := tm.mday_le
  have hhour := tm.hour_lt
  have hmin := tm.min_lt
  have hsec := tm.sec_le
  have htwo : ∀ n, n < 100 → (padded 2 '0' (decimal n)).length = 2 := fun n hn =>
    length_padded '0' (length_decimal_le (by decide) hn)
  have hfour : (padded 4 ' ' (decimal (tm.tm_year + 1900))).length = 4 :=
    length_padded ' ' (length_decimal_le (by decide) (by omega))
  rw [wide, List.length_map, eventTime]
  simp only [List.length_append, List.length_singleton, hfour,
    htwo _ (by omega : tm.tm_mon + 1 < 100),
    htwo _ (by omega : tm.tm_mday < 100), htwo _ (by omega : tm.tm_hour < 100),
    htwo _ (by omega : tm.tm_min < 100), htwo _ (by omega : tm.tm_sec < 100)]

theorem length_decimalInt_le (w : UInt32) : (decimalInt w).length ≤ 11 := by
  have hlow := Int32.le_toInt w.toInt32
  have hhigh := Int32.toInt_lt w.toInt32
  have habs : w.toInt32.toInt.natAbs < 10 ^ 10 := by omega
  have hlen := length_decimal_le (by decide : 0 < 10) habs
  unfold decimalInt
  dsimp only
  split
  · rw [List.length_cons]
    omega
  · omega

/-- Around the strings there are 387 bytes at most. -/
theorem length_content (EventID : UInt32) (pBuf : List UInt8) :
    (content EventID pBuf).length ≤ 387 + pBuf.length := by
  have hbefore : (convertW2A contentBefore).length = 42 := by decide +kernel
  have hmiddle : (convertW2A contentMiddle).length = 273 := by decide +kernel
  have hafter : (convertW2A contentAfter).length = 61 := by decide +kernel
  have hint := length_decimalInt_le EventID
  rw [content, List.length_append, List.length_append, List.length_append, List.length_append,
    hbefore, hmiddle, hafter, narrow, List.length_map]
  omega

/-- The strings are put together in 510 bytes at most. -/
theorem listStrings_eq_ok (n : Nat) (p1 pBuf : List UInt8) (h : pBuf.length ≤ 510) :
    ∃ buf, listStrings n p1 pBuf = .ok buf ∧ buf.length ≤ 510 := by
  induction n generalizing p1 pBuf with
  | zero => exact ⟨pBuf, rfl, h⟩
  | succ n ih =>
      rw [listStrings]
      by_cases hroom : pBuf.length + (cstr p1).length + 2 < 512
      · have hone : (pBuf ++ cstr p1).length + [(0x3B : UInt8)].length < 512 := by
          rw [List.length_append, List.length_singleton]
          omega
        have hnext : (pBuf ++ cstr p1 ++ [(0x3B : UInt8)]).length ≤ 510 := by
          rw [List.length_append, List.length_append, List.length_singleton]
          omega
        rw [if_pos hroom, strcatS_eq_ok (by omega : pBuf.length + (cstr p1).length < 512)]
        change ∃ buf, (strcatS 512 (pBuf ++ cstr p1) [0x3B] >>= fun pBuf =>
          listStrings n (next p1) pBuf) = .ok buf ∧ buf.length ≤ 510
        rw [strcatS_eq_ok hone]
        exact ih (next p1) _ hnext
      · rw [if_neg hroom]
        exact ⟨pBuf, rfl, h⟩

/-- The text without a description fits. -/
theorem unformatted_eq_ok (pEvtData : List UInt8) : ∃ text, unformatted pEvtData = .ok text := by
  rcases listStrings_eq_ok (NumStrings pEvtData).toNat
    (pEvtData.drop (StringOffset pEvtData).toNat) [] (Nat.zero_le _) with ⟨buf, hbuf, hlen⟩
  have hcontent := length_content (EventID pEvtData) buf
  refine ⟨content (EventID pEvtData) buf, ?_⟩
  rw [unformatted, hbuf]
  exact strcpyS_eq_ok (by omega)

/-- A description fits, or is not used. -/
theorem describe_eq_ok (sys : Outside) (strDescription : List UInt8)
    (pOneSysLog : HostAdSyslog) : Safe (describe sys strDescription pOneSysLog) := by
  unfold describe
  split
  · exact safe_ok _
  dsimp only
  split
  · exact safe_ok _
  · rw [strncpyS_eq_ok _ (by decide)]
    exact safe_ok _

/-! ### The text in the block -/

/-- Only strings of 2 GB and more have a negative size. -/
theorem length_of_stringSize_neg {s : List UInt8} (h : stringSize s < 0) : 2 ^ 31 ≤ s.length := by
  by_contra hlt
  rw [stringSize, toInt, Int.bmod_eq_of_le (by omega) (by omega)] at h
  omega

/-- A text that is made has the size that is reckoned with, or is so long that the blank does
    not fit behind it. -/
theorem appendText_spec (f : Formatting) (s : List UInt8) :
    (f.pFormatString.length + added f.iLeftSize s + 1 ≤ maxDescriptionSize →
        ∃ t, appendText f s = .ok t ∧ t.length = f.pFormatString.length + added f.iLeftSize s) ∧
      (maxDescriptionSize < f.pFormatString.length + added f.iLeftSize s + 1 →
        ∀ t, appendText f s = .ok t → maxDescriptionSize < t.length + 1) := by
  have hsize : maxDescriptionSize = 6144 := rfl
  unfold appendText added
  by_cases hroom : stringSize s < f.iLeftSize
  · rw [if_pos hroom, if_pos hroom]
    by_cases hneg : f.iLeftSize < 0
    · -- the size of the string is negative too, so the string does not fit
      have hlong := length_of_stringSize_neg (hroom.trans hneg)
      rw [if_pos hneg]
      refine ⟨fun h => absurd h (by omega), fun _ t ht => ?_⟩
      unfold strncatS at ht
      by_cases htrunc : f.iLeftSize = -1
      · rw [if_pos htrunc, Except.ok.injEq] at ht
        rw [← ht, List.length_take, List.length_append]
        omega
      · rw [if_neg htrunc, if_pos hneg, strcpyS, if_neg (by rw [List.length_append]; omega)] at ht
        exact absurd ht (by simp only [reduceCtorEq, not_false_eq_true])
    · rw [if_neg hneg]
      unfold strncatS
      rw [if_neg (by omega), if_neg hneg]
      have hlength : (f.pFormatString ++ s.take f.iLeftSize.toNat).length
          = f.pFormatString.length + min s.length f.iLeftSize.toNat := by
        rw [List.length_append, List.length_take, Nat.min_comm]
      refine ⟨fun h => ⟨_, strcpyS_eq_ok (by rw [hlength]; omega), hlength⟩, fun h t ht => ?_⟩
      unfold strcpyS at ht
      split at ht
      · rw [Except.ok.injEq] at ht
        rw [← ht, hlength]
        omega
      · exact absurd ht (by simp only [reduceCtorEq, not_false_eq_true])
  · rw [if_neg hroom, if_neg hroom]
    refine ⟨fun _ => ⟨_, rfl, rfl⟩, fun h t ht => ?_⟩
    rw [← Except.ok.inj ht]
    omega

/-- The addresses of the strings fit into the array. -/
theorem storeString_eq_ok {array : List (Option (List UInt8))} (harray : array.length = maxPath)
    (i : Nat) (s : List UInt8) :
    ∃ array', storeString array i s = .ok array' ∧ array'.length = maxPath := by
  have hsize : maxPath = 260 := rfl
  unfold storeString
  by_cases hi : i ≤ 92
  · rw [if_pos hi, store_eq_ok (some s) (by omega)]
    refine ⟨(array.set i (some s)).set (i + 1) none, store_eq_ok none ?_, ?_⟩
    · rw [List.length_set]
      omega
    · rw [List.length_set, List.length_set, harray]
  · rw [if_neg hi]
    exact ⟨array, rfl, harray⟩

/-- A string whose blank fits. -/
theorem appendString_eq_ok {f : Formatting} (hf : f.pStringArray.length = maxPath) (i : Nat)
    {s : List UInt8}
    (h : f.pFormatString.length + added f.iLeftSize s + 1 ≤ maxDescriptionSize) :
    ∃ f', appendString f i s = .ok f' ∧
      f'.pFormatString.length = f.pFormatString.length + added f.iLeftSize s + 1 ∧
      f'.iLeftSize = toInt (f.iLeftSize - (stringSize s + 2)) ∧
      f'.pStringArray.length = maxPath := by
  rcases (appendText_spec f s).1 h with ⟨t, ht, hlength⟩
  rcases storeString_eq_ok hf i s with ⟨array', hstored, harray'⟩
  have hput : putLast (maxDescriptionSize + 1) t 0x20 = .ok (t ++ [0x20]) :=
    putLast_eq_ok (by omega)
  refine ⟨⟨t ++ [0x20], toInt (f.iLeftSize - (stringSize s + 2)), array'⟩, ?_, ?_, rfl, harray'⟩
  · unfold appendString
    rw [ht]
    change (putLast (maxDescriptionSize + 1) t 0x20 >>= _) = _
    rw [hput]
    change (storeString f.pStringArray i s >>= _) = _
    rw [hstored]
    rfl
  · rw [List.length_append, List.length_singleton, hlength]

/-- A string whose blank does not. -/
theorem appendString_not_safe {f : Formatting} (i : Nat) {s : List UInt8}
    (h : maxDescriptionSize < f.pFormatString.length + added f.iLeftSize s + 1) :
    ¬ Safe (appendString f i s) := by
  unfold appendString
  rw [safe_bind_iff]
  rintro ⟨t, ht, hrest⟩
  rw [safe_bind_iff] at hrest
  rcases hrest with ⟨t', ht', -⟩
  have hlong := (appendText_spec f s).2 h t ht
  have hroom := (putLast_safe_iff _ t 0x20).mp ⟨t', ht'⟩
  omega

/-- The loop is safe when the text that it comes to fits. -/
theorem formatStrings_safe_iff (ss : List (List UInt8)) (hzero : ∀ s ∈ ss, 0 ∉ s)
    (rest : List UInt8) (i : Nat) (f : Formatting) (hf : f.pStringArray.length = maxPath)
    (htext : f.pFormatString.length ≤ maxDescriptionSize) :
    Safe (formatStrings i ss.length (ss.flatMap terminated ++ rest) f)
      ↔ f.pFormatString.length + textSize f.iLeftSize (accepted ss) ≤ maxDescriptionSize := by
  induction ss generalizing i f with
  | nil => exact iff_of_true (safe_ok _) htext
  | cons s ss ih =>
      have hs : 0 ∉ s := hzero s List.mem_cons_self
      have hmem : (s :: ss).flatMap terminated ++ rest
          = s ++ [0] ++ (ss.flatMap terminated ++ rest) := by
        rw [List.flatMap_cons, terminated, List.append_assoc]
      rw [List.length_cons, formatStrings, hmem, cstr_append_zero hs, next_append_zero hs]
      by_cases hlong : (maxPath : Int) - 1 ≤ stringSize s
      · -- the loop ends here, with `FALSE`
        rw [if_pos hlong, accepted, List.takeWhile_cons_of_neg (by
          simp only [decide_eq_true_eq]
          omega)]
        exact iff_of_true (safe_ok _) htext
      · rw [if_neg hlong, accepted, List.takeWhile_cons_of_pos (by
          simp only [decide_eq_true_eq]
          omega), textSize]
        change Safe (appendString f i s >>= _) ↔ _
        by_cases hfits : f.pFormatString.length + added f.iLeftSize s + 1 ≤ maxDescriptionSize
        · rcases appendString_eq_ok hf i hfits with ⟨f', hf', hlength, hleft, harray⟩
          rw [hf']
          change Safe (formatStrings (i + 1) ss.length _ f') ↔ _
          rw [ih (fun s' hs' => hzero s' (List.mem_cons_of_mem s hs')) (i + 1) f' harray
            (by omega), hlength, hleft]
          change _ ↔ _ + (_ + 1 + textSize _ (accepted ss)) ≤ _
          rw [Nat.add_assoc, Nat.add_assoc, Nat.add_assoc]
        · refine iff_of_false (fun h => ?_) (by omega)
          rcases (safe_bind_iff _ _).mp h with ⟨f', hf', -⟩
          exact appendString_not_safe i (by omega) ⟨f', hf'⟩

/-! ### The function -/

theorem getEventDescription_safe_iff (sys : Outside) (ss : List (List UInt8))
    (hzero : ∀ s ∈ ss, 0 ∉ s) (rest pLogName : List UInt8) (dwEventID : UInt32)
    (pLogSource : List UInt8) :
    Safe (getEventDescription sys (ss.flatMap terminated ++ rest) ss.length pLogName dwEventID
        pLogSource)
      ↔ sys.malloc = false ∨ textSize maxDescriptionSize (accepted ss) ≤ maxDescriptionSize := by
  unfold getEventDescription
  by_cases hnone : ss.length = 0
  · rw [if_pos hnone, List.length_eq_zero_iff.mp hnone]
    exact iff_of_true (safe_ok _) (Or.inr (Nat.zero_le _))
  rw [if_neg hnone]
  by_cases hmalloc : sys.malloc = false
  · rw [if_pos hmalloc]
    exact iff_of_true (safe_ok _) (Or.inl hmalloc)
  rw [if_neg hmalloc, safe_bind_iff_of_safe _ (fun formatted => by
      cases formatted with
      | none => exact safe_ok _
      | some f => exact safe_ok _),
    formatStrings_safe_iff ss hzero rest 0 _ List.length_replicate (Nat.zero_le _),
    List.length_nil, Nat.zero_add]
  exact ⟨Or.inr, fun h => h.resolve_left hmalloc⟩

variable (sys : Outside) (r : LogRecord) (pChannel : List UInt8) (pOneSysLog : HostAdSyslog)

theorem LogRecord.cstr_source :
    cstr (r.bytes.drop eventLogRecordSize) = r.sourceName ∧
      cstr (next (r.bytes.drop eventLogRecordSize)) = r.computerName := by
  rcases r.names_at with ⟨t, ht⟩
  have hmem : r.bytes.drop eventLogRecordSize
      = r.sourceName ++ [0] ++ (r.computerName ++ [0] ++ t) := by
    rw [← ht, terminated, terminated, List.append_assoc]
  rw [hmem, cstr_append_zero r.noZero.1, next_append_zero r.noZero.1,
    cstr_append_zero r.noZero.2.1]
  exact ⟨rfl, rfl⟩

theorem LogRecord.size_ne_zero : dwordAt r.bytes 0 ≠ 0 := by
  intro h
  have hlength := r.length_eq
  have hsize := r.size_le
  rw [h] at hlength
  exact absurd (hsize.trans (Nat.le_of_eq hlength.symm)) (by decide)

/-- When the names fit, it is the description that decides. -/
theorem analyEventData_safe_iff_description
    (hsource : (sys.convertA2W r.sourceName).length < 128)
    (hcomputer : (sys.convertA2W r.computerName).length < 64) :
    Safe (analyEventData sys r.bytes (dwordAt r.bytes 0) pChannel pOneSysLog)
      ↔ sys.malloc = false ∨
        textSize maxDescriptionSize (accepted r.strings) ≤ maxDescriptionSize := by
  rcases r.strings_at with ⟨rest, hrest⟩
  rw [← getEventDescription_safe_iff sys r.strings r.noZero.2.2 rest pChannel (EventID r.bytes)
    r.sourceName, hrest, ← r.numStrings_eq]
  unfold analyEventData
  rw [if_neg r.size_ne_zero, strcpyS_eq_ok (by rw [length_eventTime]; decide), safe_ok_bind]
  dsimp only
  rw [r.cstr_source.1, strcpyS_eq_ok hsource, safe_ok_bind, r.cstr_source.2,
    strcpyS_eq_ok hcomputer, safe_ok_bind]
  refine safe_bind_iff_of_safe _ (fun description => ?_)
  -- Behind the copies nothing goes wrong that these functions do.
  cases description with
  | text strDescription => exact (safe_bind_pure_iff _ _).mpr (describe_eq_ok sys strDescription _)
  | failed =>
      rcases unformatted_eq_ok r.bytes with ⟨text, htext⟩
      exact (safe_bind_iff _ _).mpr
        ⟨text, htext, (safe_bind_pure_iff _ _).mpr (describe_eq_ok sys text _)⟩
  | ended => exact safe_ok none

/-- A name that does not fit ends the process. -/
theorem names_fit_of_safe
    (h : Safe (analyEventData sys r.bytes (dwordAt r.bytes 0) pChannel pOneSysLog)) :
    (sys.convertA2W r.sourceName).length < 128 ∧ (sys.convertA2W r.computerName).length < 64 := by
  unfold analyEventData at h
  rw [if_neg r.size_ne_zero, strcpyS_eq_ok (by rw [length_eventTime]; decide), safe_ok_bind] at h
  dsimp only at h
  rw [r.cstr_source.1] at h
  rcases (safe_bind_iff _ _).mp h with ⟨source, hsource, hrest⟩
  rw [r.cstr_source.2] at hrest
  rcases (safe_bind_iff _ _).mp hrest with ⟨computer, hcomputer, -⟩
  exact ⟨(strcpyS_safe_iff _ _).mp ⟨source, hsource⟩,
    (strcpyS_safe_iff _ _).mp ⟨computer, hcomputer⟩⟩

/-- An event is analysed without a fault exactly when its names fit into their fields and
    its strings into the block. -/
theorem analyEventData_safe_iff :
    Safe (analyEventData sys r.bytes (dwordAt r.bytes 0) pChannel pOneSysLog) ↔ Fits sys r := by
  constructor
  · intro h
    rcases names_fit_of_safe sys r pChannel pOneSysLog h with ⟨hsource, hcomputer⟩
    exact ⟨hsource, hcomputer, (analyEventData_safe_iff_description sys r pChannel pOneSysLog
      hsource hcomputer).mp h⟩
  · intro h
    exact (analyEventData_safe_iff_description sys r pChannel pOneSysLog h.source h.computer).mpr
      h.text

/-! ### A record of empty strings -/

/-- An empty string adds a blank. -/
theorem textSize_replicate (n : Nat) (left : Int) :
    textSize left (List.replicate n []) = n := by
  induction n generalizing left with
  | zero => rfl
  | succ n ih =>
      have hadded : added left [] = 0 := by
        unfold added
        split
        · split
          · rfl
          · exact Nat.zero_min _
        · rfl
      rw [List.replicate_succ, textSize, ih, hadded]
      omega

theorem accepted_replicate (n : Nat) : accepted (List.replicate n []) = List.replicate n [] := by
  refine List.takeWhile_eq_self_iff.mpr (fun s hs => ?_)
  rw [List.eq_of_mem_replicate hs]
  decide

theorem flatMap_terminated_replicate (n : Nat) :
    (List.replicate n []).flatMap terminated = List.replicate n 0 := by
  induction n with
  | zero => rfl
  | succ n ih => rw [List.replicate_succ, List.flatMap_cons, ih, List.replicate_succ]; rfl

/-- The fixed part of a record of 6205 bytes, whose 6145 strings begin at the offset 60. -/
def emptyFixed : List UInt8 :=
  le32 6205 ++ List.replicate 22 0 ++ le16 6145 ++ List.replicate 8 0 ++ le32 60 ++
    List.replicate 16 0

/-- The record, with the names `S` and `C`. -/
def emptyBytes : List UInt8 :=
  emptyFixed ++ (terminated [0x53] ++ terminated [0x43]) ++ List.replicate 6145 0

theorem length_emptyBytes : emptyBytes.length = 6205 := by
  rw [emptyBytes, List.length_append, List.length_replicate]
  rfl

/-- A record with 6145 empty strings. -/
def emptyStrings : LogRecord where
  bytes := emptyBytes
  size_le := by
    rw [length_emptyBytes]
    decide
  length_eq := by
    rw [length_emptyBytes]
    decide
  sourceName := [0x53]
  computerName := [0x43]
  strings := List.replicate 6145 []
  noZero := ⟨by decide, by decide, fun s hs => by
    rw [List.eq_of_mem_replicate hs]
    exact List.not_mem_nil⟩
  names_at := ⟨List.replicate 6145 0, by
    have hfixed : emptyFixed.length = eventLogRecordSize := by decide
    rw [emptyBytes, List.append_assoc emptyFixed, List.drop_left' hfixed]⟩
  strings_at := ⟨[], by
    have hoffset : (emptyFixed ++ (terminated [0x53] ++ terminated [0x43])).length
        = (StringOffset emptyBytes).toNat := by decide
    rw [flatMap_terminated_replicate, List.append_nil, ← hoffset, emptyBytes, List.drop_left]⟩
  numStrings_eq := by
    rw [List.length_replicate]
    decide

/-- A system in which nothing fails but the description. -/
def plainSystem : Outside where
  localtime_s := fun _ => ⟨0, 0, 0, 1, 0, 70, by decide, by decide, by decide, by decide,
    by decide, by decide⟩
  convertA2W := fun s => s.map UInt8.toUInt16
  malloc := true
  formatEventDescription := fun _ _ _ _ => .failed

/-- A `HOST_AD_SYSLOG_STRUCT` as it is constructed. -/
def emptyLog : HostAdSyslog :=
  ⟨0, 0, 0, [], [], [], [], 0, 0, 0⟩

/-- The blanks alone go beyond the block. -/
theorem analyEventData_emptyStrings :
    ¬ Safe (analyEventData plainSystem emptyStrings.bytes (dwordAt emptyStrings.bytes 0)
      (narrow "System".toList) emptyLog) := by
  rw [analyEventData_safe_iff_description plainSystem emptyStrings _ _ (by decide) (by decide)]
  rintro (h | h)
  · exact absurd h (by decide)
  · have hsize : textSize maxDescriptionSize (accepted (List.replicate 6145 []))
        ≤ maxDescriptionSize := h
    rw [accepted_replicate, textSize_replicate] at hsize
    exact absurd hsize (by decide)

end Analyse

end SysLog

end Defender
