import Mathlib.Data.List.AList
import Defender.Lib.Machine

/-!
# The Message DLLs of the Event Sources

`FormatEventDescription` makes the text of an event from the message DLLs of its
source, whose paths are in the registry with semicolons between them. They are
tried in order: a DLL is loaded, asked for the message, and released again if it
has none. The module of the first that has one goes to `g_MapDllHModule` under
the name of the source, and so does `NULL` when the registry has no paths.

The next event of the source begins with the map. A module from there is asked
first, and only if it has no message is it released and taken out of the map, and
the paths are tried again; `NULL` fails at once.

What the registry, `LoadLibraryExA` and `FormatMessageA` come to is the `World` of
a call, and may be anything in each call. Texts are lists of the characters of the
code page.

## Main definitions

* `World`: What the calls of the system come to.
* `Event`: What a call does with modules.
* `getEventDescriptionDllPath`: The paths of a source.
* `tryPaths`: The loop over the paths and the last path behind it.
* `renew`: What follows the label `RENEW`.
* `formatEventDescription`: The function of the source.
* `Program`, `step`: A program that calls it again and again.

## Theorems

* `renew_returned`: What is returned there does not depend on the map.
* `formatEventDescription_of_none`, `formatEventDescription_of_null`,
  `formatEventDescription_of_said`, `formatEventDescription_of_unsaid`: The ways
  through the function.
-/

namespace Defender

namespace SysLog

namespace Messages

/-- `MAX_PATH`. -/
def maxPath : Nat := 260

/-- The modules, but for `NULL`, by numbers. -/
abbrev HMODULE := Nat

/-- `g_MapDllHModule`: the modules, or `NULL`, by the names of the sources. -/
abbrev ModuleMap := AList (fun _ : List Char => Option HMODULE)

/-- What the calls of the system come to in one call of the function. The number tells the
    calls of `LoadLibraryExA` apart, and those of `FormatMessageA`. -/
structure World where
  regOpenKeyExA : List Char → Bool
  regQueryValueExA : List Char → Option (List Char)
  expandEnvironmentStringsA : List Char → List Char
  loadLibraryExA : Nat → List Char → Option HMODULE
  formatMessageA : Nat → HMODULE → UInt32 → List (List Char) → Option (List Char)

/-- What a call does with modules. -/
inductive Event where
  | load (h : HMODULE)
  | format (h : HMODULE)
  | free (h : HMODULE)
deriving DecidableEq

/-- What a call comes back with: `TRUE` with the text, or `FALSE`. Or it does not come back. -/
inductive Returned where
  | described (sDescription : List Char)
  | failed
  | terminated
deriving DecidableEq

/-- A call: what it comes back with, the map then, and what it did with modules. -/
structure Result where
  returned : Returned
  g_MapDllHModule : ModuleMap
  events : List Event

/-- The arguments of a call. -/
structure Args where
  dwEventID : UInt32
  pLogName : List Char
  pLogSource : List Char
  pFormatString : List (List Char)

/-! ### The paths -/

/-- `strSource`: the name under which the map has a source. -/
def Args.strSource (args : Args) : List Char :=
  args.pLogName ++ ['\\'] ++ args.pLogSource

/-- The key of all sources. -/
def eventLogKey : List Char :=
  "System\\CurrentControlSet\\Services\\EventLog\\".toList

/-- What `GetEventDescriptionDllPath` comes to. `sprintf_s` ends the process when the key
    does not fit. -/
inductive DllPath where
  | found (sDllPath : List Char)
  | missing
  | terminated
deriving DecidableEq

/-- `GetEventDescriptionDllPath`. -/
def getEventDescriptionDllPath (world : World) (pLogName pLogSource : List Char) : DllPath :=
  let pRegKey := eventLogKey ++ (pLogName ++ ['\\'] ++ pLogSource)
  if maxPath ≤ pRegKey.length then
    .terminated
  else if world.regOpenKeyExA pRegKey = false then
    .missing
  else
    match world.regQueryValueExA pRegKey with
    | none => .missing
    | some value =>
        if maxPath - 1 < value.length then
          .missing
        else
          let sDllPath := value.takeWhile (· ≠ '\x00')
          if sDllPath.length = 0 then .missing else .found sDllPath

/-- A text of `FormatMessageA` that is used: one of no characters is as good as none. -/
def usable : Option (List Char) → Option (List Char)
  | none => none
  | some text => if text.length = 0 then none else some text

/-- The module that has the message with its text, and what was done with modules. -/
structure Tried where
  found : Option (HMODULE × List Char)
  events : List Event

/-- The loop over the paths, and the last path behind it, on which the source does the same.
    `n` is the number of paths before. -/
def tryPaths (world : World) (args : Args) : Nat → List (List Char) → Tried
  | _, [] => ⟨none, []⟩
  | n, pCurStr :: rest =>
      match world.loadLibraryExA n (world.expandEnvironmentStringsA pCurStr) with
      | none => tryPaths world args (n + 1) rest
      | some hModule =>
          match usable
              (world.formatMessageA (n + 1) hModule args.dwEventID args.pFormatString) with
          | some text => ⟨some (hModule, text), [.load hModule, .format hModule]⟩
          | none =>
              let later := tryPaths world args (n + 1) rest
              ⟨later.found, [.load hModule, .format hModule, .free hModule] ++ later.events⟩

/-! ### The function -/

/-- What follows the label `RENEW`. -/
def renew (world : World) (args : Args) (g_MapDllHModule : ModuleMap) : Result :=
  match getEventDescriptionDllPath world args.pLogName args.pLogSource with
  | .terminated => ⟨.terminated, g_MapDllHModule, []⟩
  | .missing => ⟨.failed, g_MapDllHModule.insert args.strSource none, []⟩
  | .found sDllPath =>
      let tried := tryPaths world args 0 (sDllPath.splitOn ';')
      match tried.found with
      | some (hModule, text) =>
          ⟨.described text, g_MapDllHModule.insert args.strSource (some hModule), tried.events⟩
      | none => ⟨.failed, g_MapDllHModule, tried.events⟩

/-- `FormatEventDescription`. -/
def formatEventDescription (world : World) (args : Args) (g_MapDllHModule : ModuleMap) :
    Result :=
  match g_MapDllHModule.lookup args.strSource with
  | none => renew world args g_MapDllHModule
  | some none => ⟨.failed, g_MapDllHModule, []⟩
  | some (some hModule) =>
      match usable (world.formatMessageA 0 hModule args.dwEventID args.pFormatString) with
      | some text => ⟨.described text, g_MapDllHModule, [.format hModule]⟩
      | none =>
          let renewed := renew world args (g_MapDllHModule.erase args.strSource)
          ⟨renewed.returned, renewed.g_MapDllHModule,
            [.format hModule, .free hModule] ++ renewed.events⟩

/-- The program: its map, what it has done with modules, and whether its process has ended. -/
structure Program where
  g_MapDllHModule : ModuleMap
  trace : List Event
  ended : Bool

/-- Before the first call. -/
def start : Program := ⟨∅, [], false⟩

/-- One more call. -/
def step (s : Program) (call : World × Args) : Option Program :=
  if s.ended then
    none
  else
    let result := formatEventDescription call.1 call.2 s.g_MapDllHModule
    some ⟨result.g_MapDllHModule, s.trace ++ result.events,
      decide (result.returned = .terminated)⟩

/-! ### The ways through the function -/

variable {world : World} {args : Args} {g_MapDllHModule : ModuleMap} {hModule : HMODULE}
  {text : List Char}

theorem formatEventDescription_of_none (h : g_MapDllHModule.lookup args.strSource = none) :
    formatEventDescription world args g_MapDllHModule = renew world args g_MapDllHModule := by
  rw [formatEventDescription, h]

theorem formatEventDescription_of_null
    (h : g_MapDllHModule.lookup args.strSource = some none) :
    formatEventDescription world args g_MapDllHModule = ⟨.failed, g_MapDllHModule, []⟩ := by
  rw [formatEventDescription, h]

/-- The module of the map has the message. -/
theorem formatEventDescription_of_said
    (h : g_MapDllHModule.lookup args.strSource = some (some hModule))
    (hsaid : usable (world.formatMessageA 0 hModule args.dwEventID args.pFormatString)
      = some text) :
    formatEventDescription world args g_MapDllHModule
      = ⟨.described text, g_MapDllHModule, [.format hModule]⟩ := by
  simp only [formatEventDescription, h, hsaid]

/-- The module of the map does not have it. -/
theorem formatEventDescription_of_unsaid
    (h : g_MapDllHModule.lookup args.strSource = some (some hModule))
    (hsaid : usable (world.formatMessageA 0 hModule args.dwEventID args.pFormatString) = none) :
    formatEventDescription world args g_MapDllHModule
      = ⟨(renew world args (g_MapDllHModule.erase args.strSource)).returned,
          (renew world args (g_MapDllHModule.erase args.strSource)).g_MapDllHModule,
          [.format hModule, .free hModule] ++
            (renew world args (g_MapDllHModule.erase args.strSource)).events⟩ := by
  simp only [formatEventDescription, h, hsaid]

/-- What is returned there does not depend on the map. -/
theorem renew_returned (world : World) (args : Args) (m m' : ModuleMap) :
    (renew world args m).returned = (renew world args m').returned := by
  unfold renew
  cases getEventDescriptionDllPath world args.pLogName args.pLogSource with
  | terminated => rfl
  | missing => rfl
  | found sDllPath =>
      simp only
      cases (tryPaths world args 0 (sDllPath.splitOn ';')).found with
      | none => rfl
      | some found => rfl

end Messages

end SysLog

end Defender
