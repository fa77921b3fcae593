import Defender.SysLog.MessageDlls

/-!
# What the Map of Message DLLs Changes

The map is there to save work: with it an event is to get the text that it gets
without. Here the registry and the DLLs stay as they are, which is a `Setting`.

Without the map the text is that of the first DLL on the list that can be loaded
and has the message (`renew_described_iff`). With it the first one that is asked
is the DLL that was first for an earlier event of the source. When that one has a
message for this event as well, it is not asked whether a DLL before it has one,
and the texts may be different (`formatEventDescription_transparent_iff`). That an
event has a text at all does not depend on the map, nor does a failure that is
kept there.

## Main definitions

* `Setting`: A registry and DLLs that do not change.
* `firstDll`: The first DLL that has the message of an event.
* `Transparent`: The map changes nothing in the calls of a run.
* `Agrees`: The module in the map has the text of the first DLL, if it has any.
* `FirstAgrees`: A DLL that is first for an event has no text that another DLL before
  it has differently.
* `KnownBy`: What the entries of the map come from.

## Theorems

* `tryPaths_found`: The loop finds the first DLL.
* `renew_described_iff`: What an event gets without the map.
* `same_iff_agrees`: One call with the map and without.
* `formatEventDescription_transparent_iff`: When the map changes nothing.
* `formatEventDescription_overlap`: Two DLLs with a message for the same event.
-/

namespace Defender

namespace SysLog

namespace Messages

open Machine

/-- A registry and DLLs that do not change. -/
structure Setting where
  regOpenKeyExA : List Char → Bool
  regQueryValueExA : List Char → Option (List Char)
  expandEnvironmentStringsA : List Char → List Char
  loadLibraryExA : List Char → Option HMODULE
  formatMessageA : HMODULE → UInt32 → List (List Char) → Option (List Char)

namespace Setting

/-- What the calls come to, the same in every call. -/
def world (w : Setting) : World where
  regOpenKeyExA := w.regOpenKeyExA
  regQueryValueExA := w.regQueryValueExA
  expandEnvironmentStringsA := w.expandEnvironmentStringsA
  loadLibraryExA := fun _ => w.loadLibraryExA
  formatMessageA := fun _ => w.formatMessageA

/-- The text that a module has for an event. -/
def message (w : Setting) (h : HMODULE) (args : Args) : Option (List Char) :=
  usable (w.formatMessageA h args.dwEventID args.pFormatString)

/-- The paths of the source. -/
def dllPath (w : Setting) (args : Args) : DllPath :=
  getEventDescriptionDllPath w.world args.pLogName args.pLogSource

/-- The module of a path with its text for the event. -/
def asked (w : Setting) (args : Args) (path : List Char) : Option (HMODULE × List Char) :=
  (w.loadLibraryExA (w.expandEnvironmentStringsA path)).bind
    (fun h => (w.message h args).map (fun text => (h, text)))

/-- The first DLL of the source that has the message of the event, and its text. -/
def firstDll (w : Setting) (args : Args) : Option (HMODULE × List Char) :=
  match w.dllPath args with
  | .found sDllPath => (sDllPath.splitOn ';').findSome? (w.asked args)
  | .missing => none
  | .terminated => none

/-- One more call. -/
def call (w : Setting) (s : Program) (args : Args) : Option Program :=
  step s (w.world, args)

end Setting

open Setting

/-! ### What is asked for -/

/-- Every call of the run comes back with what it would come back with on an empty map. -/
def Transparent (w : Setting) (calls : List Args) : Prop :=
  StepsMeet w.call (fun s args =>
    (formatEventDescription w.world args s.g_MapDllHModule).returned
      = (formatEventDescription w.world args ∅).returned) start calls

/-- The module in the map has the text of the first DLL, if it has any. -/
def Agrees (w : Setting) (s : Program) (args : Args) : Prop :=
  ∀ h text, s.g_MapDllHModule.lookup args.strSource = some (some h) →
    w.message h args = some text → ∃ h', w.firstDll args = some (h', text)

/-- A DLL that is the first for one event of a source has for the other events of the source
    no text but that of the DLL that is the first for them. -/
def FirstAgrees (w : Setting) : Prop :=
  ∀ a b : Args, a.strSource = b.strSource → ∀ h text textB, w.firstDll a = some (h, text) →
    w.message h b = some textB → ∃ h', w.firstDll b = some (h', textB)

/-- What the entries of the map come from. -/
structure KnownBy (w : Setting) (m : ModuleMap) : Prop where
  missing : ∀ args : Args, m.lookup args.strSource = some none → w.dllPath args = .missing
  served : ∀ (args : Args) (h : HMODULE), m.lookup args.strSource = some (some h) →
    ∃ a text, a.strSource = args.strSource ∧ w.firstDll a = some (h, text)

/-! ### Without the map -/

variable {w : Setting}

/-- The paths are those of the name of the source. -/
theorem dllPath_congr {a b : Args} (h : a.strSource = b.strSource) :
    w.dllPath a = w.dllPath b := by
  unfold Setting.dllPath getEventDescriptionDllPath
  rw [show a.pLogName ++ ['\\'] ++ a.pLogSource = b.pLogName ++ ['\\'] ++ b.pLogSource from h]

/-- The loop finds the first DLL. -/
theorem tryPaths_found (args : Args) (n : Nat) (paths : List (List Char)) :
    (tryPaths w.world args n paths).found = paths.findSome? (w.asked args) := by
  fun_induction tryPaths w.world args n paths with
  | case1 => rfl
  | case2 n path rest hload ih =>
      have hnone : w.loadLibraryExA (w.expandEnvironmentStringsA path) = none := hload
      rw [List.findSome?_cons, Setting.asked, hnone]
      exact ih
  | case3 n path rest h hload text hsaid =>
      have hsome : w.loadLibraryExA (w.expandEnvironmentStringsA path) = some h := hload
      rw [List.findSome?_cons, Setting.asked, hsome, Option.bind_some,
        show w.message h args = some text from hsaid]
      rfl
  | case4 n path rest h hload hsaid later ih =>
      have hsome : w.loadLibraryExA (w.expandEnvironmentStringsA path) = some h := hload
      rw [List.findSome?_cons, Setting.asked, hsome, Option.bind_some,
        show w.message h args = none from hsaid]
      exact ih

/-- An event gets the text of the first DLL. -/
theorem renew_described_iff (args : Args) (m : ModuleMap) (text : List Char) :
    (renew w.world args m).returned = .described text ↔
      ∃ h, w.firstDll args = some (h, text) := by
  unfold renew Setting.firstDll Setting.dllPath
  cases getEventDescriptionDllPath w.world args.pLogName args.pLogSource with
  | terminated => simp only [reduceCtorEq, exists_false]
  | missing => simp only [reduceCtorEq, exists_false]
  | found sDllPath =>
      simp only [tryPaths_found]
      cases (sDllPath.splitOn ';').findSome? (w.asked args) with
      | none => simp only [reduceCtorEq, exists_false]
      | some found =>
          rcases found with ⟨h, text'⟩
          simp only [Returned.described.injEq, Option.some.injEq, Prod.mk.injEq]
          exact ⟨fun heq => ⟨h, rfl, heq⟩, fun ⟨_, _, heq⟩ => heq⟩

theorem formatEventDescription_empty (args : Args) :
    formatEventDescription w.world args ∅ = renew w.world args ∅ :=
  formatEventDescription_of_none (AList.lookup_empty args.strSource)

/-! ### One call -/

/-- With the map and without, a call comes back with the same exactly when the module in the
    map agrees. -/
theorem same_iff_agrees {s : Program} (hs : KnownBy w s.g_MapDllHModule) (args : Args) :
    (formatEventDescription w.world args s.g_MapDllHModule).returned
        = (formatEventDescription w.world args ∅).returned ↔ Agrees w s args := by
  rw [formatEventDescription_empty]
  cases hlookup : s.g_MapDllHModule.lookup args.strSource with
  | none =>
      rw [formatEventDescription_of_none hlookup]
      refine iff_of_true (renew_returned _ _ _ _) (fun h text hc => ?_)
      rw [hlookup] at hc
      exact absurd hc (by simp only [reduceCtorEq, not_false_eq_true])
  | some cached =>
      cases cached with
      | none =>
          -- a failure that is kept: the registry has no paths now either
          have hmissing : getEventDescriptionDllPath w.world args.pLogName args.pLogSource
              = .missing := hs.missing args hlookup
          rw [formatEventDescription_of_null hlookup]
          refine iff_of_true (by rw [renew, hmissing]) (fun h text hc => ?_)
          rw [hlookup] at hc
          exact absurd hc (by simp only [Option.some.injEq, reduceCtorEq, not_false_eq_true])
      | some hModule =>
          cases hsaid : usable
              (w.world.formatMessageA 0 hModule args.dwEventID args.pFormatString) with
          | none =>
              rw [formatEventDescription_of_unsaid hlookup hsaid]
              refine iff_of_true (renew_returned _ _ _ _) (fun h text hc htext => ?_)
              rw [hlookup, Option.some.injEq, Option.some.injEq] at hc
              rw [← hc, show w.message hModule args = none from hsaid] at htext
              exact absurd htext (by simp only [reduceCtorEq, not_false_eq_true])
          | some said =>
              rw [formatEventDescription_of_said hlookup hsaid]
              constructor
              · intro hsame h text hc htext
                rw [hlookup, Option.some.injEq, Option.some.injEq] at hc
                rw [← hc, show w.message hModule args = some said from hsaid,
                  Option.some.injEq] at htext
                exact (renew_described_iff args ∅ text).mp (htext ▸ hsame.symm)
              · intro hagrees
                exact ((renew_described_iff args ∅ said).mpr
                  (hagrees hModule said hlookup hsaid)).symm

/-- A source that is taken out of the map. -/
theorem KnownBy.erase {m : ModuleMap} (hm : KnownBy w m) (name : List Char) :
    KnownBy w (m.erase name) := by
  have hsub : ∀ (k : List Char) (v : Option HMODULE), (m.erase name).lookup k = some v →
      m.lookup k = some v := by
    intro k v hk
    by_cases heq : k = name
    · rw [heq, AList.lookup_erase] at hk
      exact absurd hk (by simp only [reduceCtorEq, not_false_eq_true])
    · rw [AList.lookup_erase_ne heq] at hk
      exact hk
  exact ⟨fun args hl => hm.missing args (hsub _ _ hl),
    fun args h hl => hm.served args h (hsub _ _ hl)⟩

/-- A source that gets an entry. -/
theorem KnownBy.insert {m : ModuleMap} (hm : KnownBy w m) (a : Args) (v : Option HMODULE)
    (hnone : v = none → w.dllPath a = .missing)
    (hsome : ∀ h, v = some h → ∃ text, w.firstDll a = some (h, text)) :
    KnownBy w (m.insert a.strSource v) := by
  constructor
  · intro args hl
    by_cases heq : args.strSource = a.strSource
    · rw [heq, AList.lookup_insert, Option.some.injEq] at hl
      rw [dllPath_congr heq]
      exact hnone hl
    · rw [AList.lookup_insert_ne heq] at hl
      exact hm.missing args hl
  · intro args h hl
    by_cases heq : args.strSource = a.strSource
    · rw [heq, AList.lookup_insert, Option.some.injEq] at hl
      rcases hsome h hl with ⟨text, htext⟩
      exact ⟨a, text, heq.symm, htext⟩
    · rw [AList.lookup_insert_ne heq] at hl
      exact hm.served args h hl

theorem renew_knownBy {m : ModuleMap} (hm : KnownBy w m) (args : Args) :
    KnownBy w (renew w.world args m).g_MapDllHModule := by
  unfold renew
  cases hpath : getEventDescriptionDllPath w.world args.pLogName args.pLogSource with
  | terminated => exact hm
  | missing =>
      exact hm.insert args none (fun _ => hpath)
        (fun h hc => absurd hc (by simp only [reduceCtorEq, not_false_eq_true]))
  | found sDllPath =>
      have hfirst : w.firstDll args = (tryPaths w.world args 0 (sDllPath.splitOn ';')).found := by
        rw [tryPaths_found, Setting.firstDll, Setting.dllPath, hpath]
      simp only
      cases hfound : (tryPaths w.world args 0 (sDllPath.splitOn ';')).found with
      | none => exact hm
      | some found =>
          refine hm.insert args (some found.1)
            (fun hc => absurd hc (by simp only [reduceCtorEq, not_false_eq_true])) ?_
          intro h hc
          rw [Option.some.injEq] at hc
          exact ⟨found.2, by rw [hfirst, hfound, ← hc]⟩

/-- What the map has comes from calls. -/
theorem formatEventDescription_knownBy {m : ModuleMap} (hm : KnownBy w m) (args : Args) :
    KnownBy w (formatEventDescription w.world args m).g_MapDllHModule := by
  cases hlookup : m.lookup args.strSource with
  | none =>
      rw [formatEventDescription_of_none hlookup]
      exact renew_knownBy hm args
  | some cached =>
      cases cached with
      | none =>
          rw [formatEventDescription_of_null hlookup]
          exact hm
      | some hModule =>
          cases hsaid : usable
              (w.world.formatMessageA 0 hModule args.dwEventID args.pFormatString) with
          | none =>
              rw [formatEventDescription_of_unsaid hlookup hsaid]
              exact renew_knownBy (hm.erase args.strSource) args
          | some said =>
              rw [formatEventDescription_of_said hlookup hsaid]
              exact hm

/-! ### A run of calls -/

theorem call_eq_some {s t : Program} {args : Args} (h : w.call s args = some t) :
    t.g_MapDllHModule
      = (formatEventDescription w.world args s.g_MapDllHModule).g_MapDllHModule := by
  unfold Setting.call Messages.step at h
  by_cases hended : s.ended = true
  · rw [if_pos hended] at h
    exact absurd h (by simp only [reduceCtorEq, not_false_eq_true])
  · rw [if_neg hended, Option.some.injEq] at h
    rw [← h]

theorem knownBy_start : KnownBy w start.g_MapDllHModule where
  missing := fun args hl =>
    absurd hl (by simp only [start, AList.lookup_empty, reduceCtorEq, not_false_eq_true])
  served := fun args h hl =>
    absurd hl (by simp only [start, AList.lookup_empty, reduceCtorEq, not_false_eq_true])

/-- The map changes nothing in a run exactly when at every call the module in it agrees. -/
theorem transparent_iff_stepsMeet (calls : List Args) :
    Transparent w calls ↔ StepsMeet w.call (Agrees w) start calls := by
  refine stepsMeet_congr w.call (fun s => KnownBy w s.g_MapDllHModule) _ _
    (fun s args t hs hst => ?_) (fun s args hs => same_iff_agrees hs args) start calls ?_
  · rw [call_eq_some hst]
    exact formatEventDescription_knownBy hs args
  · exact knownBy_start

/-- The first call of a source puts the DLL that is first in the map. -/
theorem call_of_firstDll {args : Args} {h : HMODULE} {text : List Char}
    (hfirst : w.firstDll args = some (h, text)) :
    ∃ s, w.call start args = some s ∧
      s.g_MapDllHModule.lookup args.strSource = some (some h) := by
  refine ⟨_, rfl, ?_⟩
  change (formatEventDescription w.world args ∅).g_MapDllHModule.lookup args.strSource = _
  rw [formatEventDescription_empty, renew]
  unfold Setting.firstDll Setting.dllPath at hfirst
  cases hpath : getEventDescriptionDllPath w.world args.pLogName args.pLogSource with
  | terminated =>
      rw [hpath] at hfirst
      exact absurd hfirst (by simp only [reduceCtorEq, not_false_eq_true])
  | missing =>
      rw [hpath] at hfirst
      exact absurd hfirst (by simp only [reduceCtorEq, not_false_eq_true])
  | found sDllPath =>
      rw [hpath] at hfirst
      simp only [tryPaths_found]
      rw [show (sDllPath.splitOn ';').findSome? (w.asked args) = some (h, text) from hfirst]
      exact AList.lookup_insert _

/-- In a setting whose first DLLs agree, the module in the map agrees. -/
theorem FirstAgrees.agrees (hw : FirstAgrees w) {s : Program} (hs : KnownBy w s.g_MapDllHModule)
    (args : Args) : Agrees w s args := by
  intro h text hlookup htext
  rcases hs.served args h hlookup with ⟨a, textA, hsource, hfirst⟩
  exact hw a args hsource h textA text hfirst htext

/-- The map changes nothing in a run exactly when at every call the module in it agrees, and
    nothing in any run exactly when the first DLLs of the setting agree. -/
theorem formatEventDescription_transparent_iff (w : Setting) :
    (∀ calls, Transparent w calls ↔ StepsMeet w.call (Agrees w) start calls) ∧
      ((∀ calls, Transparent w calls) ↔ FirstAgrees w) := by
  refine ⟨transparent_iff_stepsMeet, fun htransparent => ?_, fun hw calls => ?_⟩
  · -- the event for which the DLL is first, and then the other one
    intro a b hsource h text textB hfirst hmessage
    have hmeets := (transparent_iff_stepsMeet [a, b]).mp (htransparent [a, b])
    rcases call_of_firstDll hfirst with ⟨s, hs, hlookup⟩
    rw [hsource] at hlookup
    exact (hmeets.2 s hs).1 h textB hlookup hmessage
  · refine (transparent_iff_stepsMeet calls).mpr ?_
    refine (stepsMeet_congr w.call (fun s => KnownBy w s.g_MapDllHModule) (fun _ _ => True)
      (Agrees w) (fun s args t hs hst => ?_)
      (fun s args hs => iff_of_true trivial (hw.agrees hs args)) start calls knownBy_start).mp
      (stepsMeet_of_forall w.call _ start calls (fun _ _ _ => trivial))
    rw [call_eq_some hst]
    exact formatEventDescription_knownBy hs args

/-! ### Two DLLs with a message for the same event -/

/-- The DLL `a` has a message for the event 2, and `b` for the events 1 and 2. -/
def overlap : Setting where
  regOpenKeyExA := fun _ => true
  regQueryValueExA := fun _ => some ['a', ';', 'b']
  expandEnvironmentStringsA := id
  loadLibraryExA := fun path => if path = ['a'] then some 1 else some 2
  formatMessageA := fun h dwEventID _ =>
    if h = 1 then (if dwEventID = 2 then some ['x'] else none) else some ['y']

/-- An event of the source of the two. -/
def overlapEvent (dwEventID : UInt32) : Args :=
  ⟨dwEventID, ['S'], ['a'], []⟩

/-- The event 2 has its text from `a`, but after the event 1 from `b`. -/
theorem formatEventDescription_overlap :
    (formatEventDescription overlap.world (overlapEvent 2) ∅).returned = .described ['x'] ∧
      (∃ s, overlap.call start (overlapEvent 1) = some s ∧
        (formatEventDescription overlap.world (overlapEvent 2) s.g_MapDllHModule).returned
          = .described ['y']) ∧
      ¬ Transparent overlap [overlapEvent 1, overlapEvent 2] := by
  refine ⟨by decide, ⟨_, rfl, by decide⟩, fun htransparent => ?_⟩
  have hsame := (htransparent.2 _ rfl).1
  exact absurd hsame (by decide)

end Messages

end SysLog

end Defender
