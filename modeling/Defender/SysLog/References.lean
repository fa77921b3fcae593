import Defender.SysLog.MessageDlls

/-!
# The References to Message DLLs

`LoadLibraryExA` counts the references to a module, and `FreeLibrary` gives one
back. What the map has are references: whatever the calls of the system come to,
a module has been loaded as many times more than it was released as it is in the
map, and only modules that are loaded are asked for a message
(`formatEventDescription_references`).

A call leaves a reference behind for the entry that it makes, and it makes one
only where the map has none of that name: either the name was not there, or the
entry was just taken out and its reference given back.

## Main definitions

* `held`: Loads less releases.
* `entriesOf`: The entries with a module.
* `FormatsHeld`: Modules that are asked are loaded.
* `Counted`: The references are those of the map.

## Theorems

* `tryPaths_held`, `tryPaths_formatsHeld`: The loop over the paths.
* `formatEventDescription_held`, `formatEventDescription_formatsHeld`: One call.
* `formatEventDescription_references`: Any number of calls.
-/

namespace Defender

namespace SysLog

namespace Messages

open Machine

/-- The loads of a module less its releases. -/
def held (es : List Event) (h : HMODULE) : Int :=
  (es.count (.load h) : Int) - es.count (.free h)

/-- The number of entries with a module. -/
def entriesOf (m : ModuleMap) (h : HMODULE) : Nat :=
  m.entries.countP (fun e => e.2 = some h)

/-- Modules that are asked for a message are loaded, `c` being what was held before. -/
def FormatsHeld (c : HMODULE → Int) (es : List Event) : Prop :=
  ∀ before h after, es = before ++ .format h :: after → 0 < c h + held before h

/-- The references are those of the map, and every module that was asked was loaded. -/
structure Counted (s : Program) : Prop where
  balanced : ∀ h, held s.trace h = entriesOf s.g_MapDllHModule h
  formatted : ∀ before h after, s.trace = before ++ .format h :: after → 0 < held before h

/-! ### Counting -/

theorem held_append (a b : List Event) (h : HMODULE) : held (a ++ b) h = held a h + held b h := by
  unfold held
  rw [List.count_append, List.count_append]
  omega

theorem held_nil (h : HMODULE) : held [] h = 0 := rfl

theorem held_load (h h' : HMODULE) : held [.load h] h' = if h = h' then 1 else 0 := by
  simp only [held, List.count_singleton, beq_iff_eq, Event.load.injEq, reduceCtorEq, if_false]
  by_cases heq : h = h'
  · rw [if_pos heq, if_pos heq]
    rfl
  · rw [if_neg heq, if_neg heq]
    rfl

theorem held_format (h h' : HMODULE) : held [.format h] h' = 0 := by
  simp only [held, List.count_singleton, beq_iff_eq, reduceCtorEq, if_false]
  rfl

theorem held_free (h h' : HMODULE) : held [.free h] h' = if h = h' then -1 else 0 := by
  simp only [held, List.count_singleton, beq_iff_eq, Event.free.injEq, reduceCtorEq, if_false]
  by_cases heq : h = h'
  · rw [if_pos heq, if_pos heq]
    rfl
  · rw [if_neg heq, if_neg heq]
    rfl

/-- A module that is loaded, asked and released is held as before. -/
theorem held_load_format_free (h h' : HMODULE) :
    held [.load h, .format h, .free h] h' = 0 := by
  rw [show [Event.load h, .format h, .free h] = [.load h] ++ [.format h] ++ [.free h] from rfl,
    held_append, held_append, held_load, held_format, held_free]
  by_cases heq : h = h'
  · rw [if_pos heq, if_pos heq]
    rfl
  · rw [if_neg heq, if_neg heq]
    rfl

/-- A module that is asked and released is held once less. -/
theorem held_format_free (h h' : HMODULE) :
    held [.format h, .free h] h' = if h = h' then -1 else 0 := by
  rw [show [Event.format h, .free h] = [.format h] ++ [.free h] from rfl, held_append,
    held_format, held_free, Int.zero_add]

theorem formatsHeld_nil (c : HMODULE → Int) : FormatsHeld c [] :=
  fun before _ after hsplit => absurd hsplit.symm (List.append_ne_nil_of_right_ne_nil before
    (List.cons_ne_nil _ after))

/-- One thing more at the beginning. -/
theorem FormatsHeld.cons {c : HMODULE → Int} {e : Event} {es : List Event}
    (hfirst : ∀ h, e = .format h → 0 < c h)
    (hrest : FormatsHeld (fun h => c h + held [e] h) es) : FormatsHeld c (e :: es) := by
  intro before h after hsplit
  cases before with
  | nil =>
      rw [List.nil_append, List.cons.injEq] at hsplit
      rw [held_nil, Int.add_zero]
      exact hfirst h hsplit.1
  | cons e' before =>
      rw [List.cons_append, List.cons.injEq] at hsplit
      have hheld : 0 < c h + held [e] h + held before h := hrest before h after hsplit.2
      rw [← hsplit.1, ← List.singleton_append, held_append]
      omega

/-- What is asked later is asked with what is held then. -/
theorem FormatsHeld.append {c : HMODULE → Int} {a b : List Event} (ha : FormatsHeld c a)
    (hb : FormatsHeld (fun h => c h + held a h) b) : FormatsHeld c (a ++ b) := by
  intro before h after hsplit
  rcases List.append_eq_append_iff.mp hsplit with ⟨mid, hbefore, hrest⟩ | ⟨mid, ha', hrest⟩
  · have hheld : 0 < c h + held a h + held mid h := hb mid h after hrest
    rw [hbefore, held_append]
    omega
  · cases mid with
    | nil =>
        rw [List.nil_append] at hrest
        rw [List.append_nil] at ha'
        have hheld := hb [] h after hrest.symm
        rw [← ha']
        rw [held_nil, Int.add_zero] at hheld
        exact hheld
    | cons e mid =>
        rw [List.cons_append, List.cons.injEq] at hrest
        exact ha before h mid (by rw [ha', hrest.1])

/-! ### The map -/

/-- A new entry. -/
theorem entriesOf_insert {m : ModuleMap} {k : List Char} (hk : m.lookup k = none)
    (v : Option HMODULE) (h : HMODULE) :
    entriesOf (m.insert k v) h = entriesOf m h + if v = some h then 1 else 0 := by
  have hnot : k ∉ m := AList.lookup_eq_none.mp hk
  rw [entriesOf, AList.entries_insert_of_notMem hnot, List.countP_cons]
  simp only [decide_eq_true_eq]
  rfl

/-- An entry less. -/
theorem entriesOf_erase {m : ModuleMap} {k : List Char} {v : Option HMODULE}
    (hk : m.lookup k = some v) (h : HMODULE) :
    entriesOf (m.erase k) h + (if v = some h then 1 else 0) = entriesOf m h := by
  have hmem : k ∈ m.entries.keys := by
    rw [← AList.keys, ← AList.mem_keys, ← AList.lookup_isSome, hk]
    rfl
  rcases List.exists_of_kerase hmem with ⟨b, l₁, l₂, hl₁, hentries, herase⟩
  have hb : b = v := by
    have hlookup : m.lookup k = some b := by
      refine AList.mem_lookup_iff.mpr ?_
      rw [hentries]
      exact List.mem_append_right l₁ List.mem_cons_self
    rw [hk] at hlookup
    exact (Option.some.inj hlookup).symm
  have herased : (m.erase k).entries = l₁ ++ l₂ := herase
  rw [entriesOf, entriesOf, herased, hentries, List.countP_append, List.countP_append,
    List.countP_cons, hb]
  simp only [decide_eq_true_eq]
  omega

/-! ### One call -/

variable (world : World) (args : Args)

/-- Of what the loop loads, it keeps the module that has the message. -/
theorem tryPaths_held (n : Nat) (paths : List (List Char)) (h : HMODULE) :
    held (tryPaths world args n paths).events h
      = if (tryPaths world args n paths).found.map Prod.fst = some h then 1 else 0 := by
  fun_induction tryPaths world args n paths with
  | case1 => rfl
  | case2 n pCurStr rest hload ih => exact ih
  | case3 n pCurStr rest hModule hload text hsaid =>
      -- the DLL has the message, and stays
      simp only [Option.map_some, Option.some.injEq]
      rw [show [Event.load hModule, .format hModule] = [.load hModule] ++ [.format hModule]
        from rfl, held_append, held_load, held_format, Int.add_zero]
  | case4 n pCurStr rest hModule hload hsaid later ih =>
      -- it does not have it, and is released
      simp only
      rw [held_append, held_load_format_free, Int.zero_add]
      exact ih

/-- The loop asks modules that it has loaded. -/
theorem tryPaths_formatsHeld (n : Nat) (paths : List (List Char)) (c : HMODULE → Int)
    (hc : ∀ h, 0 ≤ c h) : FormatsHeld c (tryPaths world args n paths).events := by
  have hask : ∀ hModule : HMODULE, FormatsHeld c [.load hModule, .format hModule] := by
    intro hModule
    refine FormatsHeld.cons (fun h heq => absurd heq (by
      simp only [reduceCtorEq, not_false_eq_true])) (FormatsHeld.cons ?_ (formatsHeld_nil _))
    intro h heq
    have hload := held_load hModule h
    rw [if_pos (Event.format.inj heq)] at hload
    have := hc h
    omega
  fun_induction tryPaths world args n paths with
  | case1 => exact formatsHeld_nil c
  | case2 n pCurStr rest hload ih => exact ih
  | case3 n pCurStr rest hModule hload text hsaid => exact hask hModule
  | case4 n pCurStr rest hModule hload hsaid later ih =>
      have hback : (fun h => c h + held [.load hModule, .format hModule, .free hModule] h) = c := by
        funext h
        rw [held_load_format_free, Int.add_zero]
      refine FormatsHeld.append ((hask hModule).append (b := [.free hModule]) ?_) ?_
      · exact FormatsHeld.cons (fun h heq => absurd heq (by
          simp only [reduceCtorEq, not_false_eq_true])) (formatsHeld_nil _)
      · rw [hback]
        exact ih

/-- Behind `RENEW` the map has nothing under the name of the source, and what is loaded
    for good is what it gets. -/
theorem renew_held {m : ModuleMap} (hm : m.lookup args.strSource = none) (h : HMODULE) :
    held (renew world args m).events h
      = entriesOf (renew world args m).g_MapDllHModule h - entriesOf m h := by
  unfold renew
  cases getEventDescriptionDllPath world args.pLogName args.pLogSource with
  | terminated =>
      simp only [held_nil]
      omega
  | missing =>
      simp only [held_nil]
      rw [entriesOf_insert hm, if_neg (by simp only [reduceCtorEq, not_false_eq_true])]
      omega
  | found sDllPath =>
      have htried := tryPaths_held world args 0 (sDllPath.splitOn ';') h
      simp only
      cases hfound : (tryPaths world args 0 (sDllPath.splitOn ';')).found with
      | none =>
          rw [hfound, Option.map_none, if_neg (by simp only [reduceCtorEq, not_false_eq_true])]
            at htried
          simp only [htried]
          omega
      | some found =>
          rw [hfound, Option.map_some] at htried
          simp only [htried]
          rw [entriesOf_insert hm]
          by_cases heq : some found.1 = some h
          · rw [if_pos heq, if_pos heq]
            omega
          · rw [if_neg heq, if_neg heq]
            omega

theorem renew_formatsHeld (m : ModuleMap) (c : HMODULE → Int) (hc : ∀ h, 0 ≤ c h) :
    FormatsHeld c (renew world args m).events := by
  unfold renew
  cases getEventDescriptionDllPath world args.pLogName args.pLogSource with
  | terminated => exact formatsHeld_nil c
  | missing => exact formatsHeld_nil c
  | found sDllPath =>
      have htried := tryPaths_formatsHeld world args 0 (sDllPath.splitOn ';') c hc
      simp only
      cases (tryPaths world args 0 (sDllPath.splitOn ';')).found with
      | none => exact htried
      | some found => exact htried

/-- A call changes the references as it changes the map. -/
theorem formatEventDescription_held (m : ModuleMap) (h : HMODULE) :
    held (formatEventDescription world args m).events h
      = entriesOf (formatEventDescription world args m).g_MapDllHModule h - entriesOf m h := by
  cases hlookup : m.lookup args.strSource with
  | none =>
      rw [formatEventDescription_of_none hlookup]
      exact renew_held world args hlookup h
  | some cached =>
      cases cached with
      | none =>
          rw [formatEventDescription_of_null hlookup]
          simp only [held_nil]
          omega
      | some hModule =>
          cases hsaid : usable
              (world.formatMessageA 0 hModule args.dwEventID args.pFormatString) with
          | some text =>
              rw [formatEventDescription_of_said hlookup hsaid]
              simp only [held_format]
              omega
          | none =>
              -- The old module is freed and erased before a new one is looked for.
              rw [formatEventDescription_of_unsaid hlookup hsaid]
              have hrenew := renew_held world args (m := m.erase args.strSource)
                (AList.lookup_erase args.strSource m) h
              have herase := entriesOf_erase hlookup h
              simp only
              rw [held_append, hrenew, held_format_free]
              by_cases heq : hModule = h
              · rw [if_pos (congrArg some heq)] at herase
                rw [if_pos heq]
                omega
              · rw [if_neg (fun hc => heq (Option.some.inj hc))] at herase
                rw [if_neg heq]
                omega

/-- A call asks modules of the map, and modules that it has loaded. -/
theorem formatEventDescription_formatsHeld (m : ModuleMap) :
    FormatsHeld (fun h => entriesOf m h) (formatEventDescription world args m).events := by
  have hnonneg : ∀ h, (0 : Int) ≤ entriesOf m h := fun h => Int.natCast_nonneg _
  cases hlookup : m.lookup args.strSource with
  | none =>
      rw [formatEventDescription_of_none hlookup]
      exact renew_formatsHeld world args m _ hnonneg
  | some cached =>
      cases cached with
      | none =>
          rw [formatEventDescription_of_null hlookup]
          exact formatsHeld_nil _
      | some hModule =>
          have herase : ∀ h, entriesOf (m.erase args.strSource) h
              + (if some hModule = some h then 1 else 0) = entriesOf m h :=
            fun h => entriesOf_erase hlookup h
          -- the entry of the map is a reference to the module that is asked
          have hask : FormatsHeld (fun h => (entriesOf m h : Int)) [.format hModule] := by
            refine FormatsHeld.cons (fun h heq => ?_) (formatsHeld_nil _)
            have hone := herase h
            rw [if_pos (congrArg some (Event.format.inj heq))] at hone
            omega
          cases hsaid : usable
              (world.formatMessageA 0 hModule args.dwEventID args.pFormatString) with
          | some text =>
              rw [formatEventDescription_of_said hlookup hsaid]
              exact hask
          | none =>
              rw [formatEventDescription_of_unsaid hlookup hsaid]
              refine FormatsHeld.append (hask.append (b := [.free hModule]) ?_) ?_
              · exact FormatsHeld.cons (fun h heq => absurd heq (by
                  simp only [reduceCtorEq, not_false_eq_true])) (formatsHeld_nil _)
              · refine renew_formatsHeld world args _ _ (fun h => ?_)
                have hone := herase h
                rw [held_format_free]
                by_cases heq : hModule = h
                · rw [if_pos (congrArg some heq)] at hone
                  rw [if_pos heq]
                  omega
                · rw [if_neg (fun hc => heq (Option.some.inj hc))] at hone
                  rw [if_neg heq]
                  omega

/-! ### Any number of calls -/

/-- One more call keeps the references those of the map. -/
theorem Counted.step {s t : Program} {call : World × Args} (hs : Counted s)
    (hstep : step s call = some t) : Counted t := by
  unfold Messages.step at hstep
  by_cases hended : s.ended = true
  · rw [if_pos hended] at hstep
    exact absurd hstep (by simp only [reduceCtorEq, not_false_eq_true])
  rw [if_neg hended, Option.some.injEq] at hstep
  rw [← hstep]
  constructor
  · intro h
    have hcall := formatEventDescription_held call.1 call.2 s.g_MapDllHModule h
    have hbefore := hs.balanced h
    simp only
    rw [held_append]
    omega
  · have hcall := formatEventDescription_formatsHeld call.1 call.2 s.g_MapDllHModule
    have htrace : FormatsHeld (fun _ => 0) s.trace := fun before h after hsplit => by
      rw [Int.zero_add]
      exact hs.formatted before h after hsplit
    have hall := htrace.append (b := (formatEventDescription call.1 call.2
      s.g_MapDllHModule).events) (by
        simp only [Int.zero_add, hs.balanced]
        exact hcall)
    intro before h after hsplit
    have hpos := hall before h after hsplit
    rw [Int.zero_add] at hpos
    exact hpos

theorem counted_start : Counted start where
  balanced := fun _ => rfl
  formatted := fun before h after hsplit => by
    have hpos := formatsHeld_nil (fun _ => 0) before h after hsplit
    rw [Int.zero_add] at hpos
    exact hpos

/-- Whatever the calls of the system come to, the references are those of the map, and every
    module that is asked for a message is loaded. -/
theorem formatEventDescription_references (calls : List (World × Args)) (s : Program)
    (hrun : Machine.run step start calls = some s) :
    (∀ h, held s.trace h = entriesOf s.g_MapDllHModule h) ∧
      ∀ before h after, s.trace = before ++ .format h :: after → 0 < held before h := by
  have hcounted := run_invariant step Counted (fun s call t hs hst => hs.step hst) start s calls
    counted_start hrun
  exact ⟨hcounted.balanced, hcounted.formatted⟩

/-- Two sources with the same DLL. -/
def sharedDll : World where
  regOpenKeyExA := fun _ => true
  regQueryValueExA := fun _ => some ['d', 'l', 'l']
  expandEnvironmentStringsA := id
  loadLibraryExA := fun _ _ => some 1
  formatMessageA := fun _ _ _ _ => some ['t', 'e', 'x', 't']

/-- An event of each. -/
def sharedCalls : List (World × Args) :=
  [(sharedDll, ⟨7, ['S'], ['a'], []⟩), (sharedDll, ⟨7, ['S'], ['b'], []⟩)]

/-- The module is held twice then. -/
theorem formatEventDescription_references_shared :
    ∃ s, Machine.run step start sharedCalls = some s ∧ held s.trace 1 = 2 ∧
      (∀ h, held s.trace h = entriesOf s.g_MapDllHModule h) ∧
        ∀ before h after, s.trace = before ++ .format h :: after → 0 < held before h :=
  ⟨_, rfl, by decide, formatEventDescription_references sharedCalls _ rfl⟩

end Messages

end SysLog

end Defender
