import Mathlib.Tactic.TypeStar

/-!
# Labelled Machines

A machine is a partial step function: a state and a label give the next state,
or nothing when the label is not enabled there. A list of labels is then a
schedule, and the state it ends in is a fold, so a schedule can be evaluated
as well as reasoned about.

Everything here is about folding a step over a schedule. An invariant is
proved once for a single step and once for the start; `run_invariant` turns
that into a fact about every state a schedule reaches. Often a step preserves
the invariant only when the state before it meets a side condition, and
`StepsMeet` is that side condition demanded of every step of a schedule, each
judged in the state the step is taken from.

## Main definitions

* `run`: Folding the step over a schedule.
* `StepsMeet`: Every step of a schedule meets a condition on the state before
  it.
* `Throughout`: Every state a schedule goes through meets a condition.
* `observed`: What is observed of a loop that may fail.

## Theorems

* `run_cons`: A schedule runs when its first step does and the rest does.
* `run_append`: A schedule can be cut anywhere.
* `run_snoc`: Peeling the last step off a schedule.
* `run_invariant`: What one step preserves, a run preserves.
* `run_length_le`: What every step makes smaller bounds the length of a run.
* `run_total`: Where every step is enabled and keeps an invariant, the run is.
* `run_mono`: A step that does more runs what the other did.
* `run_invariant_of_stepsMeet`: The same, under a side condition on steps.
* `stepsMeet_congr`: Conditions that an invariant makes the same.
* `run_part`: A run of a whole is a run of each of its parts.
* `exists_of_not_stepsMeet`: A run that does not meet a side condition has a
  step that fails it.
* `throughout_of_stepsMeet`: What one step preserves under a side condition, a run has
  throughout.
* `throughout_iff_stepsMeet`: Where the side condition is exactly what keeps a
  property, a run has the property throughout when its steps meet it.
* `throughout_and_iff`: The same, where the labels are to do something as well,
  and the schedule may end in one that is not enabled.
* `observed_append`: A loop can be cut anywhere, and what is observed of it.
-/

namespace Machine

variable {σ ι : Type*} (step : σ → ι → Option σ)

/-- Take the labels of a schedule in order, or `none` at the first label that
    is not enabled. -/
def run (s : σ) (ls : List ι) : Option σ :=
  ls.foldlM step s

@[simp] theorem run_nil (s : σ) : run step s [] = some s := rfl

theorem run_cons (s t : σ) (l : ι) (ls : List ι) :
    run step s (l :: ls) = some t ↔ ∃ m, step s l = some m ∧ run step m ls = some t := by
  simp only [run, List.foldlM_cons, Option.bind_eq_bind, Option.bind_eq_some_iff]

theorem run_append (s t : σ) (ls ms : List ι) :
    run step s (ls ++ ms) = some t ↔ ∃ m, run step s ls = some m ∧ run step m ms = some t := by
  simp only [run, List.foldlM_append, Option.bind_eq_bind, Option.bind_eq_some_iff]

theorem run_snoc (s t : σ) (l : ι) (ls : List ι) :
    run step s (ls ++ [l]) = some t ↔ ∃ m, run step s ls = some m ∧ step m l = some t := by
  rw [run_append]
  constructor
  · rintro ⟨m, hm, hl⟩
    rcases (run_cons step m t l []).mp hl with ⟨u, hu, hnil⟩
    rw [run_nil, Option.some.injEq] at hnil
    exact ⟨m, hm, hnil ▸ hu⟩
  · rintro ⟨m, hm, hl⟩
    exact ⟨m, hm, (run_cons step m t l []).mpr ⟨t, hl, rfl⟩⟩

/-- Every step of the schedule meets `P`, judged in the state it is taken
    from. -/
def StepsMeet (P : σ → ι → Prop) : σ → List ι → Prop
  | _, [] => True
  | s, l :: ls => P s l ∧ ∀ m, step s l = some m → StepsMeet P m ls

instance stepsMeetDecidable (P : σ → ι → Prop) [∀ s l, Decidable (P s l)] :
    ∀ (s : σ) (ls : List ι), Decidable (StepsMeet step P s ls)
  | _, [] => isTrue trivial
  | s, l :: ls =>
      match hstep : step s l with
      | none => decidable_of_iff (P s l)
          ⟨fun h => ⟨h, fun m hm => absurd (hstep.symm.trans hm) (by
            simp only [reduceCtorEq, not_false_eq_true])⟩, fun h => h.1⟩
      | some m =>
          have := stepsMeetDecidable P m ls
          decidable_of_iff (P s l ∧ StepsMeet step P m ls)
            ⟨fun h => ⟨h.1, fun m' hm' => by
              rw [hstep, Option.some.injEq] at hm'
              exact hm' ▸ h.2⟩, fun h => ⟨h.1, h.2 m hstep⟩⟩

/-- A step that meets the condition, and the rest from where it leads. -/
theorem stepsMeet_cons {P : σ → ι → Prop} {s m : σ} {l : ι} {ls : List ι} (hl : P s l)
    (hstep : step s l = some m) (hrest : StepsMeet step P m ls) :
    StepsMeet step P s (l :: ls) :=
  ⟨hl, fun _ hm => Option.some.inj (hstep.symm.trans hm) ▸ hrest⟩

theorem stepsMeet_cons_iff (P : σ → ι → Prop) {s m : σ} {l : ι} (ls : List ι)
    (hstep : step s l = some m) :
    StepsMeet step P s (l :: ls) ↔ P s l ∧ StepsMeet step P m ls :=
  ⟨fun h => ⟨h.1, h.2 m hstep⟩, fun h => stepsMeet_cons step h.1 hstep h.2⟩

/-- A label that is not enabled is the last to be judged. -/
theorem stepsMeet_cons_none (P : σ → ι → Prop) {s : σ} {l : ι} (ls : List ι)
    (hstep : step s l = none) : StepsMeet step P s (l :: ls) ↔ P s l :=
  ⟨fun h => h.1, fun h => ⟨h, fun m hm =>
    absurd (hstep.symm.trans hm) (by simp only [reduceCtorEq, not_false_eq_true])⟩⟩

/-- A condition on labels alone is met when every label meets it. -/
theorem stepsMeet_of_forall (P : σ → ι → Prop) (s : σ) (ls : List ι)
    (h : ∀ s, ∀ l ∈ ls, P s l) : StepsMeet step P s ls := by
  induction ls generalizing s with
  | nil => trivial
  | cons l ls ih =>
      exact ⟨h s l List.mem_cons_self,
        fun m _ => ih m (fun s' l' hl' => h s' l' (List.mem_cons_of_mem l hl'))⟩

/-- What one step preserves under a side condition, a run preserves when all
    its steps meet it. -/
theorem run_invariant_of_stepsMeet (P : σ → ι → Prop) (Inv : σ → Prop)
    (hstep : ∀ s l t, Inv s → P s l → step s l = some t → Inv t)
    (s t : σ) (ls : List ι) (h0 : Inv s) (hP : StepsMeet step P s ls)
    (hrun : run step s ls = some t) : Inv t := by
  induction ls generalizing s with
  | nil =>
      rw [run_nil, Option.some.injEq] at hrun
      exact hrun ▸ h0
  | cons l ls ih =>
      rcases (run_cons step s t l ls).mp hrun with ⟨m, hm, hrest⟩
      exact ih m (hstep s l m h0 hP.1 hm) (hP.2 m hm) hrest

/-- Conditions that are the same in the states of an invariant are met by the same
    schedules. -/
theorem stepsMeet_congr (Inv : σ → Prop) (P Q : σ → ι → Prop)
    (hinv : ∀ s l t, Inv s → step s l = some t → Inv t)
    (hsame : ∀ s l, Inv s → (P s l ↔ Q s l)) (s : σ) (ls : List ι) (h0 : Inv s) :
    StepsMeet step P s ls ↔ StepsMeet step Q s ls := by
  induction ls generalizing s with
  | nil => exact Iff.rfl
  | cons l ls ih =>
      exact and_congr (hsame s l h0)
        (forall_congr' (fun m => forall_congr' (fun hm => ih m (hinv s l m h0 hm))))

/-- A run not all of whose steps meet a condition can be cut at a step that
    does not. -/
theorem exists_of_not_stepsMeet (P : σ → ι → Prop) (s t : σ) (ls : List ι)
    (hrun : run step s ls = some t) (hP : ¬ StepsMeet step P s ls) :
    ∃ ms l ns m u, ls = ms ++ l :: ns ∧ run step s ms = some m ∧ step m l = some u ∧
      run step u ns = some t ∧ ¬ P m l := by
  induction ls generalizing s with
  | nil => exact absurd trivial hP
  | cons l ls ih =>
      rcases (run_cons step s t l ls).mp hrun with ⟨m, hm, hrest⟩
      by_cases hl : P s l
      · have hrestP : ¬ StepsMeet step P m ls := by
          intro hmeet
          refine hP ⟨hl, fun m' hm' => ?_⟩
          rw [hm, Option.some.injEq] at hm'
          exact hm' ▸ hmeet
        rcases ih m hrest hrestP with ⟨ms, l', ns, m', u, rfl, hms, hstep, hns, hl'⟩
        exact ⟨l :: ms, l', ns, m', u, rfl, (run_cons step s m' l ms).mpr ⟨m, hm, hms⟩, hstep, hns,
          hl'⟩
      · exact ⟨[], l, ls, s, m, rfl, rfl, hm, hrest, hl⟩

/-- What one step preserves, a run preserves. -/
theorem run_invariant (Inv : σ → Prop)
    (hstep : ∀ s l t, Inv s → step s l = some t → Inv t)
    (s t : σ) (ls : List ι) (h0 : Inv s) (hrun : run step s ls = some t) : Inv t := by
  induction ls generalizing s with
  | nil =>
      rw [run_nil, Option.some.injEq] at hrun
      exact hrun ▸ h0
  | cons l ls ih =>
      rcases (run_cons step s t l ls).mp hrun with ⟨m, hm, hrest⟩
      exact ih m (hstep s l m h0 hm) hrest

/-- A schedule meets a condition when its first part does, and its rest does from
    where that leads. -/
theorem stepsMeet_append {P : σ → ι → Prop} {s : σ} {ls ms : List ι}
    (hls : StepsMeet step P s ls)
    (hms : ∀ m, run step s ls = some m → StepsMeet step P m ms) :
    StepsMeet step P s (ls ++ ms) := by
  induction ls generalizing s with
  | nil => exact hms s rfl
  | cons l ls ih =>
      refine ⟨hls.1, fun m hm => ih (hls.2 m hm) (fun u hu => ?_)⟩
      exact hms u ((run_cons step s u l ls).mpr ⟨m, hm, hu⟩)

/-- Where each step of a whole is a schedule of a part, which may be empty, a
    run of the whole is a run of the part. The part's steps meet a condition
    when those of the whole meet one that implies it. -/
theorem run_part {τ κ : Type*} (step' : τ → κ → Option τ) (part : σ → τ) (P : σ → ι → Prop)
    (Q : τ → κ → Prop)
    (hpart : ∀ s l t, step s l = some t → ∃ ms, run step' (part s) ms = some (part t) ∧
      (P s l → StepsMeet step' Q (part s) ms))
    (s t : σ) (ls : List ι) (hrun : run step s ls = some t) :
    ∃ ms, run step' (part s) ms = some (part t) ∧
      (StepsMeet step P s ls → StepsMeet step' Q (part s) ms) := by
  induction ls generalizing s with
  | nil =>
      rw [run_nil, Option.some.injEq] at hrun
      exact ⟨[], congrArg (some ∘ part) hrun, fun _ => trivial⟩
  | cons l ls ih =>
      rcases (run_cons step s t l ls).mp hrun with ⟨m, hm, hrest⟩
      rcases hpart s l m hm with ⟨ms, hms, hmeet⟩
      rcases ih m hrest with ⟨ns, hns, hmeet'⟩
      refine ⟨ms ++ ns, (run_append step' _ _ ms ns).mpr ⟨part m, hms, hns⟩, fun h => ?_⟩
      refine stepsMeet_append step' (hmeet h.1) (fun u hu => ?_)
      rw [hms, Option.some.injEq] at hu
      exact hu ▸ hmeet' (h.2 m hm)

/-- Where every step makes a measure smaller, the measure bounds how long a run
    can be. -/
theorem run_length_le (P : ι → Prop) (Inv : σ → Prop) (measure : σ → Nat)
    (hinv : ∀ s l t, Inv s → step s l = some t → Inv t)
    (hless : ∀ s l t, Inv s → P l → step s l = some t → measure t < measure s)
    (s t : σ) (ls : List ι) (h0 : Inv s) (hP : ∀ l ∈ ls, P l) (hrun : run step s ls = some t) :
    ls.length + measure t ≤ measure s := by
  induction ls generalizing s with
  | nil =>
      rw [run_nil, Option.some.injEq] at hrun
      exact Nat.le_of_eq (by rw [hrun, List.length_nil, Nat.zero_add])
  | cons l ls ih =>
      rcases (run_cons step s t l ls).mp hrun with ⟨m, hm, hrest⟩
      have hone := hless s l m h0 (hP l List.mem_cons_self) hm
      have hmore := ih m (hinv s l m h0 hm) (fun l' hl' => hP l' (List.mem_cons_of_mem l hl')) hrest
      rw [List.length_cons]
      omega

/-- Where every step of the schedule is enabled and keeps the invariant, the
    schedule runs. -/
theorem run_total (Inv : σ → Prop) (s : σ) (ls : List ι) (h0 : Inv s)
    (hstep : ∀ s, Inv s → ∀ l ∈ ls, ∃ t, step s l = some t ∧ Inv t) :
    ∃ t, run step s ls = some t ∧ Inv t := by
  induction ls generalizing s with
  | nil => exact ⟨s, rfl, h0⟩
  | cons l ls ih =>
      rcases hstep s h0 l List.mem_cons_self with ⟨m, hm, hInv⟩
      rcases ih m hInv (fun s' hs' l' hl' => hstep s' hs' l' (List.mem_cons_of_mem l hl')) with
        ⟨t, ht, hInv'⟩
      exact ⟨t, (run_cons step s t l ls).mpr ⟨m, hm, ht⟩, hInv'⟩

/-- A step that does what another does, and perhaps more, runs its schedules. -/
theorem run_mono (step' : σ → ι → Option σ)
    (hstep : ∀ s l t, step s l = some t → step' s l = some t) (s t : σ) (ls : List ι)
    (hrun : run step s ls = some t) : run step' s ls = some t := by
  induction ls generalizing s with
  | nil => exact hrun
  | cons l ls ih =>
      rcases (run_cons step s t l ls).mp hrun with ⟨m, hm, hrest⟩
      exact (run_cons step' s t l ls).mpr ⟨m, hstep s l m hm, ih m hrest⟩

/-- Every state the schedule goes through meets `P`. -/
def Throughout (P : σ → Prop) (s : σ) (ls : List ι) : Prop :=
  ∀ ms ns m, ls = ms ++ ns → run step s ms = some m → P m

theorem throughout_nil (P : σ → Prop) (s : σ) : Throughout step P s [] ↔ P s := by
  constructor
  · intro h
    exact h [] [] s rfl rfl
  · intro hs ms ns m hsplit hms
    rw [(List.append_eq_nil_iff.mp hsplit.symm).1, run_nil, Option.some.injEq] at hms
    exact hms ▸ hs

theorem throughout_cons (P : σ → Prop) (s m : σ) (l : ι) (ls : List ι)
    (hstep : step s l = some m) :
    Throughout step P s (l :: ls) ↔ P s ∧ Throughout step P m ls := by
  constructor
  · intro h
    refine ⟨h [] (l :: ls) s rfl rfl, fun ms ns u hsplit hms => ?_⟩
    exact h (l :: ms) ns u (congrArg (l :: ·) hsplit) ((run_cons step s u l ms).mpr ⟨m, hstep, hms⟩)
  · rintro ⟨hs, h⟩ ms ns u hsplit hms
    cases ms with
    | nil =>
        rw [run_nil, Option.some.injEq] at hms
        exact hms ▸ hs
    | cons l' ms =>
        rw [List.cons_append, List.cons.injEq] at hsplit
        rcases (run_cons step s u l' ms).mp hms with ⟨m', hm', hrest⟩
        rw [← hsplit.1, hstep, Option.some.injEq] at hm'
        exact h ms ns u hsplit.2 (hm' ▸ hrest)

theorem throughout_cons_none (P : σ → Prop) (s : σ) (l : ι) (ls : List ι)
    (hstep : step s l = none) : Throughout step P s (l :: ls) ↔ P s := by
  constructor
  · intro h
    exact h [] (l :: ls) s rfl rfl
  · intro hs ms ns u hsplit hms
    cases ms with
    | nil =>
        rw [run_nil, Option.some.injEq] at hms
        exact hms ▸ hs
    | cons l' ms =>
        rw [List.cons_append, List.cons.injEq] at hsplit
        rcases (run_cons step s u l' ms).mp hms with ⟨m', hm', -⟩
        rw [← hsplit.1, hstep] at hm'
        exact absurd hm' (by simp only [reduceCtorEq, not_false_eq_true])

/-- What one step preserves under a side condition, a schedule has throughout when all its
    steps meet it. -/
theorem throughout_of_stepsMeet (P : σ → ι → Prop) (Inv : σ → Prop)
    (hstep : ∀ s l t, Inv s → P s l → step s l = some t → Inv t) (s : σ) (ls : List ι)
    (h0 : Inv s) (hP : StepsMeet step P s ls) : Throughout step Inv s ls := by
  induction ls generalizing s with
  | nil => exact (throughout_nil step Inv s).mpr h0
  | cons l ls ih =>
      cases hl : step s l with
      | none => exact (throughout_cons_none step Inv s l ls hl).mpr h0
      | some m =>
          exact (throughout_cons step Inv s m l ls hl).mpr
            ⟨h0, ih m (hstep s l m h0 hP.1 hl) (hP.2 m hl)⟩

/-- What follows from a property in every state holds throughout where that does. -/
theorem Throughout.mono {P Q : σ → Prop} {s : σ} {ls : List ι} (h : Throughout step P s ls)
    (hPQ : ∀ s, P s → Q s) : Throughout step Q s ls :=
  fun ms ns m hsplit hms => hPQ m (h ms ns m hsplit hms)

/-- A run has a property throughout exactly when its steps meet the condition
    that keeps it. -/
theorem throughout_iff_stepsMeet (Inv P : σ → Prop) (C : σ → ι → Prop)
    (hinv : ∀ s l t, Inv s → step s l = some t → Inv t)
    (hexact : ∀ s l t, Inv s → P s → step s l = some t → (P t ↔ C s l))
    (s t : σ) (ls : List ι) (h0 : Inv s) (hP : P s) (hrun : run step s ls = some t) :
    Throughout step P s ls ↔ StepsMeet step C s ls := by
  induction ls generalizing s with
  | nil =>
      rw [throughout_nil]
      exact iff_of_true hP trivial
  | cons l ls ih =>
      rcases (run_cons step s t l ls).mp hrun with ⟨m, hm, hrest⟩
      rw [throughout_cons step P s m l ls hm, stepsMeet_cons_iff step C ls hm,
        ← hexact s l m h0 hP hm]
      constructor
      · rintro ⟨-, hthrough⟩
        have hPm : P m := hthrough [] ls m rfl rfl
        exact ⟨hPm, (ih m (hinv s l m h0 hm) hPm hrest).mp hthrough⟩
      · rintro ⟨hPm, hmeet⟩
        exact ⟨hP, (ih m (hinv s l m h0 hm) hPm hrest).mpr hmeet⟩

/-- Where a label that is taken in a state with `P` does `R`, and leads to a
    state with `P` if it is enabled, exactly when it meets `C`, the labels of a
    schedule do `R` with `P` throughout exactly when they meet `C`, up to one
    that is not enabled. -/
theorem throughout_and_iff (Inv P : σ → Prop) (R C : σ → ι → Prop)
    (hinv : ∀ s l t, Inv s → step s l = some t → Inv t)
    (hexact : ∀ s l, Inv s → P s → (R s l ∧ (∀ t, step s l = some t → P t) ↔ C s l)) (s : σ)
    (ls : List ι) (h0 : Inv s) (hP : P s) :
    Throughout step P s ls ∧ StepsMeet step R s ls ↔ StepsMeet step C s ls := by
  induction ls generalizing s with
  | nil =>
      rw [throughout_nil]
      exact iff_of_true ⟨hP, trivial⟩ trivial
  | cons l ls ih =>
      have hone := hexact s l h0 hP
      cases hstep : step s l with
      | none =>
          have hnone : ∀ t, step s l = some t → P t := fun t ht =>
            absurd (hstep.symm.trans ht) (by simp only [reduceCtorEq, not_false_eq_true])
          rw [throughout_cons_none step P s l ls hstep, stepsMeet_cons_none step R ls hstep,
            stepsMeet_cons_none step C ls hstep, ← hone]
          exact ⟨fun h => ⟨h.2, hnone⟩, fun h => ⟨hP, h.1⟩⟩
      | some m =>
          rw [throughout_cons step P s m l ls hstep, stepsMeet_cons_iff step R ls hstep,
            stepsMeet_cons_iff step C ls hstep, ← hone]
          constructor
          · rintro ⟨⟨-, hthrough⟩, hR, hsteps⟩
            have hPm : P m := hthrough [] ls m rfl rfl
            refine ⟨⟨hR, fun t ht => Option.some.inj (hstep.symm.trans ht) ▸ hPm⟩, ?_⟩
            exact (ih m (hinv s l m h0 hstep) hPm).mp ⟨hthrough, hsteps⟩
          · rintro ⟨⟨hR, hPm⟩, hmeet⟩
            rcases (ih m (hinv s l m h0 hstep) (hPm m hstep)).mpr hmeet with ⟨hthrough, hsteps⟩
            exact ⟨⟨hP, hthrough⟩, hR, hsteps⟩

/-! ### What is observed of a loop -/

section Observed

variable {τ ε : Type*} (obs : σ → ι → τ) (loop : σ → ι → Except ε σ)

/-- What is observed of the steps of a loop, up to the one that fails. -/
def observed : σ → List ι → List τ
  | _, [] => []
  | s, l :: ls =>
      obs s l ::
        match loop s l with
        | .error _ => []
        | .ok t => observed t ls

/-- What is observed of a step that is taken comes before the rest. -/
theorem observed_cons_ok (s t : σ) (l : ι) (ls : List ι) (h : loop s l = .ok t) :
    observed obs loop s (l :: ls) = obs s l :: observed obs loop t ls := by
  rw [observed, h]

theorem observed_cons_error (s : σ) (e : ε) (l : ι) (ls : List ι) (h : loop s l = .error e) :
    observed obs loop s (l :: ls) = [obs s l] := by
  rw [observed, h]

/-- A loop that goes on with more labels. -/
theorem observed_append (s : σ) (ls ms : List ι) :
    observed obs loop s (ls ++ ms) = observed obs loop s ls ++
      match ls.foldlM loop s with
      | .error _ => []
      | .ok t => observed obs loop t ms := by
  induction ls generalizing s with
  | nil => rfl
  | cons l ls ih =>
      rw [List.cons_append, List.foldlM_cons]
      cases hl : loop s l with
      | error e =>
          rw [observed_cons_error obs loop s e l _ hl, observed_cons_error obs loop s e l _ hl]
          rfl
      | ok t =>
          rw [observed_cons_ok obs loop s t l _ hl, observed_cons_ok obs loop s t l _ hl, ih]
          rfl

end Observed

end Machine
