import Mathlib.Data.List.Forall2
import Mathlib.Data.List.Induction

/-!
Runs of a partial step function. A step that returns `none` is one the
environment cannot take in that state. Invariants are proved for one step and
carried over whole runs here, once.
-/

namespace PartialRun

variable {State Event : Type} (step : State → Event → Option State)

def run : State → List Event → Option State
  | state, [] => some state
  | state, event :: rest => (step state event).bind fun next => run next rest

@[simp] theorem run_nil (state : State) : run step state [] = some state := rfl

theorem run_cons (state : State) (event : Event) (rest : List Event) :
    run step state (event :: rest) = (step state event).bind fun next => run step next rest := rfl

theorem run_append (state : State) (first second : List Event) :
    run step state (first ++ second) =
      (run step state first).bind fun middle => run step middle second := by
  induction first generalizing state with
  | nil => rfl
  | cons event rest ih =>
      simp only [List.cons_append, run_cons]
      cases step state event with
      | none => rfl
      | some next => exact ih next

theorem run_snoc (state : State) (events : List Event) (event : Event) :
    run step state (events ++ [event]) =
      (run step state events).bind fun middle => step middle event := by
  rw [run_append]
  congr 1
  funext middle
  cases taken : step middle event <;> simp [run_cons, taken]

variable {step}

theorem run_prefix {start finish : State} {first second : List Event}
    (reached : run step start (first ++ second) = some finish) :
    ∃ middle, run step start first = some middle ∧ run step middle second = some finish := by
  rw [run_append] at reached
  exact Option.bind_eq_some_iff.mp reached

theorem run_invariant {Holds : State → Prop}
    (preserved : ∀ state event next, Holds state → step state event = some next → Holds next)
    {start finish : State} {events : List Event}
    (initially : Holds start) (reached : run step start events = some finish) : Holds finish := by
  induction events generalizing start with
  | nil =>
      simp only [run_nil, Option.some.injEq] at reached
      exact reached ▸ initially
  | cons event rest ih =>
      obtain ⟨next, taken, onwards⟩ := Option.bind_eq_some_iff.mp reached
      exact ih (preserved start event next initially taken) onwards

variable (step) in
def Along (Meets : State → Event → Prop) : State → List Event → Prop
  | _, [] => True
  | state, event :: rest =>
      Meets state event ∧ ∀ next, step state event = some next → Along Meets next rest

theorem along_of_forall {Meets : State → Event → Prop} {events : List Event}
    (every : ∀ event ∈ events, ∀ state, Meets state event) (start : State) :
    Along step Meets start events := by
  induction events generalizing start with
  | nil => exact trivial
  | cons event rest ih =>
      refine ⟨every event List.mem_cons_self start, fun next _ => ?_⟩
      exact ih (fun later member => every later (List.mem_cons_of_mem _ member)) next

theorem run_invariant_along {Holds : State → Prop} {Meets : State → Event → Prop}
    (preserved : ∀ state event next, Holds state → Meets state event →
      step state event = some next → Holds next)
    {start finish : State} {events : List Event} (initially : Holds start)
    (along : Along step Meets start events) (reached : run step start events = some finish) :
    Holds finish := by
  induction events generalizing start with
  | nil =>
      simp only [run_nil, Option.some.injEq] at reached
      exact reached ▸ initially
  | cons event rest ih =>
      obtain ⟨next, taken, onwards⟩ := Option.bind_eq_some_iff.mp reached
      obtain ⟨meets, further⟩ := along
      exact ih (preserved start event next initially meets taken) (further next taken) onwards

theorem countP_add_measure_le {Meets : Event → Prop} {marked : Event → Bool} {measure : State → Nat}
    (used : ∀ state event next, Meets event → step state event = some next →
      measure next + (if marked event then 1 else 0) ≤ measure state)
    {start finish : State} {events : List Event} (meets : ∀ event ∈ events, Meets event)
    (reached : run step start events = some finish) :
    events.countP marked + measure finish ≤ measure start := by
  induction events generalizing start with
  | nil =>
      simp only [run_nil, Option.some.injEq] at reached
      subst reached
      exact Nat.le_of_eq (Nat.zero_add _)
  | cons event rest ih =>
      obtain ⟨next, taken, onwards⟩ := Option.bind_eq_some_iff.mp reached
      have here := used start event next (meets event List.mem_cons_self) taken
      have later := ih (fun other member => meets other (List.mem_cons_of_mem _ member)) onwards
      rw [List.countP_cons]
      omega

@[elab_as_elim]
theorem run_induction {start : State} {Holds : List Event → State → Prop}
    (initially : Holds [] start)
    (extended : ∀ events state event next, run step start events = some state →
      Holds events state → step state event = some next → Holds (events ++ [event]) next)
    {events : List Event} {finish : State}
    (reached : run step start events = some finish) : Holds events finish := by
  induction events using List.reverseRecOn generalizing finish with
  | nil =>
      simp only [run_nil, Option.some.injEq] at reached
      exact reached ▸ initially
  | append_singleton events event ih =>
      rw [run_snoc] at reached
      obtain ⟨middle, before, taken⟩ := Option.bind_eq_some_iff.mp reached
      exact extended events middle event finish before (ih before) taken

variable (step) in
def Always (Good : State → Prop) (start : State) (events : List Event) : Prop :=
  ∀ before state, before <+: events → run step start before = some state → Good state

theorem Always.mono {Good : State → Prop} {start : State} {events before : List Event}
    (always : Always step Good start events) (shorter : before <+: events) :
    Always step Good start before :=
  fun first state within => always first state (within.trans shorter)

theorem Always.last {Good : State → Prop} {start finish : State} {events : List Event}
    (always : Always step Good start events) (reached : run step start events = some finish) :
    Good finish :=
  always events finish List.prefix_rfl reached

variable (step) in
def countSteps (flag : State → Event → Bool) : State → List Event → Nat
  | _, [] => 0
  | state, event :: rest =>
      (if flag state event then 1 else 0) +
        (step state event).elim 0 fun next => countSteps flag next rest

theorem countSteps_append (flag : State → Event → Bool) {start middle : State}
    {first : List Event} (second : List Event) (reached : run step start first = some middle) :
    countSteps step flag start (first ++ second) =
      countSteps step flag start first + countSteps step flag middle second := by
  induction first generalizing start with
  | nil =>
      simp only [run_nil, Option.some.injEq] at reached
      subst middle
      simp [countSteps]
  | cons event rest ih =>
      obtain ⟨next, taken, onwards⟩ := Option.bind_eq_some_iff.mp reached
      simp only [List.cons_append, countSteps, taken, Option.elim_some, ih onwards]
      omega

theorem countSteps_snoc (flag : State → Event → Bool) {start middle : State}
    {events : List Event} (event : Event) (reached : run step start events = some middle) :
    countSteps step flag start (events ++ [event]) =
      countSteps step flag start events + if flag middle event then 1 else 0 := by
  rw [countSteps_append flag [event] reached]
  cases taken : step middle event <;> simp [countSteps, taken]

/-- A step that `label` translates to a sequence of abstract steps: whole runs
translate by concatenation. -/
theorem run_simulates {Abstract Label : Type} {abstractStep : Abstract → Label → Option Abstract}
    (abstraction : State → Abstract) (label : Event → List Label)
    (simulated : ∀ state event next, step state event = some next →
      run abstractStep (abstraction state) (label event) = some (abstraction next))
    {start finish : State} {events : List Event}
    (reached : run step start events = some finish) :
    run abstractStep (abstraction start) (events.flatMap label) = some (abstraction finish) := by
  induction events generalizing start with
  | nil =>
      simp only [run_nil, Option.some.injEq] at reached
      rw [reached]
      rfl
  | cons event rest ih =>
      obtain ⟨next, taken, onwards⟩ := Option.bind_eq_some_iff.mp reached
      rw [List.flatMap_cons, run_append, simulated start event next taken]
      exact ih onwards

/-- Forward simulation: steps that keep two systems related keep their runs related,
with events that are the same up to a relation. -/
theorem run_translated {Abstract Label : Type} {abstractStep : Abstract → Label → Option Abstract}
    {Related : State → Abstract → Prop} {Same : Event → Label → Prop}
    (simulated : ∀ state abstract event next, Related state abstract →
      step state event = some next →
        ∃ label after, Same event label ∧ abstractStep abstract label = some after ∧
          Related next after)
    {start finish : State} {abstract : Abstract} {events : List Event}
    (related : Related start abstract) (reached : run step start events = some finish) :
    ∃ labels after, List.Forall₂ Same events labels ∧
      run abstractStep abstract labels = some after ∧ Related finish after := by
  induction events generalizing start abstract with
  | nil =>
      simp only [run_nil, Option.some.injEq] at reached
      exact ⟨[], abstract, .nil, rfl, reached ▸ related⟩
  | cons event rest ih =>
      obtain ⟨next, taken, onwards⟩ := Option.bind_eq_some_iff.mp reached
      obtain ⟨label, middle, same, followed, still⟩ :=
        simulated start abstract event next related taken
      obtain ⟨labels, after, others, finished, relatedAfter⟩ := ih still onwards
      refine ⟨label :: labels, after, .cons same others, ?_, relatedAfter⟩
      rw [run_cons, followed]
      exact finished

theorem run_related {Abstract : Type} {abstractStep : Abstract → Event → Option Abstract}
    {Related : State → Abstract → Prop}
    (simulated : ∀ state abstract event next, Related state abstract →
      step state event = some next →
        ∃ after, abstractStep abstract event = some after ∧ Related next after)
    {start finish : State} {abstract : Abstract} {events : List Event}
    (related : Related start abstract) (reached : run step start events = some finish) :
    ∃ after, run abstractStep abstract events = some after ∧ Related finish after := by
  have translated := @run_translated State Event step Abstract Event abstractStep Related Eq
    (fun state abstract event next holds taken => by
      obtain ⟨after, followed, still⟩ := simulated state abstract event next holds taken
      exact ⟨event, after, rfl, followed, still⟩) _ _ _ _ related reached
  obtain ⟨labels, after, same, followed, still⟩ := translated
  rw [List.forall₂_eq_eq_eq] at same
  exact ⟨after, same ▸ followed, still⟩

end PartialRun
