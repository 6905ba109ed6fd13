/-!
Programs that call an environment they do not control: what they call, how they
go on with each answer, and how they end. A contract says which calls a state
permits, which answers it allows there, and the state after an answer. What a
program ensures against every allowed answer is a recursion on the program, and
it holds at each moment of each run.
-/

namespace CallPrograms

inductive Program (Call : Type) (Answer : Call → Type) (Stop α : Type)
  | done (value : α)
  | stop (reason : Stop)
  | call (request : Call) (resume : Answer request → Program Call Answer Stop α)

variable {Call : Type} {Answer : Call → Type} {Stop State α β : Type}

namespace Program

def bind : Program Call Answer Stop α → (α → Program Call Answer Stop β) →
    Program Call Answer Stop β
  | done value, next => next value
  | stop reason, _ => stop reason
  | call request resume, next => call request fun answer => (resume answer).bind next

instance : Monad (Program Call Answer Stop) where
  pure := done
  bind := bind

def request (request : Call) : Program Call Answer Stop (Answer request) := call request done

inductive Reaches : Program Call Answer Stop α → List ((request : Call) × Answer request) →
    Program Call Answer Stop α → Prop
  | here (program : Program Call Answer Stop α) : Reaches program [] program
  | answered {request : Call} {resume : Answer request → Program Call Answer Stop α}
      {answer : Answer request} {trace : List ((request : Call) × Answer request)}
      {rest : Program Call Answer Stop α} (onwards : Reaches (resume answer) trace rest) :
      Reaches (call request resume) (⟨request, answer⟩ :: trace) rest

def returned : Program Call Answer Stop α → Option α
  | done value => some value
  | _ => none

theorem eq_done_of_returned {program : Program Call Answer Stop α} {value : α}
    (returned : program.returned = some value) : program = done value := by
  cases program with
  | done other => exact congrArg done (Option.some.inj returned)
  | stop reason => cases returned
  | call request resume => cases returned

end Program

structure Contract (State Call : Type) (Answer : Call → Type) where
  permits : State → Call → Prop
  allows : State → (request : Call) → Answer request → Prop
  next : State → (request : Call) → Answer request → State

namespace Contract

open Program

variable (contract : Contract State Call Answer)

def Allowed : State → List ((request : Call) × Answer request) → Prop
  | _, [] => True
  | state, ⟨request, answer⟩ :: trace =>
      contract.allows state request answer ∧ Allowed (contract.next state request answer) trace

def after : State → List ((request : Call) × Answer request) → State
  | state, [] => state
  | state, ⟨request, answer⟩ :: trace => after (contract.next state request answer) trace

/-- Every call made is permitted, a value returned meets `post`, and a stop meets `halt`. -/
def Ensures (halt : Stop → State → Prop) (post : α → State → Prop) :
    Program Call Answer Stop α → State → Prop
  | done value, state => post value state
  | stop reason, state => halt reason state
  | call request resume, state => contract.permits state request ∧
      ∀ answer, contract.allows state request answer →
        Ensures halt post (resume answer) (contract.next state request answer)

variable {contract} {halt : Stop → State → Prop} {post : α → State → Prop} {state : State}

@[simp] theorem ensures_pure {value : α} :
    contract.Ensures halt post (pure value) state ↔ post value state := Iff.rfl

@[simp] theorem ensures_stop {reason : Stop} :
    contract.Ensures halt post (stop reason) state ↔ halt reason state := Iff.rfl

@[simp] theorem ensures_request {request : Call} {post : Answer request → State → Prop} :
    contract.Ensures halt post (Program.request request) state ↔
      contract.permits state request ∧ ∀ answer, contract.allows state request answer →
        post answer (contract.next state request answer) := Iff.rfl

@[simp] theorem ensures_bind {program : Program Call Answer Stop α}
    {next : α → Program Call Answer Stop β} {post : β → State → Prop} :
    contract.Ensures halt post (program >>= next) state ↔
      contract.Ensures halt (fun value => contract.Ensures halt post (next value))
        program state := by
  induction program generalizing state with
  | done value => exact Iff.rfl
  | stop reason => exact Iff.rfl
  | call request resume ih =>
      constructor
      · rintro ⟨permitted, onwards⟩
        exact ⟨permitted, fun answer allowed => (ih answer).mp (onwards answer allowed)⟩
      · rintro ⟨permitted, onwards⟩
        exact ⟨permitted, fun answer allowed => (ih answer).mpr (onwards answer allowed)⟩

theorem Ensures.mono {weaker : α → State → Prop} {program : Program Call Answer Stop α}
    (ensures : contract.Ensures halt post program state)
    (weaken : ∀ value state, post value state → weaker value state) :
    contract.Ensures halt weaker program state := by
  induction program generalizing state with
  | done value => exact weaken value state ensures
  | stop reason => exact ensures
  | call request resume ih =>
      obtain ⟨permitted, onwards⟩ := ensures
      exact ⟨permitted, fun answer allowed => ih answer (onwards answer allowed)⟩

/-- A loop over a list, with an invariant that speaks of the items done so far. -/
theorem Ensures.forM {body : α → Program Call Answer Stop Unit} {Holds : List α → State → Prop}
    (once : ∀ before item state, Holds before state →
      contract.Ensures halt (fun _ => Holds (before ++ [item])) (body item) state)
    {before items : List α} (initially : Holds before state) :
    contract.Ensures halt (fun _ => Holds (before ++ items)) (forM items body) state := by
  induction items generalizing before state with
  | nil => exact (List.append_nil before).symm ▸ initially
  | cons item rest ih =>
      rw [List.forM_cons, ensures_bind]
      refine (once before item state initially).mono fun _ state holds => ?_
      have onwards := ih holds
      rwa [List.append_assoc] at onwards

theorem Ensures.reaches {program rest : Program Call Answer Stop α}
    {trace : List ((request : Call) × Answer request)}
    (ensures : contract.Ensures halt post program state) (reached : program.Reaches trace rest)
    (allowed : contract.Allowed state trace) :
    contract.Ensures halt post rest (contract.after state trace) := by
  induction reached generalizing state with
  | here program => exact ensures
  | answered onwards ih => exact ih (ensures.2 _ allowed.1) allowed.2

end Contract

section
variable (contract : Contract State Call Answer)
  (environment : State → (request : Call) → Answer request)

def Program.play : Program Call Answer Stop α → State →
    List ((request : Call) × Answer request) × Program Call Answer Stop α
  | done value, _ => ([], done value)
  | stop reason, _ => ([], stop reason)
  | call request resume, state =>
      let answer := environment state request
      let (trace, ending) := (resume answer).play (contract.next state request answer)
      (⟨request, answer⟩ :: trace, ending)

theorem Program.reaches_play (program : Program Call Answer Stop α) (state : State) :
    program.Reaches (program.play contract environment state).1
      (program.play contract environment state).2 := by
  induction program generalizing state with
  | done value => exact .here _
  | stop reason => exact .here _
  | call request resume ih => exact .answered (ih _ _)

theorem Program.allowed_play
    (keeps : ∀ state request, contract.allows state request (environment state request))
    (program : Program Call Answer Stop α) (state : State) :
    contract.Allowed state (program.play contract environment state).1 := by
  induction program generalizing state with
  | done value => exact trivial
  | stop reason => exact trivial
  | call request resume ih => exact ⟨keeps state request, ih _ _⟩

end

end CallPrograms
