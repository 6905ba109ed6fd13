import Mathlib.Data.List.Basic

/-!
A completion queue with a one-shot notification bound to a completion port.
`notify` arms the notification and fails when one is still armed. An armed
notification fires as soon as the queue holds a result: it is disarmed and one
packet is put on the port.
-/

/-- An armed notification cannot coexist with a waiting result. -/
structure CompletionQueue (Result : Type) where
  entries : List Result
  armed : Bool
  portPackets : Nat
  armed_empty : armed = true → entries = []

namespace CompletionQueue

variable {Result : Type}

def empty : CompletionQueue Result := ⟨[], false, 0, fun _ => rfl⟩

def push (queue : CompletionQueue Result) (result : Result) : CompletionQueue Result where
  entries := queue.entries ++ [result]
  armed := false
  portPackets := if queue.armed then queue.portPackets + 1 else queue.portPackets
  armed_empty := by simp

/-- Arm a notification; `none` when one is armed already. On a queue that holds
results the notification fires at once. -/
def notify (queue : CompletionQueue Result) : Option (CompletionQueue Result) :=
  if queue.armed then none
  else if waiting : queue.entries = [] then
    some { queue with armed := true, armed_empty := fun _ => waiting }
  else some { queue with portPackets := queue.portPackets + 1 }

def takePacket (queue : CompletionQueue Result) : Option (CompletionQueue Result) :=
  if queue.portPackets = 0 then none
  else some { queue with portPackets := queue.portPackets - 1 }

/-- Whether a dequeue into room for `limit` results may return `count` of them:
it returns none only when none is waiting. -/
def Dequeues (queue : CompletionQueue Result) (limit count : Nat) : Prop :=
  count ≤ limit ∧ count ≤ queue.entries.length ∧ (count = 0 → queue.entries = [])

instance (queue : CompletionQueue Result) (limit count : Nat) :
    Decidable (queue.Dequeues limit count) :=
  decidable_of_iff (count ≤ limit ∧ count ≤ queue.entries.length ∧
    (count = 0 → queue.entries.isEmpty = true)) (by simp [Dequeues])

def dequeued (queue : CompletionQueue Result) (count : Nat) : CompletionQueue Result where
  entries := queue.entries.drop count
  armed := queue.armed
  portPackets := queue.portPackets
  armed_empty := fun armed => by simp [queue.armed_empty armed]

def tokens (queue : CompletionQueue Result) : Nat :=
  (if queue.armed then 1 else 0) + queue.portPackets

@[simp] theorem empty_entries : (empty : CompletionQueue Result).entries = [] := rfl
@[simp] theorem tokens_empty : (empty : CompletionQueue Result).tokens = 0 := rfl

@[simp] theorem push_entries (queue : CompletionQueue Result) (result : Result) :
    (queue.push result).entries = queue.entries ++ [result] := rfl

@[simp] theorem push_armed (queue : CompletionQueue Result) (result : Result) :
    (queue.push result).armed = false := rfl

@[simp] theorem dequeued_entries (queue : CompletionQueue Result) (count : Nat) :
    (queue.dequeued count).entries = queue.entries.drop count := rfl

@[simp] theorem dequeued_armed (queue : CompletionQueue Result) (count : Nat) :
    (queue.dequeued count).armed = queue.armed := rfl

@[simp] theorem dequeued_portPackets (queue : CompletionQueue Result) (count : Nat) :
    (queue.dequeued count).portPackets = queue.portPackets := rfl

@[simp] theorem tokens_dequeued (queue : CompletionQueue Result) (count : Nat) :
    (queue.dequeued count).tokens = queue.tokens := rfl

@[simp] theorem tokens_push (queue : CompletionQueue Result) (result : Result) :
    (queue.push result).tokens = queue.tokens := by
  cases armed : queue.armed <;> simp [tokens, push, armed, Nat.add_comm]

theorem push_portPackets_of_not_armed (queue : CompletionQueue Result) (result : Result)
    (idle : queue.armed = false) : (queue.push result).portPackets = queue.portPackets := by
  simp [push, idle]

theorem notify_eq_none_iff (queue : CompletionQueue Result) :
    queue.notify = none ↔ queue.armed = true := by
  unfold notify
  split
  · simp_all
  · split <;> simp_all

theorem notify_entries {queue next : CompletionQueue Result}
    (notified : queue.notify = some next) : next.entries = queue.entries := by
  unfold notify at notified
  split at notified
  · simp at notified
  · split at notified <;> simp only [Option.some.injEq] at notified <;> subst next <;> rfl

theorem notify_tokens {queue next : CompletionQueue Result}
    (notified : queue.notify = some next) : next.tokens = queue.tokens + 1 := by
  unfold notify at notified
  split at notified
  · simp at notified
  · rename_i idle
    split at notified
    · simp only [Option.some.injEq] at notified
      subst next
      simp [tokens, idle, Nat.add_comm]
    · simp only [Option.some.injEq] at notified
      subst next
      simp [tokens, idle]

theorem tokens_eq_zero_iff (queue : CompletionQueue Result) :
    queue.tokens = 0 ↔ queue.armed = false ∧ queue.portPackets = 0 := by
  cases armed : queue.armed <;> simp [tokens, armed]

theorem takePacket_entries {queue next : CompletionQueue Result}
    (taken : queue.takePacket = some next) : next.entries = queue.entries := by
  unfold takePacket at taken
  split at taken
  · simp at taken
  · simp only [Option.some.injEq] at taken
    subst next
    rfl

theorem takePacket_tokens {queue next : CompletionQueue Result}
    (taken : queue.takePacket = some next) : queue.tokens = next.tokens + 1 := by
  unfold takePacket at taken
  split at taken
  · simp at taken
  · rename_i present
    simp only [Option.some.injEq] at taken
    subst next
    simp only [tokens]
    omega

theorem takePacket_portPackets {queue next : CompletionQueue Result}
    (taken : queue.takePacket = some next) : queue.portPackets = next.portPackets + 1 := by
  unfold takePacket at taken
  split at taken
  · simp at taken
  · simp only [Option.some.injEq] at taken
    subst next
    simp only
    omega

/-- A packet on the port comes from a notification that has found a result, and
results do not leave the queue while it is there. -/
def Backed (queue : CompletionQueue Result) : Prop :=
  queue.portPackets ≠ 0 → queue.entries ≠ []

theorem Backed.push {queue : CompletionQueue Result} (result : Result) :
    (queue.push result).Backed := by
  intro _
  simp

theorem Backed.notify {queue next : CompletionQueue Result} (backed : queue.Backed)
    (notified : queue.notify = some next) : next.Backed := by
  unfold CompletionQueue.notify at notified
  split at notified
  · simp at notified
  · split at notified
    · simp only [Option.some.injEq] at notified
      subst next
      exact backed
    · rename_i waiting
      simp only [Option.some.injEq] at notified
      subst next
      exact fun _ => waiting

theorem Backed.of_tokens {queue : CompletionQueue Result} (none : queue.tokens = 0) :
    queue.Backed :=
  fun packets => absurd (queue.tokens_eq_zero_iff.mp none).2 packets

theorem exists_dequeues (queue : CompletionQueue Result) {limit : Nat} (room : 0 < limit) :
    ∃ count, queue.Dequeues limit count := by
  refine ⟨min limit queue.entries.length, Nat.min_le_left _ _, Nat.min_le_right _ _,
    fun none => ?_⟩
  rw [← List.length_eq_zero_iff]
  omega

theorem Dequeues.not_armed {queue : CompletionQueue Result} {limit count : Nat}
    (dequeues : queue.Dequeues limit count) (some : 0 < count) : queue.armed = false := by
  cases armed : queue.armed with
  | false => rfl
  | true =>
      have none := queue.armed_empty armed
      have bound := dequeues.2.1
      rw [none, List.length_nil] at bound
      omega

end CompletionQueue
