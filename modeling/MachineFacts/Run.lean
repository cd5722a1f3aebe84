import MachineFacts.Event
import MachineFacts.Failure

/-! Results together with the events on the way to them. A failure ends the work but keeps the
events from before it. -/

namespace MachineFacts

structure Run (α : Type) where
  events : List Event
  result : Except Failure α

def Run.ok {α : Type} (a : α) : Run α := ⟨[], .ok a⟩

def Run.fail {α : Type} (f : Failure) : Run α := ⟨[], .error f⟩

def Run.report (events : List Event) : Run Unit := ⟨events, .ok ()⟩

def Run.andThen {α β : Type} (r : Run α) (next : α → Run β) : Run β :=
  match r.result with
  | .error f => ⟨r.events, .error f⟩
  | .ok a => ⟨r.events ++ (next a).events, (next a).result⟩

instance : Monad Run where
  pure := Run.ok
  bind := Run.andThen

/-- Reports a failure that is passed on. -/
def Run.onFailure {α : Type} (r : Run α) (events : Failure → List Event) : Run α :=
  match r.result with
  | .error f => ⟨r.events ++ events f, .error f⟩
  | .ok a => ⟨r.events, .ok a⟩

@[simp] theorem Run.pure_result {α : Type} (a : α) : (pure a : Run α).result = .ok a := rfl

@[simp] theorem Run.pure_events {α : Type} (a : α) : (pure a : Run α).events = [] := rfl

theorem Run.bind_of_ok {α β : Type} {r : Run α} {a : α} (h : r.result = .ok a)
    (next : α → Run β) :
    r >>= next = ⟨r.events ++ (next a).events, (next a).result⟩ := by
  show r.andThen next = _
  simp [Run.andThen, h]

theorem Run.bind_of_error {α β : Type} {r : Run α} {f : Failure} (h : r.result = .error f)
    (next : α → Run β) : r >>= next = ⟨r.events, .error f⟩ := by
  show r.andThen next = _
  simp [Run.andThen, h]

theorem Run.bind_result {α β : Type} (r : Run α) (next : α → Run β) :
    (r >>= next).result = r.result.bind fun a => (next a).result := by
  cases h : r.result with
  | error f => rw [Run.bind_of_error h]; rfl
  | ok a => rw [Run.bind_of_ok h]; rfl

@[simp] theorem Run.onFailure_result {α : Type} (r : Run α) (events : Failure → List Event) :
    (r.onFailure events).result = r.result := by
  cases h : r.result <;> simp [Run.onFailure, h]

end MachineFacts
