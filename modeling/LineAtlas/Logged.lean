import LineAtlas.Fault
import LineAtlas.Notice

/-!
# Computations with notices

A computation that gives notices in order and may stop with a fault. What was noticed before a fault is
kept.
-/

namespace LineAtlas

structure Logged (α : Type) where
  notices : List Notice
  outcome : Except Fault α

namespace Logged

def fail (f : Fault) : Logged α :=
  ⟨[], .error f⟩

def say (ns : List Notice) : Logged Unit :=
  ⟨ns, .ok ()⟩

def attempt (outcome : Except Fault α) : Logged α :=
  ⟨[], outcome⟩

def notice (severity : Severity) (text : String) : Logged Unit :=
  say [⟨severity, text⟩]

protected def bind (x : Logged α) (f : α → Logged β) : Logged β :=
  match x.outcome with
  | .error e => ⟨x.notices, .error e⟩
  | .ok a => ⟨x.notices ++ (f a).notices, (f a).outcome⟩

instance : Monad Logged where
  pure a := ⟨[], .ok a⟩
  bind := Logged.bind

@[simp]
theorem pure_def (a : α) : (pure a : Logged α) = ⟨[], .ok a⟩ := rfl

@[simp]
theorem bind_ok (ns : List Notice) (a : α) (f : α → Logged β) :
    ((⟨ns, .ok a⟩ : Logged α) >>= f) = ⟨ns ++ (f a).notices, (f a).outcome⟩ := rfl

@[simp]
theorem bind_error (ns : List Notice) (e : Fault) (f : α → Logged β) :
    ((⟨ns, .error e⟩ : Logged α) >>= f) = ⟨ns, .error e⟩ := rfl

theorem bind_assoc (x : Logged α) (f : α → Logged β) (g : β → Logged γ) :
    x >>= f >>= g = x >>= fun a => f a >>= g := by
  obtain ⟨ns, outcome⟩ := x
  cases outcome with
  | error e => rfl
  | ok a =>
    rw [bind_ok, bind_ok]
    obtain ⟨ns', outcome⟩ := f a
    cases outcome with
    | error e => rfl
    | ok b => simp

theorem outcome_bind (x : Logged α) (f : α → Logged β) :
    (x >>= f).outcome = x.outcome >>= fun a => (f a).outcome := by
  obtain ⟨ns, outcome⟩ := x
  cases outcome <;> rfl

theorem outcome_bind_eq_ok_iff {x : Logged α} {f : α → Logged β} {b : β} :
    (x >>= f).outcome = .ok b ↔ ∃ a, x.outcome = .ok a ∧ (f a).outcome = .ok b := by
  obtain ⟨ns, outcome⟩ := x
  cases outcome with
  | error e => simp
  | ok a => simp

/-- What was computed of an outcome that is no fault. -/
theorem exists_outcome_eq_ok {x : Logged α} {f : α → β} {b : β}
    (h : x.outcome.toOption.map f = some b) : ∃ a, x.outcome = .ok a ∧ f a = b := by
  cases hx : x.outcome with
  | error e =>
    rw [hx] at h
    cases h
  | ok a =>
    rw [hx] at h
    exact ⟨a, rfl, Option.some.inj h⟩

end Logged

end LineAtlas
