/-
# The outcome of a logged computation

What a computation logs and what comes of it are independent: the outcome of a
sequence is the sequence of the outcomes (`Logged.bind_outcome_eq_ok`), and a
computation that only logs always succeeds.
-/

import AnchorIdl.Log

namespace AnchorIdl
namespace Logged

variable {ε α β : Type}

theorem bind_outcome (x : Logged ε α) (f : α → Logged ε β) :
    (x >>= f).outcome = x.outcome >>= fun a => (f a).outcome := by
  obtain ⟨log, outcome⟩ := x
  cases outcome <;> rfl

theorem bind_outcome_eq_ok {x : Logged ε α} {f : α → Logged ε β} {b : β} :
    (x >>= f).outcome = .ok b ↔ ∃ a, x.outcome = .ok a ∧ (f a).outcome = .ok b := by
  obtain ⟨log, outcome⟩ := x
  cases outcome <;> simp [Bind.bind, Logged.bind]

theorem bind_of_ok {x : Logged ε α} {f : α → Logged ε β} {a : α} (h : x.outcome = .ok a) :
    x >>= f = ⟨x.log ++ (f a).log, (f a).outcome⟩ := by
  obtain ⟨log, outcome⟩ := x
  obtain rfl : outcome = .ok a := h
  rfl

theorem bind_of_error {x : Logged ε α} {f : α → Logged ε β} {e : ε} (h : x.outcome = .error e) :
    x >>= f = ⟨x.log, .error e⟩ := by
  obtain ⟨log, outcome⟩ := x
  obtain rfl : outcome = .error e := h
  rfl

theorem bind_outcome_eq_error {x : Logged ε α} {f : α → Logged ε β} {e : ε} :
    (x >>= f).outcome = .error e ↔
      x.outcome = .error e ∨ ∃ a, x.outcome = .ok a ∧ (f a).outcome = .error e := by
  obtain ⟨log, outcome⟩ := x
  cases outcome <;> simp [Bind.bind, Logged.bind]

theorem bind_assoc {γ : Type} (x : Logged ε α) (f : α → Logged ε β) (g : β → Logged ε γ) :
    x >>= f >>= g = x >>= fun a => f a >>= g := by
  cases hx : x.outcome with
  | error e => rw [bind_of_error hx, bind_of_error hx, bind_of_error rfl]
  | ok a =>
    rw [bind_of_ok hx, bind_of_ok hx]
    cases hf : (f a).outcome with
    | error e => rw [bind_of_error rfl, bind_of_error hf]
    | ok b =>
      rw [bind_of_ok rfl, bind_of_ok hf]
      simp

/-- What is logged by two steps is logged by one of them. -/
theorem forall_mem_log_bind {P : LogLine → Prop} {x : Logged ε α} {f : α → Logged ε β}
    (hx : ∀ l ∈ x.log, P l) (hf : ∀ a, ∀ l ∈ (f a).log, P l) : ∀ l ∈ (x >>= f).log, P l := by
  cases h : x.outcome with
  | error e =>
    rw [bind_of_error h]
    exact hx
  | ok a =>
    rw [bind_of_ok h, List.forall_mem_append]
    exact ⟨hx, hf a⟩

@[simp] theorem lift_outcome (outcome : Except ε α) : (lift outcome).outcome = outcome := rfl

@[simp] theorem tell_outcome (level : LogLevel) (source : LogSource) (message : Text) :
    (tell level source message : Logged ε Unit).outcome = .ok () :=
  rfl

@[simp] theorem tellAll_outcome (lines : List LogLine) :
    (tellAll lines : Logged ε Unit).outcome = .ok () :=
  rfl

@[simp] theorem lift_log (outcome : Except ε α) : (lift outcome).log = [] := rfl

@[simp] theorem tell_log (level : LogLevel) (source : LogSource) (message : Text) :
    (tell level source message : Logged ε Unit).log = [⟨level, source, message⟩] :=
  rfl

@[simp] theorem tellAll_log (lines : List LogLine) :
    (tellAll lines : Logged ε Unit).log = lines :=
  rfl

@[simp] theorem pure_log (a : α) : (pure a : Logged ε α).log = [] := rfl

@[simp] theorem pure_outcome (a : α) : (pure a : Logged ε α).outcome = .ok a := rfl

end Logged
end AnchorIdl
