import OpTrace.Request

/-!
# Answers that succeed

A chain of questions has an answer exactly if each question in it has one. Otherwise it has the
error of the first that has none. The lemmas open such a chain from the front.
-/

namespace OpTrace

variable {ε α β : Type}

theorem bind_eq_ok {answer : Except ε α} {next : α → Except ε β} {b : β} :
    (answer >>= next) = .ok b ↔ ∃ a, answer = .ok a ∧ next a = .ok b := by
  cases answer <;> simp [bind, Except.bind]

theorem bind_eq_error {answer : Except ε α} {next : α → Except ε β} {e : ε} :
    (answer >>= next) = .error e ↔
      answer = .error e ∨ ∃ a, answer = .ok a ∧ next a = .error e := by
  cases answer <;> simp [bind, Except.bind]

theorem pure_eq_ok {a b : α} : (pure a : Except ε α) = .ok b ↔ a = b := by
  simp [pure, Except.pure]

theorem lift_eq_ok {answer : StoreResult α} {a : α} : answer.lift = .ok a ↔ answer = .ok a := by
  cases answer <;> simp [StoreResult.lift]

end OpTrace
