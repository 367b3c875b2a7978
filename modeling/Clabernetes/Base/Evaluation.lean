import Mathlib.Data.Prod.Basic

/-!
# Statements about what a computation returns

That a computation returns a value with a decidable property is decided by running it.
-/

namespace Clabernetes.Base

variable {α ε : Type} {P : α → Prop} [DecidablePred P]

instance decidableReturns (x : Option α) : Decidable (∃ a, x = some a) :=
  decidable_of_iff x.isSome Option.isSome_iff_exists

instance decidableReturnsMeeting (x : Option α) : Decidable (∃ a, x = some a ∧ P a) :=
  decidable_of_iff (x.any fun a => decide (P a)) (by cases x <;> simp)

instance decidableReturnsTriple {β γ : Type} (x : Option (α × β × γ)) {Q : α → β → γ → Prop}
    [∀ a b c, Decidable (Q a b c)] : Decidable (∃ a b c, x = some (a, b, c) ∧ Q a b c) :=
  decidable_of_iff (∃ t, x = some t ∧ Q t.1 t.2.1 t.2.2) (by simp [Prod.exists])

instance decidableSucceeds (x : Except ε α) : Decidable (∃ a, x = .ok a) :=
  decidable_of_iff x.toBool (by cases x <;> simp [Except.toBool])

instance decidableSucceedsMeeting (x : Except ε α) : Decidable (∃ a, x = .ok a ∧ P a) :=
  decidable_of_iff (x.toOption.any fun a => decide (P a)) (by cases x <;> simp [Except.toOption])

instance decidableEqOk [DecidableEq α] (a : α) : ∀ x : Except ε α, Decidable (x = .ok a)
  | .ok a' => decidable_of_iff (a' = a) (by simp)
  | .error _ => .isFalse nofun

instance decidableEqError [DecidableEq ε] (e : ε) : ∀ x : Except ε α, Decidable (x = .error e)
  | .error e' => decidable_of_iff (e' = e) (by simp)
  | .ok _ => .isFalse nofun

end Clabernetes.Base
