import Mathlib.Order.WellFounded
import Mathlib.Data.Nat.Init

namespace Descent

variable {M : Type} [Preorder M] {Inv : ℕ → M → Prop} {Done Moves : ℕ → Prop} {k : ℕ} {m : M}

end Descent
