import Veilence.Foundation.Discipline

/-!
# The commands of a body

Many bodies send only commands of a harmless kind.  Whatever is required of the other
commands of a system then holds of these bodies at once.

Main results:

- Theorems {lit}`Prog.Only.bind` and {lit}`Prog.Only.mono`: bodies in two parts, and larger
  kinds.
-/

namespace Veilence
namespace Foundation
namespace Prog

variable {C : Type} {R : C → Type} {α β : Type} {P Q : C → Prop}

/-- All commands of a body are of one kind. -/
def Only (P : C → Prop) : Prog C R α → Prop
  | .ret _ => True
  | .cmd c k => P c ∧ ∀ r, Only P (k r)

/-- A body in two parts. -/
theorem Only.bind {p : Prog C R β} (hp : Only P p) {f : β → Prog C R α}
    (hf : ∀ b, Only P (f b)) : Only P (p >>= f) := by
  induction p with
  | ret b => exact hf b
  | cmd c k ih =>
      rw [Prog.cmd_bind]
      exact ⟨hp.1, fun r => ih r (hp.2 r)⟩

/-- The commands are of a larger kind, too. -/
theorem Only.mono {p : Prog C R α} (hp : Only P p) (hPQ : ∀ c, P c → Q c) : Only Q p := by
  induction p with
  | ret a => trivial
  | cmd c k ih => exact ⟨hPQ c hp.1, fun r => ih r (hp.2 r)⟩

end Prog

/-- A body whose commands are permitted in every mode follows the discipline. -/
theorem Discipline.follows_of_only {Store Op C : Type} {R : C → Type} {α β M : Type}
    {D : Discipline Op C R α M} {S : System Store Op C R α} {op : Op}
    {final : Bool → M → β → Prop} {failed : Bool} {m : M} {p : Prog C R β}
    (hp : p.Only fun c => ∀ m, D.permitted op m c) (hfinal : ∀ failed m b, final failed m b) :
    D.Follows S op final failed m p := by
  induction p generalizing failed m with
  | ret b => exact hfinal failed m b
  | cmd c k ih =>
      constructor
      · intro _
        exact ⟨hp.1 m, fun r _ => ih (some r) (hp.2 (some r))⟩
      · intro _
        exact ih none (hp.2 none)

end Foundation
end Veilence
