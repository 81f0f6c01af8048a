import Mathlib.Tactic.ByContra

namespace LoraRan.Library.Serial

-- Serial-number arithmetic over 16 bits: newer means less than half the circle ahead.
def newer (a b : UInt16) : Bool := decide (a - b ≠ 0) && decide (a - b < 0x8000)

def advance (a b : UInt16) : Nat := (a - b).toNat

theorem newer_advance (a b : UInt16) (ahead : newer a b = true) : 0 < advance a b ∧ advance a b < 0x8000 := by
  simp only [newer,Bool.and_eq_true,decide_eq_true_eq,UInt16.lt_iff_toNat_lt] at ahead
  obtain ⟨nonzero,near⟩ := ahead
  have positive : (a - b).toNat ≠ 0 := by
    intro zero
    exact nonzero (UInt16.toNat_inj.mp zero)
  change (a - b).toNat < 0x8000 at near
  unfold advance
  omega

-- A mark that has travelled `distance` from zero stands at `distance` modulo the circle.
theorem position (mark next : UInt16) (distance : Nat) (here : mark.toNat = distance % 65536) :
    next.toNat = (distance + advance next mark) % 65536 := by
  have nextBound := next.toNat_lt
  have markBound := mark.toNat_lt
  simp only [advance,UInt16.toNat_sub]
  omega

end LoraRan.Library.Serial
