import Mathlib.Algebra.Group.Nat.Defs
import Mathlib.Tactic.ByContra

namespace LoraRan.Library.Clock

-- A 32-bit millisecond counter compared by signed difference: `at` lies in the past half of the circle.
def reached (now at_ : UInt32) : Bool := decide ((now - at_).toNat < 2 ^ 31)

-- Unbounded time read through the counter.
def stamp (time : Nat) : UInt32 := UInt32.ofNat time

theorem stamp_toNat (time : Nat) : (stamp time).toNat = time % 2 ^ 32 := by
  simp [stamp]

-- The unsigned difference is the true one with the whole turns left out.
theorem stamp_sub (since time : Nat) (later : since ≤ time) : (stamp time - stamp since).toNat = (time - since) % 2 ^ 32 := by
  rw [UInt32.toNat_sub,stamp_toNat,stamp_toNat]
  omega

-- A passed deadline shows as reached in every other half turn after it.
theorem reached_past (since time : Nat) (span : UInt32) (passed : since + span.toNat ≤ time) :
    reached (stamp time) (stamp since + span) = true ↔ (time - since - span.toNat) % 2 ^ 32 < 2 ^ 31 := by
  have bound := span.toNat_lt
  simp only [reached,decide_eq_true_eq,UInt32.toNat_sub,UInt32.toNat_add,stamp_toNat]
  constructor
  · intro hit
    omega
  · intro near
    omega

-- A deadline less than half a turn ahead is never taken for reached, however often the counter has wrapped.
theorem not_early (since time : Nat) (span : UInt32) (short : span.toNat ≤ 2 ^ 31) (later : since ≤ time)
    (hit : reached (stamp time) (stamp since + span) = true) : since + span.toNat ≤ time := by
  by_contra early
  simp only [reached,decide_eq_true_eq,UInt32.toNat_sub,UInt32.toNat_add,stamp_toNat] at hit
  omega

-- The signed difference itself: negative when the reading lies in the coming half of the circle.
def elapsed (now then_ : UInt32) : Int := (now - then_).toInt32.toInt

theorem elapsed_eq (now then_ : UInt32) : elapsed now then_ =
    if (now - then_).toNat < 2 ^ 31 then ((now - then_).toNat : Int) else ((now - then_).toNat : Int) - 4294967296 := by
  rw [elapsed,Int32.toInt,UInt32.toBitVec_toInt32,BitVec.toInt_eq_toNat_cond,UInt32.toNat_toBitVec]
  split <;> split <;> omega

-- A span the difference shows has really passed.
theorem elapsed_real (since time : Nat) (span : Nat) (later : since ≤ time)
    (shown : (span : Int) ≤ elapsed (stamp time) (stamp since)) : since + span ≤ time := by
  rw [elapsed_eq,UInt32.toNat_sub,stamp_toNat,stamp_toNat] at shown
  split at shown <;> omega

-- Within half a turn the difference is the true one.
theorem elapsed_near (since time : Nat) (later : since ≤ time) (near : time < since + 2 ^ 31) :
    elapsed (stamp time) (stamp since) = ((time - since : Nat) : Int) := by
  rw [elapsed_eq,UInt32.toNat_sub,stamp_toNat,stamp_toNat]
  split <;> omega

-- A reading from before the mark, and less than half a turn before it, shows as negative.
theorem elapsed_before (mark time : Nat) (earlier : time < mark) (near : mark < time + 2 ^ 31) :
    elapsed (stamp time) (stamp mark) < 0 := by
  rw [elapsed_eq,UInt32.toNat_sub,stamp_toNat,stamp_toNat]
  split <;> omega

end LoraRan.Library.Clock
