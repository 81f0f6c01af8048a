import Mathlib.Data.List.Basic

namespace LoraRan.Library.Crc

variable {w : Nat} (g : BitVec w)

-- A division register of `w` bits: the bit that leaves at the top, against the one coming in, decides whether `g` is taken off.
def feed (c : BitVec w) (b : Bool) : BitVec w := (c <<< 1) ^^^ (if c.msb ^^ b then g else 0#w)

def run (c : BitVec w) (bits : List Bool) : BitVec w := bits.foldl (feed g) c

@[simp] theorem run_nil (c : BitVec w) : run g c [] = c := rfl

@[simp] theorem run_cons (c : BitVec w) (b : Bool) (bits : List Bool) : run g c (b :: bits) = run g (feed g c b) bits := rfl

theorem run_append (c : BitVec w) (front back : List Bool) : run g c (front ++ back) = run g (run g c front) back :=
  List.foldl_append

theorem feed_xor (c d : BitVec w) (a b : Bool) : feed g (c ^^^ d) (a ^^ b) = feed g c a ^^^ feed g d b := by
  unfold feed
  rw [BitVec.shiftLeft_xor_distrib,BitVec.msb_xor]
  have split : (if (c.msb ^^ d.msb) ^^ (a ^^ b) then g else 0#w) =
      (if c.msb ^^ a then g else 0#w) ^^^ (if d.msb ^^ b then g else 0#w) := by
    cases c.msb <;> cases d.msb <;> cases a <;> cases b <;> simp
  rw [split]
  ac_rfl

@[simp] theorem feed_zero : feed g 0#w false = 0#w := by
  simp [feed]

-- Two inputs of one length part by what their difference leaves of an empty register.
theorem run_xor (c d : BitVec w) (xs ys : List Bool) (same : xs.length = ys.length) :
    run g (c ^^^ d) (List.zipWith (· ^^ ·) xs ys) = run g c xs ^^^ run g d ys := by
  induction xs generalizing c d ys with
  | nil =>
    have none : ys = [] := List.length_eq_zero_iff.mp same.symm
    subst none
    rfl
  | cons x xs ih =>
    cases ys with
    | nil => simp at same
    | cons y ys =>
      rw [List.zipWith_cons_cons,run_cons,run_cons,run_cons,feed_xor]
      exact ih _ _ ys (by simpa using same)

@[simp] theorem run_zeros (n : Nat) : run g 0#w (List.replicate n false) = 0#w := by
  induction n with
  | zero => rfl
  | succ n ih => rw [List.replicate_succ,run_cons,feed_zero,ih]

section Odd

variable {g} (odd : g.getLsbD 0 = true)
include odd

-- With the constant term in `g`, what leaves at the top is back at the bottom: nothing is lost.
theorem feed_top (c : BitVec w) (b : Bool) (clear : (feed g c b).getLsbD 0 = false) : c.msb = b := by
  by_contra apart
  have taken : (c.msb ^^ b) = true := by
    cases hc : c.msb <;> cases hb : b <;> simp_all
  rw [feed,taken] at clear
  simp [odd] at clear

omit odd in
theorem feed_kept (c : BitVec w) (b : Bool) (top : c.msb = b) (i : Nat) : (feed g c b).getMsbD i = c.getMsbD (i + 1) := by
  have kept : feed g c b = c <<< 1 := by
    simp [feed,top]
  rw [kept,BitVec.getMsbD_shiftLeft]

theorem width_pos : 0 < w := by
  refine Nat.pos_of_ne_zero ?_
  intro none
  subst none
  simp at odd

-- As many bits as the register has leave it empty exactly when they are the bits it held.
theorem run_eq_zero_iff (bits : List Bool) (short : bits.length ≤ w) (c : BitVec w) :
    run g c bits = 0#w ↔ ∀ i < w, c.getMsbD i = bits[i]?.getD false := by
  induction bits generalizing c with
  | nil =>
    constructor
    · intro empty
      rw [run_nil] at empty
      subst empty
      intro i _
      simp
    · intro clear
      refine BitVec.eq_of_getMsbD_eq ?_
      intro i inside
      simpa using clear i inside
  | cons b bits ih =>
    have room : bits.length < w := short
    rw [run_cons,ih (Nat.le_of_lt room)]
    constructor
    · intro held
      have bottom : (feed g c b).getLsbD 0 = false := by
        have last := held (w - 1) (by omega)
        rw [List.getElem?_eq_none (by omega),BitVec.getMsbD_eq_getLsbD] at last
        have inside : w - 1 < w := Nat.sub_lt (width_pos odd) Nat.one_pos
        simpa [inside] using last
      have top := feed_top odd c b bottom
      intro i inside
      cases i with
      | zero => simpa [BitVec.msb] using top
      | succ i =>
        rw [List.getElem?_cons_succ,← held i (by omega)]
        exact (feed_kept c b top i).symm
    · intro held i inside
      have top : c.msb = b := by simpa [BitVec.msb] using held 0 (width_pos odd)
      rw [feed_kept c b top i]
      by_cases last : i + 1 < w
      · rw [held (i + 1) last,List.getElem?_cons_succ]
      · rw [BitVec.getMsbD_of_ge _ _ (by omega),List.getElem?_eq_none (by omega)]
        rfl

-- Bits laid in the top of the register are worth the same bits fed to it.
theorem run_held (bits : List Bool) (short : bits.length ≤ w) (x c : BitVec w) (held : ∀ i < w, x.getMsbD i = bits[i]?.getD false) :
    run g (c ^^^ x) (List.replicate bits.length false) = run g c bits := by
  have parted := run_xor g (c ^^^ x) c (List.replicate bits.length false) bits List.length_replicate
  have left : c ^^^ x ^^^ c = x := by
    rw [BitVec.xor_comm c x,BitVec.xor_assoc,BitVec.xor_self,BitVec.xor_zero]
  have plain : List.zipWith (· ^^ ·) (List.replicate bits.length false) bits = bits := by
    apply List.ext_getElem
    · simp
    · intro i _ _
      simp
  rw [left,plain,(run_eq_zero_iff odd bits short x).mpr held] at parted
  exact BitVec.xor_eq_zero_iff.mp parted.symm

theorem run_zeros_inj (n : Nat) (c : BitVec w) (empty : run g c (List.replicate n false) = 0#w) : c = 0#w := by
  induction n generalizing c with
  | zero => exact empty
  | succ n ih =>
    rw [List.replicate_succ,run_cons] at empty
    have once : run g c [false] = 0#w := ih _ empty
    refine BitVec.eq_of_getMsbD_eq ?_
    intro i inside
    have bit := (run_eq_zero_iff odd [false] (width_pos odd) c).mp once i inside
    cases i with
    | zero => simpa using bit
    | succ i => simpa using bit

end Odd

-- Where two strings part: the ones of their difference.
theorem differ_at (xs ys : List Bool) (same : xs.length = ys.length) (k : Nat) :
    xs[k]? ≠ ys[k]? ↔ (List.zipWith (· ^^ ·) xs ys)[k]? = some true := by
  rw [List.getElem?_zipWith]
  by_cases inside : k < xs.length
  · have inside' : k < ys.length := same ▸ inside
    rw [List.getElem?_eq_getElem inside,List.getElem?_eq_getElem inside']
    cases xs[k] <;> cases ys[k] <;> simp
  · rw [List.getElem?_eq_none (by omega),List.getElem?_eq_none (by omega)]
    simp

theorem zeros_of_clear (bits : List Bool) (clear : ∀ k : Nat, bits[k]? ≠ some true) : bits = List.replicate bits.length false := by
  refine List.eq_replicate_iff.mpr ⟨rfl,?_⟩
  intro b present
  obtain ⟨k,inside,here⟩ := List.mem_iff_getElem.mp present
  have unset := clear k
  rw [List.getElem?_eq_getElem inside,here] at unset
  cases b with
  | false => rfl
  | true => exact absurd rfl unset

theorem run_clear (bits : List Bool) (clear : ∀ k : Nat, bits[k]? ≠ some true) : run g 0#w bits = 0#w := by
  rw [zeros_of_clear bits clear]
  exact run_zeros g _

-- What follows the last one of a difference never empties the register, what stands before the first never fills it.
theorem run_from (bits : List Bool) (first : Nat) (clear : ∀ k < first, bits[k]? ≠ some true) :
    run g 0#w bits = run g 0#w (bits.drop first) := by
  rw [← List.take_append_drop first bits,run_append,run_clear g (bits.take first),List.take_append_drop]
  intro k set_
  rw [List.getElem?_take] at set_
  split at set_
  · rename_i before
    exact clear k before set_
  · cases set_

theorem pair_shape (bits : List Bool) (i j : Nat) (order : i < j) (ones : ∀ k : Nat, bits[k]? = some true ↔ k = i ∨ k = j) :
    (bits.drop i).take (j - i + 1) = true :: (List.replicate (j - i - 1) false ++ [true]) := by
  have second := (ones j).mpr (Or.inr rfl)
  obtain ⟨long,_⟩ := List.getElem?_eq_some_iff.mp second
  apply List.ext_getElem
  · simp only [List.length_take,List.length_drop,List.length_cons,List.length_append,List.length_replicate,List.length_nil]
    omega
  · intro k inside _
    simp only [List.length_take,List.length_drop] at inside
    rw [List.getElem_take,List.getElem_drop]
    cases k with
    | zero =>
      have here := (ones i).mpr (Or.inl rfl)
      exact (List.getElem?_eq_some_iff.mp here).2
    | succ k =>
      rw [List.getElem_cons_succ,List.getElem_append]
      split
      · rename_i between
        rw [List.length_replicate] at between
        rw [List.getElem_replicate]
        by_contra set_
        have here := (ones (i + (k + 1))).mp (List.getElem?_eq_some_iff.mpr ⟨by omega,Bool.of_not_eq_false set_⟩)
        omega
      · rename_i beyond
        rw [List.length_replicate] at beyond
        have last : i + (k + 1) = j := by omega
        simp only [last,List.getElem_singleton]
        exact (List.getElem?_eq_some_iff.mp second).2

section Detect

variable {g} (odd : g.getLsbD 0 = true)
include odd

theorem run_to (bits : List Bool) (last : Nat) (clear : ∀ k : Nat, last ≤ k → bits[k]? ≠ some true) (c : BitVec w)
    (empty : run g c bits = 0#w) : run g c (bits.take last) = 0#w := by
  rw [← List.take_append_drop last bits,run_append,zeros_of_clear (bits.drop last)] at empty
  · exact run_zeros_inj odd _ _ empty
  · intro k set_
    rw [List.getElem?_drop] at set_
    exact clear (last + k) (by omega) set_

theorem burst_left (bits : List Bool) (first count : Nat) (short : count ≤ w)
    (within : ∀ k : Nat, bits[k]? = some true → first ≤ k ∧ k < first + count) (touched : ∃ k : Nat, bits[k]? = some true) :
    run g 0#w bits ≠ 0#w := by
  intro empty
  rw [run_from g bits first (fun k before set_ => absurd (within k set_).1 (Nat.not_le.mpr before))] at empty
  have inner := run_to odd (bits.drop first) count ?_ 0#w empty
  · obtain ⟨k,set_⟩ := touched
    obtain ⟨from_,upto⟩ := within k set_
    have held := (run_eq_zero_iff odd _ (by rw [List.length_take]; omega) 0#w).mp inner (k - first) (by omega)
    rw [List.getElem?_take,if_pos (by omega),List.getElem?_drop,Nat.add_sub_cancel' from_,set_] at held
    simp at held
  · intro k beyond set_
    rw [List.getElem?_drop] at set_
    have := (within _ set_).2
    omega

-- Two ones leave the register empty only where their distance is a period of the register.
theorem pair_left (bits : List Bool) (i j : Nat) (order : i < j) (ones : ∀ k : Nat, bits[k]? = some true ↔ k = i ∨ k = j)
    (empty : run g 0#w bits = 0#w) : run g g (List.replicate (j - i) false) = g := by
  rw [run_from g bits i (fun k before set_ => by have := (ones k).mp set_; omega)] at empty
  have inner := run_to odd (bits.drop i) (j - i + 1) ?_ 0#w empty
  · rw [pair_shape bits i j order ones,run_cons,run_append] at inner
    have filled : feed g 0#w true = g := by
      simp [feed]
    rw [filled] at inner
    have back : j - i = (j - i - 1) + 1 := by omega
    rw [back,List.replicate_succ',run_append]
    refine BitVec.xor_eq_zero_iff.mp ?_
    rw [← inner]
    simp only [run_cons,run_nil]
    have parted := feed_xor g (run g g (List.replicate (j - i - 1) false)) 0#w false true
    rw [filled,BitVec.xor_zero,Bool.false_xor] at parted
    exact parted.symm
  · intro k beyond set_
    rw [List.getElem?_drop] at set_
    have := (ones _).mp set_
    omega

end Detect

end LoraRan.Library.Crc
