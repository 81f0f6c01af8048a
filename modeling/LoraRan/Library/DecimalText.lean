import Mathlib.Algebra.Group.Nat.Defs

namespace LoraRan.Library.DecimalText

-- Naturals as decimal text in bytes, and a reader that stops at the first byte that is no digit.
def digits (n : Nat) : List UInt8 := (Nat.toDigits 10 n).map fun c => UInt8.ofNat c.toNat

def isDigit (b : UInt8) : Bool := decide (0x30 ≤ b) && decide (b ≤ 0x39)

-- The value so far is checked at each digit, so that a long text fails before it grows past the limit.
def readDigits (limit : Nat) (value : Nat) : List UInt8 → Option (Nat × List UInt8)
  | [] => some (value,[])
  | b :: rest =>
      if isDigit b then
        let value := value * 10 + (b.toNat - 0x30)
        if limit < value then none else readDigits limit value rest
      else some (value,b :: rest)

theorem digit_reads (k : Nat) (small : k < 10) : isDigit (UInt8.ofNat k.digitChar.toNat) = true ∧ (UInt8.ofNat k.digitChar.toNat).toNat - 0x30 = k := by
  match k,small with
  | 0,_ | 1,_ | 2,_ | 3,_ | 4,_ | 5,_ | 6,_ | 7,_ | 8,_ | 9,_ => exact ⟨by decide,by decide⟩

theorem digits_small (n : Nat) (small : n < 10) : digits n = [UInt8.ofNat n.digitChar.toNat] := by
  rw [digits,Nat.toDigits_of_lt_base small]
  rfl

theorem digits_large (n : Nat) (large : 10 ≤ n) : digits n = digits (n / 10) ++ [UInt8.ofNat (n % 10).digitChar.toNat] := by
  rw [digits,Nat.toDigits_of_base_le (by omega) large,List.map_append]
  rfl

theorem digits_head (n : Nat) : ∃ b rest, digits n = b :: rest ∧ isDigit b = true := by
  induction n using Nat.strongRecOn with
  | ind n ih =>
      by_cases small : n < 10
      · exact ⟨_,[],digits_small n small,(digit_reads n small).1⟩
      · obtain ⟨b,rest,is,digit⟩ := ih (n / 10) (by omega)
        rw [digits_large n (by omega),is]
        exact ⟨b,_,rfl,digit⟩

-- Reading past the digits of a number leaves the number, when nothing read before them is above the limit.
theorem readDigits_past (limit n : Nat) (rest : List UInt8) (fits : n ≤ limit) :
    readDigits limit 0 (digits n ++ rest) = readDigits limit n rest := by
  induction n using Nat.strongRecOn generalizing rest with
  | ind n ih =>
      by_cases small : n < 10
      · obtain ⟨digit,value⟩ := digit_reads n small
        rw [digits_small n small,List.singleton_append,readDigits,if_pos digit]
        simp only [value,Nat.zero_mul,Nat.zero_add]
        rw [if_neg (by omega)]
      · obtain ⟨digit,value⟩ := digit_reads (n % 10) (by omega)
        have whole : n / 10 * 10 + n % 10 = n := by omega
        rw [digits_large n (by omega),List.append_assoc,ih (n / 10) (by omega) _ (by omega),List.singleton_append,readDigits,if_pos digit]
        simp only [value,whole]
        rw [if_neg (by omega)]

theorem readDigits_digits (limit n : Nat) (rest : List UInt8) (fits : n ≤ limit) (stops : ∀ b ∈ rest.head?, isDigit b = false) :
    readDigits limit 0 (digits n ++ rest) = some (n,rest) := by
  rw [readDigits_past limit n rest fits]
  cases rest with
  | nil => rfl
  | cons b rest => rw [readDigits,if_neg (by rw [stops b rfl]; decide)]

-- The number a text of digits stands for, and one with a minus allowed before it.
def digitsValue : Nat → List UInt8 → Nat := List.foldl fun v b => v * 10 + (b.toNat - 0x30)

def decimalValue (text : List UInt8) : Option Nat := if text ≠ [] ∧ text.all isDigit = true then some (digitsValue 0 text) else none

def signedValue (text : List UInt8) : Option Int :=
  if text.head? = some 0x2D then (decimalValue text.tail).map fun n : Nat => -(n : Int) else (decimalValue text).map fun n : Nat => (n : Int)

theorem digitsValue_grows (v : Nat) (text : List UInt8) : v ≤ digitsValue v text := by
  induction text generalizing v with
  | nil => exact Nat.le_refl v
  | cons b rest ih => exact Nat.le_trans (by omega) (ih (v * 10 + (b.toNat - 0x30)))

theorem isDigit_iff (b : UInt8) : isDigit b = true ↔ ¬(b < 0x30 ∨ 0x39 < b) := by
  simp only [isDigit,Bool.and_eq_true,decide_eq_true_eq,UInt8.le_iff_toNat_le,UInt8.lt_iff_toNat_lt]
  omega

theorem digits_all (n : Nat) : (digits n).all isDigit = true := by
  induction n using Nat.strongRecOn with
  | ind n ih =>
      by_cases small : n < 10
      · rw [digits_small n small,List.all_cons,(digit_reads n small).1]
        rfl
      · rw [digits_large n (by omega),List.all_append,ih (n / 10) (by omega),List.all_cons,(digit_reads (n % 10) (by omega)).1]
        rfl

theorem digitsValue_digits (n : Nat) : digitsValue 0 (digits n) = n := by
  induction n using Nat.strongRecOn with
  | ind n ih =>
      by_cases small : n < 10
      · rw [digits_small n small]
        simp only [digitsValue,List.foldl_cons,List.foldl_nil,(digit_reads n small).2]
        omega
      · have before := ih (n / 10) (by omega)
        rw [digits_large n (by omega)]
        simp only [digitsValue,List.foldl_append,List.foldl_cons,List.foldl_nil,(digit_reads (n % 10) (by omega)).2] at before ⊢
        omega

theorem digits_length (n k : Nat) (some_ : 0 < k) (small : n < 10 ^ k) : (digits n).length ≤ k := by
  rw [digits,List.length_map]
  exact (Nat.length_toDigits_le_iff (by decide) some_).mpr small

-- A number in at least `width` digits, zeros in front.
def padded (width n : Nat) : List UInt8 := List.replicate (width - (digits n).length) 0x30 ++ digits n

theorem padded_length (width n : Nat) (wide : 0 < width) (fits : n < 10 ^ width) : (padded width n).length = width := by
  have short := digits_length n width wide fits
  rw [padded,List.length_append,List.length_replicate]
  omega

theorem zeros_value (count : Nat) : digitsValue 0 (List.replicate count 0x30) = 0 := by
  induction count with
  | zero => rfl
  | succ count ih => exact ih

theorem padded_value (width n : Nat) : decimalValue (padded width n) = some n := by
  have zeros := zeros_value (width - (digits n).length)
  have value : digitsValue 0 (padded width n) = n := by
    refine Eq.trans ?_ (digitsValue_digits n)
    simp only [digitsValue,padded,List.foldl_append] at zeros ⊢
    rw [zeros]
  have nonempty : padded width n ≠ [] := by
    obtain ⟨b,rest,is,_⟩ := digits_head n
    rw [padded,is]
    exact List.append_ne_nil_of_right_ne_nil _ (List.cons_ne_nil b rest)
  have all : (padded width n).all isDigit = true := by
    rw [padded,List.all_append,digits_all,Bool.and_true,List.all_eq_true]
    intro b member
    rw [List.eq_of_mem_replicate member]
    rfl
  rw [decimalValue,if_pos ⟨nonempty,all⟩,value]

end LoraRan.Library.DecimalText
