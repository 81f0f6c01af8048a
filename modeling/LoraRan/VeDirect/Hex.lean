import LoraRan.Protocol.Wire

namespace LoraRan.VeDirect
open Protocol

def maxData : Nat := 64
def maxChars : Nat := 2 + 2 * maxData + 2

def cmdPing : UInt8 := 0x1
def cmdAppVersion : UInt8 := 0x3
def cmdProductId : UInt8 := 0x4
def cmdRestart : UInt8 := 0x6
def cmdGet : UInt8 := 0x7
def cmdSet : UInt8 := 0x8
def cmdAsync : UInt8 := 0xA

def rspDone : UInt8 := 0x1
def rspUnknown : UInt8 := 0x3
def rspError : UInt8 := 0x4
def rspPing : UInt8 := 0x5

inductive Parse where
  | noColon | tooShort | badChar | oddLength | tooLong | badChecksum
  deriving DecidableEq, Repr

structure HexFrame where
  cmd : UInt8
  data : Bytes
  deriving DecidableEq

-- Uppercase only.
def digitValue (c : UInt8) : Option UInt8 :=
  if 0x30 ≤ c ∧ c ≤ 0x39 then some (c - 0x30)
  else if 0x41 ≤ c ∧ c ≤ 0x46 then some (c - 0x41 + 10)
  else none

def digitOr (c : UInt8) : UInt8 := (digitValue c).getD 0

-- Whole bytes from pairs of digits, high nibble first.
def hexBytes : Bytes → Bytes
  | high :: low :: rest => ((digitOr high <<< 4) ||| digitOr low) :: hexBytes rest
  | _ => []

def decode (s : Bytes) : Except Parse HexFrame :=
  match s with
  | [] => .error .noColon
  | first :: rest =>
      if first ≠ colon then .error .noColon
      else if s.length < 4 then .error .tooShort
      else if !rest.all (fun c => (digitValue c).isSome) then .error .badChar
      else if (s.length - 2) % 2 ≠ 0 then .error .oddLength
      else if (s.length - 2) / 2 - 1 > maxData then .error .tooLong
      else
        let cmd := digitOr (rest.headD 0)
        let values := hexBytes rest.tail
        if values.foldl (· + ·) cmd = 0x55 then .ok {cmd := cmd,data := values.dropLast} else .error .badChecksum

theorem digitValue_hexNibble (c value : UInt8) (digit : digitValue c = some value) : hexNibble c = some value := by
  unfold digitValue at digit
  unfold hexNibble
  split at digit
  · rename_i decimal
    rw [if_pos decimal]
    exact digit
  · rename_i decimal
    rw [if_neg decimal]
    split at digit
    · rename_i letter
      rw [if_pos letter]
      exact digit
    · cases digit

theorem decode_parts (s : Bytes) (f : HexFrame) (accepted : decode s = .ok f) :
    ∃ digit rest, s = colon :: digit :: rest ∧ 4 ≤ s.length ∧ s.length ≤ maxChars ∧ digitValue digit = some f.cmd := by
  unfold decode at accepted
  split at accepted
  · cases accepted
  · rename_i first rest
    split at accepted; · cases accepted
    rename_i isColon
    split at accepted; · cases accepted
    rename_i long
    split at accepted; · cases accepted
    rename_i digits
    split at accepted; · cases accepted
    rename_i even
    split at accepted; · cases accepted
    rename_i short
    dsimp only at accepted
    split at accepted
    · cases accepted
      have colonFirst : first = colon := by simpa using isColon
      cases rest with
      | nil => simp at long
      | cons digit rest =>
          have known : (digitValue digit).isSome = true := by
            simp only [List.all_cons,Bool.not_eq_true',Bool.and_eq_false_iff,not_or,Bool.not_eq_false] at digits
            exact digits.1
          obtain ⟨value,equal⟩ := Option.isSome_iff_exists.mp known
          simp only [List.length_cons] at long short even ⊢
          refine ⟨digit,rest,by rw [colonFirst],by omega,by simp only [maxChars,maxData] at *; omega,?_⟩
          simp [digitOr,equal]
    · cases accepted

end LoraRan.VeDirect
