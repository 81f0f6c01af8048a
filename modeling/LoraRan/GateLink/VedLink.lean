import LoraRan.Library.Clock
import LoraRan.Protocol.Messages
import LoraRan.VeDirect.Hex

namespace LoraRan.GateLink
open Library.Clock Protocol VeDirect
open Library.LittleEndian (u8At u16At)

-- A HEX_REQ's string on its way to the charger. `number` counts the requests handed over since the node was built; no
-- step reads it.
structure HexJob where
  token : UInt32 := 0
  hex : Bytes := []
  number : Nat := 0
  deriving DecidableEq

structure HexResult where
  token : UInt32 := 0
  status : HexStatus := .ok
  hex : Bytes := []
  deriving DecidableEq

-- One HEX transaction at a time. `reqReg` is the source's req_reg_ behind req_reg_known_, and `wire` every job whose
-- string was handed to the writer, oldest first. The text blocks and the counters are left out.
structure VedLink where
  hexTimeoutMs : UInt32 := 1000
  active : Bool := false
  job : HexJob := {}
  reqCmd : UInt8 := 0
  reqReg : Option UInt16 := none
  retryable : Bool := false
  retried : Bool := false
  startMs : UInt32 := 0
  result : Option HexResult := none
  wire : List HexJob := []
  deriving DecidableEq

-- 0xFF where the character is no hex digit.
def nibble (c : UInt8) : UInt8 := (hexNibble c).getD 0xFF

def VedLink.finish (v : VedLink) (status : HexStatus) (hex : Bytes) : VedLink :=
  {v with active := false,result := some ⟨v.job.token,status,hex.take maxChars⟩}

-- `took` is whether the UART took the whole line.
def VedLink.send (v : VedLink) (took : Bool) : Bool × VedLink :=
  let v := {v with wire := v.wire ++ [v.job]}
  if took then (true,v) else (false,v.finish .uartError [])

-- The register of a Get or Set that decodes.
def requestReg (hex : Bytes) : Option UInt16 :=
  match decode hex with
  | .error _ => none
  | .ok q => if (q.cmd = cmdGet ∨ q.cmd = cmdSet) ∧ 2 ≤ q.data.length then some (u16At q.data 0) else none

def isGet (hex : Bytes) : Bool :=
  match decode hex with
  | .error _ => false
  | .ok q => q.cmd == cmdGet

def VedLink.start (v : VedLink) (job : HexJob) (nowMs : UInt32) (took : Bool) : Bool × VedLink :=
  if v.active then (false,v)
  else
    let v := {v with active := true,job := job,startMs := nowMs,retried := false}
    if job.hex.length < 2 ∨ maxChars < job.hex.length then (true,v.finish .malformedRequest [])
    else
      let v := {v with
        reqCmd := nibble (u8At job.hex 1)
        reqReg := requestReg job.hex
        retryable := (requestReg job.hex).isSome && isGet job.hex}
      let (sent,v) := v.send took
      if !sent then (true,v)
      -- A Restart is never answered.
      else if v.reqCmd = cmdRestart then (true,v.finish .ok [])
      else (true,v)

def VedLink.tick (v : VedLink) (nowMs : UInt32) (took : Bool) : VedLink :=
  if !v.active then v
  else if reached nowMs (v.startMs + v.hexTimeoutMs) then v.finish .timeout []
  else if v.retryable && !v.retried && reached nowMs (v.startMs + v.hexTimeoutMs / 2) then
    (VedLink.send {v with retried := true} took).2
  else v

def VedLink.takeResult (v : VedLink) : Option HexResult × VedLink := (v.result,{v with result := none})

-- An echoed register answers a Get or a Set, and the response command anything else.
def VedLink.answers (v : VedLink) (f : HexFrame) : Bool :=
  if f.cmd = rspUnknown ∨ f.cmd = rspError then true
  else if v.reqCmd = cmdPing then f.cmd == rspPing
  else if v.reqCmd = cmdAppVersion ∨ v.reqCmd = cmdProductId then f.cmd == rspDone
  else if v.reqCmd = cmdGet ∨ v.reqCmd = cmdSet then
    match v.reqReg with
    | none => false
    | some reg => f.cmd == v.reqCmd && decide (3 ≤ f.data.length) && u16At f.data 0 == reg
  else false

-- A HEX line from the charger.
def VedLink.onHexLine (v : VedLink) (line : Bytes) : VedLink :=
  match decode line with
  | .error _ => v
  | .ok f =>
      if f.cmd = cmdAsync then v
      else if !v.active || !v.answers f then v
      else v.finish .ok line

-- What each step can do to the wire and to the job in hand.

theorem send_wire (v : VedLink) (took : Bool) : (v.send took).2.wire = v.wire ++ [v.job] ∧ (v.send took).2.job = v.job := by
  cases took <;> exact ⟨rfl,rfl⟩

theorem start_cases (v : VedLink) (job : HexJob) (nowMs : UInt32) (took : Bool) :
    (v.active = true ∧ (v.start job nowMs took).2 = v) ∨
    (v.active = false ∧ (v.start job nowMs took).2.job = job ∧
      ((v.start job nowMs took).2.wire = v.wire ∧ (v.start job nowMs took).2.active = false ∨
        (v.start job nowMs took).2.wire = v.wire ++ [job])) := by
  unfold VedLink.start
  split
  · exact .inl ⟨by assumption,rfl⟩
  · rename_i idle
    refine .inr ⟨by simpa using idle,?_⟩
    dsimp only
    split
    · exact ⟨rfl,.inl ⟨rfl,rfl⟩⟩
    · cases took with
      | false => exact ⟨rfl,.inr rfl⟩
      | true =>
          simp only [VedLink.send,if_true,Bool.not_true,Bool.false_eq_true,if_false]
          split
          · exact ⟨rfl,.inr rfl⟩
          · exact ⟨rfl,.inr rfl⟩

theorem tick_cases (v : VedLink) (nowMs : UInt32) (took : Bool) :
    (v.tick nowMs took).job = v.job ∧
      ((v.tick nowMs took).wire = v.wire ∧ (v.tick nowMs took).retried = v.retried ∨
        v.active = true ∧ v.retryable = true ∧ v.retried = false ∧ (v.tick nowMs took).wire = v.wire ++ [v.job] ∧
          (v.tick nowMs took).retried = true) := by
  unfold VedLink.tick
  split
  · exact ⟨rfl,.inl ⟨rfl,rfl⟩⟩
  · rename_i active
    split
    · exact ⟨rfl,.inl ⟨rfl,rfl⟩⟩
    · split
      · rename_i due
        simp only [Bool.and_eq_true,Bool.not_eq_true'] at due
        refine ⟨(send_wire _ took).2,.inr ⟨by simpa using active,due.1.1,due.1.2,(send_wire _ took).1,?_⟩⟩
        cases took <;> rfl
      · exact ⟨rfl,.inl ⟨rfl,rfl⟩⟩

end LoraRan.GateLink
