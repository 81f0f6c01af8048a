import LoraRan.Library.Clock

namespace LoraRan.Link

-- Who may transmit when: a CAD first, a random wait behind a busy one, and after the last retry the frame goes out all the same.

structure MediaAccessConfig where
  cadRetries : UInt8 := 5
  backoffMaxMs : UInt32 := 1500
  deriving DecidableEq

inductive CadResult where
  | free | busy | error
  deriving DecidableEq, Repr

inductive TxStep where
  | idle | wait | cad | transmit
  deriving DecidableEq, Repr

inductive AccessState where
  | idle | waiting | ready
  deriving DecidableEq, Repr

structure MediaAccess where
  cfg : MediaAccessConfig := {}
  state : AccessState := .idle
  waitStartMs : UInt32 := 0
  waitMs : UInt32 := 0
  backoffs : UInt8 := 0
  forced : Bool := false
  cadErrors : UInt32 := 0
  deriving DecidableEq

def MediaAccess.pending (m : MediaAccess) : Bool := m.state != .idle

def MediaAccess.start (m : MediaAccess) (nowMs : UInt32) : MediaAccess :=
  {m with state := .waiting,waitStartMs := nowMs,waitMs := 0,backoffs := 0,forced := false}

def MediaAccess.step (m : MediaAccess) (nowMs : UInt32) : TxStep :=
  match m.state with
  | .idle => .idle
  | .ready => .transmit
  | .waiting => if m.waitMs ≤ nowMs - m.waitStartMs then .cad else .wait

-- `cadBackoffs` is the counter that a busy channel moves, and a failed CAD does not.
def MediaAccess.onCad (m : MediaAccess) (result : CadResult) (nowMs random cadBackoffs : UInt32) : TxStep × MediaAccess × UInt32 :=
  if m.state = .idle then (.idle,m,cadBackoffs)
  else if result = .free then (.transmit,{m with state := .ready},cadBackoffs)
  else if m.cfg.cadRetries ≤ m.backoffs then (.transmit,{m with forced := true,state := .ready},cadBackoffs)
  else
    (.wait,
      {m with
        backoffs := m.backoffs + 1
        cadErrors := if result = .busy then m.cadErrors else m.cadErrors + 1
        waitMs := if m.cfg.backoffMaxMs = 0 then 0 else random % m.cfg.backoffMaxMs
        waitStartMs := nowMs
        state := .waiting},
      if result = .busy then cadBackoffs + 1 else cadBackoffs)

def MediaAccess.finish (m : MediaAccess) : MediaAccess := {m with state := .idle}

-- Everything a CAD's outcome can do to a frame that waits.
theorem MediaAccess.onCad_cases (m : MediaAccess) (result : CadResult) (nowMs random cadBackoffs : UInt32) (pending : m.state ≠ .idle) :
    (result = .free ∧ m.onCad result nowMs random cadBackoffs = (.transmit,{m with state := .ready},cadBackoffs)) ∨
    (result ≠ .free ∧ m.cfg.cadRetries ≤ m.backoffs ∧
      m.onCad result nowMs random cadBackoffs = (.transmit,{m with forced := true,state := .ready},cadBackoffs)) ∨
    (result ≠ .free ∧ m.backoffs < m.cfg.cadRetries ∧ ∃ cadErrors waitMs counted, (m.cfg.backoffMaxMs ≠ 0 → waitMs < m.cfg.backoffMaxMs) ∧
      m.onCad result nowMs random cadBackoffs =
        (.wait,{m with backoffs := m.backoffs + 1,cadErrors := cadErrors,waitMs := waitMs,waitStartMs := nowMs,state := .waiting},counted)) := by
  unfold MediaAccess.onCad
  rw [if_neg pending]
  by_cases free : result = .free
  · rw [if_pos free]
    exact .inl ⟨free,rfl⟩
  · rw [if_neg free]
    by_cases spent : m.cfg.cadRetries ≤ m.backoffs
    · rw [if_pos spent]
      exact .inr (.inl ⟨free,spent,rfl⟩)
    · rw [if_neg spent]
      refine .inr (.inr ⟨free,UInt8.not_le.mp spent,_,_,_,?_,rfl⟩)
      intro some_
      rw [if_neg some_]
      refine UInt32.lt_iff_toNat_lt.mpr ?_
      rw [UInt32.toNat_mod]
      refine Nat.mod_lt _ (Nat.pos_of_ne_zero fun zero => some_ ?_)
      exact UInt32.toNat_inj.mp zero

structure PhyConfig where
  freqHz : UInt32
  bwKhz10 : UInt16
  sf : UInt8
  crDenom : UInt8
  conductedDbm : Int8
  antennaGainDbi10 : UInt8
  syncWord : UInt8
  preambleSymbols : UInt8
  deriving DecidableEq

def kPhy : PhyConfig where
  freqHz := 917400000
  bwKhz10 := 1250
  sf := 9
  crDenom := 5
  conductedDbm := -4
  antennaGainDbi10 := 30
  syncWord := 0x12
  preambleSymbols := 8

-- In quarter symbols; a symbol is 2^sf / bw seconds.
def preambleToHeaderMs (phy : PhyConfig) : UInt32 :=
  let quarters := phy.preambleSymbols.toNat * 4 + 17 + 32 + 4
  let symUs := 2 ^ phy.sf.toNat * 10000 / phy.bwKhz10.toNat
  UInt32.ofNat ((quarters * symUs / 4 + 999) / 1000)

def burstHoldoffMs (phy : PhyConfig) : UInt32 := 2 * preambleToHeaderMs phy

example : preambleToHeaderMs kPhy = 88 ∧ burstHoldoffMs kPhy = 176 := by decide

inductive RxArrivalState where
  | idle | arriving | stale
  deriving DecidableEq, Repr

structure RxArrival where
  preambleMs : UInt32 := 0
  frameMs : UInt32 := 0
  holdoffMs : UInt32 := 0
  receptionEnded : Bool := false
  receptionEndMs : UInt32 := 0
  preambleSeen : Bool := false
  preambleSeenMs : UInt32 := 0
  headerSeen : Bool := false
  headerSeenMs : UInt32 := 0
  deriving DecidableEq

def RxArrival.setBounds (a : RxArrival) (preambleMs frameMs holdoffMs : UInt32) : RxArrival :=
  {a with preambleMs := preambleMs,frameMs := frameMs,holdoffMs := holdoffMs}

-- A flag's age is counted from the first look that saw it.
def RxArrival.observe (a : RxArrival) (preamble header : Bool) (nowMs : UInt32) : RxArrivalState × RxArrival :=
  if header then
    let a := if a.headerSeen then a else {a with headerSeen := true,headerSeenMs := nowMs}
    (if nowMs - a.headerSeenMs < a.frameMs then .arriving else .stale,a)
  else
    let a := {a with headerSeen := false}
    if preamble then
      let a := if a.preambleSeen then a else {a with preambleSeen := true,preambleSeenMs := nowMs}
      (if nowMs - a.preambleSeenMs < a.preambleMs then .arriving else .stale,a)
    else (.idle,{a with preambleSeen := false})

def RxArrival.arriving (a : RxArrival) (nowMs : UInt32) : Bool :=
  if a.headerSeen then decide (nowMs - a.headerSeenMs < a.frameMs)
  else if a.preambleSeen then decide (nowMs - a.preambleSeenMs < a.preambleMs)
  else false

def RxArrival.reset (a : RxArrival) : RxArrival := {a with preambleSeen := false,headerSeen := false}

def RxArrival.noteReceptionEnd (a : RxArrival) (nowMs : UInt32) : RxArrival := {a with receptionEnded := true,receptionEndMs := nowMs}

def RxArrival.holdingOff (a : RxArrival) (nowMs : UInt32) : Bool := a.receptionEnded && decide (nowMs - a.receptionEndMs < a.holdoffMs)

-- A look that finds the channel clear found neither flag, and no look moves the end of a reception.
theorem RxArrival.observe_idle (a : RxArrival) (preamble header : Bool) (nowMs : UInt32) (idle : (a.observe preamble header nowMs).1 = .idle) :
    preamble = false ∧ header = false := by
  unfold RxArrival.observe at idle
  cases header with
  | true =>
      simp only [if_true] at idle
      split at idle <;> split at idle <;> cases idle
  | false =>
      cases preamble with
      | true =>
          simp only [if_true,Bool.false_eq_true,if_false] at idle
          split at idle <;> split at idle <;> cases idle
      | false => exact ⟨rfl,rfl⟩

theorem RxArrival.observe_ends (a : RxArrival) (preamble header : Bool) (nowMs : UInt32) :
    (a.observe preamble header nowMs).2.receptionEnded = a.receptionEnded ∧
      (a.observe preamble header nowMs).2.receptionEndMs = a.receptionEndMs ∧ (a.observe preamble header nowMs).2.holdoffMs = a.holdoffMs := by
  unfold RxArrival.observe
  cases header with
  | true =>
      cases a.headerSeen with
      | true => exact ⟨rfl,rfl,rfl⟩
      | false => exact ⟨rfl,rfl,rfl⟩
  | false =>
      cases preamble with
      | true =>
          cases a.preambleSeen with
          | true => exact ⟨rfl,rfl,rfl⟩
          | false => exact ⟨rfl,rfl,rfl⟩
      | false => exact ⟨rfl,rfl,rfl⟩

end LoraRan.Link
