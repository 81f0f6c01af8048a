import LoraRan.GateLink.ChargeInhibit
import LoraRan.GateLink.Detect
import LoraRan.Library.StepSystem

namespace LoraRan.GateLink.StatusAges
open Library.Clock Library.StepSystem Protocol VeDirect

-- The tasks a STATUS takes its ages from, beside the true time, which the node reads through a 32-bit counter. The marks
-- are when the last text block ended, when the last published BMS read was taken and when the last traversal was seen.
structure Station where
  time : Nat := 0
  uart : VedUart := {}
  bms : BmsSnapshot := {}
  detector : Detector := {}
  charge : ChargeInhibit := {}
  published : MpptSnapshot := {}
  ids : UInt32 := 0
  blockAt : Option Nat := none
  readAt : Option Nat := none
  crossedAt : Option Nat := none

def Station.now (s : Station) : UInt32 := stamp s.time

inductive Event where
  | wait (ms : Nat)
  | byte (b : UInt8)
  | setVedParams (hexTimeoutMs staleMs : UInt32)
  | startHex (job : HexJob) (took : Bool)
  | tickHex (took : Bool)
  | takeHex
  | publishMppt
  -- bms_task publishes a read it took at `at_`, before it closed the connection.
  | publishBms (data : BmsData) (rssiDbm : Int16) (at_ : Nat)
  | detect (inputs : UInt8) (g : GateContext) (p : DetectParams) (out : List Push)
  | charge (g : GateContext) (p : ChargeParams)
  | drawId

def step (s : Station) : Event → Station
  | .wait ms => {s with time := s.time + ms}
  | .byte b =>
      {s with
        uart := s.uart.feed b s.now
        blockAt := if (s.uart.text.feed b).1 = .block then some s.time else s.blockAt}
  | .setVedParams hexTimeoutMs staleMs => {s with uart := s.uart.setParams hexTimeoutMs staleMs}
  | .startHex job took => {s with uart := {s.uart with link := (s.uart.link.start job s.now took).2}}
  | .tickHex took => {s with uart := {s.uart with link := s.uart.link.tick s.now took}}
  | .takeHex => {s with uart := {s.uart with link := s.uart.link.takeResult.2}}
  | .publishMppt => {s with published := s.uart.mppt s.now}
  | .publishBms data rssiDbm at_ => {s with bms := ⟨true,data,rssiDbm,stamp at_⟩,readAt := some at_}
  | .detect inputs g p out =>
      let seen := s.detector.update inputs s.now g p s.ids out
      {s with
        detector := seen.d
        ids := seen.ids
        crossedAt := if s.detector.crosses inputs then some s.time else s.crossedAt}
  | .charge g p =>
      let (_,charge,ids,_) := s.charge.update s.published s.bms s.now p g s.ids []
      {s with charge := charge,ids := ids}
  | .drawId => {s with ids := s.ids + 1}

-- A read is published after it was taken.
def Published (s : Station) : Event → Prop
  | .publishBms _ _ at_ => at_ ≤ s.time
  | _ => True

instance publishedDecidable (s : Station) (e : Event) : Decidable (Published s e) := by
  cases e <;> (unfold Published; infer_instance)

-- What a STATUS must say of its ages.

def Station.StaleTold (s : Station) : Prop :=
  (∀ t, s.blockAt = some t → s.uart.staleMs.toNat ≤ s.time - t) → (s.uart.mppt s.now).mpptFlags &&& mpptFlagStale ≠ 0

-- The true age in seconds, or the sentinel from where the field cannot hold it.
def Station.BmsAgeTold (s : Station) : Prop :=
  (fillBmsBlock s.bms s.now).bmsAgeS.toNat = match s.readAt with
    | none => u16NotAvailable.toNat
    | some t => min ((s.time - t) / 1000) u16NotAvailable.toNat

def Station.TraversalAgeTold (s : Station) : Prop :=
  match s.crossedAt with
  | none => s.detector.lastTraversalAgeS s.now = 0xFFFFFFFF
  | some t =>
      (s.detector.lastTraversalAgeS s.now).toNat = (s.time - t) / 1000 ∨ s.detector.lastTraversalAgeS s.now = 0xFFFFFFFF

def pollsMs (p : ChargeParams) : Nat := 3 * p.bmsPollS.toNat * 1000

-- A charge pass here goes by the BMS only on a read of at most three poll periods.
def Station.DecidesFresh (s : Station) (p : ChargeParams) : Prop :=
  ∀ g ids out, (s.charge.update s.published s.bms s.now p g ids out).2.1.path = .bms → ∃ t, s.readAt = some t ∧ s.time - t ≤ pollsMs p

structure Truthful (s : Station) (p : ChargeParams) : Prop where
  stale : s.StaleTold
  bmsAge : s.BmsAgeTold
  traversalAge : s.TraversalAgeTold
  deciding : s.DecidesFresh p

-- How long the silences may be for the counter to tell them apart from short ones.
structure Recent (s : Station) (p : ChargeParams) : Prop where
  block : ∀ t, s.blockAt = some t → s.uart.staleMs.toNat ≤ s.time - t → (s.time - t - s.uart.staleMs.toNat) % 2 ^ 32 < 2 ^ 31
  read : ∀ t, s.readAt = some t → 65535000 ≤ s.time - t → 65535000 ≤ (s.time - t) % 2 ^ 32
  crossed : ∀ t, s.crossedAt = some t → s.time - t < 2 ^ 32
  deciding : ∀ t, s.readAt = some t → 0 < s.bms.data.tempCount → pollsMs p < s.time - t → (freshSpanMs p).toNat ≤ (s.time - t) % 2 ^ 32

-- What the node keeps of an event is whether it was seen and the counter's reading then.
def Marks (mark : Option Nat) (time : Nat) (seen : Bool) (ms : UInt32) : Prop :=
  match mark with
  | none => seen = false
  | some t => t ≤ time ∧ seen = true ∧ ms = stamp t

structure Timed (s : Station) : Prop where
  block : Marks s.blockAt s.time s.uart.haveBlock s.uart.lastBlockMs
  read : Marks s.readAt s.time s.bms.have_ s.bms.readMs
  crossed : Marks s.crossedAt s.time s.detector.traversalSeen s.detector.traversalMs

theorem marks_later {mark : Option Nat} {time later : Nat} {seen : Bool} {ms : UInt32} (marks : Marks mark time seen ms)
    (after : time ≤ later) : Marks mark later seen ms := by
  cases mark with
  | none => exact marks
  | some t =>
      obtain ⟨before,rest⟩ := marks
      exact ⟨Nat.le_trans before after,rest⟩

theorem byte_timed (s : Station) (b : UInt8) (timed : Timed s) : Timed (step s (.byte b)) := by
  refine ⟨?_,timed.read,timed.crossed⟩
  simp only [step]
  rcases feed_cache s.uart b s.now with ⟨block,seen,stamped⟩ | ⟨other,seen,stamped⟩
  · rw [if_pos block,seen,stamped]
    exact ⟨Nat.le_refl _,rfl,rfl⟩
  · rw [if_neg other,seen,stamped]
    exact timed.block

theorem detect_timed (s : Station) (inputs : UInt8) (g : GateContext) (p : DetectParams) (out : List Push) (timed : Timed s) :
    Timed (step s (.detect inputs g p out)) := by
  refine ⟨timed.block,timed.read,?_⟩
  have moved := update_traversal s.detector inputs s.now g p s.ids out
  simp only [Detector.traversal] at moved
  simp only [step]
  cases crosses : s.detector.crosses inputs with
  | true =>
      rw [crosses,if_pos rfl] at moved
      obtain ⟨seen,stamped⟩ := Prod.mk.inj moved
      rw [seen,stamped]
      exact ⟨Nat.le_refl _,rfl,rfl⟩
  | false =>
      rw [crosses,if_neg (by decide)] at moved
      obtain ⟨seen,stamped⟩ := Prod.mk.inj moved
      rw [seen,stamped]
      exact timed.crossed

theorem step_timed (s : Station) (e : Event) (timed : Timed s) (published : Published s e) : Timed (step s e) := by
  cases e with
  | wait ms =>
      have later := Nat.le_add_right s.time ms
      exact ⟨marks_later timed.block later,marks_later timed.read later,marks_later timed.crossed later⟩
  | byte b => exact byte_timed s b timed
  | publishBms data rssiDbm at_ => exact ⟨timed.block,⟨published,rfl,rfl⟩,timed.crossed⟩
  | detect inputs g p out => exact detect_timed s inputs g p out timed
  | setVedParams hexTimeoutMs staleMs => exact ⟨timed.block,timed.read,timed.crossed⟩
  | startHex job took => exact ⟨timed.block,timed.read,timed.crossed⟩
  | tickHex took => exact ⟨timed.block,timed.read,timed.crossed⟩
  | takeHex => exact ⟨timed.block,timed.read,timed.crossed⟩
  | publishMppt => exact ⟨timed.block,timed.read,timed.crossed⟩
  | charge g p => exact ⟨timed.block,timed.read,timed.crossed⟩
  | drawId => exact ⟨timed.block,timed.read,timed.crossed⟩

theorem start_timed : Timed {} := ⟨rfl,rfl,rfl⟩

theorem reached_timed (s : Station) (path : Reached step Published {} s) : Timed s :=
  path.invariant Timed start_timed step_timed

-- Each age against the counter, one reading at a time.

theorem stale_exact (s : Station) (timed : Timed s) : s.StaleTold ↔
    ∀ t, s.blockAt = some t → s.uart.staleMs.toNat ≤ s.time - t → (s.time - t - s.uart.staleMs.toNat) % 2 ^ 32 < 2 ^ 31 := by
  have marks := timed.block
  simp only [Station.StaleTold,mppt_stale_bit,VedUart.stale]
  cases at_ : s.blockAt with
  | none =>
      rw [at_] at marks
      change s.uart.haveBlock = false at marks
      rw [marks]
      exact ⟨(fun _ t is => by cases is),fun _ _ => rfl⟩
  | some t =>
      rw [at_] at marks
      obtain ⟨before,seen,stamped⟩ := marks
      rw [seen,stamped,Bool.not_true,Bool.false_or]
      constructor
      · intro told t' is silent
        cases is
        exact (reached_past t s.time s.uart.staleMs (by omega)).mp (told fun t' is => by cases is; exact silent)
      · intro near silent
        have silent := silent t rfl
        exact (reached_past t s.time s.uart.staleMs (by omega)).mpr (near t rfl silent)

theorem bmsAge_exact (s : Station) (timed : Timed s) : s.BmsAgeTold ↔
    ∀ t, s.readAt = some t → 65535000 ≤ s.time - t → 65535000 ≤ (s.time - t) % 2 ^ 32 := by
  have marks := timed.read
  simp only [Station.BmsAgeTold]
  cases at_ : s.readAt with
  | none =>
      rw [at_] at marks
      change s.bms.have_ = false at marks
      simp only [fillBmsBlock,marks]
      exact ⟨(fun _ t is => by cases is),fun _ => rfl⟩
  | some t =>
      rw [at_] at marks
      obtain ⟨before,seen,stamped⟩ := marks
      have gap := stamp_sub t s.time before
      have sentinel : u16NotAvailable.toNat = 65535 := rfl
      have seconds : ((s.now - s.bms.readMs) / 1000).toNat = (s.time - t) % 2 ^ 32 / 1000 := by
        rw [UInt32.toNat_div,stamped,Station.now,gap]
        rfl
      have shown : (fillBmsBlock s.bms s.now).bmsAgeS.toNat = min ((s.time - t) % 2 ^ 32 / 1000) 65535 := by
        simp only [fillBmsBlock,seen,Bool.not_true,Bool.false_eq_true,if_false,seconds,sentinel]
        split
        · rw [UInt32.toNat_toUInt16,seconds]
          omega
        · rw [sentinel]
          omega
      rw [shown]
      change min _ _ = min ((s.time - t) / 1000) 65535 ↔ _
      constructor
      · intro told t' is old
        cases is
        omega
      · intro near
        have near := near t rfl
        omega

theorem traversalAge_exact (s : Station) (timed : Timed s) : s.TraversalAgeTold ↔ ∀ t, s.crossedAt = some t → s.time - t < 2 ^ 32 := by
  have marks := timed.crossed
  simp only [Station.TraversalAgeTold,Detector.lastTraversalAgeS]
  cases at_ : s.crossedAt with
  | none =>
      rw [at_] at marks
      change s.detector.traversalSeen = false at marks
      simp only [marks]
      exact ⟨(fun _ t is => by cases is),fun _ => rfl⟩
  | some t =>
      rw [at_] at marks
      obtain ⟨before,seen,stamped⟩ := marks
      have gap := stamp_sub t s.time before
      have seconds : ((s.now - s.detector.traversalMs) / 1000).toNat = (s.time - t) % 2 ^ 32 / 1000 := by
        rw [UInt32.toNat_div,stamped,Station.now,gap]
        rfl
      have real : (s.now - s.detector.traversalMs) / 1000 ≠ 0xFFFFFFFF := by
        intro is
        rw [is] at seconds
        have top : (0xFFFFFFFF : UInt32).toNat = 4294967295 := rfl
        omega
      simp only [seen,if_true,seconds,real,or_false]
      constructor
      · intro told t' is
        cases is
        omega
      · intro near
        have near := near t rfl
        omega

theorem deciding_exact (s : Station) (p : ChargeParams) (timed : Timed s) : s.DecidesFresh p ↔
    ∀ t, s.readAt = some t → 0 < s.bms.data.tempCount → pollsMs p < s.time - t → (freshSpanMs p).toNat ≤ (s.time - t) % 2 ^ 32 := by
  have marks := timed.read
  simp only [Station.DecidesFresh,update_path_bms,bmsFresh,passed]
  cases at_ : s.readAt with
  | none =>
      rw [at_] at marks
      change s.bms.have_ = false at marks
      rw [marks]
      exact ⟨(fun _ t is => by cases is),fun _ g ids out fresh => by cases fresh⟩
  | some t =>
      rw [at_] at marks
      obtain ⟨before,seen,stamped⟩ := marks
      have gap := stamp_sub t s.time before
      simp only [seen,stamped,Station.now,Bool.true_and,Bool.and_eq_true,decide_eq_true_eq,Bool.not_eq_true',decide_eq_false_iff_not,
        UInt32.le_iff_toNat_le,gap]
      constructor
      · intro told t' is temps old
        cases is
        by_contra fresh
        obtain ⟨t',is,young⟩ := told {} 0 [] ⟨temps,fresh⟩
        cases is
        omega
      · intro near g ids out fresh
        refine ⟨t,rfl,?_⟩
        by_contra old
        exact fresh.2 (near t rfl fresh.1 (by omega))

-- Silences under half a turn are always told apart.
theorem recent_of_short (s : Station) (p : ChargeParams) (blocks : ∀ t, s.blockAt = some t → s.time - t < 2 ^ 31)
    (reads : ∀ t, s.readAt = some t → s.time - t < 2 ^ 31) (crossings : ∀ t, s.crossedAt = some t → s.time - t < 2 ^ 31) : Recent s p := by
  constructor
  · intro t is silent
    have short := blocks t is
    omega
  · intro t is old
    have short := reads t is
    omega
  · intro t is
    have short := crossings t is
    omega
  · intro t is _ old
    have short := reads t is
    have span : (freshSpanMs p).toNat ≤ pollsMs p + 1 := by
      simp only [freshSpanMs,bmsFreshPolls,pollsMs,UInt32.toNat_add,UInt32.toNat_mul,UInt32.reduceToNat]
      omega
    omega

-- The ages are true ones exactly as long as the silences keep within what the counter can tell.
theorem status_ages_are_true (s : Station) (p : ChargeParams) (path : Reached step Published {} s) : Truthful s p ↔ Recent s p := by
  have timed := reached_timed s path
  constructor
  · intro truthful
    exact ⟨(stale_exact s timed).mp truthful.stale,(bmsAge_exact s timed).mp truthful.bmsAge,
      (traversalAge_exact s timed).mp truthful.traversalAge,(deciding_exact s p timed).mp truthful.deciding⟩
  · intro recent
    exact ⟨(stale_exact s timed).mpr recent.block,(bmsAge_exact s timed).mpr recent.read,
      (traversalAge_exact s timed).mpr recent.crossed,(deciding_exact s p timed).mpr recent.deciding⟩

-- "\r\nV\t12800\r\nChecksum\t" and the byte that makes the sum zero.
def textBlock : Bytes :=
  [0x0D,0x0A,0x56,0x09,0x31,0x32,0x38,0x30,0x30,0x0D,0x0A,0x43,0x68,0x65,0x63,0x6B,0x73,0x75,0x6D,0x09,0x3C]

-- A block, a traversal and a warm pack's read at one moment.
def readings : List Event :=
  textBlock.map .byte ++ [.publishBms {tempCount := 1,tempDc := [200]} (-60) 0,.detect 0 {} {} [],.detect sensors {} {} []]

def after (later : List Event) : Station := (readings ++ later).foldl step {}

theorem status_ages_are_true_soon : Truthful (after [.wait 7000,.charge {} {}]) {} := by
  have path : Reached step Published {} (after [.wait 7000,.charge {} {}]) := Follows.reached (by decide +kernel)
  have block : (after [.wait 7000,.charge {} {}]).blockAt = some 0 := by decide +kernel
  have read : (after [.wait 7000,.charge {} {}]).readAt = some 0 := by decide +kernel
  have crossed : (after [.wait 7000,.charge {} {}]).crossedAt = some 0 := by decide +kernel
  have short : (after [.wait 7000,.charge {} {}]).time - 0 < 2 ^ 31 := by decide +kernel
  refine (status_ages_are_true _ {} path).mpr (recent_of_short _ {} ?_ ?_ ?_)
  · rw [block]
    rintro _ ⟨⟩
    exact short
  · rw [read]
    rintro _ ⟨⟩
    exact short
  · rw [crossed]
    rintro _ ⟨⟩
    exact short

-- A whole turn of the counter and a second later everything of the first moment reads a second old again.
theorem whole_turn_reads_fresh : ∃ s, Reached step Published {} s ∧ s.time = 2 ^ 32 + 1000 ∧
    s.blockAt = some 0 ∧ s.readAt = some 0 ∧ s.crossedAt = some 0 ∧
    ¬s.StaleTold ∧ ¬s.BmsAgeTold ∧ ¬s.TraversalAgeTold ∧ ¬s.DecidesFresh {} := by
  have path : Reached step Published {} (after [.wait (2 ^ 32 + 1000)]) := Follows.reached (by decide +kernel)
  have timed := reached_timed _ path
  have block : (after [.wait (2 ^ 32 + 1000)]).blockAt = some 0 := by decide +kernel
  have read : (after [.wait (2 ^ 32 + 1000)]).readAt = some 0 := by decide +kernel
  have crossed : (after [.wait (2 ^ 32 + 1000)]).crossedAt = some 0 := by decide +kernel
  refine ⟨_,path,by decide +kernel,block,read,crossed,?_,?_,?_,?_⟩
  · intro told
    exact absurd ((stale_exact _ timed).mp told 0 block (by decide +kernel)) (by decide +kernel)
  · intro told
    exact absurd ((bmsAge_exact _ timed).mp told 0 read (by decide +kernel)) (by decide +kernel)
  · intro told
    exact absurd ((traversalAge_exact _ timed).mp told 0 crossed) (by decide +kernel)
  · intro told
    exact absurd ((deciding_exact _ {} timed).mp told 0 read (by decide +kernel) (by decide +kernel)) (by decide +kernel)

end LoraRan.GateLink.StatusAges
