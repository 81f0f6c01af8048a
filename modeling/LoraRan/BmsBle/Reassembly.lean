import LoraRan.BmsBle.TdtProtocol

namespace LoraRan.BmsBle
open Library.LittleEndian FrameReassembler

-- What a call ended on.
inductive Ended where
  | frame (f : TdtFrame)
  | badTerminator
  | crcError
  deriving DecidableEq

def ended (status : FeedStatus) (r : FrameReassembler) : List Ended :=
  match status with
  | .incomplete => []
  | .complete => [.frame r.frame]
  | .badTerminator => [.badTerminator]
  | .crcError => [.crcError]

-- The bytes a frame took; the bytes of a refused one are discarded.
def Ended.size : Ended → Nat
  | .frame f => headerLen + f.payload.length + trailerLen
  | .badTerminator => 0
  | .crcError => 0

def delivered (ends : List Ended) : Nat := (ends.map Ended.size).sum

-- Either overload, by whether the call carries a time.
def feedOnce (r : FrameReassembler) (data : Bytes) : Option UInt32 → FeedStatus × Nat × FrameReassembler
  | none => r.feed data
  | some nowMs => r.feedAt data nowMs

-- The caller's loop over a chunk, the time read anew at each call. A call takes at least a byte, so the bytes bound the calls.
def consume (clock : Nat → Option UInt32) : Nat → FrameReassembler → Bytes → List Ended × Bytes × FrameReassembler
  | 0, r, data => ([],data,r)
  | fuel + 1, r, data =>
      if data = [] then ([],[],r)
      else
        let (status,consumed,r) := feedOnce r data (clock fuel)
        let (later,left,r') := consume clock fuel r (data.drop consumed)
        (ended status r ++ later,left,r')

structure Chunk where
  data : Bytes
  clock : Nat → Option UInt32 := fun _ => none

def receive (r : FrameReassembler) (c : Chunk) : List Ended × Bytes × FrameReassembler := consume c.clock c.data.length r c.data

def session (r : FrameReassembler) : List Chunk → List Ended × FrameReassembler
  | [] => ([],r)
  | c :: more =>
      let (ends,_,r) := receive r c
      let (later,r) := session r more
      (ends ++ later,r)

def stream (chunks : List Chunk) : Bytes := chunks.flatMap Chunk.data

-- A well-formed response.
structure GoodFrame (bytes : Bytes) (f : TdtFrame) : Prop where
  head : bytes.head? = some responseHead
  size : bytes.length = headerLen + f.payload.length + trailerLen
  announced : (u8At bytes offsetPayloadLen).toNat = f.payload.length
  cmd : u8At bytes offsetCmd = f.cmd
  payload : (bytes.drop headerLen).take f.payload.length = f.payload
  crc : crc16Modbus (bytes.take (headerLen + f.payload.length)) = be16 bytes (headerLen + f.payload.length)
  closed : u8At bytes (bytes.length - 1) = terminator

-- The stream one byte at a time, with no call in it.
def bytewise (r : FrameReassembler) : Bytes → List Ended × FrameReassembler
  | [] => ([],r)
  | b :: rest =>
      let (status,r) := r.take b
      let (later,r') := bytewise r rest
      (ended status r ++ later,r')

theorem bytewise_append (r : FrameReassembler) (front rest : Bytes) :
    bytewise r (front ++ rest) =
      ((bytewise r front).1 ++ (bytewise (bytewise r front).2 rest).1,(bytewise (bytewise r front).2 rest).2) := by
  induction front generalizing r with
  | nil => rfl
  | cons b front ih =>
      rw [List.cons_append,bytewise,bytewise]
      dsimp only
      rw [ih,List.append_assoc]

-- The stamp takes no part in what the bytes mean.

structure SameStream (r s : FrameReassembler) : Prop where
  buf : r.buf = s.buf
  discarded : r.discarded = s.discarded
  frame : r.frame = s.frame

theorem SameStream.refl (r : FrameReassembler) : SameStream r r := ⟨rfl,rfl,rfl⟩

theorem SameStream.trans {r s t : FrameReassembler} (first : SameStream r s) (second : SameStream s t) : SameStream r t :=
  ⟨first.buf.trans second.buf,first.discarded.trans second.discarded,first.frame.trans second.frame⟩

theorem SameStream.ended {r s : FrameReassembler} (same : SameStream r s) (status : FeedStatus) : ended status r = ended status s := by
  unfold BmsBle.ended
  rw [same.frame]

theorem SameStream.take {r s : FrameReassembler} (same : SameStream r s) (b : UInt8) :
    (r.take b).1 = (s.take b).1 ∧ SameStream (r.take b).2 (s.take b).2 := by
  obtain ⟨buf,discarded,frame⟩ := same
  unfold FrameReassembler.take validate FrameReassembler.drop
  dsimp only
  rw [buf,discarded]
  split
  · exact ⟨rfl,rfl,rfl,frame⟩
  · split
    · exact ⟨rfl,rfl,rfl,frame⟩
    · split
      · exact ⟨rfl,rfl,rfl,frame⟩
      · split
        · exact ⟨rfl,rfl,rfl,frame⟩
        · split
          · exact ⟨rfl,rfl,rfl,frame⟩
          · exact ⟨rfl,rfl,rfl,rfl⟩

theorem SameStream.bytewise {r s : FrameReassembler} (same : SameStream r s) (data : Bytes) :
    (bytewise r data).1 = (bytewise s data).1 ∧ SameStream (bytewise r data).2 (bytewise s data).2 := by
  induction data generalizing r s with
  | nil => exact ⟨rfl,same⟩
  | cons b rest ih =>
      obtain ⟨status,next⟩ := same.take b
      obtain ⟨later,last⟩ := ih next
      refine ⟨?_,last⟩
      unfold BmsBle.bytewise
      dsimp only
      rw [status,next.ended,later]

-- A call is the bytes it takes, and it takes one at least.
theorem feed_bytewise (r : FrameReassembler) (data : Bytes) :
    (r.feed data).2.1 ≤ data.length ∧ (data ≠ [] → 0 < (r.feed data).2.1) ∧
      bytewise r (data.take (r.feed data).2.1) = (ended (r.feed data).1 (r.feed data).2.2,(r.feed data).2.2) := by
  induction data generalizing r with
  | nil => exact ⟨Nat.le_refl 0,fun some => absurd rfl some,rfl⟩
  | cons b rest ih =>
      unfold feed
      dsimp only
      split
      · refine ⟨Nat.succ_le_succ (Nat.zero_le _),fun _ => Nat.one_pos,?_⟩
        change (ended (r.take b).1 (r.take b).2 ++ [],(r.take b).2) = _
        rw [List.append_nil]
      · rename_i quiet
        have quiet := Decidable.not_not.mp quiet
        obtain ⟨within,_,same⟩ := ih (r.take b).2
        refine ⟨Nat.succ_le_succ within,fun _ => Nat.succ_pos _,?_⟩
        rw [List.take_succ_cons,bytewise]
        dsimp only
        rw [same,quiet]
        rfl

theorem feedOnce_feed (r : FrameReassembler) (data : Bytes) (stamp : Option UInt32) :
    (feedOnce r data stamp).1 = (r.feed data).1 ∧ (feedOnce r data stamp).2.1 = (r.feed data).2.1 ∧
      SameStream (feedOnce r data stamp).2.2 (r.feed data).2.2 := by
  cases stamp with
  | none => exact ⟨rfl,rfl,.refl _⟩
  | some nowMs =>
      refine ⟨rfl,rfl,?_⟩
      unfold feedOnce feedAt
      dsimp only
      split
      · exact ⟨rfl,rfl,rfl⟩
      · exact .refl _

theorem consume_bytewise (clock : Nat → Option UInt32) (fuel : Nat) (r : FrameReassembler) (data : Bytes) (enough : data.length ≤ fuel) :
    (consume clock fuel r data).1 = (bytewise r data).1 ∧ (consume clock fuel r data).2.1 = [] ∧
      SameStream (consume clock fuel r data).2.2 (bytewise r data).2 := by
  induction fuel generalizing r data with
  | zero =>
      have none_ : data = [] := List.eq_nil_of_length_eq_zero (Nat.le_zero.mp enough)
      rw [none_]
      exact ⟨rfl,rfl,.refl r⟩
  | succ fuel ih =>
      unfold consume
      by_cases none_ : data = []
      · rw [if_pos none_,none_]
        exact ⟨rfl,rfl,.refl r⟩
      · rw [if_neg none_]
        dsimp only
        obtain ⟨status,count,same⟩ := feedOnce_feed r data (clock fuel)
        obtain ⟨within,moves,bytes⟩ := feed_bytewise r data
        have rest := ih (feedOnce r data (clock fuel)).2.2 (data.drop (r.feed data).2.1) (by
          rw [List.length_drop]
          have := moves none_
          omega)
        obtain ⟨later,left,last⟩ := rest
        obtain ⟨carried,still⟩ := same.bytewise (data.drop (r.feed data).2.1)
        have whole := bytewise_append r (data.take (r.feed data).2.1) (data.drop (r.feed data).2.1)
        rw [List.take_append_drop,bytes] at whole
        rw [count,status,same.ended,later,carried,whole]
        exact ⟨rfl,left,last.trans still⟩

theorem session_bytewise (r : FrameReassembler) (chunks : List Chunk) :
    (session r chunks).1 = (bytewise r (stream chunks)).1 ∧ SameStream (session r chunks).2 (bytewise r (stream chunks)).2 := by
  induction chunks generalizing r with
  | nil => exact ⟨rfl,.refl r⟩
  | cons c more ih =>
      obtain ⟨ends,_,same⟩ := consume_bytewise c.clock c.data.length r c.data (Nat.le_refl _)
      obtain ⟨later,last⟩ := ih (receive r c).2.2
      obtain ⟨carried,still⟩ := same.bytewise (stream more)
      have whole := bytewise_append r c.data (stream more)
      change (receive r c).1 ++ (session (receive r c).2.2 more).1 = (bytewise r (c.data ++ stream more)).1 ∧
        SameStream (session (receive r c).2.2 more).2 (bytewise r (c.data ++ stream more)).2
      rw [whole,later]
      exact ⟨congr (congrArg (· ++ ·) ends) carried,last.trans still⟩

-- What is held is the start of a frame, short of its end.

def Framing (r : FrameReassembler) : Prop := r.buf.length < headerLen ∨ r.buf.length < frameTotal r.buf

theorem Framing.bound {r : FrameReassembler} (framing : Framing r) : r.buf.length < maxFrameLen := by
  have byte := (u8At r.buf offsetPayloadLen).toNat_lt
  simp only [Framing,frameTotal,headerLen,trailerLen] at framing
  simp only [maxFrameLen,headerLen,maxPayloadLen,trailerLen]
  omega

-- A byte that completes what its header announced.
theorem Framing.whole {r : FrameReassembler} (framing : Framing r) (b : UInt8) (long : ¬(r.buf ++ [b]).length < headerLen)
    (reached : ¬(r.buf ++ [b]).length < frameTotal (r.buf ++ [b])) : (r.buf ++ [b]).length = frameTotal (r.buf ++ [b]) := by
  have size : (r.buf ++ [b]).length = r.buf.length + 1 := List.length_append
  simp only [Framing,headerLen] at framing
  simp only [headerLen] at long
  have inside : 8 ≤ r.buf.length := by
    by_contra short
    simp only [frameTotal,headerLen,trailerLen] at reached
    omega
  have same : frameTotal (r.buf ++ [b]) = frameTotal r.buf := by
    unfold frameTotal
    rw [u8At_append_left _ _ _ (by simp only [offsetPayloadLen]; omega)]
  omega

-- A byte is discarded, held or ends what was held, and what ends is counted whole.
theorem take_conserves {r : FrameReassembler} (framing : Framing r) (b : UInt8) :
    Framing (r.take b).2 ∧
      r.discarded + r.buf.length + 1 = (r.take b).2.discarded + delivered (ended (r.take b).1 (r.take b).2) + (r.take b).2.buf.length := by
  have size : (r.buf ++ [b]).length = r.buf.length + 1 := List.length_append
  have empty (s : FrameReassembler) (none_ : s.buf = []) : Framing s := .inl (by rw [none_]; decide)
  unfold FrameReassembler.take
  split
  · rename_i noise
    refine ⟨empty _ noise.1,?_⟩
    simp only [delivered,ended,List.map_nil,List.sum_nil]
    omega
  · dsimp only
    split
    · rename_i short
      refine ⟨.inl short,?_⟩
      simp only [delivered,ended,List.map_nil,List.sum_nil,size]
      omega
    · rename_i long
      split
      · rename_i waits
        refine ⟨.inr waits,?_⟩
        simp only [delivered,ended,List.map_nil,List.sum_nil,size]
        omega
      · rename_i reached
        have whole := framing.whole b long reached
        unfold validate
        dsimp only
        split
        · refine ⟨empty _ rfl,?_⟩
          simp only [FrameReassembler.drop,delivered,ended,List.map_cons,List.map_nil,List.sum_cons,List.sum_nil,Ended.size,List.length_nil]
          omega
        · split
          · refine ⟨empty _ rfl,?_⟩
            simp only [FrameReassembler.drop,delivered,ended,List.map_cons,List.map_nil,List.sum_cons,List.sum_nil,Ended.size,List.length_nil]
            omega
          · refine ⟨empty _ rfl,?_⟩
            have announced : (((r.buf ++ [b]).drop headerLen).take (u8At (r.buf ++ [b]) offsetPayloadLen).toNat).length =
                (u8At (r.buf ++ [b]) offsetPayloadLen).toNat := by
              rw [List.length_take,List.length_drop,whole]
              unfold frameTotal
              omega
            simp only [delivered,ended,List.map_cons,List.map_nil,List.sum_cons,List.sum_nil,Ended.size,announced,List.length_nil]
            unfold frameTotal at whole
            omega

theorem delivered_append (front rest : List Ended) : delivered (front ++ rest) = delivered front + delivered rest := by
  unfold delivered
  rw [List.map_append,List.sum_append]

theorem bytewise_conserves {r : FrameReassembler} (framing : Framing r) (data : Bytes) :
    Framing (bytewise r data).2 ∧
      r.discarded + r.buf.length + data.length =
        (bytewise r data).2.discarded + delivered (bytewise r data).1 + (bytewise r data).2.buf.length := by
  induction data generalizing r with
  | nil => exact ⟨framing,rfl⟩
  | cons b rest ih =>
      obtain ⟨next,one⟩ := take_conserves framing b
      obtain ⟨last,more⟩ := ih next
      refine ⟨last,?_⟩
      unfold bytewise
      dsimp only
      rw [delivered_append,List.length_cons]
      omega

-- Between frames, noise is skipped and a frame is read whole.

theorem noise_skipped (r : FrameReassembler) (noise : Bytes) (idle : r.buf = []) (free : responseHead ∉ noise) :
    bytewise r noise = ([],{r with discarded := r.discarded + noise.length}) := by
  induction noise generalizing r with
  | nil => rfl
  | cons b noise ih =>
      have other : b ≠ responseHead := fun same => free (by rw [same]; exact List.mem_cons_self)
      have skipped : r.take b = (.incomplete,{r with discarded := r.discarded + 1}) := if_pos ⟨idle,other⟩
      unfold bytewise
      rw [skipped]
      dsimp only
      rw [ih {r with discarded := r.discarded + 1} idle fun inside => free (List.mem_cons_of_mem b inside),List.length_cons,Nat.add_assoc,
        Nat.add_comm 1]
      rfl

theorem GoodFrame.total {bytes : Bytes} {f : TdtFrame} (good : GoodFrame bytes f) : frameTotal bytes = bytes.length := by
  unfold frameTotal
  rw [good.announced,good.size]

-- By induction on what is still to come.
theorem frame_read {bytes : Bytes} {f : TdtFrame} (good : GoodFrame bytes f) (r : FrameReassembler) (rest : Bytes) (b : UInt8)
    (whole : r.buf ++ b :: rest = bytes) :
    bytewise r (b :: rest) = ([.frame f],{r with buf := [],timing := false,frame := f}) := by
  have size := good.size
  simp only [headerLen,trailerLen] at size
  induction rest generalizing r b with
  | nil =>
      have begun : ¬(r.buf = [] ∧ b ≠ responseHead) := by
        rintro ⟨none_,_⟩
        rw [← whole,none_] at size
        simp only [List.nil_append,List.length_cons,List.length_nil] at size
        omega
      have taken : r.take b = validate {r with buf := bytes} bytes.length := by
        unfold FrameReassembler.take
        rw [if_neg begun]
        dsimp only
        rw [whole,if_neg (by simp only [headerLen]; omega),good.total,if_neg (Nat.lt_irrefl _)]
      have body : bytes.length - trailerLen = headerLen + f.payload.length := by
        simp only [headerLen,trailerLen]
        omega
      have valid : validate {r with buf := bytes} bytes.length = (.complete,{r with buf := [],timing := false,frame := f}) := by
        unfold validate
        dsimp only
        rw [if_neg fun other => other good.closed,body,if_neg fun other => other good.crc,good.announced,good.payload,good.cmd]
      unfold bytewise
      rw [taken,valid]
      rfl
  | cons c rest ih =>
      have begun : ¬(r.buf = [] ∧ b ≠ responseHead) := by
        rintro ⟨none_,other⟩
        have head := good.head
        rw [← whole,none_] at head
        exact other (Option.some.inj head)
      have joined : r.buf ++ [b] ++ c :: rest = bytes := by rw [List.append_assoc]; exact whole
      have shorter : (r.buf ++ [b]).length < bytes.length := by
        have longer := congrArg List.length joined
        simp only [List.length_append,List.length_cons] at longer ⊢
        omega
      have taken : r.take b = (.incomplete,{r with buf := r.buf ++ [b]}) := by
        unfold FrameReassembler.take
        rw [if_neg begun]
        dsimp only
        by_cases short : (r.buf ++ [b]).length < headerLen
        · rw [if_pos short]
        · have same : frameTotal (r.buf ++ [b]) = bytes.length := by
            rw [← good.total,← joined]
            unfold frameTotal
            simp only [headerLen] at short
            rw [u8At_append_left _ (c :: rest) _ (by simp only [offsetPayloadLen]; omega)]
          rw [if_neg short,same,if_pos shorter]
      unfold bytewise
      rw [taken]
      dsimp only
      rw [ih {r with buf := r.buf ++ [b]} c joined]
      rfl

theorem noise_then_frame {bytes : Bytes} {f : TdtFrame} (r : FrameReassembler) (noise : Bytes) (idle : r.buf = []) (free : responseHead ∉ noise)
    (good : GoodFrame bytes f) : (bytewise r (noise ++ bytes)).1 = [.frame f] ∧ (bytewise r (noise ++ bytes)).2.buf = [] := by
  rw [bytewise_append,noise_skipped r noise idle free]
  cases bytes with
  | nil => cases good.head
  | cons b rest =>
      have read := frame_read good {r with discarded := r.discarded + noise.length} rest b (congrArg (· ++ b :: rest) idle)
      dsimp only
      rw [read]
      exact ⟨rfl,rfl⟩

-- The cuts decide nothing, no byte is lost, and a frame behind noise is read whole.
theorem reassembly_ignores_cuts :
    (∀ r one two, stream one = stream two → (session r one).1 = (session r two).1 ∧
      (session r one).2.discarded = (session r two).2.discarded ∧ (session r one).2.buf.length = (session r two).2.buf.length) ∧
    (∀ r c, (receive r c).2.1 = []) ∧
    (∀ chunks, (stream chunks).length = (session {} chunks).2.discarded + delivered (session {} chunks).1 + (session {} chunks).2.buf.length ∧
      (session {} chunks).2.buf.length ≤ maxFrameLen) ∧
    (∀ before after noise bytes f, (session {} before).2.buf = [] → responseHead ∉ noise → GoodFrame bytes f → stream after = noise ++ bytes →
      (session {} (before ++ after)).1 = (session {} before).1 ++ [.frame f] ∧ (session {} (before ++ after)).2.buf = []) := by
  have fresh : Framing {} := .inl (by decide)
  refine ⟨?_,?_,?_,?_⟩
  · intro r one two same
    obtain ⟨ends,last⟩ := session_bytewise r one
    obtain ⟨ends',last'⟩ := session_bytewise r two
    rw [same] at ends last
    exact ⟨ends.trans ends'.symm,last.discarded.trans last'.discarded.symm,congrArg List.length (last.buf.trans last'.buf.symm)⟩
  · intro r c
    exact (consume_bytewise c.clock c.data.length r c.data (Nat.le_refl _)).2.1
  · intro chunks
    obtain ⟨ends,last⟩ := session_bytewise {} chunks
    obtain ⟨framing,conserved⟩ := bytewise_conserves fresh (stream chunks)
    rw [ends,last.discarded,last.buf]
    refine ⟨?_,Nat.le_of_lt framing.bound⟩
    have none_ : (0 : Nat) + 0 + (stream chunks).length = _ := conserved
    omega
  · intro before after noise bytes f idle free good cut
    obtain ⟨ends,last⟩ := session_bytewise {} before
    obtain ⟨all,end_⟩ := session_bytewise {} (before ++ after)
    have joined : stream (before ++ after) = stream before ++ (noise ++ bytes) := by
      rw [← cut]
      exact List.flatMap_append
    obtain ⟨one,none_⟩ := noise_then_frame (bytewise {} (stream before)).2 noise (last.buf.symm.trans idle) free good
    rw [joined,bytewise_append] at all end_
    exact ⟨by rw [all,ends,one],end_.buf.trans none_⟩

-- An alarm response behind two bytes of noise, cut inside its header and inside its payload.
theorem reassembly_ignores_cuts_alarms :
    (session {} ([] ++ [⟨[0x0D,0x00,0x7E,0x00,0x01],fun _ => none⟩,⟨[0x03,0x00,0x8D,0x00,0x02,0x7E],fun _ => some 1000⟩,
      ⟨[0x0D,0xAF,0x8C,0x0D],fun _ => some 1020⟩])).1 = [.frame ⟨0x8D,[0x7E,0x0D]⟩] :=
  (reassembly_ignores_cuts.2.2.2 [] _ [0x0D,0x00] [0x7E,0x00,0x01,0x03,0x00,0x8D,0x00,0x02,0x7E,0x0D,0xAF,0x8C,0x0D] ⟨0x8D,[0x7E,0x0D]⟩ rfl
    (by decide) ⟨rfl,rfl,rfl,rfl,rfl,by decide +kernel,rfl⟩ rfl).1

-- Whatever the calls, timeouts and resets among them, what is held fits the buffer.

inductive Call where
  | feed (data : Bytes) (stamp : Option UInt32)
  | tick (nowMs : UInt32)
  | reset

def FrameReassembler.call (r : FrameReassembler) : Call → FrameReassembler
  | .feed data stamp => (feedOnce r data stamp).2.2
  | .tick nowMs => r.tick nowMs
  | .reset => r.reset

theorem Framing.call {r : FrameReassembler} (framing : Framing r) (c : Call) : Framing (r.call c) := by
  have empty (s : FrameReassembler) (none_ : s.buf = []) : Framing s := .inl (by rw [none_]; decide)
  cases c with
  | feed data stamp =>
      have held := (bytewise_conserves framing (data.take (r.feed data).2.1)).1
      rw [(feed_bytewise r data).2.2] at held
      have same := (feedOnce_feed r data stamp).2.2.buf
      unfold Framing at held ⊢
      unfold FrameReassembler.call
      dsimp only
      rw [same]
      exact held
  | tick nowMs =>
      unfold FrameReassembler.call FrameReassembler.tick
      dsimp only
      split
      · exact framing
      · split
        · exact empty _ rfl
        · exact framing
  | reset => exact empty _ rfl

end LoraRan.BmsBle
