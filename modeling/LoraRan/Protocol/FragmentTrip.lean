import LoraRan.Protocol.IndexMap
import LoraRan.Protocol.RoundTrip

namespace LoraRan.Protocol
open Library.Staging Library.StepSystem
open scoped BigOperators

-- A message cut into several fragments, as the receiver will see it.
structure Fragments where
  key : SetKey
  payload : Bytes
  chunk : Nat
  count : Nat
  several : 1 < count
  few : count ≤ maxFragments.toNat
  spanned : payload.length ≤ count * chunk
  capped : payload.length ≤ reassemblyCap key.type
  fragmentable : typeIsFragmentable key.type = true

def Fragments.slice (m : Fragments) (i : Nat) : Bytes := window m.payload (i * m.chunk) m.chunk

structure Fragments.Carries (m : Fragments) (f : Frame) (i : Nat) : Prop where
  key : f.setKey = m.key
  total : f.hdr.fragTotal.toNat = m.count
  index : f.hdr.fragIndex.toNat = i
  payload : f.payload = m.slice i
  verified : frameHasMac f.hdr.type f.payload = true → f.macVerified = true
  below : i < m.count

-- Arrivals are fragment numbers with the time each came in.
def Covered (count : Nat) (seen : List (Nat × UInt32)) : Prop := ∀ i < count, i ∈ seen.map Prod.fst

instance coveredDecidable (count : Nat) (seen : List (Nat × UInt32)) : Decidable (Covered count seen) :=
  inferInstanceAs (Decidable (∀ i < count, i ∈ seen.map Prod.fst))

variable {m : Fragments}

theorem Fragments.slices_join (m : Fragments) : (List.range m.count).flatMap m.slice = m.payload := by
  have joined := windows_join m.payload m.chunk m.count
  rw [List.take_of_length_le m.spanned] at joined
  exact joined

theorem Fragments.slices_length (m : Fragments) (n : Nat) : ∑ i ∈ Finset.range n, (m.slice i).length ≤ m.payload.length := by
  have summed : ∑ i ∈ Finset.range n, (m.slice i).length = ((List.range n).flatMap m.slice).length := by
    induction n with
    | zero => rfl
    | succ n ih =>
        rw [Finset.sum_range_succ,ih,List.range_succ,List.flatMap_append]
        simp
  rw [summed]
  change ((List.range n).flatMap (fun i => window m.payload (i * m.chunk) m.chunk)).length ≤ _
  rw [windows_join,List.length_take]
  exact Nat.min_le_right _ _

-- The slot while fragments are missing: nothing in the staging area is dead, since copies are as long as what they replace.
structure Fragments.Holding (m : Fragments) (startMs timeoutMs : UInt32) (seen : List (Nat × UInt32)) (r : Reassembler) : Prop where
  active : r.active = true
  complete : r.complete = false
  key : r.key = m.key
  total : r.total.toNat = m.count
  started : r.startMs = startMs
  timeout : r.timeoutMs = timeoutMs
  fresh : r.last ≠ some m.key
  got : ∀ i, r.got i = decide (i ∈ seen.map Prod.fst)
  tidy : Tidy r
  packed : r.stage.length = r.setLen
  pieces : ∀ i, r.got i = true → r.piece i = m.slice i

structure Fragments.Done (m : Fragments) (r : Reassembler) : Prop where
  idle : r.active = false
  complete : r.complete = true
  out : r.out = m.payload
  kept : r.last = some m.key

theorem Tidy.piece_length {r : Reassembler} (tidy : Tidy r) (i : Nat) (present : r.got i = true) : (r.piece i).length = r.fragLen i := by
  have inside := tidy.windows.1 i present
  simp only [Reassembler.piece,window,List.length_take,List.length_drop]
  omega

section
variable {startMs timeoutMs : UInt32} {seen : List (Nat × UInt32)} {r : Reassembler} {f : Frame} {i : Nat}

theorem Fragments.Holding.oldLen (holding : m.Holding startMs timeoutMs seen r) (j : Nat) (present : r.got j = true) :
    r.oldLen j = (m.slice j).length := by
  rw [Reassembler.oldLen,if_pos present,← holding.tidy.piece_length j present,holding.pieces j present]

theorem Fragments.Carries.small (carries : m.Carries f i) : i < maxFragments.toNat := Nat.lt_of_lt_of_le carries.below m.few

theorem Fragments.Holding.bound (holding : m.Holding startMs timeoutMs seen r) (carries : m.Carries f i) :
    r.setLen - r.oldLen i + (m.slice i).length ≤ m.payload.length := by
  have counted := store_counted holding.tidy i (m.slice i) carries.small
  change r.setLen - r.oldLen i + (m.slice i).length = _ at counted
  rw [counted]
  refine Nat.le_trans (Finset.sum_le_sum ?_) (m.slices_length maxFragments.toNat)
  intro j _
  rw [store_oldLen]
  by_cases here : j = i
  · subst here
    simp
  · rw [Function.update_of_ne here]
    by_cases present : r.got j = true
    · rw [holding.oldLen j present]
    · simp [Reassembler.oldLen,present]

theorem covered_append (count : Nat) (nowMs : UInt32) :
    Covered count (seen ++ [(i,nowMs)]) ↔ ∀ j < count, j = i ∨ j ∈ seen.map Prod.fst := by
  unfold Covered
  simp only [List.map_append,List.map_cons,List.map_nil,List.mem_append,List.mem_singleton]
  constructor
  · intro covered j inside
    exact (covered j inside).symm
  · intro covered j inside
    exact (covered j inside).symm

theorem Fragments.Holding.filled_iff (holding : m.Holding startMs timeoutMs seen r) : r.filled = true ↔ Covered m.count seen := by
  unfold Reassembler.filled
  rw [List.all_eq_true,holding.total]
  constructor
  · intro all j below
    have got := all j (List.mem_range.mpr below)
    rw [holding.got j] at got
    exact of_decide_eq_true got
  · intro covered j below
    rw [holding.got j]
    exact decide_eq_true (covered j (List.mem_range.mp below))

-- The set is delivered with the fragment that fills it, and with no other.
theorem Fragments.Holding.filled_cases (holding : m.Holding startMs timeoutMs seen r) :
    ¬ Covered m.count seen ∧ m.Holding startMs timeoutMs seen (if r.filled then r.assemble else r) ∨
    Covered m.count seen ∧ m.Done (if r.filled then r.assemble else r) := by
  by_cases filled : r.filled = true
  · have covered := holding.filled_iff.mp filled
    rw [if_pos filled]
    refine .inr ⟨covered,rfl,rfl,?_,congrArg some holding.key⟩
    rw [assemble_out,holding.total,← m.slices_join]
    refine List.flatMap_congr ?_
    intro j below
    refine holding.pieces j ?_
    rw [holding.got j]
    exact decide_eq_true (covered j (List.mem_range.mp below))
  · rw [if_neg filled]
    exact .inl ⟨fun covered => filled (holding.filled_iff.mpr covered),holding⟩

-- One more fragment in a live set.
theorem place_fragment (holding : m.Holding startMs timeoutMs seen r) (carries : m.Carries f i) (counters : Counters) (nowMs : UInt32)
    (missing : ¬ Covered m.count seen) :
    (r.place counters f).1 = .ok ∧
      (¬ Covered m.count (seen ++ [(i,nowMs)]) ∧ m.Holding startMs timeoutMs (seen ++ [(i,nowMs)]) (r.place counters f).2.1 ∨
       Covered m.count (seen ++ [(i,nowMs)]) ∧ m.Done (r.place counters f).2.1) := by
  have type : f.hdr.type = m.key.type := congrArg SetKey.type carries.key
  have total : f.hdr.fragTotal = r.total := UInt8.toNat_inj.mp (carries.total.trans holding.total.symm)
  have bound := holding.bound carries
  have cap := m.capped
  have plain : reassemblyCap m.key.type ≤ maxPayloadPlain := by
    unfold reassemblyCap
    split <;> decide
  unfold Reassembler.place
  dsimp only
  rw [if_neg (not_not.mpr total),carries.index,carries.payload,type,if_neg (by omega)]
  by_cases present : r.got i = true
  · -- A copy: the same bytes over the same bytes.
    have again : i ∈ seen.map Prod.fst := of_decide_eq_true (holding.got i ▸ present)
    rw [if_pos ⟨present,(holding.oldLen i present).symm⟩]
    have same : (m.slice i).length = r.fragLen i := by
      rw [← holding.pieces i present,holding.tidy.piece_length i present]
    have placed := overwrite_placed r i (m.slice i) holding.tidy.windows present same
    have inside := holding.tidy.windows.1 i present
    have length : (overwrite r.stage (r.fragOff i) (m.slice i)).length = r.stage.length := overwrite_length _ _ _ (by omega)
    refine ⟨rfl,.inl ⟨?_,?_⟩⟩
    · intro covered
      refine missing ?_
      intro j below
      rcases (covered_append m.count nowMs).mp covered j below with rfl | old
      · exact again
      · exact old
    · refine ⟨holding.active,holding.complete,holding.key,holding.total,holding.started,holding.timeout,holding.fresh,?_,?_,?_,?_⟩
      · intro j
        refine (holding.got j).trans (decide_eq_decide.mpr ?_)
        simp only [List.map_append,List.map_cons,List.map_nil,List.mem_append,List.mem_singleton]
        constructor
        · exact .inl
        · rintro (old | rfl)
          · exact old
          · exact again
      · exact ⟨by rw [length]; exact holding.tidy.room,placed.windows,holding.tidy.few,holding.tidy.counted⟩
      · exact length.trans holding.packed
      · intro j got
        by_cases here : j = i
        · rw [here]
          exact placed.here
        · exact (placed.elsewhere j here got).trans (holding.pieces j got)
  · have absent : r.oldLen i = 0 := by simp [Reassembler.oldLen,present]
    have packed := holding.packed
    have room : r.stage.length + (m.slice i).length ≤ maxPayloadPlain := by omega
    rw [if_neg (fun both => present both.1),if_neg (by omega)]
    have placed := store_placed r i (r.oldLen i) (m.slice i) holding.tidy.windows
    have held : m.Holding startMs timeoutMs (seen ++ [(i,nowMs)]) (r.store i (r.oldLen i) (m.slice i)) := by
      refine ⟨holding.active,holding.complete,holding.key,holding.total,holding.started,holding.timeout,holding.fresh,?_,
        store_tidy holding.tidy i (m.slice i) carries.small room,?_,?_⟩
      · intro j
        rw [placed.got]
        by_cases here : j = i
        · simp [here]
        · rw [Function.update_of_ne here,holding.got j]
          refine decide_eq_decide.mpr ?_
          simp [here]
      · change (r.stage ++ m.slice i).length = r.setLen - r.oldLen i + (m.slice i).length
        rw [List.length_append]
        omega
      · intro j got
        by_cases here : j = i
        · rw [here]
          exact placed.here
        · rw [placed.got,Function.update_of_ne here] at got
          exact (placed.elsewhere j here got).trans (holding.pieces j got)
    exact ⟨rfl,held.filled_cases⟩

-- A fragment in order meets only the retained key and the slot.
theorem accept_carried (carries : m.Carries f i) (r : Reassembler) (counters : Counters) (nowMs : UInt32) :
    r.accept counters f nowMs =
      (let (r,counters) := r.tick counters nowMs
       if !(r.active && r.sameSet f) ∧ r.sameCompleted f then (.fragLate,r,counters.bump .fragLate)
       else
         let (r,counters) := r.claim counters f nowMs
         r.place counters f) := by
  have type : f.hdr.type = m.key.type := congrArg SetKey.type carries.key
  have several := m.several
  have few := m.few
  have total := carries.total
  have zero : ¬ f.hdr.fragTotal = 0 := by
    intro equal
    rw [equal] at total
    change 0 = m.count at total
    omega
  have one : ¬ f.hdr.fragTotal = 1 := by
    intro equal
    rw [equal] at total
    change 1 = m.count at total
    omega
  have inside : ¬ (maxFragments < f.hdr.fragTotal ∨ f.hdr.fragTotal ≤ f.hdr.fragIndex) := by
    rw [UInt8.lt_iff_toNat_lt,UInt8.le_iff_toNat_le,carries.total,carries.index]
    have below := carries.below
    omega
  have due : ¬ (frameHasMac f.hdr.type f.payload = true ∧ (!f.macVerified) = true) := by
    rintro ⟨tagged,unverified⟩
    simp [carries.verified tagged] at unverified
  unfold Reassembler.accept
  rw [if_neg zero,if_neg inside,if_neg one]
  dsimp only
  rw [if_neg (by simp [type,m.fragmentable]),if_neg due]

-- The slot through the life of a message: not begun, part way, delivered.
inductive Fragments.Progress (m : Fragments) (startMs timeoutMs : UInt32) : List (Nat × UInt32) → Reassembler → Prop
  | idle {r : Reassembler} : r.active = false → r.last ≠ some m.key → r.timeoutMs = timeoutMs → m.Progress startMs timeoutMs [] r
  | holding {seen : List (Nat × UInt32)} {r : Reassembler} : ¬ Covered m.count seen → m.Holding startMs timeoutMs seen r →
      m.Progress startMs timeoutMs seen r
  | done {seen : List (Nat × UInt32)} {r : Reassembler} : Covered m.count seen → m.Done r → m.Progress startMs timeoutMs seen r

theorem placed_progress (holding : m.Holding startMs timeoutMs seen r) (carries : m.Carries f i) (counters : Counters) (nowMs : UInt32)
    (missing : ¬ Covered m.count seen) :
    (r.place counters f).1 = .ok ∧ m.Progress startMs timeoutMs (seen ++ [(i,nowMs)]) (r.place counters f).2.1 := by
  obtain ⟨taken,after⟩ := place_fragment holding carries counters nowMs missing
  rcases after with ⟨still,held⟩ | ⟨covered,done⟩
  · exact ⟨taken,.holding still held⟩
  · exact ⟨taken,.done covered done⟩

theorem accept_progress (progress : m.Progress startMs timeoutMs seen r) (carries : m.Carries f i) (counters : Counters) (nowMs : UInt32)
    (first : seen = [] → nowMs = startMs) (prompt : ¬ Covered m.count seen → nowMs - startMs < timeoutMs) :
    (r.accept counters f nowMs).1 = (if Covered m.count seen then .fragLate else .ok) ∧
      m.Progress startMs timeoutMs (seen ++ [(i,nowMs)]) (r.accept counters f nowMs).2.1 := by
  have several := m.several
  have empty : ¬ Covered m.count [] := fun covered => by simpa using covered 0 (by omega)
  rw [accept_carried carries]
  cases progress with
  | idle idle fresh timeout =>
      have ticked : r.tick counters nowMs = (r,counters) := by simp [Reassembler.tick,idle]
      have new : ¬ ((!(r.active && r.sameSet f)) = true ∧ r.sameCompleted f = true) := by
        rintro ⟨_,again⟩
        exact fresh ((beq_iff_eq.mp again).trans (congrArg some carries.key))
      rw [ticked]
      dsimp only
      rw [if_neg new,if_neg empty]
      rcases claim_parts r counters f nowMs with ⟨joined,_⟩ | ⟨_,freed,last,waits,begun⟩
      · simp [idle] at joined
      · have held : m.Holding startMs timeoutMs [] (r.claim counters f nowMs).1 := by
          rw [begun]
          refine ⟨rfl,rfl,carries.key,carries.total,first rfl,waits.trans timeout,last.symm ▸ fresh,?_,begin_tidy freed f nowMs,rfl,?_⟩
          · intro j
            rfl
          · intro j got
            cases got
        exact placed_progress held carries _ nowMs empty
  | holding missing holding =>
      have ticked : r.tick counters nowMs = (r,counters) := by
        have waits := prompt missing
        unfold Reassembler.tick
        rw [if_neg ?_]
        rintro ⟨_,expired⟩
        rw [holding.timeout,holding.started] at expired
        exact absurd waits (UInt32.not_lt.mpr expired)
      have same : r.sameSet f = true := beq_iff_eq.mpr (carries.key.trans holding.key.symm)
      have claimed : r.claim counters f nowMs = (r,counters) := by
        simp [Reassembler.claim,holding.active,same]
      rw [ticked]
      dsimp only
      rw [if_neg (by simp [holding.active,same]),if_neg missing,claimed]
      exact placed_progress holding carries counters nowMs missing
  | done covered done =>
      have ticked : r.tick counters nowMs = (r,counters) := by simp [Reassembler.tick,done.idle]
      have again : r.sameCompleted f = true := by
        refine beq_iff_eq.mpr ?_
        rw [done.kept,carries.key]
      rw [ticked]
      dsimp only
      rw [if_pos (by simp [done.idle,again]),if_pos covered]
      refine ⟨rfl,.done ?_ done⟩
      intro j below
      rw [List.map_append,List.mem_append]
      exact .inl (covered j below)

end

def chunkUsed (type : MsgType) (fragChunk : Nat) : Nat := if fragChunk = 0 then defaultFragChunk type else fragChunk

def Header.setKey (h : Header) : SetKey := ⟨h.src,h.ctxId,h.seq,h.schema,h.type⟩

theorem fragmentCount_spans (length chunk count : Nat) (counted : fragmentCount length chunk = count) (some : count ≠ 0) :
    count ≤ maxFragments.toNat ∧ length ≤ count * chunk := by
  unfold fragmentCount at counted
  split at counted
  · exact absurd counted.symm some
  · rename_i positive
    split at counted
    · rename_i empty
      subst counted
      exact ⟨by decide,by omega⟩
    · dsimp only at counted
      split at counted
      · exact absurd counted.symm some
      · rename_i few
        subst counted
        refine ⟨by omega,?_⟩
        have above := Nat.lt_mul_div_succ (length + chunk - 1) (Nat.pos_of_ne_zero positive)
        rw [Nat.mul_add,Nat.mul_one,Nat.mul_comm] at above
        omega

theorem setFrag_nibbles : ∀ i < 16, ∀ n < 16, ((UInt8.ofNat i <<< 4 ||| (UInt8.ofNat n &&& 0x0F)) >>> 4).toNat = i ∧
    ((UInt8.ofNat i <<< 4 ||| (UInt8.ofNat n &&& 0x0F)) &&& 0x0F).toNat = n := by decide

theorem encodeFragment_parts (hdr : Header) (payload : Bytes) (i fragChunk : Nat) (sender : EncodeCtx) (cap : Nat) (bytes : Bytes)
    (small : i < 256) (encoded : encodeFragment hdr payload (UInt8.ofNat i) fragChunk sender cap = .ok bytes) :
    encode (hdr.setFrag (UInt8.ofNat i) (UInt8.ofNat (fragmentCount payload.length (chunkUsed hdr.type fragChunk))))
        (window payload (i * chunkUsed hdr.type fragChunk) (chunkUsed hdr.type fragChunk)) sender cap = .ok bytes ∧
      (1 < fragmentCount payload.length (chunkUsed hdr.type fragChunk) → typeIsFragmentable hdr.type = true) := by
  have index : (UInt8.ofNat i).toNat = i := by
    simp only [UInt8.toNat_ofNat']
    omega
  have used : (if fragChunk = 0 then defaultFragChunk hdr.type else fragChunk) = chunkUsed hdr.type fragChunk := rfl
  unfold encodeFragment at encoded
  dsimp only at encoded
  rw [used,index] at encoded
  split at encoded; · cases encoded
  split at encoded; · cases encoded
  split at encoded; · cases encoded
  split at encoded; · cases encoded
  rename_i fragmentable
  refine ⟨encoded,?_⟩
  intro several
  by_contra refused
  exact fragmentable ⟨several,by simpa using refused⟩

-- What the receive path does with one arrival.
def hear (ctx : DecodeCtx) (sent : Nat → Bytes) (s : Reassembler × Counters) (arrival : Nat × UInt32) : Status × (Reassembler × Counters) :=
  let (st,header) := decodeHeader (sent arrival.1) ctx
  if st ≠ .ok then (st,s)
  else
    let (st,frame) := decodePayload (sent arrival.1) ctx header
    if st ≠ .ok then (st,s) else s.1.accept s.2 frame arrival.2

section
variable {hdr : Header} {payload : Bytes} {fragChunk cap count : Nat} {sender : EncodeCtx} {ctx : DecodeCtx} {sent : Nat → Bytes}

-- The receiver gets each fragment back as it was cut.
theorem hear_fragment (counted : fragmentCount payload.length (chunkUsed hdr.type fragChunk) = count) (some : count ≠ 0)
    (encoded : ∀ i < count, encodeFragment hdr payload (UInt8.ofNat i) fragChunk sender cap = .ok (sent i))
    (listening : Listening hdr ctx) (sameMac : ctx.mac = sender.mac) (sameKey : ctx.nodeKey = sender.nodeKey)
    (plain : hdr.criticalExt = false) (i : Nat) (below : i < count) :
    ∃ frame : Frame, (∀ s nowMs, hear ctx sent s (i,nowMs) = s.1.accept s.2 frame nowMs) ∧ frame.setKey = hdr.setKey ∧
      frame.hdr.type = hdr.type ∧ frame.hdr.fragTotal.toNat = count ∧ frame.hdr.fragIndex.toNat = i ∧
      frame.payload = window payload (i * chunkUsed hdr.type fragChunk) (chunkUsed hdr.type fragChunk) ∧
      (frameHasMac frame.hdr.type frame.payload = true → frame.macVerified = true) ∧
      (1 < count → typeIsFragmentable hdr.type = true) := by
  obtain ⟨few,_⟩ := fragmentCount_spans _ _ _ counted some
  have most : maxFragments.toNat = 15 := rfl
  obtain ⟨index,total⟩ := setFrag_nibbles i (by omega) count (by omega)
  obtain ⟨whole,fragmentable⟩ := encodeFragment_parts hdr payload i fragChunk sender cap _ (by omega) (encoded i below)
  rw [counted] at whole fragmentable
  obtain ⟨admitted,_,tag,made,bytes⟩ := encode_parts _ _ _ _ _ whole
  have listening' : Listening (hdr.setFrag (UInt8.ofNat i) (UInt8.ofNat count)) ctx :=
    ⟨listening.oldest,listening.newest,listening.addressed,listening.context⟩
  have tagged := macField_length _ _ _ _ made
  have bound := (frameLen_pos_iff _ _).mp admitted.fits
  generalize window payload (i * chunkUsed hdr.type fragChunk) (chunkUsed hdr.type fragChunk) = part at *
  have short : (writeHeader (hdr.setFrag (UInt8.ofNat i) (UInt8.ofNat count)) ++ (part ++ tag)).length + crcLen ≤ maxFrame := by
    simp only [List.length_append,writeHeader_length,tagged]
    omega
  have head := decodeHeader_encoded _ (part ++ tag) ctx admitted.named admitted.counted admitted.indexed plain listening' short
  have body := decodePayload_encoded _ part tag sender ctx admitted listening' sameMac sameKey made
  rw [← List.append_assoc,← bytes] at head
  rw [← bytes] at body
  refine ⟨{hdr := wireHeader (hdr.setFrag (UInt8.ofNat i) (UInt8.ofNat count)),payload := part,
            mac := if frameHasMac hdr.type part then .some tag else none,macVerified := frameHasMac hdr.type part},
    ?_,rfl,rfl,total,index,rfl,(fun due => due),fragmentable⟩
  · intro s nowMs
    unfold hear
    dsimp only
    rw [head]
    simp only [ne_eq,not_true_eq_false,if_false]
    rw [body]
    rfl

-- The answer to the next arrival: late once every fragment has come in, and never for a message of one frame.
def verdict (count : Nat) (seen : List (Nat × UInt32)) : Status := if 1 < count ∧ Covered count seen then .fragLate else .ok

def verdicts (count : Nat) (seen arrivals : List (Nat × UInt32)) : List Status :=
  (List.range arrivals.length).map fun k => verdict count (seen ++ arrivals.take k)

theorem verdicts_cons (seen rest : List (Nat × UInt32)) (a : Nat × UInt32) :
    verdicts count seen (a :: rest) = verdict count seen :: verdicts count (seen ++ [a]) rest := by
  unfold verdicts
  rw [List.length_cons,List.range_succ_eq_map,List.map_cons,List.map_map]
  simp [Function.comp_def]

theorem run_progress {m : Fragments} {startMs timeoutMs : UInt32}
    (hears : ∀ i < m.count, ∃ frame, (∀ s nowMs, hear ctx sent s (i,nowMs) = s.1.accept s.2 frame nowMs) ∧ m.Carries frame i)
    (arrivals seen : List (Nat × UInt32)) (s : Reassembler × Counters) (progress : m.Progress startMs timeoutMs seen s.1)
    (indexed : ∀ a ∈ arrivals, a.1 < m.count) (first : seen = [] → ∀ a rest, arrivals = a :: rest → a.2 = startMs)
    (prompt : ∀ before a after, arrivals = before ++ a :: after → ¬ Covered m.count (seen ++ before) → a.2 - startMs < timeoutMs) :
    (answers (hear ctx sent) s arrivals).1 = verdicts m.count seen arrivals ∧
      m.Progress startMs timeoutMs (seen ++ arrivals) (answers (hear ctx sent) s arrivals).2.1 := by
  induction arrivals generalizing seen s with
  | nil => exact ⟨rfl,by simpa [answers] using progress⟩
  | cons a rest ih =>
      obtain ⟨frame,heard,carries⟩ := hears a.1 (indexed a (by simp))
      have here := heard s a.2
      obtain ⟨answer,next⟩ := accept_progress progress carries s.2 a.2 (fun none => first none a rest rfl)
        (fun missing => prompt [] a rest rfl (by simpa using missing))
      rw [← here] at answer next
      obtain ⟨later,final⟩ := ih (seen ++ [a]) (hear ctx sent s a).2 next (fun b member => indexed b (by simp [member]))
        (by simp) (fun before b after split missing => prompt (a :: before) b after (by rw [split]; rfl) (by simpa using missing))
      rw [answers,verdicts_cons]
      have late : verdict m.count seen = if Covered m.count seen then .fragLate else .ok := by simp [verdict,m.several]
      refine ⟨?_,by simpa using final⟩
      dsimp only
      rw [later,late,answer]

theorem accept_alone (r : Reassembler) (counters : Counters) (f : Frame) (nowMs : UInt32) (total : f.hdr.fragTotal = 1)
    (index : f.hdr.fragIndex = 0) (capped : f.payload.length ≤ reassemblyCap f.hdr.type) :
    r.accept counters f nowMs = (.ok,{r with out := f.payload,complete := true},counters) := by
  have plain : reassemblyCap f.hdr.type ≤ maxPayloadPlain := by
    unfold reassemblyCap
    split <;> decide
  unfold Reassembler.accept Reassembler.acceptSingle
  rw [total,index,if_neg (by decide),if_neg (by decide),if_pos rfl,if_neg (by omega)]

theorem run_alone (hears : ∃ frame : Frame, (∀ s nowMs, hear ctx sent s (0,nowMs) = s.1.accept s.2 frame nowMs) ∧
      frame.hdr.fragTotal = 1 ∧ frame.hdr.fragIndex = 0 ∧ frame.payload.length ≤ reassemblyCap frame.hdr.type ∧ frame.payload = payload)
    (arrivals seen : List (Nat × UInt32)) (s : Reassembler × Counters) (indexed : ∀ a ∈ arrivals, a.1 < 1) :
    (answers (hear ctx sent) s arrivals).1 = verdicts 1 seen arrivals ∧
      (arrivals ≠ [] ∨ s.1.complete = true ∧ s.1.out = payload →
        (answers (hear ctx sent) s arrivals).2.1.complete = true ∧ (answers (hear ctx sent) s arrivals).2.1.out = payload) := by
  induction arrivals generalizing seen s with
  | nil => exact ⟨rfl,by simp [answers]⟩
  | cons a rest ih =>
      obtain ⟨frame,heard,total,index,capped,same⟩ := hears
      have zero : a.1 = 0 := by
        have below := indexed a (by simp)
        omega
      have here : hear ctx sent s a = (.ok,{s.1 with out := frame.payload,complete := true},s.2) := by
        have taken := heard s a.2
        rw [accept_alone _ _ _ _ total index capped,← zero] at taken
        exact taken
      obtain ⟨later,final⟩ := ih (seen ++ [a]) (hear ctx sent s a).2 (fun b member => indexed b (by simp [member]))
      rw [answers,verdicts_cons]
      dsimp only
      rw [later,here]
      refine ⟨by simp [verdict],fun _ => ?_⟩
      rw [here] at final
      exact final (.inr ⟨rfl,same⟩)

end

-- `sent i` is fragment i on the air. Only what comes in before the message is whole has to come in time.
theorem fragments_make_the_message (hdr : Header) (payload : Bytes) (fragChunk cap count : Nat) (sender : EncodeCtx) (ctx : DecodeCtx)
    (sent : Nat → Bytes) (counted : fragmentCount payload.length (chunkUsed hdr.type fragChunk) = count) (some : count ≠ 0)
    (capped : payload.length ≤ reassemblyCap hdr.type)
    (encoded : ∀ i < count, encodeFragment hdr payload (UInt8.ofNat i) fragChunk sender cap = .ok (sent i))
    (listening : Listening hdr ctx) (sameMac : ctx.mac = sender.mac) (sameKey : ctx.nodeKey = sender.nodeKey)
    (plain : hdr.criticalExt = false) (r : Reassembler) (counters : Counters) (idle : r.active = false) (fresh : r.last ≠ .some hdr.setKey)
    (first : Nat × UInt32) (rest : List (Nat × UInt32)) (indexed : ∀ a ∈ first :: rest, a.1 < count)
    (prompt : ∀ before a after, first :: rest = before ++ a :: after → ¬ Covered count before → a.2 - first.2 < r.timeoutMs) :
    (answers (hear ctx sent) (r,counters) (first :: rest)).1 = verdicts count [] (first :: rest) ∧
      ((answers (hear ctx sent) (r,counters) (first :: rest)).2.1.complete = true ↔ Covered count (first :: rest)) ∧
      (Covered count (first :: rest) → (answers (hear ctx sent) (r,counters) (first :: rest)).2.1.out = payload) := by
  have hears := hear_fragment counted some encoded listening sameMac sameKey plain
  obtain ⟨few,spanned⟩ := fragmentCount_spans _ _ _ counted some
  by_cases several : 1 < count
  · obtain ⟨_,_,_,_,_,_,_,_,fragmentable⟩ := hears 0 (by omega)
    let m : Fragments := ⟨hdr.setKey,payload,chunkUsed hdr.type fragChunk,count,several,few,spanned,capped,fragmentable several⟩
    have carried : ∀ i < m.count, ∃ frame, (∀ s nowMs, hear ctx sent s (i,nowMs) = s.1.accept s.2 frame nowMs) ∧ m.Carries frame i := by
      intro i below
      obtain ⟨frame,heard,key,_,total,index,part,verified,_⟩ := hears i below
      exact ⟨frame,heard,key,total,index,part,verified,below⟩
    have start : m.Progress first.2 r.timeoutMs [] r := .idle idle fresh rfl
    obtain ⟨statuses,progress⟩ := run_progress carried (first :: rest) [] (r,counters) start indexed
      (fun _ a later same => by cases same; rfl) (fun before a after same missing => prompt before a after same missing)
    refine ⟨statuses,?_⟩
    rw [List.nil_append] at progress
    cases progress with
    | holding missing holding => exact ⟨⟨fun complete => by simp [holding.complete] at complete,fun covered => absurd covered missing⟩,
        fun covered => absurd covered missing⟩
    | done covered done => exact ⟨⟨fun _ => covered,fun _ => done.complete⟩,fun _ => done.out⟩
  · obtain rfl : count = 1 := by omega
    obtain ⟨frame,heard,_,type,total,index,part,_,_⟩ := hears 0 (by omega)
    have whole : frame.payload = payload := by
      rw [part]
      simp only [window,Nat.zero_mul,List.drop_zero]
      exact List.take_of_length_le (by omega)
    have covered : Covered 1 (first :: rest) := by
      intro i below
      have zero := indexed first (by simp)
      have here : i = first.1 := by omega
      simp [here]
    obtain ⟨statuses,final⟩ := run_alone ⟨frame,heard,UInt8.toNat_inj.mp total,UInt8.toNat_inj.mp index,by rw [whole,type]; exact capped,whole⟩
      (first :: rest) [] (r,counters) indexed
    obtain ⟨complete,out⟩ := final (.inl (by simp))
    exact ⟨statuses,⟨fun _ => covered,fun _ => complete⟩,fun _ => out⟩

def pingHeader : Header := {type := .ping,src := nodeGateLink,dst := nodeBridge,seq := 7,ctxId := 3}

def pingFragment (i : Nat) : Bytes :=
  withCrc (writeHeader (pingHeader.setFrag (UInt8.ofNat i) 2) ++ window [0,1,9] (i * 2) 2 ++ [])

def wholePing (_ : Nat) : Bytes := withCrc (writeHeader (pingHeader.setFrag 0 1) ++ [0,1,9] ++ [])

theorem pingFragment_encoded (i : Nat) (below : i < 2) :
    encodeFragment pingHeader [0,1,9] (UInt8.ofNat i) 2 {} 222 = .ok (pingFragment i) := by
  have either : i = 0 ∨ i = 1 := by omega
  rcases either with rfl | rfl <;> rfl

-- Two fragments, the second one first and again before the first comes in, and a copy of the first too late to matter.
theorem fragments_make_the_message_ping :
    (answers (hear {} pingFragment) ({},{}) [(1,10),(1,20),(0,30),(0,9000)]).1 = [.ok,.ok,.ok,.fragLate] ∧
      (answers (hear {} pingFragment) ({},{}) [(1,10),(1,20),(0,30),(0,9000)]).2.1.out = [0,1,9] := by
  have prompt : ∀ before a after, [(1,10),(1,20),(0,30),(0,9000)] = before ++ a :: after → ¬ Covered 2 before →
      a.2 - 10 < defaultFragTimeoutMs := by
    intro before a after split missing
    rcases before with _ | ⟨b,_ | ⟨c,_ | ⟨d,_ | ⟨e,before⟩⟩⟩⟩
    · cases split
      decide
    · cases split
      decide
    · cases split
      decide
    · cases split
      exact absurd (by decide) missing
    · cases before <;> cases split
  have round := fragments_make_the_message pingHeader [0,1,9] 2 222 2 {} {} pingFragment (by decide) (by decide) (by decide)
    pingFragment_encoded ⟨by decide,by decide,.inl rfl,.inl rfl⟩ rfl rfl (by decide) {} {} rfl (by decide) (1,10) [(1,20),(0,30),(0,9000)]
    (by decide) prompt
  exact ⟨round.1,round.2.2 (by decide)⟩

-- A message of one frame is no set: each copy is delivered again.
theorem single_frame_copy_is_not_late :
    fragmentCount [0,1,9].length (chunkUsed pingHeader.type 0) = 1 ∧
      encodeFragment pingHeader [0,1,9] 0 0 {} 222 = .ok (wholePing 0) ∧
      (answers (hear {} wholePing) ({},{}) [(0,10),(0,20)]).1 = [.ok,.ok] := by
  refine ⟨by decide,rfl,by decide +kernel⟩

end LoraRan.Protocol
