import LoraRan.Bridge.CommandIntake
import Mathlib.Data.List.Forall2

namespace LoraRan.Bridge
open Protocol Library.StepSystem

-- One delivery of a publication: how its payload was cut, how many of the pieces came before the connection dropped,
-- and whether the command queue had room while they did.
structure Delivery where
  topic : Bytes
  payload : Bytes
  retained : Bool
  chunks : List Bytes
  got : Nat
  room : Bool

namespace Delivery

def piecesFrom (d : Delivery) : Nat → List Bytes → List Piece
  | _, [] => []
  | index, c :: rest => ⟨d.topic,c,index,d.payload.length,d.retained,d.room⟩ :: d.piecesFrom (index + c.length) rest

def pieces (d : Delivery) : List Piece := d.piecesFrom 0 (d.chunks.take d.got)

-- Only an empty payload comes as an empty piece.
structure Cut (d : Delivery) : Prop where
  whole : d.chunks.flatten = d.payload
  pieces : d.chunks = [[]] ∨ d.chunks ≠ [] ∧ [] ∉ d.chunks

def Whole (d : Delivery) : Prop := d.chunks.length ≤ d.got
instance (d : Delivery) : Decidable d.Whole := inferInstanceAs (Decidable (d.chunks.length ≤ d.got))

end Delivery

-- The requests queued while a delivery's pieces come, whatever the assembler still holds.
def deliver (a : InboundAssembler) (d : Delivery) : List CommandRequest × InboundAssembler :=
  ((answers onPiece a d.pieces).1.filterMap id,(answers onPiece a d.pieces).2)

-- Delivery by delivery, what reaches the command queue.
def queued (ds : List Delivery) : List (List CommandRequest) := (answers deliver {} ds).1

namespace Delivery

-- The delivery hands the sink its publication.
def HandsOver (d : Delivery) (req : CommandRequest) : Prop := d.Whole ∧ d.payload.length < maxInboundPayloadLen ∧ Denotes d.topic d.payload req

-- A live publication that asks for a command, and one the broker had kept.
def Asks (d : Delivery) (req : CommandRequest) : Prop := d.retained = false ∧ d.HandsOver req
def Replays (d : Delivery) (req : CommandRequest) : Prop := d.retained = true ∧ d.HandsOver req

-- Each live request once, and nothing else.
structure Answered (d : Delivery) (reqs : List CommandRequest) : Prop where
  once : ∀ req, d.Asks req → reqs = [req]
  nothing : (∀ req, ¬ d.Asks req) → reqs = []

end Delivery

section
variable (d : Delivery)

-- The assembler holds the delivery's first bytes and waits for the next ones.
structure Midway (a : InboundAssembler) (front : Bytes) : Prop where
  msg : a.msg = {topic := d.topic,payload := front}
  expected : a.expected = d.payload.length
  active : a.active = true
  skipping : a.skipping = false

theorem append_last (a : InboundAssembler) (front c : Bytes) (midway : Midway d a front) (whole : front ++ c = d.payload) :
    (a.append c).1 = some {topic := d.topic,payload := d.payload} := by
  have total : front.length + c.length = d.payload.length := by rw [← whole,List.length_append]
  unfold InboundAssembler.append
  rw [midway.msg,midway.expected]
  dsimp only
  rw [if_neg (by omega),List.length_append,if_neg (by omega),whole]

theorem append_more (a : InboundAssembler) (front c : Bytes) (midway : Midway d a front) (short : front.length + c.length < d.payload.length) :
    (a.append c).1 = none ∧ Midway d (a.append c).2 (front ++ c) := by
  unfold InboundAssembler.append
  rw [midway.msg,midway.expected]
  dsimp only
  rw [if_neg (by omega),List.length_append,if_pos (by omega)]
  exact ⟨rfl,rfl,rfl,midway.active,midway.skipping⟩

-- What the sink makes of the delivery once it has it.
def handed : List CommandRequest :=
  ((inboundRouter {topic := d.topic,payload := d.payload,retained := d.retained}).bind (sendCommand d.room)).toList

def outcome : List CommandRequest := if d.Whole ∧ d.payload.length < maxInboundPayloadLen then handed d else []

theorem onPiece_none (a : InboundAssembler) (p : Piece) (waits : (a.add p.topic p.bytes p.index p.total).1 = none) :
    (onPiece a p).1 = none ∧ (onPiece a p).2 = (a.add p.topic p.bytes p.index p.total).2 := by
  unfold onPiece
  revert waits
  generalize a.add p.topic p.bytes p.index p.total = r
  obtain ⟨msg,next⟩ := r
  rintro rfl
  exact ⟨rfl,rfl⟩

theorem onPiece_some (a : InboundAssembler) (p : Piece) (msg : InboundMessage) (done : (a.add p.topic p.bytes p.index p.total).1 = some msg) :
    (onPiece a p).1 = (inboundRouter {msg with retained := p.retained}).bind (sendCommand p.room) ∧
      (onPiece a p).2 = (a.add p.topic p.bytes p.index p.total).2 := by
  unfold onPiece
  revert done
  generalize a.add p.topic p.bytes p.index p.total = r
  obtain ⟨out,next⟩ := r
  rintro rfl
  exact ⟨rfl,rfl⟩

theorem add_midway (a : InboundAssembler) (front c : Bytes) (midway : Midway d a front) (some : front ≠ []) :
    a.add d.topic c front.length d.payload.length = a.append c := by
  unfold InboundAssembler.add
  rw [if_neg fun empty => some (List.length_eq_zero_iff.mp empty),midway.skipping,midway.active,midway.msg]
  simp

-- The pieces after the first, one appended at a time: the last of them hands the publication given.
theorem rest_pieces (a : InboundAssembler) (front : Bytes) (rest : List Bytes) (k : Nat) (midway : Midway d a front) (some : front ≠ [])
    (more : rest ≠ []) (full : [] ∉ rest) (whole : front ++ rest.flatten = d.payload) :
    (answers onPiece a (d.piecesFrom front.length (rest.take k))).1.filterMap id =
      if rest.length ≤ k then handed d else [] := by
  induction rest generalizing a front k with
  | nil => exact absurd rfl more
  | cons c rest ih =>
      cases k with
      | zero => rfl
      | succ k =>
          have filled : c ≠ [] := fun empty => full (by rw [empty]; exact List.mem_cons_self)
          have next := add_midway d a front c midway some
          rw [List.take_succ_cons,Delivery.piecesFrom,answers]
          rw [List.flatten_cons,← List.append_assoc] at whole
          cases rest with
          | nil =>
              rw [List.flatten_nil,List.append_nil] at whole
              have done := append_last d a front c midway whole
              rw [← next] at done
              rw [(onPiece_some a ⟨d.topic,c,front.length,d.payload.length,d.retained,d.room⟩ _ done).1,List.take_nil,Delivery.piecesFrom,answers,
                if_pos (by simp)]
              unfold handed
              cases (inboundRouter _).bind (sendCommand d.room) with
              | none => rfl
              | some req => rfl
          | cons e rest =>
              have later : e ≠ [] := fun empty => full (by rw [empty]; exact List.mem_cons_of_mem c List.mem_cons_self)
              have short : front.length + c.length < d.payload.length := by
                have room := List.length_pos_iff.mpr later
                rw [← whole,List.length_append,List.length_append,List.flatten_cons,List.length_append]
                omega
              obtain ⟨waits,ahead⟩ := append_more d a front c midway short
              rw [← next] at waits ahead
              obtain ⟨silent,state⟩ := onPiece_none a ⟨d.topic,c,front.length,d.payload.length,d.retained,d.room⟩ waits
              rw [silent,state,List.filterMap_cons,← List.length_append]
              have tail := ih (a.add d.topic c front.length d.payload.length).2 (front ++ c) k ahead (by simp [some]) (by simp)
                (fun inside => full (List.mem_cons_of_mem c inside)) whole
              exact tail.trans (if_congr Nat.add_le_add_iff_right.symm rfl rfl)

-- A refused publication's later pieces.
theorem skipped (a : InboundAssembler) (index : Nat) (rest : List Bytes) (skipping : a.skipping = true) (later : index ≠ 0) :
    (answers onPiece a (d.piecesFrom index rest)).1.filterMap id = [] := by
  induction rest generalizing index with
  | nil => rfl
  | cons c rest ih =>
      have still : a.add d.topic c index d.payload.length = (none,a) := by
        unfold InboundAssembler.add
        rw [if_neg later,if_pos skipping]
      rw [Delivery.piecesFrom,answers]
      obtain ⟨silent,state⟩ := onPiece_none a ⟨d.topic,c,index,d.payload.length,d.retained,d.room⟩ (by rw [still])
      rw [silent,state,List.filterMap_cons]
      dsimp only
      rw [still]
      exact ih (index + c.length) (by omega)

theorem topic_refused (topic : Bytes) (unfit : topic.length = 0 ∨ maxTopicLen ≤ topic.length) (payload : Bytes) (retained : Bool) :
    inboundRouter {topic := topic,payload := payload,retained := retained} = none := by
  rw [Option.eq_none_iff_forall_ne_some]
  intro req asked
  obtain ⟨some,short⟩ := ((inboundRouter_iff topic payload retained req).mp asked).topic_fits
  omega

theorem first_fits (a : InboundAssembler) (c : Bytes) (fits : d.topic.length ≠ 0 ∧ d.topic.length < maxTopicLen)
    (small : d.payload.length < maxInboundPayloadLen) :
    ∃ b, Midway d b [] ∧ a.add d.topic c 0 d.payload.length = b.append c := by
  have made : makeInbound d.topic [] = some {topic := d.topic} := by
    unfold makeInbound
    exact if_neg (by simp only [List.length_nil,maxInboundPayloadLen]; omega)
  unfold InboundAssembler.add
  rw [if_pos rfl]
  dsimp only
  rw [made]
  dsimp only
  rw [if_neg (by omega)]
  exact ⟨_,⟨rfl,rfl,rfl,rfl⟩,rfl⟩

theorem first_refused (a : InboundAssembler) (c : Bytes) (unfit : d.topic.length = 0 ∨ maxTopicLen ≤ d.topic.length) :
    (a.add d.topic c 0 d.payload.length).1 = none ∧ (a.add d.topic c 0 d.payload.length).2.skipping = true := by
  have made : makeInbound d.topic [] = none := by
    unfold makeInbound
    exact if_pos (by omega)
  unfold InboundAssembler.add
  rw [if_pos rfl]
  dsimp only
  rw [made]
  exact ⟨rfl,rfl⟩

theorem first_oversized (a : InboundAssembler) (c : Bytes) (fits : d.topic.length ≠ 0 ∧ d.topic.length < maxTopicLen)
    (big : maxInboundPayloadLen ≤ d.payload.length) :
    (a.add d.topic c 0 d.payload.length).1 = some {topic := d.topic,oversized := true} ∧ (a.add d.topic c 0 d.payload.length).2.skipping = true := by
  have made : makeInbound d.topic [] = some {topic := d.topic} := by
    unfold makeInbound
    exact if_neg (by simp only [List.length_nil,maxInboundPayloadLen]; omega)
  unfold InboundAssembler.add
  rw [if_pos rfl]
  dsimp only
  rw [made]
  dsimp only
  rw [if_pos big]
  exact ⟨rfl,rfl⟩

theorem tail_full (c : Bytes) (rest : List Bytes) (shape : c :: rest = [[]] ∨ c :: rest ≠ [] ∧ [] ∉ c :: rest) :
    rest = [] ∨ c ≠ [] ∧ rest ≠ [] ∧ [] ∉ rest := by
  rcases shape with alone | ⟨_,full⟩
  · exact .inl (List.cons_eq_cons.mp alone).2
  · by_cases last : rest = []
    · exact .inl last
    · exact .inr ⟨fun empty => full (by rw [empty]; exact List.mem_cons_self),last,fun inside => full (List.mem_cons_of_mem c inside)⟩

theorem pieces_short (a : InboundAssembler) (c : Bytes) (rest : List Bytes) (k : Nat)
    (fits : d.topic.length ≠ 0 ∧ d.topic.length < maxTopicLen) (small : d.payload.length < maxInboundPayloadLen) (whole : c ++ rest.flatten = d.payload)
    (tailed : rest = [] ∨ c ≠ [] ∧ rest ≠ [] ∧ [] ∉ rest) :
    (answers onPiece a (d.piecesFrom 0 (c :: rest.take k))).1.filterMap id = if rest.length ≤ k then handed d else [] := by
  obtain ⟨b,midway,first⟩ := first_fits d a c fits small
  rw [Delivery.piecesFrom,answers]
  rcases tailed with rfl | ⟨some,more,full⟩
  · have done := append_last d b [] c midway (by rw [← whole,List.flatten_nil,List.append_nil,List.nil_append])
    rw [← first] at done
    rw [(onPiece_some a ⟨d.topic,c,0,d.payload.length,d.retained,d.room⟩ _ done).1,List.take_nil,Delivery.piecesFrom,answers,if_pos (by simp)]
    unfold handed
    cases (inboundRouter _).bind (sendCommand d.room) with
    | none => rfl
    | some req => rfl
  · have longer : c.length < d.payload.length := by
      have behind : rest.flatten ≠ [] := by
        rw [List.flatten_ne_nil_iff]
        obtain ⟨e,inside⟩ := List.exists_mem_of_ne_nil rest more
        exact ⟨e,inside,fun empty => full (empty ▸ inside)⟩
      have room := List.length_pos_iff.mpr behind
      rw [← whole,List.length_append]
      omega
    obtain ⟨waits,ahead⟩ := append_more d b [] c midway (by simpa using longer)
    rw [← first] at waits ahead
    obtain ⟨silent,state⟩ := onPiece_none a ⟨d.topic,c,0,d.payload.length,d.retained,d.room⟩ waits
    rw [silent,state,List.filterMap_cons,Nat.zero_add]
    exact rest_pieces d _ c rest k ahead some more full whole

-- From any state of the assembler.
theorem pieces_outcome (a : InboundAssembler) (c : Bytes) (rest : List Bytes) (k : Nat) (whole : c ++ rest.flatten = d.payload)
    (tailed : rest = [] ∨ c ≠ [] ∧ rest ≠ [] ∧ [] ∉ rest) :
    (answers onPiece a (d.piecesFrom 0 (c :: rest.take k))).1.filterMap id =
      if rest.length ≤ k ∧ d.payload.length < maxInboundPayloadLen then handed d else [] := by
  have behind (skipping : (a.add d.topic c 0 d.payload.length).2.skipping = true) :
      (answers onPiece (a.add d.topic c 0 d.payload.length).2 (d.piecesFrom (0 + c.length) (rest.take k))).1.filterMap id = [] := by
    rcases tailed with rfl | ⟨some,_⟩
    · rw [List.take_nil]
      rfl
    · exact skipped d _ _ _ skipping (by rw [Nat.zero_add]; exact fun empty => some (List.length_eq_zero_iff.mp empty))
  by_cases fits : d.topic.length ≠ 0 ∧ d.topic.length < maxTopicLen
  · by_cases small : d.payload.length < maxInboundPayloadLen
    · rw [pieces_short d a c rest k fits small whole tailed]
      exact if_congr (by simp [small]) rfl rfl
    · obtain ⟨first,skipping⟩ := first_oversized d a c fits (by omega)
      obtain ⟨asked,state⟩ := onPiece_some a ⟨d.topic,c,0,d.payload.length,d.retained,d.room⟩ _ first
      rw [Delivery.piecesFrom,answers,asked,state,oversized_asks_nothing _ rfl,if_neg (fun both => small both.2)]
      exact behind skipping
  · have unfit : d.topic.length = 0 ∨ maxTopicLen ≤ d.topic.length := by omega
    obtain ⟨first,skipping⟩ := first_refused d a c unfit
    obtain ⟨silent,state⟩ := onPiece_none a ⟨d.topic,c,0,d.payload.length,d.retained,d.room⟩ first
    have none : handed d = [] := by
      unfold handed
      rw [topic_refused d.topic unfit]
      rfl
    rw [Delivery.piecesFrom,answers,silent,state,none,ite_self]
    exact behind skipping

theorem deliver_outcome (a : InboundAssembler) (cut : d.Cut) : (deliver a d).1 = outcome d := by
  obtain ⟨whole,shape⟩ := cut
  change (answers onPiece a (d.piecesFrom 0 (d.chunks.take d.got))).1.filterMap id = _
  cases chunked : d.chunks with
  | nil =>
      rw [chunked] at shape
      exact absurd shape (by simp)
  | cons c rest =>
      rw [chunked] at whole shape
      have all : d.Whole ↔ (c :: rest).length ≤ d.got := by rw [← chunked]; exact Iff.rfl
      cases got : d.got with
      | zero => exact (if_neg fun both => by rw [got] at all; exact absurd (all.mp both.1) (by simp)).symm
      | succ k =>
          rw [List.take_succ_cons,pieces_outcome d a c rest k whole (tail_full c rest shape)]
          rw [got,List.length_cons,Nat.add_le_add_iff_right] at all
          exact if_congr (and_congr_left' all.symm) rfl rfl

end

theorem queued_outcomes (ds : List Delivery) (cut : ∀ d ∈ ds, d.Cut) : queued ds = ds.map outcome := by
  have all (a : InboundAssembler) : (answers deliver a ds).1 = ds.map outcome := by
    induction ds generalizing a with
    | nil => rfl
    | cons d rest ih =>
        rw [answers,List.map_cons,deliver_outcome d a (cut d List.mem_cons_self),ih fun e inside => cut e (List.mem_cons_of_mem d inside)]
  exact all {}

theorem outcome_handed (d : Delivery) (req : CommandRequest) (given : d.HandsOver req) : outcome d = if d.room then [req] else [] := by
  obtain ⟨whole,small,denotes⟩ := given
  unfold outcome handed
  rw [if_pos ⟨whole,small⟩,(inboundRouter_iff d.topic d.payload d.retained req).mpr denotes,Option.bind_some]
  unfold sendCommand
  cases d.room <;> rfl

theorem outcome_silent (d : Delivery) (nothing : ∀ req, ¬ d.HandsOver req) : outcome d = [] := by
  unfold outcome
  split
  · rename_i came
    have none : inboundRouter {topic := d.topic,payload := d.payload,retained := d.retained} = none := by
      rw [Option.eq_none_iff_forall_ne_some]
      exact fun req asked => nothing req ⟨came.1,came.2,(inboundRouter_iff _ _ _ req).mp asked⟩
    unfold handed
    rw [none]
    rfl
  · rfl

theorem HandsOver.one {d : Delivery} {req other : CommandRequest} (given : d.HandsOver req) (again : d.HandsOver other) : req = other := by
  have first := (inboundRouter_iff d.topic d.payload d.retained req).mpr given.2.2
  rw [(inboundRouter_iff d.topic d.payload d.retained other).mpr again.2.2] at first
  exact (Option.some.inj first).symm

theorem outcome_answered (d : Delivery) :
    d.Answered (outcome d) ↔ (∀ req, d.Asks req → d.room = true) ∧ (∀ req, d.Replays req → d.room = false) := by
  by_cases given : ∃ req, d.HandsOver req
  · obtain ⟨req,given⟩ := given
    have came := outcome_handed d req given
    cases kept : d.retained with
    | false =>
        have asks : d.Asks req := ⟨kept,given⟩
        constructor
        · intro answered
          have once := answered.once req asks
          refine ⟨fun _ _ => ?_,fun _ replays => absurd (kept.symm.trans replays.1) Bool.false_ne_true⟩
          cases room : d.room with
          | true => rfl
          | false =>
              rw [came,room] at once
              cases once
        · rintro ⟨room,_⟩
          rw [room req asks,if_pos rfl] at came
          refine ⟨fun other asked => ?_,fun silent => absurd asks (silent req)⟩
          rw [came,HandsOver.one given asked.2]
    | true =>
        have unasked (other : CommandRequest) : ¬ d.Asks other := fun asked => absurd (asked.1.symm.trans kept) Bool.false_ne_true
        constructor
        · intro answered
          have nothing := answered.nothing unasked
          refine ⟨fun other asked => absurd asked (unasked other),fun _ _ => ?_⟩
          cases room : d.room with
          | false => rfl
          | true =>
              rw [came,room] at nothing
              cases nothing
        · rintro ⟨_,full⟩
          rw [full req ⟨kept,given⟩,if_neg Bool.false_ne_true] at came
          exact ⟨fun other asked => absurd asked (unasked other),fun _ => came⟩
  · have nothing (req : CommandRequest) : ¬ d.HandsOver req := fun here => given ⟨req,here⟩
    constructor
    · exact fun _ => ⟨fun req asked => absurd asked.2 (nothing req),fun req replays => absurd replays.2 (nothing req)⟩
    · exact fun _ => ⟨fun req asked => absurd asked.2 (nothing req),fun _ => outcome_silent d nothing⟩

-- The sink reads no retain flag: a kept publication is answered as a live one is. A live one is lost only to a full queue.
theorem command_intake_iff (ds : List Delivery) (cut : ∀ d ∈ ds, d.Cut) :
    List.Forall₂ Delivery.Answered ds (queued ds) ↔
      ∀ d ∈ ds, (∀ req, d.Asks req → d.room = true) ∧ (∀ req, d.Replays req → d.room = false) := by
  rw [queued_outcomes ds cut,List.forall₂_map_right_iff,List.forall₂_same]
  exact forall₂_congr fun d _ => outcome_answered d

def rebootTwice : List Delivery :=
  [⟨token "lran/gatelink/cmd/reboot/set",token "1,30",false,[token "1,",token "30"],1,true⟩,
    ⟨token "lran/gatelink/cmd/reboot/set",token "1,30",false,[token "1,",token "30"],2,true⟩]

theorem command_intake_reboot :
    List.Forall₂ Delivery.Answered rebootTwice (queued rebootTwice) ∧ queued rebootTwice = [[],[⟨0x01,cmdReboot,1,30⟩]] := by
  refine ⟨(command_intake_iff rebootTwice ?_).mpr ?_,by decide +kernel⟩
  · intro d inside
    rcases List.mem_cons.mp inside with rfl | inside
    · exact ⟨by decide +kernel,.inr ⟨by decide,by decide +kernel⟩⟩
    · cases List.mem_singleton.mp inside
      exact ⟨by decide +kernel,.inr ⟨by decide,by decide +kernel⟩⟩
  · intro d inside
    have plain : d.retained = false ∧ d.room = true := by
      rcases List.mem_cons.mp inside with rfl | inside
      · exact ⟨rfl,rfl⟩
      · cases List.mem_singleton.mp inside
        exact ⟨rfl,rfl⟩
    exact ⟨fun _ _ => plain.2,fun _ replays => absurd (plain.1.symm.trans replays.1) Bool.false_ne_true⟩

-- A gate command the broker keeps: it runs at each reconnect.
def keptOpen : Delivery := ⟨token "lran/gatelink/cmd/open/set",[],true,[[]],1,true⟩

theorem kept_open_runs_again :
    keptOpen.Cut ∧ queued [keptOpen,keptOpen] = [[⟨0x01,cmdOpen,0,0⟩],[⟨0x01,cmdOpen,0,0⟩]] ∧
      ¬ List.Forall₂ Delivery.Answered [keptOpen,keptOpen] (queued [keptOpen,keptOpen]) := by
  have came : queued [keptOpen,keptOpen] = [[⟨0x01,cmdOpen,0,0⟩],[⟨0x01,cmdOpen,0,0⟩]] := by decide +kernel
  refine ⟨⟨rfl,.inl rfl⟩,came,fun answered => ?_⟩
  rw [came] at answered
  cases answered with
  | cons first _ =>
      have silent := first.nothing fun _ asked => absurd asked.1 (by decide)
      cases silent

end LoraRan.Bridge
