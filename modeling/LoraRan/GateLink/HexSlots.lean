import LoraRan.GateLink.HexPipeline
import LoraRan.Node.HexMoves

namespace LoraRan.GateLink
open Protocol Config Node VeDirect

-- Whether a HEX line answers the job in hand.
def VedLink.takes (v : VedLink) (line : Bytes) : Bool :=
  match decode line with
  | .error _ => false
  | .ok f => f.cmd != cmdAsync && v.active && v.answers f

-- Results against the jobs they came of. `matched` are the replies taken so far, each under the number of the job that was
-- running. A result with the last token is of the last job, and a string in it is a reply taken for its own job.
def Vouched (matched : List (Nat × Bytes)) (a : GateLinkApp) (r : HexResult) : Prop :=
  ∃ number, (r.token = a.hexToken → number = a.forwards) ∧ (r.status = .ok → r.hex ≠ [] → (number,r.hex) ∈ matched)

structure Slots (matched : List (Nat × Bytes)) (a : GateLinkApp) : Prop where
  queued : ∀ job, a.port.jobs = some job → job.token = a.hexToken → job.number = a.forwards
  held : a.port.link.active = true → a.port.link.job.token = a.hexToken → a.port.link.job.number = a.forwards
  finished : ∀ r, a.port.link.result = some r → Vouched matched a r
  published : ∀ r, a.port.answer = some r → Vouched matched a r

-- The tokens of the jobs and results still inside the node.
def GateLinkApp.tokens (a : GateLinkApp) : List UInt32 :=
  (a.port.jobs.map HexJob.token).toList ++ (if a.port.link.active then [a.port.link.job.token] else []) ++
    (a.port.link.result.map HexResult.token).toList ++ (a.port.answer.map HexResult.token).toList

-- What the link leaves of a job: the result it had, or one of the job in hand that carries no string.

theorem send_result (v : VedLink) (took : Bool) : (v.send took).2.job = v.job ∧
    ((v.send took).2.result = v.result ∨ (v.send took).2.result = some ⟨v.job.token,.uartError,[]⟩) := by
  cases took with
  | true => exact ⟨rfl,.inl rfl⟩
  | false => exact ⟨rfl,.inr rfl⟩

theorem start_result (v : VedLink) (job : HexJob) (nowMs : UInt32) (took : Bool) :
    (v.start job nowMs took).2 = v ∨ (v.start job nowMs took).2.job = job ∧
      ((v.start job nowMs took).2.result = v.result ∨ ∃ status, (v.start job nowMs took).2.result = some ⟨job.token,status,[]⟩) := by
  unfold VedLink.start
  split
  · exact .inl rfl
  · refine .inr ?_
    dsimp only
    split
    · exact ⟨rfl,.inr ⟨.malformedRequest,rfl⟩⟩
    · cases took with
      | false => exact ⟨rfl,.inr ⟨.uartError,rfl⟩⟩
      | true =>
          simp only [VedLink.send,if_true,Bool.not_true,Bool.false_eq_true,if_false]
          split
          · exact ⟨rfl,.inr ⟨.ok,rfl⟩⟩
          · exact ⟨rfl,.inl rfl⟩

theorem tick_result (v : VedLink) (nowMs : UInt32) (took : Bool) : (v.tick nowMs took).job = v.job ∧
    ((v.tick nowMs took).result = v.result ∨
      v.active = true ∧ ∃ status, (v.tick nowMs took).result = some ⟨v.job.token,status,[]⟩) := by
  unfold VedLink.tick
  split
  · exact ⟨rfl,.inl rfl⟩
  · rename_i active
    have active : v.active = true := by simpa using active
    split
    · exact ⟨rfl,.inr ⟨active,.timeout,rfl⟩⟩
    · split
      · obtain ⟨job,kept | failed⟩ := send_result {v with retried := true} took
        · exact ⟨job,.inl kept⟩
        · exact ⟨job,.inr ⟨active,.uartError,failed⟩⟩
      · exact ⟨rfl,.inl rfl⟩

theorem decode_short (line : Bytes) (f : HexFrame) (decoded : decode line = .ok f) : line.length ≤ maxChars := by
  unfold decode at decoded
  split at decoded
  · cases decoded
  · split at decoded; · cases decoded
    split at decoded; · cases decoded
    split at decoded; · cases decoded
    split at decoded; · cases decoded
    split at decoded; · cases decoded
    rename_i even few
    simp only [maxData,maxChars] at *
    omega

theorem onHexLine_cases (v : VedLink) (line : Bytes) :
    (v.takes line = false ∧ v.onHexLine line = v) ∨
    (v.takes line = true ∧ v.active = true ∧ v.onHexLine line = {v with active := false,result := some ⟨v.job.token,.ok,line⟩}) := by
  unfold VedLink.takes VedLink.onHexLine
  cases decoded : decode line with
  | error why => exact .inl ⟨rfl,rfl⟩
  | ok f =>
      dsimp only
      by_cases async : f.cmd = cmdAsync
      · exact .inl ⟨by simp [async],if_pos async⟩
      · rw [if_neg async]
        cases active : v.active with
        | false => exact .inl ⟨by simp,rfl⟩
        | true =>
            cases answers : v.answers f with
            | false => exact .inl ⟨by simp,rfl⟩
            | true =>
                refine .inr ⟨by simp [async],rfl,?_⟩
                rw [if_neg (by decide),VedLink.finish,List.take_of_length_le (decode_short line f decoded)]

section
variable {matched : List (Nat × Bytes)} {a b : GateLinkApp}

theorem Vouched.of_empty (token : UInt32) (status : HexStatus) (number : Nat) (last : token = a.hexToken → number = a.forwards) :
    Vouched matched a ⟨token,status,[]⟩ := ⟨number,last,fun _ some => absurd rfl some⟩

theorem Vouched.kept {r : HexResult} (vouched : Vouched matched a r) (token : b.hexToken = a.hexToken) (forwards : b.forwards = a.forwards) :
    Vouched matched b r := by
  obtain ⟨number,last,taken⟩ := vouched
  rw [← token,← forwards] at last
  exact ⟨number,last,taken⟩

theorem SameSlots.slots (same : SameSlots a b) (slots : Slots matched a) : Slots matched b := by
  refine ⟨?_,?_,?_,?_⟩
  · rw [same.jobs,same.token,same.forwards]
    exact slots.queued
  · rw [same.link,same.token,same.forwards]
    exact slots.held
  · rw [same.link]
    exact fun r is => (slots.finished r is).kept same.token same.forwards
  · rw [same.answer]
    exact fun r is => (slots.published r is).kept same.token same.forwards

theorem SameSlots.tokens (same : SameSlots a b) : b.tokens = a.tokens := by
  unfold GateLinkApp.tokens
  rw [same.jobs,same.link,same.answer]

theorem hexForward_waits (a : GateLinkApp) (hex : Bytes) : (a.hexForward hex).1 = none := by
  unfold GateLinkApp.hexForward
  dsimp only
  split <;> rfl

theorem freshSlots (config : Option GateLinkConfig) (forwards : Nat) (wire : List HexJob) :
    Slots matched {config := config,forwards := forwards,port := {link := {wire := wire}}} :=
  ⟨(fun job is => by cases is),(fun active => by cases active),(fun r is => by cases is),(fun r is => by cases is)⟩

theorem vedStart_slots (slots : Slots matched a) (nowMs : UInt32) (took : Bool) : Slots matched (a.vedStart nowMs took) := by
  unfold GateLinkApp.vedStart
  split
  · exact slots
  · split
    · exact slots
    · rename_i job queued
      have last := slots.queued job queued
      rcases start_result a.port.link job nowMs took with same | ⟨held,result⟩
      · rw [same]
        exact ⟨(fun _ none => by cases none),slots.held,slots.finished,slots.published⟩
      · refine ⟨(fun _ none => by cases none),?_,?_,slots.published⟩
        · dsimp only
          rw [held]
          exact fun _ => last
        · dsimp only
          rcases result with kept | ⟨status,ended⟩
          · rw [kept]
            exact slots.finished
          · rw [ended]
            rintro _ ⟨⟩
            exact Vouched.of_empty _ _ job.number last

theorem vedTick_slots (slots : Slots matched a) (nowMs : UInt32) (took : Bool) :
    Slots matched (a.onLink (a.port.link.tick nowMs took)) := by
  obtain ⟨job,result⟩ := tick_result a.port.link nowMs took
  refine ⟨slots.queued,?_,?_,slots.published⟩
  · change (a.port.link.tick nowMs took).active = true → (a.port.link.tick nowMs took).job.token = a.hexToken →
      (a.port.link.tick nowMs took).job.number = a.forwards
    rw [job]
    exact fun still => slots.held (tick_active _ nowMs took still)
  · change ∀ r, (a.port.link.tick nowMs took).result = some r → Vouched matched a r
    rcases result with kept | ⟨active,status,ended⟩
    · rw [kept]
      exact slots.finished
    · rw [ended]
      rintro _ ⟨⟩
      exact Vouched.of_empty _ _ a.port.link.job.number (slots.held active)

theorem vedPublish_slots (slots : Slots matched a) : Slots matched a.vedPublish := by
  refine ⟨slots.queued,slots.held,(fun r is => by cases is),?_⟩
  change ∀ r, a.port.link.result.or a.port.answer = some r → Vouched matched a r
  cases result : a.port.link.result with
  | none => exact slots.published
  | some fresh =>
      rintro _ ⟨⟩
      exact slots.finished fresh result

theorem vedParams_slots (slots : Slots matched a) (hexTimeoutMs : UInt32) :
    Slots matched (a.onLink {a.port.link with hexTimeoutMs := hexTimeoutMs}) := ⟨slots.queued,slots.held,slots.finished,slots.published⟩

theorem Slots.mono {more : List (Nat × Bytes)} (slots : Slots matched a) (within : matched ⊆ more) : Slots more a := by
  have vouched : ∀ r, Vouched matched a r → Vouched more a r := by
    rintro r ⟨number,last,taken⟩
    exact ⟨number,last,fun ok some => within (taken ok some)⟩
  exact ⟨slots.queued,slots.held,fun r is => vouched r (slots.finished r is),fun r is => vouched r (slots.published r is)⟩

-- A reply is taken for the job in hand, and counted under its number.
theorem vedLine_slots (slots : Slots matched a) (line : Bytes) :
    Slots (if a.port.link.takes line then (a.port.link.job.number,line) :: matched else matched) (a.onLink (a.port.link.onHexLine line)) := by
  rcases onHexLine_cases a.port.link line with ⟨left,same⟩ | ⟨taken,active,ended⟩
  · rw [left,same]
    exact slots
  · rw [taken,if_pos rfl,ended]
    have grown := slots.mono (List.subset_cons_self (a.port.link.job.number,line) matched)
    refine ⟨grown.queued,(fun still => by cases still),?_,grown.published⟩
    rintro _ ⟨⟩
    exact ⟨a.port.link.job.number,slots.held active,fun _ _ => List.mem_cons_self⟩

theorem hexForward_token (a : GateLinkApp) (hex : Bytes) :
    (a.hexForward hex).2.hexToken = a.hexToken + 1 ∧ (a.hexForward hex).2.port.answer = a.port.answer := by
  unfold GateLinkApp.hexForward
  dsimp only
  split
  · exact ⟨rfl,rfl⟩
  · unfold GateLinkApp.hexSubmit
    dsimp only
    by_cases busy : a.port.vedBusy = true
    · simp [busy]
    · by_cases full : a.port.jobs.isSome = true
      · simp [busy,full]
      · simp [busy,full]

-- A forward under a token no job in the node bears: everything before it is of an earlier job.
theorem hexForward_slots (slots : Slots matched a) (hex : Bytes) (fresh : a.hexToken + 1 ∉ a.tokens) : Slots matched (a.hexForward hex).2 := by
  simp only [GateLinkApp.tokens,List.mem_append,not_or,Option.mem_toList] at fresh
  obtain ⟨⟨⟨queued,held⟩,finished⟩,published⟩ := fresh
  obtain ⟨link,forwards,jobs⟩ := hexForward_cases a hex
  obtain ⟨token,answer⟩ := hexForward_token a hex
  have late : ∀ r, Vouched matched a r → r.token ≠ a.hexToken + 1 → Vouched matched (a.hexForward hex).2 r := by
    rintro r ⟨number,_,taken⟩ other
    rw [← token] at other
    exact ⟨number,fun same => absurd same other,taken⟩
  refine ⟨?_,?_,?_,?_⟩
  · rw [token,forwards]
    rcases jobs with kept | ⟨_,new⟩
    · rw [kept]
      intro job is same
      exact absurd (by rw [is,Option.map_some,same]) queued
    · rw [new]
      rintro _ ⟨⟩ _
      rfl
  · rw [token,link]
    intro active same
    rw [if_pos active,List.mem_singleton] at held
    exact absurd same.symm held
  · rw [link]
    intro r is
    exact late r (slots.finished r is) fun same => finished (by rw [is,Option.map_some,same])
  · rw [answer]
    intro r is
    exact late r (slots.published r is) fun same => published (by rw [is,Option.map_some,same])

end

-- The frames that close the transaction in hand: they name its seq, and a string in one was taken for the last job.
def Concludes (matched : List (Nat × Bytes)) (n : Engine GateLinkApp) (hdr : Header) (payload : Bytes) : Prop :=
  hdr.type = .hexRsp → n.ctx.hexPending.active = true ∧ hdr.src = n.ctx.id ∧ hdr.seq = n.ctx.hexPending.seq ∧
    ∃ (status : HexStatus) (hex : Bytes), payload = HexRsp.serialize ⟨status.code,hex⟩ ∧
      (status = .ok → hex ≠ [] → (n.app.forwards,hex) ∈ matched)

-- What lora_task does besides receiving.
structure Closing (matched : List (Nat × Bytes)) (n n' : Engine GateLinkApp) : Prop where
  id : n'.ctx.id = n.ctx.id
  transaction : n'.ctx.hexPending = n.ctx.hexPending ∨ n'.ctx.hexPending.active = false
  forwards : n'.app.forwards = n.app.forwards
  slots : Slots matched n'.app
  outbox : ∃ frames, n'.outbox = n.outbox ++ frames ∧ ∀ bytes ∈ frames, ∃ hdr payload ectx, Concludes matched n hdr payload ∧
    encode hdr payload ectx maxFrame = .ok bytes

section
variable {mac : Mac} {matched : List (Nat × Bytes)} {n m n' : Engine GateLinkApp}

theorem Closing.quiet (id : n'.ctx.id = n.ctx.id) (transaction : n'.ctx.hexPending = n.ctx.hexPending) (forwards : n'.app.forwards = n.app.forwards)
    (slots : Slots matched n'.app) (outbox : n'.outbox = n.outbox) : Closing matched n n' :=
  ⟨id,.inl transaction,forwards,slots,[],by simp [outbox],by simp⟩

theorem Closing.trans (first : Closing matched n m) (second : Closing matched m n') : Closing matched n n' := by
  obtain ⟨frames,outbox,early⟩ := first.outbox
  obtain ⟨frames',outbox',late⟩ := second.outbox
  refine ⟨second.id.trans first.id,?_,second.forwards.trans first.forwards,second.slots,frames ++ frames',?_,?_⟩
  · rcases second.transaction with kept | closed
    · rw [kept]
      exact first.transaction
    · exact .inr closed
  · rw [outbox',outbox,List.append_assoc]
  · intro bytes member
    rcases List.mem_append.mp member with inFirst | inSecond
    · exact early bytes inFirst
    · obtain ⟨hdr,payload,ectx,concludes,encoded⟩ := late bytes inSecond
      refine ⟨hdr,payload,ectx,fun isRsp => ?_,encoded⟩
      obtain ⟨active,src,seq,status,hex,body,taken⟩ := concludes isRsp
      -- A closed transaction is not closed again.
      rcases first.transaction with kept | closed
      · rw [kept] at active seq
        rw [first.id] at src
        rw [first.forwards] at taken
        exact ⟨active,src,seq,status,hex,body,taken⟩
      · rw [closed] at active
        cases active

theorem calm_closing {payloads : Payloads} (calm : Calm mac (gateLinkOps payloads) NoHexRsp n n') (slots : Slots matched n.app) :
    Closing matched n n' := by
  have same := appRuns_slots payloads calm.app
  obtain ⟨frames,outbox,each⟩ := calm.outbox
  refine ⟨calm.id,.inl calm.transaction,same.forwards,same.slots slots,frames,outbox,fun bytes member => ?_⟩
  obtain ⟨hdr,payload,ectx,none,encoded⟩ := each bytes member
  exact ⟨hdr,payload,ectx,fun isRsp => absurd isRsp none,encoded⟩

-- The transaction closed, and then its answer sent.
theorem answered_closing (n : Engine GateLinkApp) (status : HexStatus) (hex : Bytes) (active : n.ctx.hexPending.active = true)
    (slots : Slots matched n.app) (taken : status = .ok → hex ≠ [] → (n.app.forwards,hex) ∈ matched) :
    Closing matched n (Engine.sendHexRsp mac {n with ctx := {n.ctx with hexPending := {n.ctx.hexPending with active := false}}}
      n.ctx.hexPending.peer n.ctx.hexPending.seq status hex).2 := by
  let payloads : Payloads := ⟨fun _ _ _ => [],fun _ _ _ _ => []⟩
  have sends := sendHexRsp_sends mac (gateLinkOps payloads) {n with ctx := {n.ctx with hexPending := {n.ctx.hexPending with active := false}}}
    n.ctx.hexPending.peer n.ctx.hexPending.seq status hex
  obtain ⟨_,_,_,ctx⟩ := sends.ctx
  have same := appRuns_slots payloads sends.app
  obtain ⟨frames,outbox,each⟩ := sends.outbox
  refine ⟨by rw [ctx],.inr (by rw [ctx]),same.forwards,same.slots slots,frames,outbox,fun bytes member => ?_⟩
  obtain ⟨hdr,payload,⟨rfl,rfl⟩,encoded⟩ := each bytes member
  exact ⟨_,_,_,fun _ => ⟨active,rfl,rfl,status,hex,rfl,taken⟩,encoded⟩

theorem completeHex_closing (n : Engine GateLinkApp) (status : HexStatus) (hex : Bytes) (slots : Slots matched n.app)
    (taken : n.ctx.hexPending.active = true → status = .ok → hex ≠ [] → (n.app.forwards,hex) ∈ matched) :
    Closing matched n (n.completeHex mac status hex).2 := by
  unfold Engine.completeHex
  split
  · exact Closing.quiet rfl rfl rfl slots rfl
  · rename_i active
    have active : n.ctx.hexPending.active = true := by simpa using active
    exact answered_closing n status hex active slots (taken active)

theorem tickHex_closing (n : Engine GateLinkApp) (nowMs : UInt32) (slots : Slots matched n.app) : Closing matched n (n.tickHex mac nowMs) := by
  unfold Engine.tickHex
  dsimp only
  split
  · exact Closing.quiet rfl rfl rfl slots rfl
  · rename_i due
    simp only [Bool.not_eq_true',not_or,Bool.not_eq_false] at due
    exact answered_closing n .timeout [] due.1 slots fun _ some => absurd rfl some

theorem tick_closing (n : Engine GateLinkApp) (nowMs : UInt32) (slots : Slots matched n.app) : Closing matched n (n.tick mac nowMs) := by
  let reassembled := n.ctx.reassembler.tick n.ctx.counters nowMs
  let aged : Engine GateLinkApp := {n with ctx := {n.ctx with reassembler := reassembled.1,counters := reassembled.2}}
  have begun : Closing matched n aged := Closing.quiet rfl rfl rfl slots rfl
  exact begun.trans (tickHex_closing aged nowMs slots)

theorem payRefusal_closing (n : Engine GateLinkApp) (slots : Slots matched n.app) : Closing matched n (payRefusal mac n) := by
  unfold payRefusal
  split
  · exact Closing.quiet rfl rfl rfl slots rfl
  · let paid : Engine GateLinkApp := {n with app := {n.app with hexRefusal := none}}
    have kept : Closing matched n paid := Closing.quiet rfl rfl rfl ⟨slots.queued,slots.held,slots.finished,slots.published⟩ rfl
    exact kept.trans (completeHex_closing paid _ [] kept.slots fun _ _ some => absurd rfl some)

-- An answer under the last token is of the job the transaction was opened for.
theorem takeAnswer_closing (n : Engine GateLinkApp) (slots : Slots matched n.app) : Closing matched n (takeAnswer mac n) := by
  unfold takeAnswer
  split
  · exact Closing.quiet rfl rfl rfl slots rfl
  · rename_i r published
    obtain ⟨number,last,taken⟩ := slots.published r published
    let emptied : Engine GateLinkApp := {n with app := {n.app with port := {n.app.port with answer := none}}}
    have kept : Closing matched n emptied :=
      Closing.quiet rfl rfl rfl ⟨slots.queued,slots.held,slots.finished,(fun _ none => by cases none)⟩ rfl
    dsimp only
    split
    · exact Closing.quiet rfl rfl rfl ⟨slots.queued,slots.held,slots.finished,(fun _ none => by cases none)⟩ rfl
    · rename_i mine
      simp only [not_or,not_not] at mine
      refine kept.trans (completeHex_closing emptied r.status r.hex kept.slots fun _ ok some => ?_)
      exact last mine.1 ▸ taken ok some

theorem pollHex_closing (n : Engine GateLinkApp) (slots : Slots matched n.app) : Closing matched n (pollHex mac n) := by
  have paid : Closing matched n (payRefusal mac n) := payRefusal_closing n slots
  exact paid.trans (takeAnswer_closing _ paid.slots)

end
end LoraRan.GateLink
