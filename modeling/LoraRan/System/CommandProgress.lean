import LoraRan.System.CommandLink

namespace LoraRan.System.CommandProgress
open Protocol Node Bridge CommandLink

-- How many effective turns a path can still take before it resolves: two an attempt, and one resync starts the attempts over.
def remaining (attempt : UInt8) (resyncUsed : Bool) : Nat := 2 * (255 - attempt.toNat) + (if resyncUsed then 0 else 1000)

def budget (p : CommandPath) : Nat :=
  match p.phase with
  | .idle => 0
  | .resolved => 1
  | .awaiting => 2 + remaining p.attempt p.resyncUsed
  | .sendDue => 3 + remaining p.attempt p.resyncUsed

def maxTurns : Nat := 1513

theorem budget_le (p : CommandPath) : budget p ≤ maxTurns := by
  have bound : remaining p.attempt p.resyncUsed ≤ 1510 := by
    unfold remaining
    split <;> omega
  unfold budget maxTurns
  split <;> omega

section
variable {σ : Type} (mac : Mac) (ops : Application σ) (keys : NodeId → NodeKey) (listen : DecodeCtx)

-- A turn the path can use: the queue takes the frame that is due, or the window has closed, or the outcome is there.
def effective (s : Link σ) : Input σ → Bool
  | .tick nowMs queued _ =>
      match s.path.phase with
      | .idle => false
      | .sendDue => queued
      | .awaiting => !windowOpen nowMs s.path.windowOpenedMs s.path.window
      | .resolved => true
  | _ => false

def turns (s : Link σ) : List (Input σ) → Nat
  | [] => 0
  | i :: rest => (effective s i).toNat + turns (step mac ops keys listen s i) rest

-- Still in flight, and nearer its end by the turn it used.
def Nearer (s s' : Link σ) (used : Bool) : Prop := s'.path.busy = true ∧ s'.given = s.given ∧ budget s'.path + used.toNat ≤ budget s.path

def Over (s s' : Link σ) : Prop := ∃ r ∈ s'.resolved, r.submission = s.current

variable {mac ops keys listen}

theorem nearer_of_path {s s' : Link σ} (busy : s.path.busy = true) (path : s'.path = s.path) (given : s'.given = s.given) : Nearer s s' false :=
  ⟨path ▸ busy,given,by rw [path]; simp⟩

theorem frameFor_some (dst : NodeId) (ctx : CtxId) (seq : Seq) (ver : UInt8) (cmd : Command) :
    ∃ bytes, frameFor mac keys dst ctx seq ver cmd = some bytes := by
  have whole := commandHeader_whole dst ctx seq ver
  have long : cmd.serialize.length = 4 := rfl
  have signed : frameHasMac (commandHeader dst ctx seq ver).type cmd.serialize = true := rfl
  have admitted : Admissible (commandHeader dst ctx seq ver) cmd.serialize := by
    refine ⟨rfl,by simp [whole],by rw [whole]; change (0x01 : UInt8) >>> 4 < 1; decide,by simp [whole],rfl,?_,by rw [long,signed]; decide⟩
    rw [checkPayloadLen,whole]
    rfl
  obtain ⟨tag,made⟩ : ∃ tag, macField {mac := some mac,nodeKey := some (keys dst)} (frameHasMac (commandHeader dst ctx seq ver).type cmd.serialize)
      (writeHeader (commandHeader dst ctx seq ver) ++ cmd.serialize) = some tag := by
    rw [signed]
    exact ⟨_,rfl⟩
  have encoded := encode_of_parts _ _ _ maxFrame tag admitted (by rw [long,signed]; decide) made
  exact ⟨_,by rw [frameFor,buildCommandFrame,encoded]; rfl⟩

theorem remaining_next (attempt retries : UInt8) (resyncUsed : Bool) (more : attempt < retries) :
    remaining (attempt + 1) resyncUsed + 2 = remaining attempt resyncUsed := by
  have below := UInt8.lt_iff_toNat_lt.mp more
  have top := retries.toNat_lt
  have next : (attempt + 1).toNat = attempt.toNat + 1 := by
    rw [UInt8.toNat_add]
    exact Nat.mod_eq_of_lt (by change attempt.toNat + 1 < 256; omega)
  simp only [remaining,next]
  omega

-- The caller's part of a turn that sends: the frame always builds.
theorem send_turn (s : Link σ) (p : CommandPath) (nowMs : UInt32) (queued : Bool) (ver : UInt8) (asked : s.path.next nowMs = (p.sendStep,p)) :
    ∃ sent, s.turn mac keys nowMs queued ver = {s with path := if queued then p.onSent nowMs else p,sent := sent} := by
  obtain ⟨bytes,built⟩ : ∃ bytes, frameFor mac keys p.req.dst p.ctx p.seq ver ⟨p.req.cmd,p.req.arg,p.req.arg2⟩ = some bytes := frameFor_some _ _ _ _ _
  unfold Link.turn
  rw [asked]
  dsimp only [CommandPath.sendStep]
  rw [built]
  cases queued
  · exact ⟨_,rfl⟩
  · exact ⟨_,rfl⟩

-- One turn of the caller.
theorem turn_nearer (s : Link σ) (nowMs : UInt32) (queued : Bool) (ver : UInt8) (busy : s.path.busy = true) :
    Over s (s.turn mac keys nowMs queued ver) ∨ Nearer s (s.turn mac keys nowMs queued ver) (effective s (.tick nowMs queued ver)) := by
  have spent : ∀ p : CommandPath, p.phase = .sendDue → s.path.next nowMs = (p.sendStep,p) →
      (if queued then 2 else 3) + remaining p.attempt p.resyncUsed + (effective s (.tick nowMs queued ver)).toNat ≤ budget s.path →
      Nearer s (s.turn mac keys nowMs queued ver) (effective s (.tick nowMs queued ver)) := by
    intro p due asked paid
    obtain ⟨sent,moved⟩ : ∃ sent, s.turn mac keys nowMs queued ver = {s with path := if queued then p.onSent nowMs else p,sent := sent} :=
      send_turn s p nowMs queued ver asked
    rw [moved]
    cases queued
    · simp only [Bool.false_eq_true,if_false] at paid ⊢
      refine ⟨by simp [CommandPath.busy,due],rfl,?_⟩
      rw [budget,due]
      exact paid
    · simp only [if_true] at paid ⊢
      refine ⟨by simp [CommandPath.busy,CommandPath.onSent,due],rfl,?_⟩
      simp only [budget,CommandPath.onSent,due,ne_eq,not_true_eq_false,if_false] at paid ⊢
      exact paid
  rcases phased : s.path.phase with _ | _ | _ | _
  · simp [CommandPath.busy,phased] at busy
  · refine .inr (spent s.path phased (by simp [CommandPath.next,phased]) ?_)
    cases queued
    · simp [effective,budget,phased]
    · simp only [effective,budget,phased,if_true,Bool.toNat_true]
      omega
  · by_cases still : windowOpen nowMs s.path.windowOpenedMs s.path.window = true
    · have same : s.turn mac keys nowMs queued ver = s := by simp [Link.turn,CommandPath.next,phased,still]
      rw [same]
      have unused : effective s (.tick nowMs queued ver) = false := by simp [effective,phased,still]
      rw [unused]
      exact .inr (nearer_of_path busy rfl rfl)
    · by_cases last : s.path.attempt ≥ s.path.retries
      · refine .inl ?_
        have finished : s.path.next nowMs =
            (CommandPath.resolveStep {s.path with outcome := .noAck},{s.path with outcome := .noAck,phase := .idle}) := by
          unfold CommandPath.next
          rw [phased]
          dsimp only
          rw [if_neg still,if_pos last]
          rfl
        unfold Link.turn
        rw [finished]
        exact ⟨_,List.mem_cons_self,rfl⟩
      · have more : s.path.attempt < s.path.retries := UInt8.not_le.mp last
        have spare := remaining_next _ _ s.path.resyncUsed more
        refine .inr (spent {s.path with attempt := s.path.attempt + 1,phase := .sendDue} rfl ?_ ?_)
        · unfold CommandPath.next
          rw [phased]
          dsimp only
          rw [if_neg still,if_neg last]
        · have used : (effective s (.tick nowMs queued ver)).toNat ≤ 1 := Bool.toNat_le _
          simp only [budget,phased]
          split <;> omega
  · refine .inl ?_
    unfold Link.turn
    rw [show s.path.next nowMs = (s.path.resolveStep,{s.path with phase := .idle}) by simp [CommandPath.next,phased]]
    exact ⟨_,List.mem_cons_self,rfl⟩

theorem onAck_nearer (p : CommandPath) (src : NodeId) (ack : CommandAck) (ctx : CtxId) (nowMs : UInt32) :
    budget (p.onAck src ack ctx nowMs) ≤ budget p := by
  rcases p.onAck_cases src ack ctx nowMs with ⟨_,moved⟩ | ⟨mine,_,fresh,_,moved⟩ | ⟨mine,_,_,_,moved⟩ | ⟨mine,_,_,moved⟩ | ⟨mine,_,moved⟩
  · rw [moved]
  · rw [moved]
    simp only [budget,mine.1,remaining,fresh]
    change 3 + (2 * (255 - 0) + 0) ≤ _
    simp
    omega
  all_goals
    rw [moved]
    simp only [budget,mine.1]
    omega

theorem onAck_busy (p : CommandPath) (src : NodeId) (ack : CommandAck) (ctx : CtxId) (nowMs : UInt32) :
    (p.onAck src ack ctx nowMs).busy = p.busy := by
  rcases p.onAck_cases src ack ctx nowMs with ⟨_,moved⟩ | ⟨mine,_,_,_,moved⟩ | ⟨mine,_,_,_,moved⟩ | ⟨mine,_,_,moved⟩ | ⟨mine,_,moved⟩
  · rw [moved]
  all_goals
    rw [moved,CommandPath.busy,CommandPath.busy,mine.1]
    rfl

theorem step_nearer (s : Link σ) (i : Input σ) (busy : s.path.busy = true) :
    Over s (step mac ops keys listen s i) ∨ Nearer s (step mac ops keys listen s i) (effective s i) := by
  cases i with
  | tick nowMs queued ver => exact turn_nearer s nowMs queued ver busy
  | submit req ctx seq nowMs =>
      have taken : s.path.phase ≠ .idle := by simpa [CommandPath.busy] using busy
      simp only [step,CommandPath.submit,ne_eq,taken,not_false_eq_true,if_true]
      exact .inr (nearer_of_path busy rfl rfl)
  | aired airedMs =>
      refine .inr ?_
      simp only [step,CommandPath.onAired]
      split
      · exact ⟨busy,rfl,Nat.le_refl _⟩
      · exact nearer_of_path busy rfl rfl
  | setParams ackTimeoutMs retries => exact .inr ⟨busy,rfl,Nat.le_refl _⟩
  | sendRoll dst ctx seq ver =>
      refine .inr ?_
      simp only [step]
      split <;> exact nearer_of_path busy rfl rfl
  | deliver i random nowMs =>
      refine .inr ?_
      simp only [step]
      split <;> exact nearer_of_path busy rfl rfl
  | hear i nowMs =>
      refine .inr ?_
      simp only [step]
      split
      · exact nearer_of_path busy rfl rfl
      · unfold Link.hear
        split
        · exact nearer_of_path busy rfl rfl
        · exact ⟨(onAck_busy _ _ _ _ _).trans busy,rfl,onAck_nearer _ _ _ _ _⟩
  | _ => exact .inr (nearer_of_path busy rfl rfl)

theorem step_resolved (s : Link σ) (i : Input σ) : s.resolved ⊆ (step mac ops keys listen s i).resolved := by
  cases i with
  | tick nowMs queued ver =>
      change s.resolved ⊆ (s.turn mac keys nowMs queued ver).resolved
      rcases turn_cases mac keys s nowMs queued ver with moved | ⟨_,_,moved⟩ | ⟨_,_,_,_,moved⟩ | ⟨_,moved⟩ | ⟨_,moved⟩
      all_goals rw [moved]
      · exact List.Subset.refl _
      · exact List.Subset.refl _
      · exact List.Subset.refl _
      · exact List.subset_cons_self _ _
      · exact List.subset_cons_self _ _
  | submit req ctx seq nowMs =>
      simp only [step]
      split <;> exact List.Subset.refl _
  | sendRoll dst ctx seq ver =>
      simp only [step]
      split <;> exact List.Subset.refl _
  | deliver i random nowMs =>
      simp only [step]
      split <;> exact List.Subset.refl _
  | hear i nowMs =>
      simp only [step]
      split
      · exact List.Subset.refl _
      · unfold Link.hear
        split <;> exact List.Subset.refl _
  | _ => exact List.Subset.refl _

variable (mac ops keys listen)

theorem run_resolved (s : Link σ) (run : List (Input σ)) : s.resolved ⊆ (run.foldl (step mac ops keys listen) s).resolved := by
  induction run generalizing s with
  | nil => exact List.Subset.refl _
  | cons i rest ih => exact List.Subset.trans (step_resolved s i) (ih _)

-- Turns are all it takes: whatever else happens in between, a submission that got enough of them is resolved.
theorem resolves (s : Link σ) (run : List (Input σ)) (busy : s.path.busy = true) (enough : budget s.path ≤ turns mac ops keys listen s run) :
    Over s (run.foldl (step mac ops keys listen) s) := by
  induction run generalizing s with
  | nil =>
      have positive : 0 < budget s.path := by
        unfold budget
        split
        · rename_i idle
          simp [CommandPath.busy,idle] at busy
        all_goals omega
      simp only [turns] at enough
      omega
  | cons i rest ih =>
      rcases step_nearer s i busy with ⟨r,member,own⟩ | ⟨still,given,nearer⟩
      · exact ⟨r,run_resolved mac ops keys listen _ rest member,own⟩
      · simp only [turns] at enough
        obtain ⟨r,member,own⟩ := ih (step mac ops keys listen s i) still (by omega)
        refine ⟨r,member,own.trans ?_⟩
        rw [Link.current,Link.current,given]

end
end LoraRan.System.CommandProgress
