import LoraRan.Config.BlobTrip
import LoraRan.Node.PhyBoard

namespace LoraRan.Node.PhyFlash
open Protocol Config Library.StepSystem

-- The bytes and what is read back of them.

theorem read_bytes (p q : BlobStore) (usable : p.usable = q.usable) (bytes : p.bytes = q.bytes) : PhyPersist.read p = PhyPersist.read q := by
  unfold PhyPersist.read BlobStore.read
  rw [usable,bytes]

theorem write_reads (p : BlobStore) (b : PhyBlob) (usable : p.usable = true) :
    ((PhyPersist.write p b).1 = true ∧ PhyPersist.read (PhyPersist.write p b).2 = some b) ∨
    ((PhyPersist.write p b).1 = false ∧ PhyPersist.read (PhyPersist.write p b).2 = PhyPersist.read p) := by
  unfold PhyPersist.write
  rw [usable]
  simp only [Bool.not_true,Bool.false_eq_true,if_false]
  split
  · exact .inr ⟨rfl,rfl⟩
  · rename_i bytes encoded
    obtain ⟨decodes,fits,some_⟩ := PhyBlob.decode_of_encode b bytes encoded
    unfold BlobStore.write
    split
    · exact .inr ⟨rfl,read_bytes _ _ rfl rfl⟩
    · refine .inl ⟨rfl,?_⟩
      have whole : BlobStore.read {p with bytes := bytes,writes := p.writes + 1} phyBlobMax = bytes := if_neg (Nat.not_lt.mpr fits)
      unfold PhyPersist.read
      dsimp only
      rw [whole,usable]
      simp only [Bool.not_true,Bool.false_eq_true,if_false,if_neg some_]
      exact decodes

-- The group's rows on flash. A board that never committed has none.
def flashRows (p : BlobStore) : List (UInt16 × Value) := ((PhyPersist.read p).map PhyBlob.rows).getD []

theorem markTrial_rows (p : BlobStore) (marked : Bool) (usable : p.usable = true) : flashRows (PhyPersist.markTrial p marked).2 = flashRows p := by
  unfold PhyPersist.markTrial flashRows
  rcases write_reads p {(PhyPersist.read p).getD {} with trialOpen := marked} usable with ⟨_,read⟩ | ⟨_,read⟩
  · rw [read]
    cases PhyPersist.read p with
    | none => rfl
    | some b => rfl
  · rw [read]

theorem saveGroup_rows (p : BlobStore) (group : List (UInt16 × Value)) (usable : p.usable = true) :
    ((PhyPersist.saveGroup p group).1 = true ∧ flashRows (PhyPersist.saveGroup p group).2 = group) ∨
    ((PhyPersist.saveGroup p group).1 = false ∧ flashRows (PhyPersist.saveGroup p group).2 = flashRows p) := by
  unfold PhyPersist.saveGroup flashRows
  split
  · exact .inr ⟨rfl,rfl⟩
  · rcases write_reads p {rows := group} usable with ⟨saved,read⟩ | ⟨failed,read⟩
    · exact .inl ⟨saved,by rw [read]; rfl⟩
    · exact .inr ⟨failed,by rw [read]⟩

theorem erase_rows (p : BlobStore) (usable : p.usable = true) (succeeds : p.failing p.writes = false) : flashRows (PhyPersist.erase p).2 = [] := by
  unfold PhyPersist.erase BlobStore.erase BlobStore.write
  rw [usable,succeeds]
  simp only [Bool.not_true,Bool.false_eq_true,if_false,flashRows,PhyPersist.read,BlobStore.read]
  rfl

-- What a boot makes of the rows: each clamped, and refused off its list.
def putBack (overrides : List Override) (row : UInt16 × Value) : List Override :=
  if isPhy row.1 then
    match nodeCommonParams.row row.1 with
    | none => overrides
    | some d => if valueAllowed d (clamp row.2 d) then setValue overrides row.1 (clamp row.2 d) else overrides
  else overrides

def overridesGroup (overrides : List Override) : PhyGroup :=
  PhyGroup.of (Store.effective ({table := nodeCommonParams,overrides := overrides} : Store BlobStore))

def bootGroup (rows : List (UInt16 × Value)) : PhyGroup := overridesGroup (rows.foldl putBack [])

theorem group_overrides (t : PhyTrial) (table : t.store.table = nodeCommonParams) (none_ : t.store.trial = []) :
    t.group = overridesGroup t.store.overrides := by
  unfold PhyTrial.group overridesGroup PhyGroup.of Store.effective Store.trialSlot Store.slot
  rw [table,none_]

theorem restoreAll_putBack (s : Store BlobStore) (rows : List (UInt16 × Value)) (tidy : s.Tidy) (table : s.table = nodeCommonParams)
    (writable : s.phyWritable phyPersist = true) :
    rows.foldl (fun (s : Store BlobStore) row => if isPhy row.1 then (s.restore phyPersist row.1 row.2).2 else s) s =
      {s with overrides := rows.foldl putBack s.overrides} := by
  induction rows generalizing s with
  | nil => rfl
  | cons row rest ih =>
      rw [List.foldl_cons,List.foldl_cons]
      have first : (if isPhy row.1 then (s.restore phyPersist row.1 row.2).2 else s) = {s with overrides := putBack s.overrides row} := by
        unfold putBack
        by_cases phy : isPhy row.1 = true
        · obtain ⟨d,found,access⟩ := phy_row row.1 phy
          have row_ : s.table.row row.1 = some d := by rw [table]; exact found
          rw [if_pos phy,if_pos phy,found]
          unfold Store.restore
          rw [row_]
          dsimp only
          rw [if_neg (by simp [access,writable])]
          cases allowed : valueAllowed d (clamp row.2 d) with
          | false => rfl
          | true =>
              have settled := clamp_settled row.2 d (tidy.sound.ranges d (row_mem s.table _ d row_).1) allowed
              rw [(tidy.setOverride row.1 d _ row_ (by rw [access]; decide) settled).1]
              rfl
        · rw [if_neg phy,if_neg phy]
      rw [first]
      have kept : Store.Tidy {s with overrides := putBack s.overrides row} := by
        rw [← first]
        split
        · exact tidy.restored phyPersist row.1 row.2
        · exact tidy
      exact ih _ kept table writable

-- The group a restarted board comes up on depends on the rows alone.
theorem boot_group (p : BlobStore) (usable : p.usable = true) :
    (PhyTrial.boot (some p)).2.group = bootGroup (flashRows p) ∧ (PhyTrial.boot (some p)).2.committed = bootGroup (flashRows p) ∧
      ((PhyTrial.boot (some p)).1 = .reboot ↔ ∃ b, PhyPersist.read p = some b ∧ b.trialOpen = true) ∧
      ∃ q, (PhyTrial.boot (some p)).2.store.persist = some q ∧ flashRows q = flashRows p := by
  let enabled : Store BlobStore := {table := nodeCommonParams,persist := some p,phyTrialEnabled := true}
  have tidy : enabled.Tidy := ⟨nodeCommonParams_sound,List.nodup_nil,fun _ member => absurd member List.not_mem_nil,List.nodup_nil,
    fun _ member => absurd member List.not_mem_nil⟩
  have writable : enabled.phyWritable phyPersist = true := usable
  have ready : PhyTrial.writable {store := {table := nodeCommonParams,persist := some p}} = true := usable
  unfold PhyTrial.boot PhyTrial.begin
  rw [ready]
  simp only [Bool.not_true,Bool.false_eq_true,if_false,Option.bind_some]
  cases found : PhyPersist.read p with
  | none =>
      have rows : flashRows p = [] := by simp [flashRows,found]
      rw [rows]
      refine ⟨rfl,rfl,⟨?_,?_⟩,p,rfl,rows⟩
      · intro cause
        cases cause
      · rintro ⟨b,absent,_⟩
        cases absent
  | some b =>
      have rows : flashRows p = b.rows := by simp [flashRows,found]
      have restored := restoreAll_putBack enabled b.rows tidy rfl writable
      dsimp only
      rw [restored,rows]
      have group := group_overrides {store := {enabled with overrides := b.rows.foldl putBack []}} rfl rfl
      cases open_ : b.trialOpen with
      | false =>
          simp only [Bool.not_false,if_true]
          refine ⟨group,group,⟨?_,?_⟩,p,rfl,rows⟩
          · intro cause
            cases cause
          · rintro ⟨other,same,opened⟩
            cases same
            rw [open_] at opened
            cases opened
      | true =>
          simp only [Bool.not_true,Bool.false_eq_true,if_false]
          refine ⟨group,group,⟨fun _ => ⟨b,rfl,open_⟩,fun _ => trivial⟩,(PhyPersist.markTrial p false).2,rfl,?_⟩
          rw [markTrial_rows p false usable,rows]

-- The six rows of a group, each with the value it runs at.
theorem group_rows (s : Store BlobStore) (table : s.table = nodeCommonParams) : s.group = phyIds.map fun id => (id,s.effective id) := by
  unfold Store.group Store.phyRows
  rw [table]
  rfl

theorem putBack_settled (rows : List (UInt16 × Value)) (overrides : List Override)
    (settled : ∀ row ∈ rows, isPhy row.1 = true ∧ ∃ d, nodeCommonParams.row row.1 = some d ∧ Settled d row.2) :
    rows.foldl putBack overrides = rows.foldl (fun overrides row => setValue overrides row.1 row.2) overrides := by
  induction rows generalizing overrides with
  | nil => rfl
  | cons row rest ih =>
      obtain ⟨phy,d,found,inside,allowed⟩ := settled row List.mem_cons_self
      have first : putBack overrides row = setValue overrides row.1 row.2 := by
        unfold putBack
        rw [if_pos phy,found]
        dsimp only
        rw [inside,if_pos allowed]
      rw [List.foldl_cons,List.foldl_cons,first]
      exact ih _ fun other member => settled other (List.mem_cons_of_mem row member)

-- A group that was saved is the group a boot puts back.
theorem saved_group (s : Store BlobStore) (table : s.table = nodeCommonParams) (overrides : List Override) :
    overridesGroup (s.group.foldl (fun overrides row => setValue overrides row.1 row.2) overrides) = PhyGroup.of s.effective := by
  have rows := group_rows s table
  have distinct : (s.group.map Prod.fst).Nodup := by
    rw [rows,List.map_map]
    exact (by decide : phyIds.Nodup)
  let put : Store BlobStore :=
    {table := nodeCommonParams,overrides := s.group.foldl (fun overrides row => setValue overrides row.1 row.2) overrides}
  have at_ : ∀ id ∈ phyIds, put.effective id = s.effective id := by
    intro id member
    obtain ⟨d,found,_⟩ := phy_row id (List.contains_iff_mem.mpr member)
    have present : (s.group.find? fun row => row.1 == id) = some (id,s.effective id) := by
      rw [rows]
      simp only [phyIds,List.mem_cons,List.not_mem_nil,or_false] at member
      rcases member with rfl | rfl | rfl | rfl | rfl | rfl <;> rfl
    rw [put.effective_row id d found,valueAt_setAll _ _ _ distinct,present]
    rfl
  change PhyGroup.of put.effective = PhyGroup.of s.effective
  unfold PhyGroup.of
  rw [at_ 0x0110 (by decide),at_ 0x0111 (by decide),at_ 0x0112 (by decide),at_ 0x0113 (by decide),at_ 0x0114 (by decide),at_ 0x0115 (by decide)]

theorem bootGroup_saved (s : Store BlobStore) (tidy : s.Tidy) (table : s.table = nodeCommonParams) : bootGroup s.group = PhyGroup.of s.effective := by
  unfold bootGroup
  rw [putBack_settled,saved_group s table]
  intro row member
  have settled := tidy.group_takes row member
  rw [group_rows s table] at member
  obtain ⟨id,inside,rfl⟩ := List.mem_map.mp member
  obtain ⟨d,found,_,kept⟩ := settled
  exact ⟨List.contains_iff_mem.mpr inside,d,by rw [← table]; exact found,kept⟩

-- Runs.

inductive Call where
  | set (entry : ConfigEntry)
  | onSet (slot : Nat) (accepted : Bool) (members : UInt8) (nowMs : UInt32)
  | retuned (nowMs : UInt32)
  | authenticated
  | tick (nowMs : UInt32)
  | reset
  | reboot

-- The machine, and every group an authenticated frame confirmed. No step reads the latter.
structure Flash where
  phy : PhyTrial
  confirmed : List (List (UInt16 × Value)) := []

def step (f : Flash) : Call → Flash
  | .set entry => {f with phy := (f.phy.set entry).2}
  | .onSet slot accepted members nowMs => {f with phy := f.phy.onSet slot accepted members nowMs}
  | .retuned nowMs => {f with phy := f.phy.onRetuned nowMs}
  | .authenticated =>
      {phy := f.phy.onAuthenticated,confirmed := if f.phy.state = .trial then f.confirmed ++ [f.phy.store.group] else f.confirmed}
  | .tick nowMs => {f with phy := (f.phy.tick nowMs).2}
  | .reset => {f with phy := f.phy.resetToDefaults.2}
  | .reboot => {f with phy := (PhyTrial.boot f.phy.store.persist).2}

def start (p : BlobStore) : Flash := {phy := (PhyTrial.boot (some p)).2}

-- set() is given PHY entries only, and an erase succeeds. Any write may fail.
def Calls (f : Flash) : Call → Prop
  | .set entry => isPhy entry.paramId = true
  | .reset => ∀ p, f.phy.store.persist = some p → p.failing p.writes = false
  | _ => True

-- The bytes hold the committed group, and no group that was not confirmed.
structure Mirrored (initial : List (UInt16 × Value)) (f : Flash) : Prop where
  grounded : f.phy.Grounded
  mirrored : ∀ p, f.phy.store.persist = some p → f.phy.committed = bootGroup (flashRows p)
  confirmed : ∀ p, f.phy.store.persist = some p → flashRows p = initial ∨ flashRows p = [] ∨ flashRows p ∈ f.confirmed

-- A call that leaves the rows and the committed group alone.
theorem mirrored_moved {initial : List (UInt16 × Value)} {f : Flash} (mirror : Mirrored initial f) (t : PhyTrial) (grounded : t.Grounded)
    (committed : t.committed = f.phy.committed)
    (rows : ∀ q, t.store.persist = some q → ∃ p, f.phy.store.persist = some p ∧ flashRows q = flashRows p) : Mirrored initial {f with phy := t} := by
  refine ⟨grounded,?_,?_⟩
  · intro q here
    obtain ⟨p,was,same⟩ := rows q here
    change t.committed = _
    rw [committed,same]
    exact mirror.mirrored p was
  · intro q here
    obtain ⟨p,was,same⟩ := rows q here
    rw [same]
    exact mirror.confirmed p was

theorem marked_rows (t : PhyTrial) (usable : t.writable = true) (marked : Bool) (q : BlobStore)
    (here : (t.withPersist (PhyPersist.markTrial · marked)).store.persist = some q) : ∃ p, t.store.persist = some p ∧ flashRows q = flashRows p := by
  obtain ⟨p,was,ready⟩ := usable_some t usable
  unfold PhyTrial.withPersist at here
  rw [was] at here
  cases here
  exact ⟨p,was,markTrial_rows p marked ready⟩

-- A save that failed leaves the rows.
theorem kept_rows (t : PhyTrial) (usable : t.writable = true) (persist : Option BlobStore)
    (kept : persist = t.store.persist ∨ ∃ p, t.store.persist = some p ∧ (PhyPersist.saveGroup p t.store.group).1 = false ∧
      persist = some (PhyPersist.saveGroup p t.store.group).2) (q : BlobStore) (there : persist = some q) :
    ∃ p, t.store.persist = some p ∧ flashRows q = flashRows p := by
  obtain ⟨p,here,ready⟩ := usable_some t usable
  rcases kept with same | ⟨r,was,failed,same⟩
  · exact ⟨q,same.symm.trans there,rfl⟩
  · rw [here] at was
    cases was
    rw [there] at same
    cases same
    rcases saveGroup_rows p t.store.group ready with ⟨saved,_⟩ | ⟨_,rows⟩
    · rw [failed] at saved
      cases saved
    · exact ⟨p,here,rows⟩

-- Rows that are gone are at their defaults.
theorem forgotten_group (s : Store BlobStore) (table : s.table = nodeCommonParams) : overridesGroup s.forgetPhyGroup.overrides = bootGroup [] := by
  have none_ : ∀ id ∈ phyIds, valueAt s.forgetPhyGroup.overrides id = none := by
    intro id member
    obtain ⟨d,found,access⟩ := phy_row id (List.contains_iff_mem.mpr member)
    rw [valueAt,List.find?_eq_none]
    intro o inside
    have kept := (List.mem_filter.mp inside).2
    intro same
    have equal : o.id = id := by simpa using same
    rw [Store.isPhy,table,equal,found] at kept
    simp [access] at kept
  let left : Store BlobStore := {table := nodeCommonParams,overrides := s.forgetPhyGroup.overrides}
  have at_ : ∀ id ∈ phyIds, left.effective id = Store.effective ({table := nodeCommonParams} : Store BlobStore) id := by
    intro id member
    obtain ⟨d,found,_⟩ := phy_row id (List.contains_iff_mem.mpr member)
    rw [left.effective_row id d found,none_ id member,Store.effective_row _ id d found]
    rfl
  change PhyGroup.of left.effective = PhyGroup.of (Store.effective ({table := nodeCommonParams} : Store BlobStore))
  unfold PhyGroup.of
  rw [at_ 0x0110 (by decide),at_ 0x0111 (by decide),at_ 0x0112 (by decide),at_ 0x0113 (by decide),at_ 0x0114 (by decide),at_ 0x0115 (by decide)]

theorem authenticated_mirrored {initial : List (UInt16 × Value)} {f : Flash} (mirror : Mirrored initial f) : Mirrored initial (step f .authenticated) := by
  obtain ⟨p,here,usable⟩ := usable_some f.phy mirror.grounded.usable
  have grounded := onAuthenticated_grounded mirror.grounded
  -- the groups confirmed so far only grow
  have grown : ∀ rows, rows = initial ∨ rows = [] ∨ rows ∈ f.confirmed → rows = initial ∨ rows = [] ∨ rows ∈ (step f .authenticated).confirmed := by
    rintro rows (same | none_ | member)
    · exact .inl same
    · exact .inr (.inl none_)
    · refine .inr (.inr ?_)
      change rows ∈ if f.phy.state = .trial then f.confirmed ++ [f.phy.store.group] else f.confirmed
      split
      · exact List.mem_append_left _ member
      · exact member
  refine ⟨grounded,?_,?_⟩
  · intro q there
    change f.phy.onAuthenticated.committed = _
    change f.phy.onAuthenticated.store.persist = some q at there
    rcases PhyTrial.onAuthenticated_cases mirror.grounded with ⟨_,same⟩ | ⟨_,persist,same,kept⟩ | ⟨_,empty,same⟩ | ⟨_,r,store,was,saved,held,same⟩
    · rw [same] at there ⊢
      exact mirror.mirrored q there
    · rw [same] at there ⊢
      obtain ⟨r,was,rows⟩ := kept_rows f.phy mirror.grounded.usable persist kept q there
      rw [rows]
      exact mirror.mirrored r was
    · rw [same] at there ⊢
      change f.phy.group = _
      rw [group_settled f.phy empty,← mirror.grounded.committed]
      exact mirror.mirrored q there
    · rw [same] at there ⊢
      rw [here] at was
      cases was
      subst held
      cases there
      have rows : flashRows (PhyPersist.saveGroup p f.phy.store.group).2 = f.phy.store.group := by
        rcases saveGroup_rows p f.phy.store.group usable with ⟨_,rows⟩ | ⟨failed,_⟩
        · exact rows
        · rw [saved] at failed
          cases failed
      rw [rows,bootGroup_saved f.phy.store mirror.grounded.tidy mirror.grounded.table]
      have kept := saved_group f.phy.store mirror.grounded.table f.phy.store.overrides
      rw [← kept]
      unfold overridesGroup
      rw [← mirror.grounded.table]
      rfl
  · intro q there
    change f.phy.onAuthenticated.store.persist = some q at there
    rcases PhyTrial.onAuthenticated_cases mirror.grounded with ⟨_,same⟩ | ⟨_,persist,same,kept⟩ | ⟨_,empty,same⟩ | ⟨trial,r,store,was,saved,held,same⟩
    · rw [same] at there
      exact grown _ (mirror.confirmed q there)
    · rw [same] at there
      obtain ⟨r,was,rows⟩ := kept_rows f.phy mirror.grounded.usable persist kept q there
      rw [rows]
      exact grown _ (mirror.confirmed r was)
    · rw [same] at there
      exact grown _ (mirror.confirmed q there)
    · rw [same] at there
      rw [here] at was
      cases was
      subst held
      cases there
      rcases saveGroup_rows p f.phy.store.group usable with ⟨_,rows⟩ | ⟨failed,_⟩
      · refine .inr (.inr ?_)
        change flashRows (PhyPersist.saveGroup p f.phy.store.group).2 ∈ if f.phy.state = .trial then f.confirmed ++ [f.phy.store.group] else f.confirmed
        rw [rows,if_pos trial]
        exact List.mem_append_right _ (List.mem_singleton.mpr rfl)
      · rw [saved] at failed
        cases failed

theorem step_mirrored {initial : List (UInt16 × Value)} (f : Flash) (call : Call) (mirror : Mirrored initial f) (allowed : Calls f call) :
    Mirrored initial (step f call) := by
  obtain ⟨p,here,usable⟩ := usable_some f.phy mirror.grounded.usable
  cases call with
  | set entry =>
      obtain ⟨trial,moved⟩ := set_sets mirror.grounded entry allowed
      have grounded := set_grounded mirror.grounded entry allowed
      exact mirrored_moved mirror _ grounded (by rw [moved]) (by rw [moved]; exact fun q same => ⟨q,same,rfl⟩)
  | onSet slot accepted members nowMs =>
      have grounded := onSet_grounded mirror.grounded slot accepted members nowMs
      rcases onSet_cases f.phy slot accepted members nowMs with ⟨_,same⟩ | ⟨_,_,_,_,_,_,_,moved,_⟩
      · exact mirrored_moved mirror _ grounded (by rw [same]) (by rw [same]; exact fun q same => ⟨q,same,rfl⟩)
      · exact mirrored_moved mirror _ grounded (by rw [moved]) (by rw [moved]; exact fun q same => ⟨q,same,rfl⟩)
  | retuned nowMs =>
      have grounded := onRetuned_grounded mirror.grounded nowMs
      change Mirrored initial {f with phy := f.phy.onRetuned nowMs}
      rcases f.phy.onRetuned_cases nowMs with ⟨_,moved⟩ | ⟨_,moved⟩
      · rw [moved] at grounded ⊢
        exact mirrored_moved mirror _ grounded rfl fun q same => ⟨q,same,rfl⟩
      · rw [moved] at grounded ⊢
        exact mirrored_moved mirror _ grounded rfl fun q there => marked_rows _ mirror.grounded.usable true q there
  | authenticated => exact authenticated_mirrored mirror
  | tick nowMs =>
      have grounded := tick_grounded mirror.grounded nowMs
      change Mirrored initial {f with phy := (f.phy.tick nowMs).2}
      rcases f.phy.tick_cases nowMs with ⟨_,_,moved⟩ | same | ⟨_,moved⟩
      · rw [moved] at grounded ⊢
        exact mirrored_moved mirror _ grounded rfl fun q same => ⟨q,same,rfl⟩
      · rw [same]
        exact mirror
      · rw [moved] at grounded ⊢
        refine mirrored_moved mirror _ grounded rfl fun q there => ?_
        exact marked_rows {f.phy with store := f.phy.store.revertPhyTrial} mirror.grounded.usable false q there
  | reset =>
      have grounded := reset_grounded mirror.grounded
      have erased := erase_rows p usable (allowed p here)
      change Mirrored initial {f with phy := f.phy.resetToDefaults.2}
      obtain ⟨r,store,was,_,held,same⟩ := PhyTrial.reset_eq mirror.grounded
      rw [here] at was
      cases was
      rw [same] at grounded ⊢
      subst held
      refine ⟨grounded,?_,?_⟩
      · intro q there
        cases there
        rw [erased,← forgotten_group f.phy.store mirror.grounded.table]
        unfold overridesGroup
        rw [← mirror.grounded.table]
        rfl
      · intro q there
        cases there
        exact .inr (.inl erased)
  | reboot =>
      change Mirrored initial {f with phy := (PhyTrial.boot f.phy.store.persist).2}
      rw [here]
      obtain ⟨_,committed,_,q,there,rows⟩ := boot_group p usable
      refine ⟨(boot_grounded p usable).1,?_,?_⟩
      · intro r same
        change (PhyTrial.boot (some p)).2.store.persist = some r at same
        rw [there] at same
        cases same
        change (PhyTrial.boot (some p)).2.committed = _
        rw [committed,rows]
      · intro r same
        change (PhyTrial.boot (some p)).2.store.persist = some r at same
        rw [there] at same
        cases same
        rw [rows]
        exact mirror.confirmed p here

theorem start_mirrored (p : BlobStore) (usable : p.usable = true) : Mirrored (flashRows p) (start p) := by
  obtain ⟨_,committed,_,q,there,rows⟩ := boot_group p usable
  refine ⟨(boot_grounded p usable).1,?_,?_⟩
  · intro r same
    change (PhyTrial.boot (some p)).2.store.persist = some r at same
    rw [there] at same
    cases same
    change (PhyTrial.boot (some p)).2.committed = _
    rw [committed,rows]
  · intro r same
    change (PhyTrial.boot (some p)).2.store.persist = some r at same
    rw [there] at same
    cases same
    exact .inl rows

-- Whenever the board restarts it comes back on the group it had committed, reports a trial the marker left open, and never finds a
-- group that no authenticated frame had confirmed.
theorem restart_returns_committed (p : BlobStore) (usable : p.usable = true) (f : Flash) (reached : Reached step Calls (start p) f)
    (q : BlobStore) (here : f.phy.store.persist = some q) :
    (PhyTrial.boot (some q)).2.group = f.phy.committed ∧
      ((PhyTrial.boot (some q)).1 = .reboot ↔ ∃ b, PhyPersist.read q = some b ∧ b.trialOpen = true) ∧
      (flashRows q = flashRows p ∨ flashRows q = [] ∨ flashRows q ∈ f.confirmed) := by
  have mirror := reached.invariant (Mirrored (flashRows p)) (start_mirrored p usable) fun f call mirror allowed => step_mirrored f call mirror allowed
  obtain ⟨r,there,ready⟩ := usable_some f.phy mirror.grounded.usable
  rw [here] at there
  cases there
  obtain ⟨group,_,cause,_⟩ := boot_group q ready
  exact ⟨group.trans (mirror.mirrored q here).symm,cause,mirror.confirmed q here⟩

-- A trial is open when the power goes.
def openTrial : List Call := [.set (spreadingFactor 7),.onSet 0 true 1 0,.retuned 10]

theorem restart_in_trial_returns_committed :
    ∃ f q, Reached step Calls (start {}) f ∧ f.phy.store.persist = some q ∧ f.phy.group ≠ f.phy.committed ∧
      (PhyTrial.boot (some q)).2.group = f.phy.committed ∧ (PhyTrial.boot (some q)).1 = .reboot := by
  have run : Follows step Calls (start {}) openTrial :=
    ⟨show isPhy (spreadingFactor 7).paramId = true by decide,trivial,trivial,trivial⟩
  let f := openTrial.foldl step (start {})
  have grounded := (run.reached.invariant (Mirrored (flashRows {})) (start_mirrored {} rfl) fun f call mirror allowed =>
    step_mirrored f call mirror allowed).grounded
  obtain ⟨q,here,_⟩ := usable_some f.phy grounded.usable
  obtain ⟨group,cause,_⟩ := restart_returns_committed {} rfl f run.reached q here
  have marked : ((f.phy.store.persist.bind PhyPersist.read).map PhyBlob.trialOpen) = some true := by decide +kernel
  refine ⟨f,q,run.reached,here,by decide +kernel,group,cause.mpr ?_⟩
  rw [here,Option.bind_some] at marked
  obtain ⟨b,read,opened⟩ := Option.map_eq_some_iff.mp marked
  exact ⟨b,read,opened⟩

end LoraRan.Node.PhyFlash
