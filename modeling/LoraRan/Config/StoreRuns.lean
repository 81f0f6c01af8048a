import LoraRan.Config.Overrides
import LoraRan.Library.StepSystem

namespace LoraRan.Config
open Protocol Library.StepSystem

-- The types a row can declare.
def ptypes : List UInt8 := [ptypeU8,ptypeU16,ptypeU32,ptypeI16,ptypeI32,ptypeBool]

-- What table.h asserts of a block of rows.
structure Asserted (rows : Table) : Prop where
  typed : ∀ d ∈ rows, d.type ∈ ptypes
  ascending : rows.Pairwise fun a b => a.id < b.id
  ranges : ∀ d ∈ rows, d.min ≤ d.max ∧ d.min ≤ d.default ∧ d.default ≤ d.max
  ends : ∀ d ∈ rows, valueAllowed d d.min = true ∧ valueAllowed d d.max = true ∧ valueAllowed d d.default = true

def maxBlocks : Nat := 3

-- A table's blocks, in the order they were added.
abbrev Blocks := List Table

def Blocks.size (blocks : Blocks) : Nat := (blocks.map List.length).sum

-- The last row so far comes before the first new one.
def Blocks.follows (blocks : Blocks) (rows : Table) : Bool :=
  match blocks.getLast?.bind List.getLast?,rows.head? with
  | some prev,some first => decide (prev.id < first.id)
  | _,_ => true

def Blocks.addBlock (blocks : Blocks) (rows : Table) : Option Blocks :=
  if rows.length = 0 then none
  else if maxBlocks ≤ blocks.length then none
  else if maxTableParams < blocks.size + rows.length then none
  else if !blocks.follows rows then none
  else some (blocks ++ [rows])

-- The rows one after another are the table the store reads.
def Blocks.table (blocks : Blocks) : Table := blocks.flatten

theorem Blocks.size_table (blocks : Blocks) : blocks.size = blocks.table.length := (List.length_flatten).symm

-- A table add_block() accepted block by block.
inductive Built : Blocks → Prop
  | none : Built []
  | add (blocks next : Blocks) (rows : Table) : Built blocks → Asserted rows → blocks.addBlock rows = some next → Built next

theorem addBlock_parts {blocks next : Blocks} {rows : Table} (accepted : blocks.addBlock rows = some next) :
    rows ≠ [] ∧ blocks.size + rows.length ≤ maxTableParams ∧ blocks.follows rows = true ∧ next = blocks ++ [rows] := by
  unfold Blocks.addBlock at accepted
  split at accepted
  · cases accepted
  · rename_i some_
    split at accepted
    · cases accepted
    · split at accepted
      · cases accepted
      · rename_i fits
        split at accepted
        · cases accepted
        · rename_i ordered
          refine ⟨fun empty => some_ (by rw [empty]; rfl),by omega,by simpa using ordered,?_⟩
          exact (Option.some.inj accepted).symm

-- Every row of the blocks is below the first row that may follow them.
def LastHighest (blocks : Blocks) : Prop := ∀ last, blocks.getLast?.bind List.getLast? = some last → ∀ d ∈ blocks.table, d.id ≤ last.id

theorem ascending_last {rows : Table} (ascending : rows.Pairwise fun a b => a.id < b.id) (last : ParamDef)
    (ends : rows.getLast? = some last) : ∀ d ∈ rows, d.id ≤ last.id := by
  obtain ⟨before,rfl⟩ := List.getLast?_eq_some_iff.mp ends
  intro d member
  rcases List.mem_append.mp member with inside | final
  · have below := (List.pairwise_append.mp ascending).2.2 d inside last (by simp)
    exact UInt16.le_of_lt below
  · rw [List.mem_singleton.mp final]
    exact UInt16.le_refl _

theorem Built.rows {blocks : Blocks} (built : Built blocks) :
    Asserted blocks.table ∧ LastHighest blocks ∧ blocks.table.length ≤ maxTableParams ∧ ∀ rows ∈ blocks, rows ≠ [] := by
  induction built with
  | none =>
      refine ⟨⟨?_,List.Pairwise.nil,?_,?_⟩,?_,by decide,?_⟩
      · exact fun d member => absurd member List.not_mem_nil
      · exact fun d member => absurd member List.not_mem_nil
      · exact fun d member => absurd member List.not_mem_nil
      · exact fun last _ d member => absurd member List.not_mem_nil
      · exact fun rows member => absurd member List.not_mem_nil
  | add blocks next rows built asserted accepted ih =>
      obtain ⟨some_,fits,ordered,rfl⟩ := addBlock_parts accepted
      obtain ⟨before,highest,_,filled⟩ := ih
      have joined : Blocks.table (blocks ++ [rows]) = blocks.table ++ rows := by simp [Blocks.table]
      have either : ∀ {P : ParamDef → Prop}, (∀ d ∈ blocks.table, P d) → (∀ d ∈ rows, P d) → ∀ d ∈ Blocks.table (blocks ++ [rows]), P d := by
        intro P old new d member
        rw [joined] at member
        rcases List.mem_append.mp member with first | second
        · exact old d first
        · exact new d second
      have apart : ∀ a ∈ blocks.table, ∀ b ∈ rows, a.id < b.id := by
        intro a earlier b later
        cases final : blocks.getLast?.bind List.getLast? with
        | none =>
            exfalso
            cases ending : blocks.getLast? with
            | none =>
                rw [List.getLast?_eq_none_iff] at ending
                rw [ending] at earlier
                cases earlier
            | some block =>
                rw [ending] at final
                exact filled block (List.mem_of_getLast? ending) (List.getLast?_eq_none_iff.mp final)
        | some prev =>
            obtain ⟨first,rest,rfl⟩ := List.exists_cons_of_ne_nil some_
            unfold Blocks.follows at ordered
            simp only [final,List.head?_cons,decide_eq_true_eq] at ordered
            have below := highest prev final a earlier
            have start : first.id ≤ b.id := by
              rcases List.mem_cons.mp later with rfl | inside
              · exact UInt16.le_refl _
              · exact UInt16.le_of_lt ((List.pairwise_cons.mp asserted.ascending).1 b inside)
            rw [UInt16.lt_iff_toNat_lt] at *
            rw [UInt16.le_iff_toNat_le] at *
            omega
      refine ⟨⟨either before.typed asserted.typed,?_,either before.ranges asserted.ranges,either before.ends asserted.ends⟩,?_,?_,?_⟩
      · rw [joined,List.pairwise_append]
        exact ⟨before.ascending,asserted.ascending,apart⟩
      · intro last final
        have final' : rows.getLast? = some last := by simpa using final
        have inside := ascending_last asserted.ascending last final'
        refine either (fun d member => ?_) inside
        exact UInt16.le_of_lt (apart d member last (List.mem_of_getLast? final'))
      · rw [joined,List.length_append,← blocks.size_table]
        exact fits
      · intro block member
        rcases List.mem_append.mp member with old | new
        · exact filled block old
        · rw [List.mem_singleton.mp new]
          exact some_

theorem ptype_width_of_typed {t : UInt8} (typed : t ∈ ptypes) : ptypeWidth t ≠ 0 := by
  unfold ptypes at typed
  simp only [List.mem_cons,List.not_mem_nil,or_false] at typed
  rcases typed with rfl | rfl | rfl | rfl | rfl | rfl <;> decide

theorem clamp_inside (d : ParamDef) (v : Value) (low : d.min ≤ v) (high : v ≤ d.max) : clamp v d = v := by
  unfold clamp
  rw [Int32.le_iff_toInt_le] at low high
  rw [if_neg (by rw [Int32.lt_iff_toInt_lt]; omega),if_neg (by rw [Int32.lt_iff_toInt_lt]; omega)]

theorem Built.sound {blocks : Blocks} (built : Built blocks)
    (phy : (blocks.table.filter fun d => d.access = .phy).length ≤ phyGroupSize) : blocks.table.Sound where
  distinct := by
    rw [List.nodup_iff_pairwise_ne,List.pairwise_map]
    refine built.rows.1.ascending.imp ?_
    intro a b below same
    rw [same] at below
    exact UInt16.lt_irrefl _ below
  typed := fun d member => ptype_width_of_typed (built.rows.1.typed d member)
  ranges := fun d member => (built.rows.1.ranges d member).1
  defaults := fun d member =>
    ⟨clamp_inside d _ (built.rows.1.ranges d member).2.1 (built.rows.1.ranges d member).2.2,(built.rows.1.ends d member).2.2⟩
  small := built.rows.2.2.1
  phy := phy

section
variable {π : Type} (ops : Persist π)

-- A row apply() may write, in this store.
def Store.Writable (s : Store π) (d : ParamDef) : Prop := d.access = .readWrite ∨ d.access = .phy ∧ s.phyWritable ops = true

instance writableDecidable (s : Store π) (d : ParamDef) : Decidable (s.Writable ops d) := inferInstanceAs (Decidable (_ ∨ _ ∧ _))

theorem Store.writable_iff (s : Store π) (d : ParamDef) :
    ¬ (d.access = .readOnly ∨ d.access = .phy ∧ (!s.phyWritable ops) = true) ↔ s.Writable ops d := by
  unfold Store.Writable
  cases d.access with
  | readWrite => simp
  | readOnly => simp
  | phy => simp

-- The write of one value: whether it was kept, and the store's nonvolatile side after it.
def Store.saving (s : Store π) (id : UInt16) (v : Value) : Bool × Option π :=
  match s.persist with
  | none => (false,none)
  | some p => if ops.usable p then ((ops.save p id v).1,some (ops.save p id v).2) else (false,some p)

-- Everything apply() can do with an entry.
inductive ApplyCase (s : Store π) (e : ConfigEntry) : Applied π → Prop
  | unknown (missing : s.table.row e.paramId = none) :
      ApplyCase s e {result := {paramId := e.paramId,status := ParamStatus.unknownParam.code,ptype := e.ptype,len := 0},store := s}
  | mismatched (d : ParamDef) (found : s.table.row e.paramId = some d) (unlike : ¬ Shaped d e) :
      ApplyCase s e {result := s.held d .typeMismatch,store := s}
  | refused (d : ParamDef) (found : s.table.row e.paramId = some d) (shaped : Shaped d e) (closed : ¬ s.Writable ops d) :
      ApplyCase s e {result := s.held d .readOnly,store := s}
  | off (d : ParamDef) (found : s.table.row e.paramId = some d) (shaped : Shaped d e) (writable : s.Writable ops d)
      (unlisted : valueAllowed d (clamp (ConfigEntry.asked e) d) = false) : ApplyCase s e {result := s.held d .invalidValue,store := s}
  | tried (d : ParamDef) (found : s.table.row e.paramId = some d) (shaped : Shaped d e) (writable : s.Writable ops d)
      (listed : valueAllowed d (clamp (ConfigEntry.asked e) d) = true) (phy : d.access = .phy) :
      ApplyCase s e
        {result :=
          {ConfigAckEntry.pack {} d.id (if clamp (ConfigEntry.asked e) d = ConfigEntry.asked e then .ok else .clamped) d.type
            (rawBits (clamp (ConfigEntry.asked e) d) d.type) with isOverride := true}
         applied := true
         persisted := false
         store := {s with trial := setValue s.trial d.id (clamp (ConfigEntry.asked e) d)}}
  | kept (d : ParamDef) (found : s.table.row e.paramId = some d) (shaped : Shaped d e) (plain : d.access = .readWrite)
      (listed : valueAllowed d (clamp (ConfigEntry.asked e) d) = true) :
      ApplyCase s e
        {result :=
          {ConfigAckEntry.pack {} d.id (if clamp (ConfigEntry.asked e) d = ConfigEntry.asked e then .ok else .clamped) d.type
            (rawBits (clamp (ConfigEntry.asked e) d) d.type) with isOverride := true}
         applied := true
         persisted := (s.saving ops d.id (clamp (ConfigEntry.asked e) d)).1
         store :=
          {s with
            overrides := setValue s.overrides d.id (clamp (ConfigEntry.asked e) d)
            persist := (s.saving ops d.id (clamp (ConfigEntry.asked e) d)).2}}

theorem Store.apply_case {s : Store π} (tidy : s.Tidy) (e : ConfigEntry) : ApplyCase ops s e (s.apply ops e) := by
  unfold Store.apply
  cases found : s.table.row e.paramId with
  | none => exact .unknown found
  | some d =>
      dsimp only
      split
      · rename_i unlike
        exact .mismatched d found (not_and_or.mpr unlike)
      · rename_i like
        have shaped : Shaped d e := by
          rw [← not_and_or,not_not] at like
          exact like
        split
        · rename_i closed
          exact .refused d found shaped fun writable => (s.writable_iff ops d).mpr writable closed
        · rename_i open_
          have writable := (s.writable_iff ops d).mp open_
          split
          · rename_i unlisted
            exact .off d found shaped writable (by simpa [ConfigEntry.asked] using unlisted)
          · rename_i listed
            have listed' : valueAllowed d (clamp (ConfigEntry.asked e) d) = true := by simpa [ConfigEntry.asked] using listed
            split
            · rename_i phy
              exact .tried d found shaped writable listed' phy
            · rename_i notPhy
              have plain : d.access = .readWrite := writable.resolve_right fun both => notPhy both.1
              obtain ⟨member,same⟩ := row_mem s.table _ d found
              have settled := clamp_settled (ConfigEntry.asked e) d (tidy.sound.ranges d member) listed'
              have set := (tidy.setOverride d.id d _ (by rw [same]; exact found) (by rw [plain]; decide) settled).1
              simp only [ConfigEntry.asked] at set
              rw [set]
              have kept : ApplyCase ops s e _ := .kept d found shaped plain listed'
              unfold Store.saving at kept
              dsimp only
              cases storage : s.persist with
              | none =>
                  rw [storage] at kept
                  exact kept
              | some p =>
                  rw [storage] at kept
                  dsimp only at kept ⊢
                  cases up : ops.usable p with
                  | true =>
                      rw [up] at kept
                      exact kept
                  | false =>
                      rw [up] at kept
                      exact kept

-- One operation on a store. Between two of them the storage may change by itself.
inductive StoreOp (π : Type) where
  | apply (e : ConfigEntry)
  | restore (id : UInt16) (v : Value)
  | commitPhyTrial
  | revertPhyTrial
  | restoreDefaults
  | forgetPhyGroup
  | enablePhyTrial
  | storage (p : π)

def Store.step (s : Store π) : StoreOp π → Store π
  | .apply e => (s.apply ops e).store
  | .restore id v => (s.restore ops id v).2
  | .commitPhyTrial => (s.commitPhyTrial ops).2
  | .revertPhyTrial => s.revertPhyTrial
  | .restoreDefaults => (s.restoreDefaults ops).2
  | .forgetPhyGroup => s.forgetPhyGroup
  | .enablePhyTrial => {s with phyTrialEnabled := true}
  | .storage p => {s with persist := s.persist.map fun _ => p}

def Store.fresh (t : Table) (persist : Option π) : Store π := {table := t,persist := persist}

theorem Store.fresh_tidy (t : Table) (sound : t.Sound) (persist : Option π) : (Store.fresh t persist).Tidy :=
  ⟨sound,List.nodup_nil,fun _ member => absurd member List.not_mem_nil,List.nodup_nil,fun _ member => absurd member List.not_mem_nil⟩

theorem Store.Tidy.applied {s : Store π} (tidy : s.Tidy) (e : ConfigEntry) : (s.apply ops e).store.Tidy := by
  have possible := s.apply_case ops tidy e
  generalize s.apply ops e = a at possible ⊢
  cases possible with
  | unknown => exact tidy
  | mismatched => exact tidy
  | refused => exact tidy
  | off => exact tidy
  | tried d found shaped writable listed phy =>
      obtain ⟨member,same⟩ := row_mem s.table _ d found
      exact tidy.setTrial d.id d _ (by rw [same]; exact found) phy (clamp_settled _ d (tidy.sound.ranges d member) listed)
  | kept d found shaped plain listed =>
      obtain ⟨member,same⟩ := row_mem s.table _ d found
      have settled := clamp_settled (ConfigEntry.asked e) d (tidy.sound.ranges d member) listed
      exact (tidy.setOverride d.id d _ (by rw [same]; exact found) (by rw [plain]; decide) settled).2.persisted _

theorem isPhy_row {s : Store π} {id : UInt16} {d : ParamDef} (found : s.table.row id = some d) : s.isPhy id = true ↔ d.access = .phy := by
  simp [Store.isPhy,found]

-- Values of different rows of one kind are no more than the rows of that kind.
theorem rows_bounded (t : Table) (kind : ParamDef → Bool) (values : List Override) (distinct : (values.map Override.id).Nodup)
    (held : ∀ o ∈ values, ∃ d, t.row o.id = some d ∧ kind d = true) : values.length ≤ (t.filter kind).length := by
  have inside : values.map Override.id ⊆ (t.filter kind).map ParamDef.id := by
    intro id member
    obtain ⟨o,held_,rfl⟩ := List.mem_map.mp member
    obtain ⟨d,found,ofKind⟩ := held o held_
    obtain ⟨rowMember,same⟩ := row_mem t _ d found
    exact List.mem_map.mpr ⟨d,List.mem_filter.mpr ⟨rowMember,ofKind⟩,same⟩
  have bounded := (List.subperm_of_subset distinct inside).length_le
  rw [List.length_map,List.length_map] at bounded
  exact bounded

-- The PHY rows' overrides are no more than the group, so restore_defaults() keeps them all.
theorem Store.Tidy.phy_kept {s : Store π} (tidy : s.Tidy) :
    (s.overrides.filter fun o => s.isPhy o.id).take phyGroupSize = s.overrides.filter fun o => s.isPhy o.id := by
  refine List.take_of_length_le ?_
  have distinct : ((s.overrides.filter fun o => s.isPhy o.id).map Override.id).Nodup :=
    tidy.distinct.sublist (List.filter_sublist.map Override.id)
  refine (rows_bounded s.table (fun d => d.access = .phy) _ distinct ?_).trans tidy.sound.phy
  intro o kept
  obtain ⟨overriding,phy⟩ := List.mem_filter.mp kept
  obtain ⟨d,found,_⟩ := tidy.held o overriding
  exact ⟨d,found,by simpa using (isPhy_row found).mp phy⟩

-- What restore_defaults() leaves, and what became of the storage.
theorem Store.Tidy.restoreDefaults {s : Store π} (tidy : s.Tidy) :
    ∃ persist, (s.restoreDefaults ops).2 = {s with overrides := s.overrides.filter fun o => s.isPhy o.id,persist := persist} ∧
      ((s.restoreDefaults ops).1 = true ∧
          (∃ p, s.persist = some p ∧ ops.usable p = true ∧ (ops.clearAll p).1 = true ∧ persist = some (ops.clearAll p).2) ∨
        (s.restoreDefaults ops).1 = false ∧
          ((∃ p, s.persist = some p ∧ ops.usable p = true ∧ (ops.clearAll p).1 = false ∧ persist = some (ops.clearAll p).2) ∨
            s.usable ops = false ∧ persist = s.persist)) := by
  unfold Store.restoreDefaults Store.usable
  dsimp only
  rw [tidy.phy_kept]
  cases storage : s.persist with
  | none => exact ⟨none,rfl,.inr ⟨rfl,.inr ⟨rfl,rfl⟩⟩⟩
  | some p =>
      dsimp only
      cases up : ops.usable p with
      | false => exact ⟨some p,rfl,.inr ⟨rfl,.inr ⟨by simpa using up,rfl⟩⟩⟩
      | true =>
          simp only [Bool.not_true,Bool.false_eq_true,if_false]
          refine ⟨some (ops.clearAll p).2,rfl,?_⟩
          cases cleared : (ops.clearAll p).1 with
          | true => exact .inl ⟨rfl,p,rfl,up,cleared,rfl⟩
          | false => exact .inr ⟨rfl,.inl ⟨p,rfl,up,cleared,rfl⟩⟩

theorem Store.Tidy.filtered {s : Store π} (tidy : s.Tidy) (keep : Override → Bool) (persist : Option π) :
    Store.Tidy {s with overrides := s.overrides.filter keep,persist := persist} :=
  ⟨tidy.sound,tidy.distinct.sublist (List.filter_sublist.map Override.id),fun o member => tidy.held o (List.mem_of_mem_filter member),
    tidy.trialDistinct,tidy.trialHeld⟩

theorem Store.step_tidy {s : Store π} (tidy : s.Tidy) (op : StoreOp π) : (s.step ops op).Tidy := by
  cases op with
  | apply e => exact tidy.applied ops e
  | restore id v => exact tidy.restored ops id v
  | commitPhyTrial => exact tidy.committed ops
  | revertPhyTrial => exact tidy.revert
  | restoreDefaults =>
      obtain ⟨persist,same,_⟩ := tidy.restoreDefaults ops
      change (s.restoreDefaults ops).2.Tidy
      rw [same]
      exact tidy.filtered _ persist
  | forgetPhyGroup => exact tidy.forgotten
  | enablePhyTrial => exact ⟨tidy.sound,tidy.distinct,tidy.held,tidy.trialDistinct,tidy.trialHeld⟩
  | storage p => exact tidy.persisted _

theorem Store.step_table {s : Store π} (tidy : s.Tidy) (op : StoreOp π) : (s.step ops op).table = s.table := by
  cases op with
  | apply e =>
      have possible := s.apply_case ops tidy e
      change (s.apply ops e).store.table = s.table
      generalize s.apply ops e = a at possible ⊢
      cases possible with
      | unknown => rfl
      | mismatched => rfl
      | refused => rfl
      | off => rfl
      | tried => rfl
      | kept => rfl
  | restore id v =>
      change (s.restore ops id v).2.table = s.table
      rcases tidy.restore ops id v with same | ⟨d,_,_,_,same⟩
      · rw [same]
      · rw [same]
  | commitPhyTrial =>
      change (s.commitPhyTrial ops).2.table = s.table
      rcases tidy.commit ops with ⟨_,_,same⟩ | ⟨persist,_,same,_⟩ | ⟨p,_,_,_,same⟩
      · rw [same]
      · rw [same]
      · rw [same]
  | revertPhyTrial => rfl
  | restoreDefaults =>
      obtain ⟨persist,same,_⟩ := tidy.restoreDefaults ops
      change (s.restoreDefaults ops).2.table = s.table
      rw [same]
  | forgetPhyGroup => rfl
  | enablePhyTrial => rfl
  | storage p => rfl

-- A store any sequence of operations has left, over a table built of blocks.
def Operated (blocks : Blocks) (s : Store π) : Prop :=
  Built blocks ∧ (blocks.table.filter fun d => d.access = .phy).length ≤ phyGroupSize ∧
    ∃ persist, Reached (Store.step ops) (fun _ _ => True) (Store.fresh blocks.table persist) s

variable {ops}

theorem Operated.tidy {blocks : Blocks} {s : Store π} (operated : Operated ops blocks s) : s.Tidy ∧ s.table = blocks.table := by
  obtain ⟨built,phy,persist,path⟩ := operated
  refine path.invariant (fun s => s.Tidy ∧ s.table = blocks.table) ⟨Store.fresh_tidy _ (built.sound phy) persist,rfl⟩ ?_
  intro s op inv _
  exact ⟨Store.step_tidy ops inv.1 op,(Store.step_table ops inv.1 op).trans inv.2⟩

end
end LoraRan.Config
