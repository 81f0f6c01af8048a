import LoraRan.Library.JsonText

namespace LoraRan.Library.Json
open LittleEndian (Bytes)
open DecimalText

-- A value is read from its own text: whatever stands behind it, it is read the same.

-- What a number ends at: a blank, or what may stand behind a value.
def Stops (rest : Bytes) : Prop := ∀ b ∈ rest.head?, blank b = true ∨ b = comma ∨ b = 0x7D ∨ b = 0x5D

theorem skip_cons (b : UInt8) (text : Bytes) : skip (b :: text) = if blank b then skip text else b :: text := by
  unfold skip
  rw [List.dropWhile_cons]

theorem skip_pad (pad text : Bytes) (blanks : ∀ b ∈ pad, blank b = true) : skip (pad ++ text) = skip text := by
  induction pad with
  | nil => rfl
  | cons b pad ih =>
      rw [List.cons_append,skip_cons,if_pos (blanks b List.mem_cons_self)]
      exact ih fun c inside => blanks c (List.mem_cons_of_mem b inside)

theorem skip_front (b : UInt8) (text : Bytes) (shown : blank b = false) : skip (b :: text) = b :: text := by
  rw [skip_cons,shown]
  rfl

theorem skip_splits (text : Bytes) : ∃ pad, text = pad ++ skip text ∧ ∀ b ∈ pad, blank b = true := by
  induction text with
  | nil => exact ⟨[],rfl,fun _ inside => by (cases inside)⟩
  | cons b text ih =>
      rw [skip_cons]
      cases is : blank b with
      | false => exact ⟨[],rfl,fun _ inside => by (cases inside)⟩
      | true =>
          obtain ⟨pad,whole,blanks⟩ := ih
          refine ⟨b :: pad,?_,?_⟩
          · rw [if_pos rfl,List.cons_append,← whole]
          · intro c inside
            rcases List.mem_cons.mp inside with rfl | later
            · exact is
            · exact blanks c later

theorem skip_shown (text rest : Bytes) (b : UInt8) (front : skip text = b :: rest) : blank b = false := by
  induction text with
  | nil => cases front
  | cons c text ih =>
      rw [skip_cons] at front
      cases is : blank c with
      | false =>
          rw [is] at front
          rw [← (List.cons_eq_cons.mp front).1]
          exact is
      | true =>
          rw [is,if_pos rfl] at front
          exact ih front

theorem skip_skip (text : Bytes) : skip (skip text) = skip text := by
  cases front : skip text with
  | nil => rfl
  | cons b rest => exact skip_front b rest (skip_shown text rest b front)

-- Text with something shown in it skips to the same place whatever is put behind.
theorem skip_append (text more : Bytes) (shown : skip text ≠ []) : skip (text ++ more) = skip text ++ more := by
  obtain ⟨pad,whole,blanks⟩ := skip_splits text
  cases front : skip text with
  | nil => exact absurd front shown
  | cons b rest =>
      rw [whole,List.append_assoc,skip_pad _ _ blanks,front,List.cons_append,skip_front b _ (skip_shown text rest b front)]

theorem stops_pad (pad rest : Bytes) (blanks : ∀ b ∈ pad, blank b = true) (stops : Stops rest) : Stops (pad ++ rest) := by
  cases pad with
  | nil => exact stops
  | cons c pad =>
      intro b inside
      cases inside
      exact .inl (blanks c List.mem_cons_self)

theorem expect_local (b : UInt8) (text rest : Bytes) (found : expect b text = some rest) :
    ∃ pad, text = pad ++ b :: rest ∧ (∀ c ∈ pad, blank c = true) ∧ blank b = false := by
  obtain ⟨pad,whole,blanks⟩ := skip_splits text
  unfold expect at found
  cases front : skip text with
  | nil =>
      rw [front] at found
      cases found
  | cons c later =>
      rw [front] at found
      dsimp only at found
      split at found
      case isTrue same =>
        cases found
        subst same
        exact ⟨pad,by rw [← front]; exact whole,blanks,skip_shown text _ c front⟩
      case isFalse => cases found

theorem expect_pad (pad : Bytes) (b : UInt8) (rest : Bytes) (blanks : ∀ c ∈ pad, blank c = true) (shown : blank b = false) :
    expect b (pad ++ b :: rest) = some rest := by
  unfold expect
  rw [skip_pad _ _ blanks,skip_front b rest shown]
  exact if_pos rfl

theorem string_local (s : StrState) (text t rest : Bytes) (reads : string s text = some (t,rest)) :
    text = t ++ quote :: rest ∧ ∀ more, string s (t ++ quote :: more) = some (t,more) := by
  induction text generalizing s t with
  | nil => cases reads
  | cons b text ih =>
      rw [string] at reads
      by_cases closes : s = .char .start ∧ b = quote
      · rw [if_pos closes] at reads
        cases reads
        rw [closes.2]
        refine ⟨rfl,fun more => ?_⟩
        rw [List.nil_append,string,if_pos ⟨closes.1,rfl⟩]
      · rw [if_neg closes] at reads
        obtain ⟨next,stepped,later⟩ := Option.bind_eq_some_iff.mp reads
        obtain ⟨⟨u,end_⟩,inner,is⟩ := Option.map_eq_some_iff.mp later
        cases is
        obtain ⟨whole,again⟩ := ih next u inner
        refine ⟨by rw [whole]; rfl,fun more => ?_⟩
        rw [List.cons_append,string,if_neg closes,stepped,Option.bind_some,again more]
        rfl

theorem NumState.stops_step (s : NumState) (b : UInt8) (stops : blank b = true ∨ b = comma ∨ b = 0x7D ∨ b = 0x5D) : s.step b = none := by
  rcases stops with blank_ | ends
  · unfold blank at blank_
    simp only [Bool.or_eq_true,beq_iff_eq] at blank_
    rcases blank_ with ((rfl | rfl) | rfl) | rfl
    · cases s <;> rfl
    · cases s <;> rfl
    · cases s <;> rfl
    · cases s <;> rfl
  · exact NumState.ends_step s b ends

theorem number_local (s : NumState) (text t rest : Bytes) (reads : number s text = some (t,rest)) :
    text = t ++ rest ∧ ∀ more, Stops more → number s (t ++ more) = some (t,more) := by
  have ended (s : NumState) (done : s.done = true) (more : Bytes) (stops : Stops more) : number s more = some ([],more) := by
    cases more with
    | nil => exact if_pos done
    | cons b more =>
        rw [number,NumState.stops_step s b (stops b rfl)]
        exact if_pos done
  induction text generalizing s t with
  | nil =>
      rw [number] at reads
      split at reads
      case isTrue done =>
        cases reads
        exact ⟨rfl,ended s done⟩
      case isFalse => cases reads
  | cons b text ih =>
      rw [number] at reads
      cases stepped : s.step b with
      | some next =>
          rw [stepped] at reads
          obtain ⟨⟨u,end_⟩,inner,is⟩ := Option.map_eq_some_iff.mp reads
          cases is
          obtain ⟨whole,again⟩ := ih next u inner
          refine ⟨by rw [whole]; rfl,fun more stops => ?_⟩
          rw [List.cons_append,number,stepped]
          dsimp only
          rw [again more stops]
          rfl
      | none =>
          rw [stepped] at reads
          dsimp only at reads
          split at reads
          case isTrue done =>
            cases reads
            exact ⟨rfl,ended s done⟩
          case isFalse => cases reads

section
variable {α : Type}

-- `g` reads whatever `f` does, from its own text when that is shorter than the bound.
def Local (f g : Bytes → Option (α × Bytes)) (bound : Nat) : Prop :=
  ∀ text a rest, f text = some (a,rest) →
    ∃ own, text = own ++ rest ∧ skip own ≠ [] ∧ (own.length < bound → ∀ more, Stops more → g (own ++ more) = some (a,more))

theorem member_local (f g : Bytes → Option (Doc × Bytes)) (bound : Nat) (own_ : Local f g bound) : Local (member f) (member g) bound := by
  intro text m rest reads
  unfold member at reads
  obtain ⟨opened,start,reads⟩ := Option.bind_eq_some_iff.mp reads
  obtain ⟨⟨key,afterKey⟩,keyed,reads⟩ := Option.bind_eq_some_iff.mp reads
  obtain ⟨afterColon,colon_,reads⟩ := Option.bind_eq_some_iff.mp reads
  obtain ⟨⟨d,end_⟩,valued,is⟩ := Option.map_eq_some_iff.mp reads
  cases is
  obtain ⟨pad,isText,padBlank,_⟩ := expect_local quote text opened start
  obtain ⟨isOpened,keyAgain⟩ := string_local _ opened key afterKey keyed
  obtain ⟨pad2,isAfterKey,pad2Blank,_⟩ := expect_local colon afterKey afterColon colon_
  obtain ⟨own,isAfterColon,_,again⟩ := own_ afterColon d end_ valued
  refine ⟨pad ++ quote :: (key ++ quote :: (pad2 ++ colon :: own)),?_,?_,?_⟩
  · simp only [isText,isOpened,isAfterKey,isAfterColon,List.append_assoc,List.cons_append]
  · rw [skip_pad _ _ padBlank,skip_front quote _ (by decide)]
    exact List.cons_ne_nil _ _
  · intro short more stops
    simp only [List.length_append,List.length_cons] at short
    have start := expect_pad pad quote (key ++ quote :: (pad2 ++ colon :: (own ++ more))) padBlank (by decide)
    have middle := expect_pad pad2 colon (own ++ more) pad2Blank (by decide)
    simp only [List.append_assoc,List.cons_append]
    rw [member,start,Option.bind_some,keyAgain,Option.bind_some,middle,Option.bind_some,again (by omega) more stops]
    rfl

theorem itemsFrom_local (f g : Bytes → Option (α × Bytes)) (bound : Nat) (own_ : Local f g bound) (close : UInt8)
    (closes : close = 0x7D ∨ close = 0x5D) (n : Nat) (text : Bytes) (as : List α) (rest : Bytes)
    (reads : itemsFrom f close n text = some (as,rest)) :
    ∃ own, text = own ++ rest ∧ skip own ≠ [] ∧ as.length ≤ own.length ∧ (own.length ≤ bound → ∀ more m, as.length ≤ m →
      itemsFrom g close m (own ++ more) = some (as,more)) := by
  induction n generalizing text as with
  | zero => cases reads
  | succ n ih =>
      rw [itemsFrom] at reads
      obtain ⟨⟨a,after⟩,first,reads⟩ := Option.bind_eq_some_iff.mp reads
      obtain ⟨own,isText,shown,again⟩ := own_ text a after first
      obtain ⟨pad,isAfter,padBlank⟩ := skip_splits after
      dsimp only at reads
      cases front : skip after with
      | nil =>
          rw [front] at reads
          cases reads
      | cons b later =>
          rw [front] at reads
          dsimp only at reads
          have bShown := skip_shown after later b front
          rw [front] at isAfter
          have grown (tail : Bytes) : skip (own ++ pad ++ tail) ≠ [] := by
            rw [List.append_assoc,skip_append own _ shown]
            exact fun none_ => shown (List.append_eq_nil_iff.mp none_).1
          by_cases isComma : b = comma
          · rw [if_pos isComma] at reads
            obtain ⟨⟨more_,end_⟩,inner,is⟩ := Option.map_eq_some_iff.mp reads
            cases is
            obtain ⟨own2,isLater,_,long,again2⟩ := ih later more_ inner
            refine ⟨own ++ pad ++ b :: own2,?_,grown _,?_,?_⟩
            · rw [isText,isAfter,isLater]
              simp only [List.append_assoc,List.cons_append]
            · simp only [List.length_cons,List.length_append]
              omega
            · intro short more m enough
              simp only [List.length_cons,List.length_append] at short enough
              obtain ⟨k,rfl⟩ : ∃ k, m = k + 1 := ⟨m - 1,by omega⟩
              have stops : Stops (b :: (own2 ++ more)) := by
                intro c inside
                cases inside
                exact .inr (.inl isComma)
              have firstAgain := again (by omega) (pad ++ b :: (own2 ++ more)) (stops_pad pad _ padBlank stops)
              simp only [List.append_assoc,List.cons_append]
              rw [itemsFrom,firstAgain,Option.bind_some]
              dsimp only
              rw [skip_pad _ _ padBlank,skip_front b _ bShown]
              dsimp only
              rw [if_pos isComma,again2 (by omega) more k (by omega)]
              rfl
          · rw [if_neg isComma] at reads
            by_cases isClose : b = close
            · rw [if_pos isClose] at reads
              cases reads
              refine ⟨own ++ pad ++ [b],?_,grown _,?_,?_⟩
              · rw [isText,isAfter]
                simp only [List.append_assoc,List.cons_append,List.nil_append]
              · simp only [List.length_cons,List.length_append]
                omega
              · intro short more m enough
                simp only [List.length_cons,List.length_append,List.length_nil] at short enough
                obtain ⟨k,rfl⟩ : ∃ k, m = k + 1 := ⟨m - 1,by omega⟩
                have stops : Stops (b :: more) := by
                  intro c inside
                  cases inside
                  rw [isClose]
                  exact .inr (.inr closes)
                have firstAgain := again (by omega) (pad ++ b :: more) (stops_pad pad _ padBlank stops)
                simp only [List.append_assoc,List.cons_append,List.nil_append]
                rw [itemsFrom,firstAgain,Option.bind_some]
                dsimp only
                rw [skip_pad _ _ padBlank,skip_front b _ bShown]
                dsimp only
                rw [if_neg isComma,if_pos isClose]
            · rw [if_neg isClose] at reads
              cases reads

theorem items_local (f g : Bytes → Option (α × Bytes)) (bound : Nat) (own_ : Local f g bound) (close : UInt8)
    (closes : close = 0x7D ∨ close = 0x5D) (text : Bytes) (as : List α) (rest : Bytes) (reads : items f close text = some (as,rest)) :
    ∃ own, text = own ++ rest ∧ (own.length ≤ bound → ∀ more, items g close (own ++ more) = some (as,more)) := by
  unfold items at reads
  cases front : skip text with
  | nil =>
      rw [front] at reads
      cases reads
  | cons b later =>
      rw [front] at reads
      dsimp only at reads
      by_cases isClose : b = close
      · rw [if_pos isClose] at reads
        cases reads
        obtain ⟨pad,whole,padBlank⟩ := skip_splits text
        rw [front] at whole
        refine ⟨pad ++ [b],by rw [whole,List.append_assoc]; rfl,fun _ more => ?_⟩
        unfold items
        rw [List.append_assoc,skip_pad _ _ padBlank,List.cons_append,List.nil_append,skip_front b _ (skip_shown text _ b front)]
        exact if_pos isClose
      · rw [if_neg isClose] at reads
        obtain ⟨own,isText,shown,long,again⟩ := itemsFrom_local f g bound own_ close closes _ text as rest reads
        refine ⟨own,isText,fun short more => ?_⟩
        rw [isText,skip_append own _ shown] at front
        unfold items
        rw [skip_append own _ shown]
        cases ownFront : skip own with
        | nil => exact absurd ownFront shown
        | cons c tail =>
            rw [ownFront,List.cons_append] at front
            rw [List.cons_append]
            dsimp only
            rw [(List.cons_eq_cons.mp front).1,if_neg isClose]
            exact again short more _ (by rw [List.length_append]; omega)

-- What stands behind an item that is not the whole text.
def Behind (close : UInt8) (rest : Bytes) : Prop := ∃ b later, skip rest = b :: later ∧ (b = comma ∨ b = close)

-- A second reader that keeps up with the first item for item keeps up with it over the list.
theorem itemsFrom_follow {β : Type} (f : Bytes → Option (α × Bytes)) (g : Bytes → Option (β × Bytes)) (P : α → Prop) (R : α → β → Prop)
    (close : UInt8) (follows : ∀ text a rest, f text = some (a,rest) → P a → Behind close rest →
      ∃ b rest2, g text = some (b,rest2) ∧ skip rest2 = skip rest ∧ R a b)
    (n : Nat) (text : Bytes) (as : List α) (rest : Bytes) (reads : itemsFrom f close n text = some (as,rest)) (all : ∀ a ∈ as, P a) :
    ∃ bs, itemsFrom g close n text = some (bs,rest) ∧ List.Forall₂ R as bs := by
  induction n generalizing text as with
  | zero => cases reads
  | succ n ih =>
      rw [itemsFrom] at reads
      obtain ⟨⟨a,after⟩,first,reads⟩ := Option.bind_eq_some_iff.mp reads
      dsimp only at reads
      cases front : skip after with
      | nil =>
          rw [front] at reads
          cases reads
      | cons b later =>
          rw [front] at reads
          dsimp only at reads
          by_cases isComma : b = comma
          · rw [if_pos isComma] at reads
            obtain ⟨⟨more,end_⟩,inner,is⟩ := Option.map_eq_some_iff.mp reads
            cases is
            obtain ⟨c,after2,second,same,related⟩ := follows text a after first (all a List.mem_cons_self) ⟨b,later,front,.inl isComma⟩
            obtain ⟨cs,innerToo,relatedToo⟩ := ih later more inner fun e inside => all e (List.mem_cons_of_mem a inside)
            refine ⟨c :: cs,?_,.cons related relatedToo⟩
            rw [itemsFrom,second,Option.bind_some]
            dsimp only
            rw [same,front]
            dsimp only
            rw [if_pos isComma,innerToo]
            rfl
          · rw [if_neg isComma] at reads
            by_cases isClose : b = close
            · rw [if_pos isClose] at reads
              cases reads
              obtain ⟨c,after2,second,same,related⟩ := follows text a after first (all a List.mem_cons_self) ⟨b,rest,front,.inr isClose⟩
              refine ⟨[c],?_,.cons related .nil⟩
              rw [itemsFrom,second,Option.bind_some]
              dsimp only
              rw [same,front]
              dsimp only
              rw [if_neg isComma,if_pos isClose]
            · rw [if_neg isClose] at reads
              cases reads

theorem items_follow {β : Type} (f : Bytes → Option (α × Bytes)) (g : Bytes → Option (β × Bytes)) (P : α → Prop) (R : α → β → Prop)
    (close : UInt8) (follows : ∀ text a rest, f text = some (a,rest) → P a → Behind close rest →
      ∃ b rest2, g text = some (b,rest2) ∧ skip rest2 = skip rest ∧ R a b)
    (text : Bytes) (as : List α) (rest : Bytes) (reads : items f close text = some (as,rest)) (all : ∀ a ∈ as, P a) :
    ∃ bs, items g close text = some (bs,rest) ∧ List.Forall₂ R as bs := by
  unfold items at reads ⊢
  split at reads
  · cases reads
  · split at reads
    case isTrue isClose =>
      cases reads
      exact ⟨[],if_pos isClose,.nil⟩
    case isFalse other =>
      rw [if_neg other]
      exact itemsFrom_follow f g P R close follows _ text as rest reads all

-- Where every item takes something, turns for each byte are enough.
theorem itemsFrom_turns (f : Bytes → Option (α × Bytes)) (shrinks : ∀ text a rest, f text = some (a,rest) → rest.length < text.length)
    (close : UInt8) (n m : Nat) (text : Bytes) (left : text.length ≤ n) (right : text.length ≤ m) :
    itemsFrom f close n text = itemsFrom f close m text := by
  have dry (text : Bytes) (empty : text.length = 0) : f text = none := by
    cases first : f text with
    | none => rfl
    | some r =>
        have shorter := shrinks text r.1 r.2 first
        omega
  induction n generalizing m text with
  | zero =>
      cases m with
      | zero => rfl
      | succ m => rw [itemsFrom,itemsFrom,dry text (by omega),Option.bind_none]
  | succ n ih =>
      cases m with
      | zero => rw [itemsFrom,itemsFrom,dry text (by omega),Option.bind_none]
      | succ m =>
          rw [itemsFrom,itemsFrom]
          cases first : f text with
          | none => rfl
          | some r =>
              have shorter := shrinks text r.1 r.2 first
              have skipped : (skip r.2).length ≤ r.2.length := List.Sublist.length_le (List.dropWhile_sublist _)
              rw [Option.bind_some,Option.bind_some]
              cases front : skip r.2 with
              | nil => rfl
              | cons b later =>
                  rw [front,List.length_cons] at skipped
                  dsimp only
                  rw [ih m later (by omega) (by omega)]

-- An item that begins with space is the item behind it.
theorem items_front (f : Bytes → Option (α × Bytes)) (shrinks : ∀ text a rest, f text = some (a,rest) → rest.length < text.length)
    (skips : ∀ text, f (skip text) = f text) (close : UInt8) (text : Bytes) (other : expect close text = none) (n : Nat) (turns : text.length ≤ n) :
    items f close text = itemsFrom f close n (skip text) := by
  have skipped : (skip text).length ≤ text.length := List.Sublist.length_le (List.dropWhile_sublist _)
  have same : itemsFrom f close n (skip text) = itemsFrom f close n text := by
    cases n with
    | zero => rfl
    | succ n => rw [itemsFrom,itemsFrom,skips]
  unfold expect at other
  unfold items
  cases front : skip text with
  | nil =>
      cases n with
      | zero => rfl
      | succ n =>
          have first : f [] = none := by
            cases first : f [] with
            | none => rfl
            | some r => exact absurd (shrinks [] r.1 r.2 first) (Nat.not_lt_zero _)
          rw [itemsFrom,first]
          rfl
  | cons b rest =>
      rw [front] at other
      dsimp only at other ⊢
      split at other
      case isTrue => cases other
      case isFalse differs =>
        rw [if_neg differs,← front,same]
        exact itemsFrom_turns f shrinks close _ _ text (Nat.le_refl _) turns

theorem itemsFrom_ends (f : Bytes → Option (α × Bytes)) (shrinks : ∀ text a rest, f text = some (a,rest) → rest.length < text.length)
    (close : UInt8) (n : Nat) (text : Bytes) (as : List α) (rest : Bytes) (reads : itemsFrom f close n text = some (as,rest)) :
    rest.length < text.length := by
  induction n generalizing text as with
  | zero => cases reads
  | succ n ih =>
      rw [itemsFrom] at reads
      obtain ⟨⟨a,after⟩,first,reads⟩ := Option.bind_eq_some_iff.mp reads
      have shorter := shrinks text a after first
      have skipped : (skip after).length ≤ after.length := List.Sublist.length_le (List.dropWhile_sublist _)
      dsimp only at reads
      cases front : skip after with
      | nil =>
          rw [front] at reads
          cases reads
      | cons b later =>
          rw [front] at reads skipped
          rw [List.length_cons] at skipped
          dsimp only at reads
          split at reads
          · obtain ⟨⟨more,end_⟩,inner,is⟩ := Option.map_eq_some_iff.mp reads
            cases is
            have deeper := ih later more inner
            omega
          · split at reads
            · cases reads
              omega
            · cases reads

theorem items_ends (f : Bytes → Option (α × Bytes)) (shrinks : ∀ text a rest, f text = some (a,rest) → rest.length < text.length)
    (close : UInt8) (text : Bytes) (as : List α) (rest : Bytes) (reads : items f close text = some (as,rest)) : rest.length < text.length := by
  have skipped : (skip text).length ≤ text.length := List.Sublist.length_le (List.dropWhile_sublist _)
  unfold items at reads
  cases front : skip text with
  | nil =>
      rw [front] at reads
      cases reads
  | cons b later =>
      rw [front] at reads skipped
      rw [List.length_cons] at skipped
      dsimp only at reads
      split at reads
      · cases reads
        omega
      · exact itemsFrom_ends f shrinks close _ text as rest reads

-- Each item is measured against the text it was read from.
theorem itemsFrom_below (f : Bytes → Option (α × Bytes)) (shrinks : ∀ text a rest, f text = some (a,rest) → rest.length < text.length)
    (size : α → Nat) (below : ∀ text a rest, f text = some (a,rest) → size a < text.length)
    (close : UInt8) (n : Nat) (text : Bytes) (as : List α) (rest : Bytes) (reads : itemsFrom f close n text = some (as,rest)) :
    ∀ a ∈ as, size a < text.length := by
  induction n generalizing text as with
  | zero => cases reads
  | succ n ih =>
      rw [itemsFrom] at reads
      obtain ⟨⟨a,after⟩,first,reads⟩ := Option.bind_eq_some_iff.mp reads
      have shorter := shrinks text a after first
      have skipped : (skip after).length ≤ after.length := List.Sublist.length_le (List.dropWhile_sublist _)
      dsimp only at reads
      cases front : skip after with
      | nil =>
          rw [front] at reads
          cases reads
      | cons b later =>
          rw [front] at reads skipped
          rw [List.length_cons] at skipped
          dsimp only at reads
          split at reads
          · obtain ⟨⟨more,end_⟩,inner,is⟩ := Option.map_eq_some_iff.mp reads
            cases is
            intro c inside
            rcases List.mem_cons.mp inside with rfl | tail
            · exact below text c after first
            · have small := ih later more inner c tail
              omega
          · split at reads
            · cases reads
              intro c inside
              rw [List.mem_singleton.mp inside]
              exact below text a after first
            · cases reads

theorem itemsFrom_some (f : Bytes → Option (α × Bytes)) (close : UInt8) (n : Nat) (text : Bytes) (as : List α) (rest : Bytes)
    (reads : itemsFrom f close n text = some (as,rest)) : 0 < as.length := by
  cases n with
  | zero => cases reads
  | succ n =>
      rw [itemsFrom] at reads
      obtain ⟨⟨a,after⟩,_,reads⟩ := Option.bind_eq_some_iff.mp reads
      dsimp only at reads
      split at reads
      · cases reads
      · split at reads
        · obtain ⟨_,_,is⟩ := Option.map_eq_some_iff.mp reads
          cases is
          exact Nat.succ_pos _
        · split at reads
          · cases reads
            exact Nat.succ_pos _
          · cases reads

-- A list of one item.
theorem items_one (f : Bytes → Option (α × Bytes)) (close : UInt8) (notComma : close ≠ comma)
    (begins : ∀ text a rest, f text = some (a,rest) → ∃ b later, skip text = b :: later ∧ b ≠ close) (text : Bytes) (a : α) (rest : Bytes) :
    items f close text = some ([a],rest) ↔ ∃ after, f text = some (a,after) ∧ expect close after = some rest := by
  constructor
  · intro reads
    unfold items at reads
    split at reads
    · cases reads
    · split at reads
      · cases reads
      · cases len : text.length with
        | zero =>
            rw [len] at reads
            cases reads
        | succ n =>
            rw [len,itemsFrom] at reads
            obtain ⟨⟨c,after⟩,first,reads⟩ := Option.bind_eq_some_iff.mp reads
            dsimp only at reads
            cases front : skip after with
            | nil =>
                rw [front] at reads
                cases reads
            | cons b later =>
                rw [front] at reads
                dsimp only at reads
                split at reads
                · obtain ⟨⟨more,end_⟩,inner,is⟩ := Option.map_eq_some_iff.mp reads
                  cases is
                  exact absurd (itemsFrom_some f close n later [] _ inner) (Nat.not_lt_zero 0)
                · split at reads
                  case isTrue isClose =>
                    cases reads
                    refine ⟨after,first,?_⟩
                    unfold expect
                    rw [front]
                    exact if_pos isClose
                  case isFalse => cases reads
  · rintro ⟨after,first,closes⟩
    obtain ⟨b,later,front,other⟩ := begins text a after first
    unfold items
    rw [front]
    dsimp only
    rw [if_neg other]
    cases text with
    | nil => cases front
    | cons c text =>
        rw [List.length_cons,itemsFrom,first,Option.bind_some]
        dsimp only
        unfold expect at closes
        cases behind : skip after with
        | nil =>
            rw [behind] at closes
            cases closes
        | cons d last =>
            rw [behind] at closes
            dsimp only at closes ⊢
            split at closes
            case isTrue isClose =>
              cases closes
              rw [if_neg (by rw [isClose]; exact notComma),if_pos isClose]
            case isFalse => cases closes

end

theorem literal_local (word : Bytes) (d : Doc) (text : Bytes) (e : Doc) (rest : Bytes) (reads : literal word d text = some (e,rest)) :
    text = word ++ rest ∧ e = d ∧ ∀ more, literal word d (word ++ more) = some (d,more) := by
  unfold literal at reads
  split at reads
  case isTrue front =>
    cases reads
    refine ⟨?_,rfl,fun more => ?_⟩
    · conv_lhs => rw [← List.take_append_drop word.length text,front]
    · unfold literal
      rw [List.take_left' rfl,List.drop_left' rfl]
      exact if_pos rfl
  case isFalse => cases reads

-- What stands at the front of a value of each kind.
inductive Kinds (n : Nat) : UInt8 → Bytes → Doc → Bytes → Prop where
  | obj {later ms rest} (reads : items (member (value n)) 0x7D later = some (ms,rest)) : Kinds n 0x7B later (.obj ms) rest
  | arr {later ds rest} (reads : items (value n) 0x5D later = some (ds,rest)) : Kinds n 0x5B later (.arr ds) rest
  | str {later t rest} (reads : string (.char .start) later = some (t,rest)) : Kinds n quote later (.str t) rest
  | null {rest} : Kinds n 0x6E ([0x75,0x6C,0x6C] ++ rest) .null rest
  | yes {rest} : Kinds n 0x74 ([0x72,0x75,0x65] ++ rest) (.bool true) rest
  | no {rest} : Kinds n 0x66 ([0x61,0x6C,0x73,0x65] ++ rest) (.bool false) rest
  | num {b later t rest} (reads : number .start (b :: later) = some (t,rest)) : Kinds n b later (.num t) rest

theorem value_kinds (n : Nat) (text : Bytes) (b : UInt8) (later : Bytes) (front : skip text = b :: later) (d : Doc) (rest : Bytes)
    (reads : value (n+1) text = some (d,rest)) : Kinds n b later d rest := by
  have word (w : Bytes) (e : Doc) (c : UInt8) (same : b = c) (literal_ : literal (c :: w) e (b :: later) = some (d,rest))
      (kind : Kinds n c (w ++ rest) e rest) : Kinds n b later d rest := by
    subst same
    obtain ⟨whole,rfl,_⟩ := literal_local _ _ _ _ _ literal_
    rw [(List.cons_eq_cons.mp whole).2]
    exact kind
  rw [value,front] at reads
  dsimp only at reads
  split at reads
  case isTrue is =>
    obtain ⟨⟨ms,end_⟩,inner,same⟩ := Option.map_eq_some_iff.mp reads
    cases same
    rw [is]
    exact .obj inner
  split at reads
  case isTrue is =>
    obtain ⟨⟨ds,end_⟩,inner,same⟩ := Option.map_eq_some_iff.mp reads
    cases same
    rw [is]
    exact .arr inner
  split at reads
  case isTrue is =>
    obtain ⟨⟨t,end_⟩,inner,same⟩ := Option.map_eq_some_iff.mp reads
    cases same
    rw [is]
    exact .str inner
  split at reads
  case isTrue is => exact word [0x75,0x6C,0x6C] .null 0x6E is reads .null
  split at reads
  case isTrue is => exact word [0x72,0x75,0x65] (.bool true) 0x74 is reads .yes
  split at reads
  case isTrue is => exact word [0x61,0x6C,0x73,0x65] (.bool false) 0x66 is reads .no
  obtain ⟨⟨t,end_⟩,inner,same⟩ := Option.map_eq_some_iff.mp reads
  cases same
  exact .num inner

-- One case for each kind of value; the bound is what the nesting costs.
theorem value_local (n m : Nat) : Local (value n) (value m) m := by
  induction n generalizing m with
  | zero =>
      intro text d rest reads
      cases reads
  | succ n ih =>
      intro text d rest reads
      obtain ⟨pad,whole,padBlank⟩ := skip_splits text
      rw [value] at reads
      cases front : skip text with
      | nil =>
          rw [front] at reads
          cases reads
      | cons b later =>
          have bShown := skip_shown text later b front
          rw [front] at reads whole
          dsimp only at reads
          have own_ (own : Bytes) (isText : b :: later = b :: own ++ rest)
              (again : ∀ k, own.length < k → ∀ more, Stops more → value (k+1) (b :: own ++ more) = some (d,more)) :
              ∃ own, text = own ++ rest ∧ skip own ≠ [] ∧ (own.length < m → ∀ more, Stops more → value m (own ++ more) = some (d,more)) := by
            refine ⟨pad ++ b :: own,?_,?_,?_⟩
            · rw [whole,isText,List.append_assoc]
            · rw [skip_pad _ _ padBlank,skip_front b _ bShown]
              exact List.cons_ne_nil _ _
            · intro short more stops
              rw [List.length_append,List.length_cons] at short
              obtain ⟨k,rfl⟩ : ∃ k, m = k + 1 := ⟨m - 1,by omega⟩
              have here := again k (by omega) more stops
              rw [value] at here ⊢
              rw [List.append_assoc,skip_pad _ _ padBlank]
              exact here
          -- The text behind the first byte, and how the value is read again behind that byte.
          by_cases isObj : b = 0x7B
          · rw [if_pos isObj] at reads
            obtain ⟨⟨ms,end_⟩,inner,is⟩ := Option.map_eq_some_iff.mp reads
            cases is
            obtain ⟨own,isLater,_⟩ := items_local _ _ 0 (member_local _ _ 0 (ih 0)) 0x7D (.inl rfl) later ms _ inner
            refine own_ own (by rw [isLater]; rfl) fun k short more _ => ?_
            obtain ⟨own2,isLater2,again⟩ := items_local _ _ k (member_local _ _ k (ih k)) 0x7D (.inl rfl) later ms _ inner
            rw [isLater] at isLater2
            have same := List.append_cancel_right isLater2
            subst same
            rw [value,List.cons_append,skip_front b _ bShown]
            dsimp only
            rw [if_pos isObj,again (by omega) more]
            rfl
          rw [if_neg isObj] at reads
          by_cases isArr : b = 0x5B
          · rw [if_pos isArr] at reads
            obtain ⟨⟨ds,end_⟩,inner,is⟩ := Option.map_eq_some_iff.mp reads
            cases is
            obtain ⟨own,isLater,_⟩ := items_local _ _ 0 (ih 0) 0x5D (.inr rfl) later ds _ inner
            refine own_ own (by rw [isLater]; rfl) fun k short more _ => ?_
            obtain ⟨own2,isLater2,again⟩ := items_local _ _ k (ih k) 0x5D (.inr rfl) later ds _ inner
            rw [isLater] at isLater2
            have same := List.append_cancel_right isLater2
            subst same
            rw [value,List.cons_append,skip_front b _ bShown]
            dsimp only
            rw [if_neg isObj,if_pos isArr,again (by omega) more]
            rfl
          rw [if_neg isArr] at reads
          by_cases isStr : b = quote
          · rw [if_pos isStr] at reads
            obtain ⟨⟨t,end_⟩,inner,is⟩ := Option.map_eq_some_iff.mp reads
            cases is
            obtain ⟨isLater,again⟩ := string_local _ later t _ inner
            refine own_ (t ++ [quote]) (by rw [isLater,List.cons_append,List.append_assoc]; rfl) fun k short more _ => ?_
            rw [value,List.cons_append,skip_front b _ bShown,List.append_assoc]
            dsimp only
            rw [if_neg isObj,if_neg isArr,if_pos isStr]
            change Option.map _ (string _ (t ++ quote :: more)) = _
            rw [again more]
            rfl
          rw [if_neg isStr] at reads
          have word (w : Bytes) (e : Doc) (literal_ : literal (b :: w) e (b :: later) = some (d,rest))
              (reads_ : ∀ k tail, value (k+1) (b :: tail) = literal (b :: w) e (b :: tail)) :
              ∃ own, text = own ++ rest ∧ skip own ≠ [] ∧ (own.length < m → ∀ more, Stops more → value m (own ++ more) = some (d,more)) := by
            obtain ⟨isText,isDoc,again⟩ := literal_local _ _ _ _ _ literal_
            refine own_ w isText fun k short more _ => ?_
            rw [List.cons_append,reads_ k (w ++ more),isDoc]
            exact again more
          by_cases isNull : b = 0x6E
          · rw [if_pos isNull] at reads
            subst isNull
            exact word [0x75,0x6C,0x6C] .null reads fun k tail => rfl
          rw [if_neg isNull] at reads
          by_cases isTrue : b = 0x74
          · rw [if_pos isTrue] at reads
            subst isTrue
            exact word [0x72,0x75,0x65] (.bool true) reads fun k tail => rfl
          rw [if_neg isTrue] at reads
          by_cases isFalse : b = 0x66
          · rw [if_pos isFalse] at reads
            subst isFalse
            exact word [0x61,0x6C,0x73,0x65] (.bool false) reads fun k tail => rfl
          rw [if_neg isFalse] at reads
          obtain ⟨⟨t,end_⟩,inner,is⟩ := Option.map_eq_some_iff.mp reads
          cases is
          obtain ⟨isText,again⟩ := number_local .start (b :: later) t _ inner
          cases t with
          | nil =>
              rw [number] at inner
              cases stepped : NumState.step .start b with
              | none =>
                  rw [stepped] at inner
                  cases inner
              | some next =>
                  rw [stepped] at inner
                  obtain ⟨⟨u,end_⟩,_,is⟩ := Option.map_eq_some_iff.mp inner
                  cases is
          | cons c t =>
              have same := (List.cons_eq_cons.mp isText).1
              subst same
              refine own_ t isText fun k short more stops => ?_
              rw [value,List.cons_append,skip_front b _ bShown]
              dsimp only
              rw [if_neg isObj,if_neg isArr,if_neg isStr,if_neg isNull,if_neg isTrue,if_neg isFalse,← List.cons_append,again more stops]
              rfl

end LoraRan.Library.Json
