import LoraRan.Bridge.MqttIntake
import LoraRan.Library.StepSystem
import Mathlib.Data.List.TakeWhile

namespace LoraRan.Bridge
open Protocol Library.StepSystem

-- A topic cut at its slashes.

def segs : Bytes → List Bytes
  | [] => [[]]
  | b :: rest =>
      if b = slash then [] :: segs rest
      else match segs rest with
        | [] => [[b]]
        | s :: more => (b :: s) :: more

theorem segs_cons (topic : Bytes) : ∃ s more, segs topic = s :: more ∧ s = topic.takeWhile fun b => b ≠ slash := by
  induction topic with
  | nil => exact ⟨[],[],rfl,rfl⟩
  | cons b rest ih =>
      obtain ⟨s,more,cut,first⟩ := ih
      unfold segs
      by_cases here : b = slash
      · rw [if_pos here]
        exact ⟨[],segs rest,rfl,by rw [List.takeWhile_cons,here]; simp⟩
      · rw [if_neg here,cut]
        exact ⟨b :: s,more,rfl,by rw [List.takeWhile_cons,first]; simp [here]⟩

theorem segment_segs (topic : Bytes) (i : Nat) : segment topic i = (segs topic)[i]? := by
  induction topic generalizing i with
  | nil => cases i <;> rfl
  | cons b rest ih =>
      obtain ⟨s,more,cut,first⟩ := segs_cons rest
      by_cases here : b = slash
      · have whole : segs (b :: rest) = [] :: segs rest := if_pos here
        rw [whole]
        cases i with
        | zero =>
            unfold segment
            rw [List.takeWhile_cons,here]
            rfl
        | succ i =>
            unfold segment afterSlash
            rw [if_pos here]
            exact ih i
      · have whole : segs (b :: rest) = (b :: s) :: more := by
          rw [segs,if_neg here,cut]
        rw [whole]
        cases i with
        | zero =>
            unfold segment
            rw [List.takeWhile_cons,if_pos (by simp [here]),← first]
            rfl
        | succ i =>
            have behind := ih (i + 1)
            rw [cut] at behind
            unfold segment afterSlash
            rw [if_neg here]
            exact behind

def joined : List Bytes → Bytes
  | [] => []
  | [s] => s
  | s :: more => s ++ slash :: joined more

theorem joined_segs (topic : Bytes) : joined (segs topic) = topic := by
  induction topic with
  | nil => rfl
  | cons b rest ih =>
      obtain ⟨s,more,cut,_⟩ := segs_cons rest
      unfold segs
      rw [cut] at ih ⊢
      split
      · rename_i here
        rw [here]
        exact congrArg (slash :: ·) ih
      · cases more with
        | nil => exact congrArg (b :: ·) ih
        | cons _ _ => exact congrArg (b :: ·) ih

theorem segs_plain (s : Bytes) (plain : slash ∉ s) : segs s = [s] := by
  induction s with
  | nil => rfl
  | cons b rest ih =>
      have away : b ≠ slash := fun here => plain (by rw [here]; exact List.mem_cons_self)
      unfold segs
      rw [if_neg away,ih fun inside => plain (List.mem_cons_of_mem b inside)]

theorem segs_front (s rest : Bytes) (plain : slash ∉ s) : segs (s ++ slash :: rest) = s :: segs rest := by
  induction s with
  | nil => exact if_pos rfl
  | cons b more ih =>
      have away : b ≠ slash := fun here => plain (by rw [here]; exact List.mem_cons_self)
      rw [List.cons_append,segs,if_neg away,ih fun inside => plain (List.mem_cons_of_mem b inside)]

theorem segmentIs_iff (topic : Bytes) (i : Nat) (want : Bytes) : segmentIs topic i want = true ↔ (segs topic)[i]? = some want := by
  unfold segmentIs
  rw [segment_segs,beq_iff_eq]

-- `lran/<node>/cmd/<action>/set`.
def cmdTopic (node action : Bytes) : Bytes := joined [topicRoot,node,token "cmd",action,token "set"]

theorem five (l : List Bytes) (a c e : Bytes) (first : l[0]? = some a) (third : l[2]? = some c) (fifth : l[4]? = some e) (last : l[5]? = none) :
    ∃ b d, l[1]? = some b ∧ l[3]? = some d ∧ l = [a,b,c,d,e] := by
  match l with
  | [x0,x1,x2,x3,x4] =>
      cases first
      cases third
      cases fifth
      exact ⟨x1,x3,rfl,rfl,rfl⟩
  | [] => cases first
  | [_] => cases third
  | [_,_] => cases third
  | [_,_,_] => cases fifth
  | [_,_,_,_] => cases fifth
  | _ :: _ :: _ :: _ :: _ :: _ :: _ => cases last

theorem parseCmdTopic_cut (topic : Bytes) (t : CmdTopic) (parsed : parseCmdTopic topic = some t) :
    ∃ node action, topic = cmdTopic node action ∧ nodeIdFromToken node = some t.nodeId ∧
      (cmdFromAction action = some t.cmd ∧ t.face = none ∨
        cmdFromAction action = none ∧ t.cmd = 0 ∧ ∃ face, faceFromAction action = some face ∧ t.face = some face) := by
  unfold parseCmdTopic at parsed
  split at parsed
  · cases parsed
  · rename_i shape
    simp only [Bool.or_eq_true,Bool.not_eq_true',not_or,Bool.not_eq_false,Option.isSome_iff_ne_none,ne_eq,Decidable.not_not] at shape
    obtain ⟨⟨⟨root,cmd⟩,set⟩,last⟩ := shape
    rw [segmentIs_iff] at root cmd set
    rw [segment_segs] at last
    obtain ⟨node,action,second,fourth,whole⟩ := five (segs topic) _ _ _ root cmd set last
    have back := joined_segs topic
    rw [whole] at back
    rw [segment_segs,segment_segs,second,fourth] at parsed
    dsimp only at parsed
    refine ⟨node,action,back.symm,?_⟩
    cases known : nodeIdFromToken node with
    | none =>
        rw [known] at parsed
        cases parsed
    | some id =>
        rw [known] at parsed
        dsimp only at parsed
        cases named : cmdFromAction action with
        | some c =>
            rw [named] at parsed
            cases parsed
            exact ⟨rfl,.inl ⟨rfl,rfl⟩⟩
        | none =>
            rw [named] at parsed
            obtain ⟨face,here,rfl⟩ := Option.map_eq_some_iff.mp parsed
            exact ⟨rfl,.inr ⟨rfl,rfl,face,here,rfl⟩⟩

-- The words of a command's topic.
theorem topic_words : (slash ∉ topicRoot ∧ slash ∉ token "cmd" ∧ slash ∉ token "set") ∧
    ((some (token "cmd") == some (token "config")) = false ∧ (some (token "cmd") == some (token "vedirect")) = false) ∧
    topicRoot.length = 4 ∧ (token "cmd").length = 3 ∧ (token "set").length = 3 := by
  decide +kernel

theorem cmdTopic_segs (node action : Bytes) (nodePlain : slash ∉ node) (actionPlain : slash ∉ action) :
    segs (cmdTopic node action) = [topicRoot,node,token "cmd",action,token "set"] := by
  unfold cmdTopic joined joined joined joined joined
  rw [segs_front topicRoot _ topic_words.1.1,segs_front node _ nodePlain,segs_front (token "cmd") _ topic_words.1.2.1,
    segs_front action _ actionPlain,segs_plain (token "set") topic_words.1.2.2]

theorem parseCmdTopic_of (node action : Bytes) (nodePlain : slash ∉ node) (actionPlain : slash ∉ action) :
    parseCmdTopic (cmdTopic node action) =
      match nodeIdFromToken node with
      | none => none
      | some id =>
          match cmdFromAction action with
          | some cmd => some {nodeId := id,cmd := cmd}
          | none => (faceFromAction action).map fun face => {nodeId := id,face := some face} := by
  have cut := cmdTopic_segs node action nodePlain actionPlain
  have shape : (!segmentIs (cmdTopic node action) 0 topicRoot || !segmentIs (cmdTopic node action) 2 (token "cmd") ||
      !segmentIs (cmdTopic node action) 4 (token "set") || (segment (cmdTopic node action) 5).isSome) = false := by
    simp [segmentIs,segment_segs,cut]
  unfold parseCmdTopic
  rw [shape,segment_segs,segment_segs,cut]
  rfl

-- A command's topic is no configuration topic and no VE.Direct one.
theorem cmdTopic_routed (node action : Bytes) (nodePlain : slash ∉ node) (actionPlain : slash ∉ action) :
    parseConfigTopic (cmdTopic node action) = none ∧ parseVedirectTopic (cmdTopic node action) = none := by
  have cut := cmdTopic_segs node action nodePlain actionPlain
  have config : segmentIs (cmdTopic node action) 2 (token "config") = false := by
    unfold segmentIs
    rw [segment_segs,cut]
    exact topic_words.2.1.1
  have vedirect : segmentIs (cmdTopic node action) 2 (token "vedirect") = false := by
    unfold segmentIs
    rw [segment_segs,cut]
    exact topic_words.2.1.2
  constructor
  · unfold parseConfigTopic
    rw [config]
    simp
  · unfold parseVedirectTopic
    rw [vedirect]
    simp

-- What a payload denotes, read off the documented grammar alone.

def digit (b : UInt8) : Bool := 48 ≤ b && b ≤ 57
def decimal : Nat → Bytes → Nat := List.foldl fun v b => v * 10 + (b.toNat - 48)

-- A decimal of one to five digits.
structure Field (field : Bytes) (n : Nat) : Prop where
  some : field ≠ []
  short : field.length ≤ 5
  digits : ∀ b ∈ field, digit b = true
  value : n = decimal 0 field

inductive PayloadDenotes : Bytes → UInt8 → UInt16 → Prop where
  | nothing : PayloadDenotes [] 0 0
  | press : PayloadDenotes (token "PRESS") 0 0
  | off : PayloadDenotes (token "OFF") 0 0
  | on : PayloadDenotes (token "ON") 1 0
  | one {p : Bytes} {n : Nat} (field : Field p n) (small : n ≤ 255) : PayloadDenotes p (UInt8.ofNat n) 0
  | two {p q : Bytes} {n m : Nat} (first : Field p n) (small : n ≤ 255) (second : Field q m) (fits : m ≤ 65535) :
      PayloadDenotes (p ++ comma :: q) (UInt8.ofNat n) (UInt16.ofNat m)

theorem decimal_grows (v : Nat) (field : Bytes) : v ≤ decimal v field := by
  induction field generalizing v with
  | nil => exact Nat.le_refl v
  | cons b rest ih => exact Nat.le_trans (by omega) (ih (v * 10 + (b.toNat - 48)))

theorem digitsFrom_iff (max v : Nat) (field : Bytes) (n : Nat) (within : v ≤ max) :
    digitsFrom max v field = some n ↔ (∀ b ∈ field, digit b = true) ∧ n = decimal v field ∧ n ≤ max := by
  induction field generalizing v with
  | nil =>
      constructor
      · intro read
        cases read
        exact ⟨fun _ inside => by (cases inside),rfl,within⟩
      · rintro ⟨_,rfl,_⟩
        rfl
  | cons b rest ih =>
      unfold digitsFrom
      by_cases bad : b < 48 ∨ 57 < b
      · rw [if_pos bad]
        refine ⟨fun read => by (cases read),fun ⟨digits,_⟩ => ?_⟩
        have here := digits b List.mem_cons_self
        simp only [digit,Bool.and_eq_true,decide_eq_true_eq,UInt8.le_iff_toNat_le,UInt8.lt_iff_toNat_lt] at here bad
        exact absurd bad (by omega)
      · rw [if_neg bad]
        have good : digit b = true := by
          simp only [digit,Bool.and_eq_true,decide_eq_true_eq,UInt8.le_iff_toNat_le,UInt8.lt_iff_toNat_lt] at bad ⊢
          omega
        by_cases big : max < v * 10 + (b.toNat - 48)
        · rw [if_pos big]
          refine ⟨fun read => by (cases read),fun ⟨_,value,bound⟩ => ?_⟩
          have grown := decimal_grows (v * 10 + (b.toNat - 48)) rest
          change n = decimal (v * 10 + (b.toNat - 48)) rest at value
          omega
        · rw [if_neg big,ih _ (by omega)]
          constructor
          · rintro ⟨digits,value,bound⟩
            exact ⟨fun c inside => (List.mem_cons.mp inside).elim (fun first => first ▸ good) (digits c),value,bound⟩
          · rintro ⟨digits,value,bound⟩
            exact ⟨fun c inside => digits c (List.mem_cons_of_mem b inside),value,bound⟩

theorem parseUint_iff (field : Bytes) (max n : Nat) : parseUint field max = some n ↔ Field field n ∧ n ≤ max := by
  unfold parseUint
  by_cases shape : field.length = 0 ∨ 5 < field.length
  · rw [if_pos shape]
    refine ⟨fun read => by (cases read),fun ⟨field,_⟩ => ?_⟩
    have some := List.length_pos_iff.mpr field.some
    have short := field.short
    exact absurd shape (by omega)
  · rw [if_neg shape,digitsFrom_iff max 0 field n (Nat.zero_le max)]
    constructor
    · rintro ⟨digits,value,bound⟩
      exact ⟨⟨List.length_pos_iff.mp (by omega),by omega,digits,value⟩,bound⟩
    · rintro ⟨field,bound⟩
      exact ⟨field.digits,field.value,bound⟩

theorem Field.no_comma {p : Bytes} {n : Nat} (field : Field p n) : ∀ b ∈ p, decide (b ≠ comma) = true := by
  intro b inside
  have here := field.digits b inside
  rw [decide_eq_true_eq]
  rintro rfl
  cases here

theorem Field.unlike {p : Bytes} {n : Nat} (field : Field p n) {word : Bytes} (letters : word.any digit = false) : p ≠ word := by
  rintro rfl
  cases whole : p with
  | nil => exact field.some whole
  | cons b rest =>
      rw [whole,List.any_cons,Bool.or_eq_false_iff] at letters
      have here := field.digits b (by rw [whole]; exact List.mem_cons_self)
      rw [letters.1] at here
      cases here

theorem comma_cut (payload : Bytes) :
    let first := payload.takeWhile fun b => b ≠ comma
    payload.length = first.length ∧ payload = first ∨ payload.length ≠ first.length ∧ payload = first ++ comma :: payload.drop (first.length + 1) := by
  induction payload with
  | nil => exact .inl ⟨rfl,rfl⟩
  | cons b rest ih =>
      by_cases here : b = comma
      · rw [here]
        exact .inr ⟨by simp,by simp⟩
      · rw [List.takeWhile_cons_of_pos (by simpa using here)]
        rcases ih with ⟨same,whole⟩ | ⟨longer,whole⟩
        · exact .inl ⟨congrArg (· + 1) same,congrArg (b :: ·) whole⟩
        · exact .inr ⟨fun same => longer (Nat.succ.inj same),congrArg (b :: ·) whole⟩

theorem parseCmdPayload_denotes (payload : Bytes) (arg : UInt8) (arg2 : UInt16) (read : parseCmdPayload payload = some (arg,arg2)) :
    PayloadDenotes payload arg arg2 := by
  unfold parseCmdPayload at read
  split at read
  · rename_i empty
    cases read
    rw [List.length_eq_zero_iff.mp empty]
    exact .nothing
  split at read
  · rename_i word
    cases read
    exact word ▸ .press
  split at read
  · rename_i word
    cases read
    exact word ▸ .off
  split at read
  · rename_i word
    cases read
    exact word ▸ .on
  dsimp only at read
  have cut := comma_cut payload
  dsimp only at cut
  cases one : parseUint (payload.takeWhile fun b => b ≠ comma) 255 with
  | none =>
      rw [one] at read
      cases read
  | some a =>
      rw [one] at read
      dsimp only at read
      obtain ⟨field,small⟩ := (parseUint_iff _ _ _).mp one
      rcases cut with ⟨same,whole⟩ | ⟨longer,whole⟩
      · rw [if_pos same] at read
        cases read
        rw [← whole] at field
        exact .one field small
      · rw [if_neg longer] at read
        obtain ⟨b,two,shape⟩ := Option.map_eq_some_iff.mp read
        cases shape
        obtain ⟨second,fits⟩ := (parseUint_iff _ _ _).mp two
        rw [whole]
        exact .two field small second fits

theorem words_no_digits :
    (token "PRESS").any digit = false ∧ (token "OFF").any digit = false ∧ (token "ON").any digit = false := by
  decide +kernel

theorem Field.not_word {p tail : Bytes} {n : Nat} (field : Field p n) {word : Bytes} (letters : word.any digit = false) : p ++ tail ≠ word := by
  intro same
  have front : p.any digit = false := by
    rw [← same,List.any_append,Bool.or_eq_false_iff] at letters
    exact letters.1
  exact field.unlike front rfl

theorem PayloadDenotes.parsed {payload : Bytes} {arg : UInt8} {arg2 : UInt16} (denotes : PayloadDenotes payload arg arg2) :
    parseCmdPayload payload = some (arg,arg2) := by
  obtain ⟨press,off,on⟩ := words_no_digits
  cases denotes with
  | nothing => rfl
  | press => decide +kernel
  | off => decide +kernel
  | on => decide +kernel
  | one field small =>
      have first : (payload.takeWhile fun b => b ≠ comma) = payload := List.takeWhile_eq_self_iff.mpr field.no_comma
      unfold parseCmdPayload
      rw [if_neg fun empty => field.some (List.length_eq_zero_iff.mp empty),if_neg (field.unlike press),if_neg (field.unlike off),
        if_neg (field.unlike on),first]
      dsimp only
      rw [(parseUint_iff _ _ _).mpr ⟨field,small⟩]
      exact if_pos rfl
  | @two p q n m first small second fits =>
      have cut : ((p ++ comma :: q).takeWhile fun b => b ≠ comma) = p := by
        rw [List.takeWhile_append_of_pos first.no_comma,List.takeWhile_cons_of_neg (by simp),List.append_nil]
      have behind : (p ++ comma :: q).drop (p.length + 1) = q := by
        rw [← List.drop_drop,List.drop_left,List.drop_one,List.tail_cons]
      unfold parseCmdPayload
      rw [if_neg fun empty => by simp at empty,if_neg (first.not_word press),if_neg (first.not_word off),if_neg (first.not_word on),cut]
      dsimp only
      rw [(parseUint_iff _ _ _).mpr ⟨first,small⟩]
      dsimp only
      rw [if_neg fun same => by simp at same,behind,(parseUint_iff _ _ _).mpr ⟨second,fits⟩]
      rfl

-- What a publication asks for.
inductive Denotes : Bytes → Bytes → CommandRequest → Prop where
  | command {node action payload : Bytes} {id : NodeId} {cmd arg : UInt8} {arg2 : UInt16} (named : (node,id) ∈ nodeTokens)
      (known : registered id = true) (told : (action,cmd) ∈ cmdActions) (allowed : commandAllowed (nodeType id) cmd = true)
      (args : PayloadDenotes payload arg arg2) : Denotes (cmdTopic node action) payload ⟨id,cmd,arg,arg2⟩
  | face {node : Bytes} {id : NodeId} {f : CmdFace} (named : (node,id) ∈ nodeTokens) (known : registered id = true) (told : f ∈ cmdFaces)
      (allowed : commandAllowed (nodeType id) f.cmd = true) : Denotes (cmdTopic node f.action) f.payload ⟨id,f.cmd,f.arg,0⟩

-- What is read off the three tables, all at once.
theorem tables_told :
    (∀ row ∈ nodeTokens, nodeIdFromToken row.1 = some row.2 ∧ slash ∉ row.1 ∧ row.1.length ≤ 8) ∧
    (∀ row ∈ cmdActions, cmdFromAction row.1 = some row.2 ∧ slash ∉ row.1 ∧ row.1.length ≤ 17) ∧
    ∀ f ∈ cmdFaces, cmdFromAction f.action = none ∧ faceFromAction f.action = some f.action ∧
      parseCmdFace f.action f.payload = some (f.cmd,f.arg,0) ∧ slash ∉ f.action ∧ f.action.length ≤ 17 := by
  decide +kernel

theorem nodes_named : ∀ row ∈ nodeTokens, nodeIdFromToken row.1 = some row.2 ∧ slash ∉ row.1 ∧ row.1.length ≤ 8 := tables_told.1

theorem actions_told : ∀ row ∈ cmdActions, cmdFromAction row.1 = some row.2 ∧ slash ∉ row.1 ∧ row.1.length ≤ 17 := tables_told.2.1

theorem faces_told : ∀ f ∈ cmdFaces, cmdFromAction f.action = none ∧ faceFromAction f.action = some f.action ∧
    parseCmdFace f.action f.payload = some (f.cmd,f.arg,0) ∧ slash ∉ f.action ∧ f.action.length ≤ 17 := tables_told.2.2

theorem table_row {α : Type} (table : List (Bytes × α)) (tok : Bytes) (value : α)
    (found : (table.find? fun row => row.1 == tok).map Prod.snd = some value) : (tok,value) ∈ table := by
  obtain ⟨row,here,rfl⟩ := Option.map_eq_some_iff.mp found
  have same := List.find?_some here
  rw [← eq_of_beq same]
  exact List.mem_of_find?_eq_some here

theorem parseCmdFace_row (action payload : Bytes) (out : UInt8 × UInt8 × UInt16) (read : parseCmdFace action payload = some out) :
    ∃ f ∈ cmdFaces, f.action = action ∧ f.payload = payload ∧ out = (f.cmd,f.arg,0) := by
  obtain ⟨f,here,rfl⟩ := Option.map_eq_some_iff.mp read
  have same := List.find?_some here
  rw [Bool.and_eq_true,beq_iff_eq,beq_iff_eq] at same
  exact ⟨f,List.mem_of_find?_eq_some here,same.1,same.2,rfl⟩

theorem faceFromAction_same (action face : Bytes) (found : faceFromAction action = some face) : face = action := by
  obtain ⟨f,here,rfl⟩ := Option.map_eq_some_iff.mp found
  have same := List.find?_some here
  exact eq_of_beq same

theorem joined_length (node action : Bytes) : (cmdTopic node action).length = 14 + node.length + action.length := by
  obtain ⟨root,cmd,set⟩ := topic_words.2.2
  unfold cmdTopic joined joined joined joined joined
  simp only [List.length_append,List.length_cons,root,cmd,set]
  omega

theorem Denotes.topic_fits {topic payload : Bytes} {req : CommandRequest} (denotes : Denotes topic payload req) :
    topic.length ≠ 0 ∧ topic.length < maxTopicLen := by
  unfold maxTopicLen
  cases denotes with
  | command named _ told _ _ =>
      have node := (nodes_named _ named).2.2
      have action := (actions_told _ told).2.2
      rw [joined_length]
      dsimp only at node action
      omega
  | face named _ told _ =>
      have node := (nodes_named _ named).2.2
      have action := (faces_told _ told).2.2.2.2
      rw [joined_length]
      dsimp only at node action
      omega

theorem commandInbound_denotes (msg : InboundMessage) (req : CommandRequest) (asked : commandInbound msg = some req) :
    Denotes msg.topic msg.payload req := by
  unfold commandInbound at asked
  cases parsed : parseCmdTopic msg.topic with
  | none =>
      rw [parsed] at asked
      cases asked
  | some t =>
      obtain ⟨node,action,topic,known,kind⟩ := parseCmdTopic_cut msg.topic t parsed
      have named := table_row nodeTokens node t.nodeId known
      rw [parsed] at asked
      dsimp only at asked
      split at asked
      · cases asked
      · rename_i carried
        rw [Bool.not_eq_true,Bool.not_eq_false'] at carried
        rw [topic]
        rcases kind with ⟨told,plain⟩ | ⟨_,_,face,here,plain⟩
        · rw [plain] at asked
          dsimp only at asked
          cases read : parseCmdPayload msg.payload with
          | none =>
              rw [read] at asked
              cases asked
          | some args =>
              rw [read] at asked
              dsimp only [Option.map_some] at asked
              split at asked
              · cases asked
              · rename_i allowed
                cases asked
                rw [Bool.not_eq_true,Bool.not_eq_false'] at allowed
                exact .command named carried (table_row cmdActions action t.cmd told) allowed (parseCmdPayload_denotes _ _ _ read)
        · rw [plain] at asked
          dsimp only at asked
          cases read : parseCmdFace face msg.payload with
          | none =>
              rw [read] at asked
              cases asked
          | some out =>
              rw [read] at asked
              obtain ⟨f,row,action_same,payload_same,rfl⟩ := parseCmdFace_row face msg.payload out read
              dsimp only at asked
              split at asked
              · cases asked
              · rename_i allowed
                cases asked
                rw [Bool.not_eq_true,Bool.not_eq_false'] at allowed
                rw [← payload_same,← faceFromAction_same action face here,← action_same]
                exact .face named carried row allowed

theorem Denotes.asked {topic payload : Bytes} {req : CommandRequest} (denotes : Denotes topic payload req) (retained : Bool) :
    inboundRouter {topic := topic,payload := payload,retained := retained} = some req := by
  unfold inboundRouter commandInbound
  cases denotes with
  | command named known told allowed args =>
      obtain ⟨node,nodePlain,_⟩ := nodes_named _ named
      obtain ⟨action,actionPlain,_⟩ := actions_told _ told
      dsimp only at node nodePlain action actionPlain
      obtain ⟨config,vedirect⟩ := cmdTopic_routed _ _ nodePlain actionPlain
      simp [config,vedirect,parseCmdTopic_of _ _ nodePlain actionPlain,node,action,known,args.parsed,allowed]
  | face named known told allowed =>
      obtain ⟨node,nodePlain,_⟩ := nodes_named _ named
      obtain ⟨noCmd,face,parsed,actionPlain,_⟩ := faces_told _ told
      dsimp only at node nodePlain
      obtain ⟨config,vedirect⟩ := cmdTopic_routed _ _ nodePlain actionPlain
      simp [config,vedirect,parseCmdTopic_of _ _ nodePlain actionPlain,node,noCmd,face,known,parsed,allowed]

theorem inboundRouter_iff (topic payload : Bytes) (retained : Bool) (req : CommandRequest) :
    inboundRouter {topic := topic,payload := payload,retained := retained} = some req ↔ Denotes topic payload req := by
  refine ⟨fun asked => ?_,fun denotes => denotes.asked retained⟩
  unfold inboundRouter at asked
  split at asked
  · cases asked
  split at asked
  · cases asked
  split at asked
  · cases asked
  · exact commandInbound_denotes _ req asked

theorem oversized_asks_nothing (msg : InboundMessage) (big : msg.oversized = true) : inboundRouter msg = none := by
  unfold inboundRouter
  rw [if_pos big]
  exact ite_self none

end LoraRan.Bridge
