import LoraRan.Bridge.CommandPath
import LoraRan.Bridge.Registry

namespace LoraRan.Bridge
open Protocol

def token (s : String) : Bytes := s.toUTF8.toList

def maxTopicLen : Nat := 96
def maxInboundPayloadLen : Nat := 512

-- A topic is the bytes before its closing zero.
structure InboundMessage where
  topic : Bytes := []
  payload : Bytes := []
  retained : Bool := false
  oversized : Bool := false
  deriving DecidableEq

-- Refused, never truncated.
def makeInbound (topic payload : Bytes) : Option InboundMessage :=
  if topic.length = 0 ∨ maxTopicLen ≤ topic.length ∨ maxInboundPayloadLen ≤ payload.length then none
  else some {topic := topic,payload := payload}

structure InboundAssembler where
  msg : InboundMessage := {}
  expected : Nat := 0
  active : Bool := false
  skipping : Bool := false
  refused : UInt32 := 0

namespace InboundAssembler

-- A piece that continues the publication in progress.
def append (a : InboundAssembler) (piece : Bytes) : Option InboundMessage × InboundAssembler :=
  if a.expected < a.msg.payload.length + piece.length then
    (none,{a with refused := a.refused + 1,active := false,skipping := true})
  else
    let a := {a with msg := {a.msg with payload := a.msg.payload ++ piece}}
    if a.msg.payload.length ≠ a.expected then (none,a) else (some a.msg,{a with active := false})

-- A first piece refuses whatever the connection left part-assembled. The total is checked before any piece is kept.
def add (a : InboundAssembler) (topic piece : Bytes) (index total : Nat) : Option InboundMessage × InboundAssembler :=
  if index = 0 then
    let a := {a with refused := if a.active then a.refused + 1 else a.refused,active := false,skipping := false}
    match makeInbound topic [] with
    | none => (none,{a with refused := a.refused + 1,skipping := true})
    | some msg =>
        if maxInboundPayloadLen ≤ total then
          (some {msg with oversized := true},{a with msg := {msg with oversized := true},refused := a.refused + 1,skipping := true})
        else {a with msg := msg,expected := total,active := true}.append piece
  else if a.skipping then (none,a)
  else if !a.active ∨ index ≠ a.msg.payload.length then
    (none,{a with refused := if a.active then a.refused + 1 else a.refused,active := false,skipping := true})
  else a.append piece

end InboundAssembler

-- Topics.

def slash : UInt8 := 47

def afterSlash : Bytes → Option Bytes
  | [] => none
  | b :: rest => if b = slash then some rest else afterSlash rest

def segment : Bytes → Nat → Option Bytes
  | topic, 0 => some (topic.takeWhile fun b => b ≠ slash)
  | topic, index+1 => (afterSlash topic).bind fun rest => segment rest index

def segmentIs (topic : Bytes) (index : Nat) (want : Bytes) : Bool := segment topic index == some want

def topicRoot : Bytes := token "lran"

def nodeTokens : List (Bytes × NodeId) :=
  [(token "gatelink",0x01),(token "welllink",0x02),(token "simnode0",0xF0),(token "simnode1",0xF1),(token "simnode2",0xF2),(token "simnode3",0xF3)]

def nodeIdFromToken (tok : Bytes) : Option NodeId := (nodeTokens.find? fun row => row.1 == tok).map Prod.snd

def cmdActions : List (Bytes × UInt8) :=
  [(token "nop",cmdNop),(token "open",cmdOpen),(token "close",cmdClose),(token "hold_open",cmdHoldOpen),(token "release_hold",cmdReleaseHold),
    (token "request_status",cmdRequestStatus),(token "request_config",cmdRequestConfig),(token "set_debug_mode",cmdSetDebugMode),
    (token "set_relay_dry_run",cmdSetRelayDryRun),(token "set_bms_polling",cmdSetBmsPolling),(token "reboot",cmdReboot)]

def cmdFromAction (tok : Bytes) : Option UInt8 := (cmdActions.find? fun row => row.1 == tok).map Prod.snd

-- On a face's topic the payload names the command.
structure CmdFace where
  action : Bytes
  payload : Bytes
  cmd : UInt8
  arg : UInt8
  deriving DecidableEq

def cmdFaces : List CmdFace :=
  [⟨token "gate",token "OPEN",cmdOpen,0⟩,⟨token "gate",token "CLOSE",cmdClose,1⟩,⟨token "hold",token "ON",cmdHoldOpen,0⟩,
    ⟨token "hold",token "OFF",cmdReleaseHold,0⟩]

def faceFromAction (tok : Bytes) : Option Bytes := (cmdFaces.find? fun f => f.action == tok).map CmdFace.action

structure CmdTopic where
  nodeId : NodeId := 0
  cmd : UInt8 := 0
  face : Option Bytes := none
  deriving DecidableEq

-- Five segments, matched by position.
def parseCmdTopic (topic : Bytes) : Option CmdTopic :=
  if !segmentIs topic 0 topicRoot || !segmentIs topic 2 (token "cmd") || !segmentIs topic 4 (token "set") || (segment topic 5).isSome then none
  else match segment topic 1,segment topic 3 with
    | some node,some action =>
        match nodeIdFromToken node with
        | none => none
        | some id =>
            match cmdFromAction action with
            | some cmd => some {nodeId := id,cmd := cmd}
            | none => (faceFromAction action).map fun face => {nodeId := id,face := some face}
    | _,_ => none

-- `lran/<node>/config/set`: the bridge's own, or a node's.
def parseConfigTopic (topic : Bytes) : Option (Option NodeId) :=
  if !segmentIs topic 0 topicRoot || !segmentIs topic 2 (token "config") || !segmentIs topic 3 (token "set") || (segment topic 4).isSome then none
  else match segment topic 1 with
    | none => none
    | some node => if node = token "bridge" then some none else (nodeIdFromToken node).map some

inductive VedirectInbound where
  | hexRequest | writeEnableSet
  deriving DecidableEq, Repr

def parseVedirectTopic (topic : Bytes) : Option (NodeId × VedirectInbound) :=
  if !segmentIs topic 0 topicRoot || !segmentIs topic 2 (token "vedirect") || (segment topic 5).isSome then none
  else
    let kind : Option VedirectInbound :=
      if segmentIs topic 3 (token "hex") && segmentIs topic 4 (token "request") then some .hexRequest
      else if segmentIs topic 3 (token "write_enable") && segmentIs topic 4 (token "set") then some .writeEnableSet
      else none
    match kind,segment topic 1 with
    | some kind,some node => (nodeIdFromToken node).map fun id => (id,kind)
    | _,_ => none

-- Payloads.

def comma : UInt8 := 44

-- The digits' value so far, while it stays within the bound.
def digitsFrom (max : Nat) : Nat → Bytes → Option Nat
  | v, [] => some v
  | v, b :: rest =>
      if b < 48 ∨ 57 < b then none
      else if max < v * 10 + (b.toNat - 48) then none
      else digitsFrom max (v * 10 + (b.toNat - 48)) rest

def parseUint (field : Bytes) (max : Nat) : Option Nat := if field.length = 0 ∨ 5 < field.length then none else digitsFrom max 0 field

def parseCmdFace (action payload : Bytes) : Option (UInt8 × UInt8 × UInt16) :=
  (cmdFaces.find? fun f => f.action == action && f.payload == payload).map fun f => (f.cmd,f.arg,0)

def parseCmdPayload (payload : Bytes) : Option (UInt8 × UInt16) :=
  if payload.length = 0 then some (0,0)
  else if payload = token "PRESS" then some (0,0)
  else if payload = token "OFF" then some (0,0)
  else if payload = token "ON" then some (1,0)
  else
    let first := payload.takeWhile fun b => b ≠ comma
    match parseUint first 255 with
    | none => none
    | some a =>
        if payload.length = first.length then some (UInt8.ofNat a,0)
        else (parseUint (payload.drop (first.length + 1)) 65535).map fun b => (UInt8.ofNat a,UInt16.ofNat b)

-- The registry's node types and what each may be sent.

inductive NodeType where
  | gateLink | wellLink | simnode
  deriving DecidableEq, Repr

def nodeType (id : NodeId) : NodeType := if id = 0x01 then .gateLink else if id = 0x02 then .wellLink else .simnode

def commandAllowed (type : NodeType) (cmd : UInt8) : Bool :=
  if cmd = cmdNop ∨ cmd = cmdRequestStatus ∨ cmd = cmdRequestConfig ∨ cmd = cmdSetDebugMode ∨ cmd = cmdReboot then true
  else if cmd = cmdOpen ∨ cmd = cmdClose ∨ cmd = cmdHoldOpen ∨ cmd = cmdReleaseHold ∨ cmd = cmdSetRelayDryRun then
    decide (type = .gateLink ∨ type = .simnode)
  else if cmd = cmdSetBmsPolling then decide (type = .gateLink ∨ type = .simnode)
  else false

-- The request a message asks for. A node the registry does not carry has no key.
def commandInbound (msg : InboundMessage) : Option CommandRequest :=
  match parseCmdTopic msg.topic with
  | none => none
  | some topic =>
      if !registered topic.nodeId then none
      else
        let read : Option (UInt8 × UInt8 × UInt16) :=
          match topic.face with
          | some face => parseCmdFace face msg.payload
          | none => (parseCmdPayload msg.payload).map fun args => (topic.cmd,args.1,args.2)
        match read with
        | none => none
        | some (cmd,arg,arg2) => if !commandAllowed (nodeType topic.nodeId) cmd then none else some ⟨topic.nodeId,cmd,arg,arg2⟩

-- One sink for three topic families. What the configuration and the VE.Direct paths do with theirs is their own.
def inboundRouter (msg : InboundMessage) : Option CommandRequest :=
  if (parseConfigTopic msg.topic).isSome then none
  else if msg.oversized then none
  else if (parseVedirectTopic msg.topic).isSome then none
  else commandInbound msg

-- One piece of a publication, as the transport hands it over, and whether the command queue has room as it does.
structure Piece where
  topic : Bytes
  bytes : Bytes
  index : Nat
  total : Nat
  retained : Bool
  room : Bool

def sendCommand (room : Bool) (req : CommandRequest) : Option CommandRequest := if room then some req else none

-- The transport's callback: the request queued, if any.
def onPiece (a : InboundAssembler) (p : Piece) : Option CommandRequest × InboundAssembler :=
  match a.add p.topic p.bytes p.index p.total with
  | (none,a) => (none,a)
  | (some msg,a) => ((inboundRouter {msg with retained := p.retained}).bind (sendCommand p.room),a)

end LoraRan.Bridge
