import MgComm.Dci.Reports

/-!
# Requests from the driver, and their responses

Clients register tables of handlers (`diagpkt_tbl_reg`).  The read thread hands a
request from the driver to the first handler whose table covers it
(`diagpkt_LSM_process_request`), and what the handler returns is written back
(`diagpkt_commit`).  Clients also commit responses on their own, at any time.  A
request that has come over DCI has a tag, and its responses have to carry it.  A
response of version 2 may announce more responses under a delayed response id;
its id and its tag then wait in a circular list until the last of these is
committed (`diagpkt_delay_commit`).

`Exchange` says what the service is for, without pointers, blocks and bytes, and
the service refines it over whole runs (`packets_refine`).  No response carries a tag
that no request has brought (`tags_requested`).  The response which a handler returns
goes where its request has come from (`response_reaches_request`), and so do the delayed
responses it announces (`delayed_reaches_request`), however the clients' own commits
come in between.  The end of the service reads freed memory exactly if something is
still waited for (`packets_defined_iff`).

The driver is open, and `Diag_LSM_Pkt_DeInit` leaves it so.  Calls are made one at a
time, and what is not a packet is left to the other modules.  Left out are the mutexes,
the counter `gPkt_commit_fail` and the pattern behind a response.
-/

namespace MgComm
namespace Dci

universe u

open WireWords RingList StreamMachine

/-! ## The data -/

/-- `diagpkt_user_table_entry_type`; `H` is the type of handlers. -/
structure UserTableEntry (H : Type u) where
  cmdCodeLo : UInt16
  cmdCodeHi : UInt16
  /-- `func_ptr`, which may be `NULL`. -/
  funcPtr : Option H

/-- `diagpkt_user_table_type`, with the entries of `user_table`. -/
structure UserTable (H : Type u) where
  delayFlag : UInt16
  cmdCode : UInt16
  subsysid : UInt16
  userTable : List (UserTableEntry H)

/-- What `bindpkt_params` takes from a table; the rest is the same for all. -/
structure BindPktParams where
  cmdCode : UInt16
  subsysId : UInt16
  cmdCodeLo : UInt16
  cmdCodeHi : UInt16
  deriving DecidableEq

/-- The data of a `diag_dci_delayed_rsp_tbl_t`. -/
structure DelayedRsp where
  delayedRspId : UInt16
  dciTag : UInt32
  deriving DecidableEq

/-- What `prev` and `next` point to: `dci_delayed_rsp_tbl_head` or an allocated
entry. -/
inductive DelayedRef where
  | head
  | entry (addr : Nat)
  deriving DecidableEq

/-- What `malloc` gives: memory in use is never handed out again. -/
structure Allocation where
  addr : List Nat → Nat
  fresh : ∀ live, addr live ∉ live

/-- A response from `diagpkt_alloc`: the memory from `pkt` on, and `length`, which
leaves room for the headers. -/
structure RspItem where
  pkt : Nat → Byte
  length : Nat
  fits : length < 2 ^ 31

/-- `DIAG_SUBSYS_CMD_F` -/
def diagSubsysCmdF : Byte := 75

/-- `DIAG_SUBSYS_CMD_VER_2_F` -/
def diagSubsysCmdVer2F : Byte := 128

/-- A response from `diagpkt_delay_alloc`, which has written its command code. -/
structure DelayedItem where
  pkt : Nat → Byte
  length : Nat
  fits : length < 2 ^ 31
  ver2 : pkt 0 = diagSubsysCmdVer2F

/-- What the service does: it calls a handler with a request, writes to the
driver, or binds commands to the process. -/
inductive PacketOutput (H : Type u) where
  | called (f : H) (request : List Byte)
  | written (frame : List Byte)
  | bound (params : List BindPktParams)
  deriving DecidableEq

/-- The packet service and the read thread. -/
structure PacketService (H : Type u) where
  thread : ReadThread
  /-- The read thread is in a handler. -/
  handling : Bool
  /-- The used slots of `diagpkt_user_table`, which come first. -/
  userTable : List (UserTable H)
  pktType : Nat
  dciTag : UInt32
  links : Links DelayedRef
  /-- The data of an entry; the head has none. -/
  info : Nat → Option DelayedRsp
  /-- The entries that are allocated. -/
  live : List Nat
  /-- Memory that is not allocated was used, or a loop did not end. -/
  undefined : Bool

/-! ## The functions -/

/-- `PKT_TYPE` -/
def pktTypeRequest : Int := 0x8

/-- `DCI_PKT_TYPE` -/
def dciPktType : Int := 0x400

/-- `DIAG_DATA_TYPE_RESPONSE` -/
def diagDataTypeResponse : Nat := 3

/-- `DIAG_DATA_TYPE_DELAYED_RESPONSE` -/
def diagDataTypeDelayedResponse : Nat := 4

/-- `DIAG_DATA_TYPE_DCI_PKT`, which is also `DCI_PKT_TYPE`. -/
def diagDataTypeDciPkt : Nat := 0x400

/-- `DCI_PKT_RSP_CODE` -/
def dciPktRspCode : Byte := 0x93

/-- `DCI_DELAYED_RSP_CODE` -/
def dciDelayedRspCode : Byte := 0x94

/-- `DIAGPKT_NO_SUBSYS_ID` -/
def diagpktNoSubsysId : Byte := 0xFF

/-- `DIAGPKT_USER_TBL_SIZE` -/
def diagpktUserTblSize : Nat := 128

/-- `sizeof(diag_dci_pkt_header_t)` -/
def dciPktHeaderSize : Nat := 9

/-- `diagpkt_get_cmd_code` -/
def diagpktGetCmdCode (mem : Nat → Byte) (ptr : Nat) : Byte := mem ptr

/-- The packet has the header of a subsystem. -/
def hasSubsys (mem : Nat → Byte) (ptr : Nat) : Bool :=
  mem ptr == diagSubsysCmdF || mem ptr == diagSubsysCmdVer2F

/-- `diagpkt_subsys_get_id` -/
def diagpktSubsysGetId (mem : Nat → Byte) (ptr : Nat) : Byte :=
  if hasSubsys mem ptr then mem (ptr + 1) else 0xFF

/-- `diagpkt_subsys_get_cmd_code` -/
def diagpktSubsysGetCmdCode (mem : Nat → Byte) (ptr : Nat) : UInt16 :=
  if hasSubsys mem ptr then readUint16 mem (ptr + 2) else 0xFFFF

/-- `diagpkt_subsys_get_delayed_rsp_id`, of a packet of version 2. -/
def diagpktSubsysGetDelayedRspId (mem : Nat → Byte) (ptr : Nat) : UInt16 :=
  readUint16 mem (ptr + 8)

/-- `rsp_cnt` of a packet of version 2. -/
def rspCnt (mem : Nat → Byte) (ptr : Nat) : UInt16 := readUint16 mem (ptr + 10)

section Functions

variable {H : Type u}

/-- The service after `Diag_LSM_Pkt_Init`; the links of everything but the head are
whatever they are. -/
def PacketService.start (thread : ReadThread) (m : Links DelayedRef) : PacketService H where
  thread := thread
  handling := false
  userTable := []
  pktType := 0
  dciTag := 0
  links := initHead m .head
  info := fun _ => none
  live := []
  undefined := false

/-- `diag_dci_add_delayed_rsp`: without memory nothing is added. -/
def diagDciAddDelayedRsp (s : PacketService H) (id : UInt16) (tag : UInt32)
    (newEntry : Option Allocation) : PacketService H :=
  match newEntry with
  | none => s
  | some a =>
      let addr := a.addr s.live
      { s with
        links := insertTail s.links .head (.entry addr)
        info := Function.update s.info addr (some ⟨id, tag⟩)
        live := addr :: s.live }

/-- `walk_ptr->delayed_rsp_id == id` -/
def PacketService.matches (s : PacketService H) (id : UInt16) : DelayedRef → Bool
  | .head => false
  | .entry addr =>
      match s.info addr with
      | none => false
      | some d => d.delayedRspId == id

/-- `diag_dci_delayed_rsp_id_present` -/
def diagDciDelayedRspIdPresent (s : PacketService H) (id : UInt16) :
    Option (Option DelayedRef) :=
  walk s.links .head (s.matches id) (s.live.length + 1)

/-- `diag_dci_delete_delayed_rsp_entry` -/
def diagDciDeleteDelayedRspEntry (s : PacketService H) : DelayedRef → PacketService H
  | .head => { s with undefined := true }
  | .entry addr =>
      if addr ∈ s.live then
        { s with
          links := unlink s.links (.entry addr)
          info := Function.update s.info addr none
          live := s.live.erase addr }
      else { s with undefined := true }

/-- `diagpkt_tbl_reg`: the table is copied to the first free slot, and its commands
are bound, with a free slot or without. -/
def diagpktTblReg (s : PacketService H) (tbl : UserTable H) (bindReq slot : Bool) :
    PacketService H × List (PacketOutput H) :=
  let bound := tbl.userTable.map fun e =>
    ⟨tbl.cmdCode, tbl.subsysid, e.cmdCodeLo, e.cmdCodeHi⟩
  if bindReq then
    if s.userTable.length < diagpktUserTblSize then
      if slot then ({ s with userTable := s.userTable ++ [tbl] }, [.bound bound])
      else (s, [])
    else (s, [.bound bound])
  else (s, [])

/-- The loop over the entries of a table: `func_ptr` of the first with the code. -/
def searchEntries (packetId : UInt16) : List (UserTableEntry H) → Option (Option H)
  | [] => none
  | e :: es =>
      if e.cmdCodeLo ≤ packetId ∧ packetId ≤ e.cmdCodeHi then some e.funcPtr
      else searchEntries packetId es

/-- The loop over the tables. -/
def searchTables (subsysId cmdCode packetId : UInt16) :
    List (UserTable H) → Option (Option H)
  | [] => none
  | t :: ts =>
      if t.subsysid = subsysId ∧ t.cmdCode = cmdCode then
        match searchEntries packetId t.userTable with
        | some f => some f
        | none => searchTables subsysId cmdCode packetId ts
      else searchTables subsysId cmdCode packetId ts

/-- What `diagpkt_LSM_process_request` finds for the packet at an address: `func_ptr` of
the first entry for its command. -/
def findEntry (tables : List (UserTable H)) (mem : Nat → Byte) (requestPtr : Nat) :
    Option (Option H) :=
  let packetId := diagpktGetCmdCode mem requestPtr
  let cmdCode : UInt16 := if packetId = diagSubsysCmdVer2F then packetId.toUInt16 else 0xFF
  if packetId = diagSubsysCmdF ∨ packetId = diagSubsysCmdVer2F then
    searchTables (diagpktSubsysGetId mem requestPtr).toUInt16 cmdCode
      (diagpktSubsysGetCmdCode mem requestPtr) tables
  else searchTables diagpktNoSubsysId.toUInt16 cmdCode packetId.toUInt16 tables

/-- `diagpkt_LSM_process_request`, up to the call of the handler, for the types it
accepts. -/
def diagpktLsmProcessRequest (s : PacketService H) (mem : Nat → Byte) (reqPkt pktLen : Nat)
    (type : Int) : PacketService H × List (PacketOutput H) :=
  let s := { s with
    pktType := if type = pktTypeRequest then diagDataTypeResponse else diagDataTypeDciPkt
    dciTag := if type = dciPktType then UInt32.ofNat (readWord mem (reqPkt + 5) 4)
      else s.dciTag }
  let requestPtr := if type = dciPktType then reqPkt + dciPktHeaderSize else reqPkt
  match findEntry s.userTable mem requestPtr with
  | some (some f) => ({ s with handling := true }, [.called f (slice mem requestPtr pktLen)])
  | _ => (s, [])

/-- The branch of `process_diag_payload` for packets. -/
def processPackets (s : PacketService H) (numBytesRead : Int) :
    PacketService H × List (PacketOutput H) :=
  let type := readInt s.thread.mem s.thread.readBuffer
  if type = pktTypeRequest ∨ type = dciPktType then
    if numBytesRead < 4 then (s, [])
    else
      diagpktLsmProcessRequest s s.thread.mem (s.thread.readBuffer + 4)
        ((numBytesRead % 2 ^ 16 - 4) % 2 ^ 16).toNat type
  else (s, [])

/-- A turn of the read thread, with the packets. -/
def packetTurn (n turns : Nat) (s : PacketService H) (result : ReadResult) :
    PacketService H × List (PacketOutput H) :=
  let next := { s with thread := (readTurn n turns s.thread result).1 }
  match result with
  | .failed => (next, [])
  | .bytes bs =>
      if s.thread.state = .reading ∧ bs ≠ [] ∧ next.thread.state ≠ .exited then
        processPackets next bs.length
      else (next, [])

/-- `diagpkt_commit`; `temp` is the block for the frame. -/
def diagpktCommit (s : PacketService H) (rsp : RspItem) (newEntry : Option Allocation)
    (temp : Option (Nat → Byte)) : PacketService H × List (PacketOutput H) :=
  if rsp.length = 0 then (s, [])
  else
    let packet := slice rsp.pkt 0 rsp.length
    if s.pktType = diagDataTypeDciPkt then
      let delayed := diagpktGetCmdCode rsp.pkt 0 = diagSubsysCmdVer2F
      let dciCmdCodeLen := if delayed then 4 else 1
      let dciCmdCode := if delayed then dciDelayedRspCode else dciPktRspCode
      let next :=
        if delayed then
          diagDciAddDelayedRsp s (diagpktSubsysGetDelayedRspId rsp.pkt 0) s.dciTag newEntry
        else s
      match temp with
      | none => (next, [])
      | some block =>
          let block := writeBytes block 0 (wordBytes 4 s.pktType)
          -- Only one byte of the code is written, wherever the tag follows.
          let block := writeBytes block 4 [dciCmdCode]
          let block := writeBytes block (4 + dciCmdCodeLen) (wordBytes 4 s.dciTag.toNat)
          let block := writeBytes block (4 + dciCmdCodeLen + 4) packet
          (next, [.written (slice block 0 (4 + (rsp.length + (4 + dciCmdCodeLen))))])
    else
      match temp with
      | none => (s, [])
      | some block =>
          let block := writeBytes block 0 (wordBytes 4 s.pktType)
          let block := writeBytes block 4 packet
          (s, [.written (slice block 0 (4 + rsp.length))])

/-- `diagpkt_delay_commit` -/
def diagpktDelayCommit (s : PacketService H) (item : DelayedItem)
    (temp : Option (Nat → Byte)) : PacketService H × List (PacketOutput H) :=
  let packet := slice item.pkt 0 item.length
  let rspCount := rspCnt item.pkt 0
  match diagDciDelayedRspIdPresent s (diagpktSubsysGetDelayedRspId item.pkt 0) with
  | none => ({ s with undefined := true }, [])
  | some found =>
      if 0 < item.length then
        match found with
        | some (.entry addr) =>
            match temp, s.info addr with
            | none, _ => (s, [])
            | some _, none => ({ s with undefined := true }, [])
            | some block, some d =>
                let block := writeBytes block 0 (wordBytes 4 diagDataTypeDciPkt)
                let block := writeBytes block 4 (wordBytes 4 dciDelayedRspCode.toNat)
                let block := writeBytes block 8 (wordBytes 4 d.dciTag.toNat)
                let block := writeBytes block 12 packet
                -- The last response of a sequence deletes the entry.
                (if 0 < rspCount ∧ rspCount < 0x1000 then
                    diagDciDeleteDelayedRspEntry s (.entry addr)
                  else s,
                  [.written (slice block 0 (12 + item.length))])
        | _ =>
            (s, [.written (wordBytes 4 diagDataTypeDelayedResponse ++ packet)])
      else (s, [])

/-- `Diag_LSM_Pkt_DeInit`.  The loop over the entries reads `next` of each entry
after it has deleted it. -/
def diagLsmPktDeInit (s : PacketService H) : PacketService H :=
  let s := { s with userTable := [] }
  match s.links.next .head with
  | .head => s
  | .entry addr => { diagDciDeleteDelayedRspEntry s (.entry addr) with undefined := true }

end Functions

/-! ## Requests from the driver -/

/-- `DIAG_MAX_RX_PKT_SIZ`, the largest packet the driver allows. -/
def diagMaxRxPktSiz : Nat := 4096

/-- The command at the start of a packet. -/
inductive Command where
  | plain (code : Byte) (h : code ≠ diagSubsysCmdF ∧ code ≠ diagSubsysCmdVer2F)
  | subsys (id : Byte) (code : UInt16)
  | subsysVer2 (id : Byte) (code : UInt16)

/-- Its bytes. -/
def Command.encode : Command → List Byte
  | .plain code _ => [code]
  | .subsys id code => [diagSubsysCmdF, id] ++ wordBytes 2 code.toNat
  | .subsysVer2 id code => [diagSubsysCmdVer2F, id] ++ wordBytes 2 code.toNat

/-- The subsystem a table has to be for. -/
def Command.subsysId : Command → UInt16
  | .plain _ _ => 0xFF
  | .subsys id _ => id.toUInt16
  | .subsysVer2 id _ => id.toUInt16

/-- The command code a table has to be for. -/
def Command.tableCode : Command → UInt16
  | .subsysVer2 _ _ => 128
  | _ => 0xFF

/-- The code that is looked up in a table. -/
def Command.code : Command → UInt16
  | .plain code _ => code.toUInt16
  | .subsys _ code => code
  | .subsysVer2 _ code => code

/-- What comes before the packet of a request. -/
inductive RequestHeader where
  | tool
  | dci (start version : Byte) (length : UInt16) (code : Byte) (tag : UInt32)

/-- Where responses go. -/
inductive Route where
  /-- No request has come. -/
  | unset
  | tool
  | dci (tag : UInt32)
  deriving DecidableEq

/-- The type of the frames. -/
def Route.type : Route → Nat
  | .unset => 0
  | .tool => diagDataTypeResponse
  | .dci _ => diagDataTypeDciPkt

/-- The type of a request. -/
def RequestHeader.type : RequestHeader → Int
  | .tool => pktTypeRequest
  | .dci _ _ _ _ _ => dciPktType

/-- The bytes after the type. -/
def RequestHeader.encode : RequestHeader → List Byte
  | .tool => []
  | .dci start version length code tag =>
      [start, version] ++ (wordBytes 2 length.toNat ++ ([code] ++ wordBytes 4 tag.toNat))

/-- Where the responses to a request go. -/
def RequestHeader.route : RequestHeader → Route
  | .tool => .tool
  | .dci _ _ _ _ tag => .dci tag

/-- A request as the driver passes it on. -/
structure DriverRequest where
  header : RequestHeader
  command : Command
  data : List Byte
  fits : (command.encode ++ data).length ≤ diagMaxRxPktSiz

/-- The packet the client is to see. -/
def DriverRequest.packet (r : DriverRequest) : List Byte := r.command.encode ++ r.data

/-- The bytes of a request. -/
def DriverRequest.encode (r : DriverRequest) : List Byte :=
  intBytes r.header.type ++ (r.header.encode ++ r.packet)

/-- What happens: clients register and commit, the read thread takes up a request, or
comes back from a handler, and the service is left. -/
inductive PacketEvent (H : Type u) where
  | register (tbl : UserTable H) (bindReq slot : Bool)
  | request (r : DriverRequest)
  | returned (rsp : Option RspItem) (newEntry : Option Allocation)
      (temp : Option (Nat → Byte))
  | commit (rsp : RspItem) (newEntry : Option Allocation) (temp : Option (Nat → Byte))
  | delayCommit (item : DelayedItem) (temp : Option (Nat → Byte))
  | deInit

section Steps

variable {H : Type u}

/-- A step of the process.  The read thread takes up no request while it is in a
handler. -/
def packetStep (n turns : Nat) (s : PacketService H) :
    PacketEvent H → PacketService H × List (PacketOutput H)
  | .register tbl bindReq slot => diagpktTblReg s tbl bindReq slot
  | .request r => if s.handling then (s, []) else packetTurn n turns s (.bytes r.encode)
  | .returned rsp newEntry temp =>
      if s.handling then
        let s := { s with handling := false }
        match rsp with
        | none => (s, [])
        | some rsp => diagpktCommit s rsp newEntry temp
      else (s, [])
  | .commit rsp newEntry temp => diagpktCommit s rsp newEntry temp
  | .delayCommit item temp => diagpktDelayCommit s item temp
  | .deInit => (diagLsmPktDeInit s, [])

/-! ## What it is for -/

/-- The packet of a response. -/
def RspItem.packet (rsp : RspItem) : List Byte := slice rsp.pkt 0 rsp.length

/-- The response is of version 2. -/
def RspItem.isVer2 (rsp : RspItem) : Bool := rsp.pkt 0 == diagSubsysCmdVer2F

/-- Its delayed response id. -/
def RspItem.delayedRspId (rsp : RspItem) : UInt16 := readUint16 rsp.pkt 8

/-- The packet of a delayed response. -/
def DelayedItem.packet (item : DelayedItem) : List Byte := slice item.pkt 0 item.length

/-- Its delayed response id. -/
def DelayedItem.delayedRspId (item : DelayedItem) : UInt16 := readUint16 item.pkt 8

/-- It is the last one of its sequence. -/
def DelayedItem.isLast (item : DelayedItem) : Bool :=
  decide (0 < rspCnt item.pkt 0 ∧ rspCnt item.pkt 0 < 0x1000)

/-- The entries of a table that may be for a command. -/
def Command.entries (c : Command) (tbl : UserTable H) : List (UserTableEntry H) :=
  if tbl.subsysid = c.subsysId ∧ tbl.cmdCode = c.tableCode then tbl.userTable else []

/-- The entry is for the command. -/
def Command.covers (c : Command) (e : UserTableEntry H) : Bool :=
  decide (e.cmdCodeLo ≤ c.code ∧ c.code ≤ e.cmdCodeHi)

/-- The handler of a command: that of the first entry for it.  There is none if the
entry has none. -/
def handlerOf (tables : List (UserTable H)) (c : Command) : Option H :=
  ((tables.flatMap c.entries).find? c.covers).bind (·.funcPtr)

/-- What the clients and the driver see. -/
inductive Reply (H : Type u) where
  | request (f : H) (route : Route) (packet : List Byte)
  | plain (type : Nat) (packet : List Byte)
  | dci (code : Byte) (tag : UInt32) (packet : List Byte)
  | bound (params : List BindPktParams)
  deriving DecidableEq

/-- The exchange of requests and responses. -/
structure Exchange (H : Type u) where
  tables : List (UserTable H)
  /-- Where the last request has come from. -/
  route : Route
  /-- What delayed responses are announced for, oldest first. -/
  waiting : List DelayedRsp
  handling : Bool
  undefined : Bool

/-- Nothing has happened. -/
def Exchange.start : Exchange H := ⟨[], .unset, [], false, false⟩

/-- A response goes where the last request has come from. -/
def Exchange.commit (x : Exchange H) (rsp : RspItem) (added written : Bool) :
    Exchange H × List (Reply H) :=
  if rsp.length = 0 then (x, [])
  else
    match x.route with
    | .dci tag =>
        if rsp.isVer2 then
          (if added then { x with waiting := x.waiting ++ [⟨rsp.delayedRspId, tag⟩] } else x,
            if written then [.dci dciDelayedRspCode tag rsp.packet] else [])
        else (x, if written then [.dci dciPktRspCode tag rsp.packet] else [])
    | route => (x, if written then [.plain route.type rsp.packet] else [])

/-- The entry a delayed response belongs to. -/
def Exchange.waitingFor (x : Exchange H) (id : UInt16) : Option DelayedRsp :=
  x.waiting.find? (·.delayedRspId == id)

/-- A delayed response goes where it was announced. -/
def Exchange.delayCommit (x : Exchange H) (item : DelayedItem) (written : Bool) :
    Exchange H × List (Reply H) :=
  if item.length = 0 then (x, [])
  else
    match x.waitingFor item.delayedRspId with
    | none => (x, [.plain diagDataTypeDelayedResponse item.packet])
    | some d =>
        if written then
          (if item.isLast then
              { x with waiting := x.waiting.eraseP (·.delayedRspId == item.delayedRspId) }
            else x,
            [.dci dciDelayedRspCode d.dciTag item.packet])
        else (x, [])

/-- A step of the exchange. -/
def exchangeStep (x : Exchange H) : PacketEvent H → Exchange H × List (Reply H)
  | .register tbl bindReq slot =>
      let bound := tbl.userTable.map fun e =>
        ⟨tbl.cmdCode, tbl.subsysid, e.cmdCodeLo, e.cmdCodeHi⟩
      if bindReq then
        if x.tables.length < diagpktUserTblSize then
          if slot then ({ x with tables := x.tables ++ [tbl] }, [.bound bound])
          else (x, [])
        else (x, [.bound bound])
      else (x, [])
  | .request r =>
      if x.handling then (x, [])
      else
        let x := { x with route := r.header.route }
        match handlerOf x.tables r.command with
        | some f => ({ x with handling := true }, [.request f x.route r.packet])
        | none => (x, [])
  | .returned rsp newEntry temp =>
      if x.handling then
        let x := { x with handling := false }
        match rsp with
        | none => (x, [])
        | some rsp => x.commit rsp newEntry.isSome temp.isSome
      else (x, [])
  | .commit rsp newEntry temp => x.commit rsp newEntry.isSome temp.isSome
  | .delayCommit item temp => x.delayCommit item temp.isSome
  | .deInit =>
      -- One entry is deleted before freed memory is read.
      ({ x with
        tables := []
        waiting := x.waiting.tail
        undefined := x.undefined || !x.waiting.isEmpty }, [])

/-- A frame, on the driver's side. -/
def decodeReply (frame : List Byte) : Reply H :=
  let mem := writeBytes (fun _ => 0) 0 frame
  let type := readWord mem 0 4
  if type = diagDataTypeDciPkt then
    let pos := if mem 4 = dciDelayedRspCode then 8 else 5
    .dci (mem 4) (UInt32.ofNat (readWord mem pos 4)) (frame.drop (pos + 4))
  else .plain type (frame.drop 4)

/-- How many bytes a handler is told of beyond the packet: the length of a DCI request
counts the header, which comes before it. -/
def Route.excess : Route → Nat
  | .dci _ => dciPktHeaderSize
  | _ => 0

/-- What an output of the service stands for. -/
inductive PacketOutput.Means : PacketOutput H → Reply H → Prop where
  | called (f : H) (route : Route) (packet beyond : List Byte)
      (h : beyond.length = route.excess) :
      Means (.called f (packet ++ beyond)) (.request f route packet)
  | written (frame : List Byte) : Means (.written frame) (decodeReply frame)
  | bound (params : List BindPktParams) : Means (.bound params) (.bound params)

end Steps

/-! ## A request reaches the first handler for it -/

section Requests

variable {H : Type u}

theorem searchEntries_eq (c : Command) (es : List (UserTableEntry H)) :
    searchEntries c.code es = (es.find? c.covers).map (·.funcPtr) := by
  induction es with
  | nil => rfl
  | cons e es ih =>
      by_cases hCovers : e.cmdCodeLo ≤ c.code ∧ c.code ≤ e.cmdCodeHi
      · have hFirst : c.covers e = true := decide_eq_true hCovers
        rw [searchEntries, if_pos hCovers, List.find?_cons_of_pos hFirst]
        rfl
      · have hOther : ¬ c.covers e = true := by simpa [Command.covers] using hCovers
        rw [searchEntries, if_neg hCovers, List.find?_cons_of_neg hOther, ih]

theorem searchTables_eq (c : Command) (tables : List (UserTable H)) :
    searchTables c.subsysId c.tableCode c.code tables =
      ((tables.flatMap c.entries).find? c.covers).map (·.funcPtr) := by
  induction tables with
  | nil => rfl
  | cons t ts ih =>
      rw [List.flatMap_cons, List.find?_append, searchTables, ih, Command.entries]
      by_cases hTable : t.subsysid = c.subsysId ∧ t.cmdCode = c.tableCode
      · rw [if_pos hTable, if_pos hTable, searchEntries_eq]
        cases t.userTable.find? c.covers with
        | none => rfl
        | some e => rfl
      · rw [if_neg hTable, if_neg hTable]
        rfl

theorem readUint16_eq {mem : Nat → Byte} {addr : Nat} {x : UInt16}
    (h : Holds mem addr (wordBytes 2 x.toNat)) : readUint16 mem addr = x :=
  UInt16.toNat_inj.mp (readUint16_wordBytes h x.toNat_lt)

/-- The search is for the command at the start of the packet. -/
theorem findEntry_eq {c : Command} {mem : Nat → Byte} {ptr : Nat}
    (h : Holds mem ptr c.encode) (tables : List (UserTable H)) :
    findEntry tables mem ptr = ((tables.flatMap c.entries).find? c.covers).map (·.funcPtr) := by
  rw [← searchTables_eq]
  unfold findEntry diagpktGetCmdCode
  cases c with
  | plain code hCode =>
      have hFirst : mem ptr = code := h.1
      simp only [hFirst, hCode.1, hCode.2, if_false, or_self]
      rfl
  | subsys id code =>
      obtain ⟨hFirst, hId, hWord⟩ := h
      have hSubsys : hasSubsys mem ptr = true := by simp [hasSubsys, hFirst]
      have hNot : diagSubsysCmdF ≠ diagSubsysCmdVer2F := by decide
      simp only [hFirst, if_neg hNot, true_or, if_true, diagpktSubsysGetId,
        diagpktSubsysGetCmdCode, hSubsys, hId, readUint16_eq hWord]
      rfl
  | subsysVer2 id code =>
      obtain ⟨hFirst, hId, hWord⟩ := h
      have hSubsys : hasSubsys mem ptr = true := by simp [hasSubsys, hFirst]
      simp only [hFirst, or_true, if_true, diagpktSubsysGetId,
        diagpktSubsysGetCmdCode, hSubsys, hId, readUint16_eq hWord]
      rfl

/-- The tag of a request, or else the last one. -/
def RequestHeader.tag : RequestHeader → UInt32 → UInt32
  | .tool, last => last
  | .dci _ _ _ _ tag, _ => tag

/-- The service after it has looked up a request. -/
def PacketService.lookedUp (s : PacketService H) (header : RequestHeader) : PacketService H :=
  { s with pktType := header.route.type, dciTag := header.tag s.dciTag }

theorem RequestHeader.length_encode (header : RequestHeader) :
    header.encode.length = header.route.excess := by
  cases header with
  | tool => rfl
  | dci start version length code tag =>
      simp [RequestHeader.encode, RequestHeader.route, Route.excess, dciPktHeaderSize]

theorem RequestHeader.type_cases (header : RequestHeader) :
    header.type = pktTypeRequest ∨ header.type = dciPktType := by
  cases header with
  | tool => exact Or.inl rfl
  | dci start version length code tag => exact Or.inr rfl

/-- Requests neither end the read thread nor carry data. -/
theorem RequestHeader.type_bounds (header : RequestHeader) :
    header.type ≠ deinitType ∧ header.type ≠ dciDataType ∧ -2 ^ 31 ≤ header.type ∧
      header.type < 2 ^ 31 := by
  rcases header.type_cases with hTool | hDci
  · rw [hTool]
    decide
  · rw [hDci]
    decide

/-- The tag is read where the header has it. -/
theorem RequestHeader.read_tag {header : RequestHeader} {mem : Nat → Byte} {ptr : Nat}
    (h : Holds mem ptr header.encode) (last : UInt32) :
    (if header.type = dciPktType then UInt32.ofNat (readWord mem (ptr + 5) 4) else last) =
      header.tag last := by
  cases header with
  | tool => rfl
  | dci start version length code tag =>
      simp only [RequestHeader.encode, holds_append, length_wordBytes, List.length_cons,
        List.length_nil] at h
      obtain ⟨-, -, -, hWord⟩ := h
      have hRead : readWord mem (ptr + 5) 4 = tag.toNat :=
        readWord_wordBytes hWord tag.toNat_lt
      rw [hRead, UInt32.ofNat_toNat]
      rfl

theorem DriverRequest.length_encode (r : DriverRequest) :
    r.encode.length = (r.header.encode ++ r.packet).length + 4 := by
  rw [DriverRequest.encode, List.length_append, length_intBytes, Nat.add_comm]

theorem DriverRequest.length_encode_lt (r : DriverRequest) : r.encode.length < 2 ^ 16 := by
  have hFits := r.fits
  have hExcess : r.header.route.excess ≤ 9 := by
    cases r.header with
    | tool => decide
    | dci start version length code tag => exact Nat.le_refl 9
  rw [r.length_encode, List.length_append, r.header.length_encode, DriverRequest.packet]
  simp only [diagMaxRxPktSiz] at hFits
  omega

/-- The length of a packet goes through an `uint16`. -/
theorem pktLen_eq {length : Nat} (hLow : 4 ≤ length) (hHigh : length < 2 ^ 16) :
    (((length : Int) % 2 ^ 16 - 4) % 2 ^ 16).toNat = length - 4 := by
  omega

/-- The handler is called with the packet and, after a DCI header, with as many bytes
more as the header has. -/
theorem diagpktLsmProcessRequest_eq (s : PacketService H) {mem : Nat → Byte} {ptr : Nat}
    (r : DriverRequest) (h : Holds mem ptr (r.header.encode ++ r.packet)) :
    ∃ beyond : List Byte, beyond.length = r.header.route.excess ∧
      diagpktLsmProcessRequest s mem ptr (r.header.encode ++ r.packet).length r.header.type =
        match handlerOf s.userTable r.command with
        | some f =>
            ({ s.lookedUp r.header with handling := true }, [.called f (r.packet ++ beyond)])
        | none => (s.lookedUp r.header, []) := by
  rw [holds_append] at h
  obtain ⟨hHeader, hPacket⟩ := h
  set requestPtr := ptr + r.header.encode.length with hPtr
  refine ⟨slice mem (requestPtr + r.packet.length) r.header.route.excess, length_slice _, ?_⟩
  have hCommand : Holds mem requestPtr r.command.encode := (holds_append.mp hPacket).1
  have hSlice : slice mem requestPtr (r.header.encode ++ r.packet).length =
      r.packet ++ slice mem (requestPtr + r.packet.length) r.header.route.excess := by
    rw [List.length_append, Nat.add_comm, slice_add, hPacket.slice_eq, r.header.length_encode]
  have hFound := findEntry_eq hCommand s.userTable
  have hStart : (if r.header.type = dciPktType then ptr + dciPktHeaderSize else ptr) =
      requestPtr := by
    rw [hPtr, r.header.length_encode]
    cases r.header with
    | tool => rfl
    | dci start version length code tag => rfl
  have hType : (if r.header.type = pktTypeRequest then diagDataTypeResponse
      else diagDataTypeDciPkt) = r.header.route.type := by
    cases r.header with
    | tool => rfl
    | dci start version length code tag => rfl
  unfold diagpktLsmProcessRequest
  simp only [hStart, hType, RequestHeader.read_tag hHeader, hFound, hSlice, handlerOf]
  cases ((s.userTable.flatMap r.command.entries).find? r.command.covers) with
  | none => rfl
  | some e =>
      simp only [Option.map_some, Option.bind_some]
      cases e.funcPtr with
      | none => rfl
      | some f => rfl

/-- Step lemma: the read thread hands a request over and goes on reading. -/
theorem packetTurn_request {n turns : Nat} (s : PacketService H)
    (hReading : s.thread.state = .reading) (r : DriverRequest) :
    ∃ (thread : ReadThread) (beyond : List Byte), thread.state = .reading ∧
      beyond.length = r.header.route.excess ∧
      packetTurn n turns s (.bytes r.encode) =
        let next := { s with thread := thread }.lookedUp r.header
        match handlerOf s.userTable r.command with
        | some f => ({ next with handling := true }, [.called f (r.packet ++ beyond)])
        | none => (next, []) := by
  obtain ⟨hNotDeinit, hNotData, hLow, hHigh⟩ := r.header.type_bounds
  have hNonempty : r.encode ≠ [] := ne_nil_of_type (rfl : r.encode = intBytes r.header.type ++ _)
  obtain ⟨hMem, hBuffer⟩ := @readTurn_memory n turns s.thread hReading r.encode hNonempty
  have hState := @readTurn_type n turns s.thread hReading r.header.type r.encode _ rfl
    hNotDeinit hNotData hLow hHigh
  set thread := (readTurn n turns s.thread (.bytes r.encode)).1 with hThread
  have hHolds : Holds thread.mem thread.readBuffer r.encode := by
    rw [hMem, hBuffer]
    exact holds_writeBytes _ _ _
  obtain ⟨hRead, hRest⟩ := readInt_type hHolds hLow hHigh
  have hLength := r.length_encode
  obtain ⟨beyond, hBeyond, hRequest⟩ :=
    diagpktLsmProcessRequest_eq { s with thread := thread } r hRest
  refine ⟨thread, beyond, hState, hBeyond, ?_⟩
  have hGoesOn : s.thread.state = .reading ∧ r.encode ≠ [] ∧ thread.state ≠ .exited :=
    ⟨hReading, hNonempty, by rw [hState]; decide⟩
  refine Eq.trans ?_ hRequest
  simp only [packetTurn, ← hThread]
  rw [if_pos hGoesOn]
  simp only [processPackets, hRead]
  rw [if_pos r.header.type_cases, if_neg (by omega), pktLen_eq (by omega) r.length_encode_lt,
    hLength, Nat.add_sub_cancel]

end Requests

/-! ## Frames are decoded as what they answer -/

section Frames

variable {H : Type u}

/-- A frame without a tag. -/
theorem decodeReply_plain {type : Nat} (hSmall : type < 256 ^ 4)
    (hPlain : type ≠ diagDataTypeDciPkt) (packet : List Byte) :
    (decodeReply (wordBytes 4 type ++ packet) : Reply H) = .plain type packet := by
  have hHolds := holds_writeBytes (fun _ => 0) 0 (wordBytes 4 type ++ packet)
  have hType := readWord_wordBytes (holds_append.mp hHolds).1 hSmall
  simp only [decodeReply, hType]
  rw [if_neg hPlain, List.drop_left' (length_wordBytes 4 type)]

/-- How many bytes behind the code of a DCI frame are not its own. -/
def staleLength (code : Byte) : Nat := if code = dciDelayedRspCode then 3 else 0

/-- A frame with a tag. -/
theorem decodeReply_dci {code : Byte} {stale : List Byte} (hStale : stale.length = staleLength code)
    (tag : UInt32) (packet : List Byte) :
    (decodeReply (wordBytes 4 diagDataTypeDciPkt ++ ([code] ++ (stale ++
      (wordBytes 4 tag.toNat ++ packet)))) : Reply H) = .dci code tag packet := by
  set frame := wordBytes 4 diagDataTypeDciPkt ++ ([code] ++ (stale ++
    (wordBytes 4 tag.toNat ++ packet))) with hFrame
  have hHolds := holds_writeBytes (fun _ => 0) 0 frame
  simp only [decodeReply]
  set mem := writeBytes (fun _ => 0) 0 frame
  simp only [hFrame, holds_append, length_wordBytes, List.length_singleton, hStale] at hHolds
  obtain ⟨hType, ⟨hCode, -⟩, -, hTag, -⟩ := hHolds
  have hTypeRead : readWord mem 0 4 = diagDataTypeDciPkt :=
    readWord_wordBytes hType (by decide)
  have hCodeRead : mem 4 = code := hCode
  have hPos : (if code = dciDelayedRspCode then 8 else 5) = 0 + 4 + 1 + staleLength code := by
    unfold staleLength
    split
    · rfl
    · rfl
  have hTagRead : readWord mem (0 + 4 + 1 + staleLength code) 4 = tag.toNat :=
    readWord_wordBytes hTag tag.toNat_lt
  have hPacket : frame.drop (0 + 4 + 1 + staleLength code + 4) = packet := by
    rw [hFrame, ← List.append_assoc, ← List.append_assoc, ← List.append_assoc]
    refine List.drop_left' ?_
    simp only [List.length_append, length_wordBytes, List.length_singleton, hStale]
  rw [hTypeRead, if_pos rfl, hCodeRead, hPos, hTagRead, hPacket, UInt32.ofNat_toNat]

/-- What is written right behind a string makes it longer. -/
theorem holds_writeBytes_append {mem : Nat → Byte} {a addr : Nat} {bs : List Byte}
    (h : Holds mem a bs) (hNext : a + bs.length = addr) (xs : List Byte) :
    Holds (writeBytes mem addr xs) a (bs ++ xs) := by
  rw [holds_append, hNext]
  exact ⟨holds_writeBytes_beyond h (Nat.le_of_eq hNext), holds_writeBytes _ _ _⟩

/-- The frame of a response over DCI: behind the code the block may keep what was in
it. -/
theorem slice_dciFrame (block : Nat → Byte) (code : Byte) (k : Nat) (tag : UInt32)
    (packet : List Byte) :
    ∃ stale : List Byte, stale.length = k ∧
      slice (writeBytes (writeBytes (writeBytes (writeBytes block 0
          (wordBytes 4 diagDataTypeDciPkt)) 4 [code]) (4 + (k + 1)) (wordBytes 4 tag.toNat))
            (4 + (k + 1) + 4) packet) 0 (4 + (packet.length + (4 + (k + 1)))) =
        wordBytes 4 diagDataTypeDciPkt ++ ([code] ++ (stale ++
          (wordBytes 4 tag.toNat ++ packet))) := by
  have hTyped := holds_writeBytes block 0 (wordBytes 4 diagDataTypeDciPkt)
  have hCoded := holds_writeBytes_append hTyped (by simp : _ = 4) [code]
  set coded := writeBytes (writeBytes block 0 (wordBytes 4 diagDataTypeDciPkt)) 4 [code]
  have hStale : Holds coded 0 (wordBytes 4 diagDataTypeDciPkt ++ [code] ++ slice coded 5 k) :=
    holds_append.mpr ⟨hCoded, by simpa using holds_slice k⟩
  have hTagged := holds_writeBytes_append hStale
    (by simp : _ = 4 + (k + 1)) (wordBytes 4 tag.toNat)
  have hFrame := holds_writeBytes_append hTagged (by simp; omega : _ = 4 + (k + 1) + 4) packet
  refine ⟨slice coded 5 k, length_slice k, ?_⟩
  have hSlice := hFrame.slice_eq
  simp only [List.append_assoc] at hSlice
  rw [← hSlice]
  congr 1
  simp only [List.length_append, length_wordBytes, List.length_singleton, length_slice]
  omega

/-- The frame of a delayed response over DCI; its code is a word. -/
theorem slice_delayedFrame (block : Nat → Byte) (tag : UInt32) (packet : List Byte) :
    slice (writeBytes (writeBytes (writeBytes (writeBytes block 0
        (wordBytes 4 diagDataTypeDciPkt)) 4 (wordBytes 4 dciDelayedRspCode.toNat)) 8
          (wordBytes 4 tag.toNat)) 12 packet) 0 (12 + packet.length) =
      wordBytes 4 diagDataTypeDciPkt ++ ([dciDelayedRspCode] ++ ([0, 0, 0] ++
        (wordBytes 4 tag.toNat ++ packet))) := by
  have hTyped := holds_writeBytes block 0 (wordBytes 4 diagDataTypeDciPkt)
  have hCoded := holds_writeBytes_append hTyped (by simp : _ = 4)
    (wordBytes 4 dciDelayedRspCode.toNat)
  have hTagged := holds_writeBytes_append hCoded (by simp : _ = 8) (wordBytes 4 tag.toNat)
  have hFrame := holds_writeBytes_append hTagged (by simp : _ = 12) packet
  have hSlice := hFrame.slice_eq
  have hWord : wordBytes 4 dciDelayedRspCode.toNat = [dciDelayedRspCode] ++ [0, 0, 0] := by
    decide
  simp only [hWord, List.append_assoc] at hSlice ⊢
  rw [← hSlice]
  congr 1
  simp only [List.length_append, length_wordBytes, List.length_cons, List.length_nil]
  omega

theorem decodeReply_commit (block : Nat → Byte) {type : Nat} (hSmall : type < 256 ^ 4)
    (hPlain : type ≠ diagDataTypeDciPkt) (packet : List Byte) :
    (decodeReply (slice (writeBytes (writeBytes block 0 (wordBytes 4 type)) 4 packet) 0
      (4 + packet.length)) : Reply H) = .plain type packet := by
  have hTyped := holds_writeBytes block 0 (wordBytes 4 type)
  have hFrame := (holds_writeBytes_append hTyped (by simp : _ = 4) packet).slice_eq
  rw [List.length_append, length_wordBytes] at hFrame
  rw [hFrame, decodeReply_plain hSmall hPlain]

theorem decodeReply_dciCommit (block : Nat → Byte) {code : Byte} {k : Nat}
    (hStale : k = staleLength code) (tag : UInt32) (packet : List Byte) :
    (decodeReply (slice (writeBytes (writeBytes (writeBytes (writeBytes block 0
        (wordBytes 4 diagDataTypeDciPkt)) 4 [code]) (4 + (k + 1)) (wordBytes 4 tag.toNat))
          (4 + (k + 1) + 4) packet) 0 (4 + (packet.length + (4 + (k + 1))))) : Reply H) =
      .dci code tag packet := by
  obtain ⟨stale, hLength, hFrame⟩ := slice_dciFrame block code k tag packet
  rw [hFrame, decodeReply_dci (hLength.trans hStale)]

theorem decodeReply_delayedCommit (block : Nat → Byte) (tag : UInt32) (packet : List Byte) :
    (decodeReply (slice (writeBytes (writeBytes (writeBytes (writeBytes block 0
        (wordBytes 4 diagDataTypeDciPkt)) 4 (wordBytes 4 dciDelayedRspCode.toNat)) 8
          (wordBytes 4 tag.toNat)) 12 packet) 0 (12 + packet.length)) : Reply H) =
      .dci dciDelayedRspCode tag packet := by
  rw [slice_delayedFrame, decodeReply_dci rfl]

theorem means_written {frame : List Byte} {reply : Reply H} (h : decodeReply frame = reply) :
    PacketOutput.Means (.written frame) reply :=
  h ▸ .written frame

end Frames

/-! ## The service is where the exchange is -/

section Carries

variable {H : Type u}

/-- The service does what the exchange does, with the given nodes in its circular
list. -/
structure Carries (s : PacketService H) (x : Exchange H) (nodes : List (Nat × DelayedRsp)) :
    Prop where
  reading : s.thread.state = .reading
  handling : s.handling = x.handling
  tables : s.userTable = x.tables
  type : s.pktType = x.route.type
  tag : ∀ tag, x.route = .dci tag → s.dciTag = tag
  ring : IsRing s.links .head (nodes.map fun p => .entry p.1)
  info : ∀ p ∈ nodes, s.info p.1 = some p.2
  live : s.live.Perm (nodes.map Prod.fst)
  waiting : x.waiting = nodes.map Prod.snd
  undefined : s.undefined = x.undefined

variable {s : PacketService H} {x : Exchange H} {nodes : List (Nat × DelayedRsp)}

theorem Carries.nodup (h : Carries s x nodes) : (nodes.map Prod.fst).Nodup := by
  have hNodes := (List.nodup_cons.mp h.ring.nodup).2
  rw [show (nodes.map fun p => DelayedRef.entry p.1) =
    (nodes.map Prod.fst).map DelayedRef.entry by simp] at hNodes
  exact hNodes.of_map

theorem carries_start {thread : ReadThread} (hReading : thread.state = .reading)
    (m : Links DelayedRef) :
    Carries (PacketService.start thread m : PacketService H) Exchange.start [] where
  reading := hReading
  handling := rfl
  tables := rfl
  type := rfl
  tag _ h := by simp [Exchange.start] at h
  ring := isRing_nil ((initHead_links m .head .head).1.trans (if_pos rfl))
    ((initHead_links m .head .head).2.trans (if_pos rfl))
  info _ hMem := absurd hMem List.not_mem_nil
  live := List.Perm.refl []
  waiting := rfl
  undefined := rfl

/-- An entry goes to the end of the list. -/
theorem Carries.addDelayedRsp (h : Carries s x nodes) (id : UInt16) (tag : UInt32)
    (a : Allocation) :
    Carries (diagDciAddDelayedRsp s id tag (some a))
      { x with waiting := x.waiting ++ [⟨id, tag⟩] }
      (nodes ++ [(a.addr s.live, ⟨id, tag⟩)]) := by
  have hFresh : a.addr s.live ∉ nodes.map Prod.fst := fun hMem =>
    a.fresh s.live (h.live.mem_iff.mpr hMem)
  have hOther {p : Nat × DelayedRsp} (hMem : p ∈ nodes) : p.1 ≠ a.addr s.live := fun hEq =>
    hFresh (hEq ▸ List.mem_map_of_mem hMem)
  refine { h with tag := h.tag, ring := ?_, info := ?_, live := ?_, waiting := ?_ }
  · rw [List.map_append]
    refine h.ring.insertTail ?_
    simp only [List.mem_cons, List.mem_map, reduceCtorEq, false_or, DelayedRef.entry.injEq,
      not_exists, not_and]
    exact fun p hMem hEq => hOther hMem hEq
  · intro p hMem
    rcases List.mem_append.mp hMem with hOld | hNew
    · exact (Function.update_of_ne (hOther hOld) _ _).trans (h.info p hOld)
    · obtain rfl := List.mem_singleton.mp hNew
      exact Function.update_self _ _ _
  · rw [List.map_append]
    exact (h.live.cons _).trans (List.perm_append_singleton _ _).symm
  · rw [List.map_append, ← h.waiting]
    rfl

/-- The search finds the first entry with the id. -/
theorem Carries.delayedRspIdPresent (h : Carries s x nodes) (id : UInt16) :
    diagDciDelayedRspIdPresent s id =
      some ((nodes.find? (·.2.delayedRspId == id)).map fun p => .entry p.1) := by
  have hLength : s.live.length = nodes.length := by
    rw [h.live.length_eq, List.length_map]
  have hWalk := h.ring.walk (s.matches id)
    (by rw [List.length_map, hLength]; exact Nat.lt_succ_self _ :
      (nodes.map fun p => DelayedRef.entry p.1).length < s.live.length + 1)
  rw [diagDciDelayedRspIdPresent, hWalk, List.find?_map]
  refine congrArg (fun found => some (Option.map _ found)) (List.find?_congr ?_)
  intro p hMem
  simp [PacketService.matches, h.info p hMem]

theorem Carries.waitingFor (h : Carries s x nodes) (id : UInt16) :
    x.waitingFor id = (nodes.find? (·.2.delayedRspId == id)).map Prod.snd := by
  rw [Exchange.waitingFor, h.waiting, List.find?_map]
  rfl

theorem Carries.not_waiting (h : Carries s x nodes) {id : UInt16}
    (hAbsent : diagDciDelayedRspIdPresent s id = some none) : x.waitingFor id = none := by
  rw [h.delayedRspIdPresent] at hAbsent
  rw [h.waitingFor]
  cases hFound : nodes.find? (·.2.delayedRspId == id) with
  | none => rfl
  | some p => simp [hFound] at hAbsent

/-- An entry is taken out of the list. -/
theorem Carries.deleteDelayedRsp {before after : List (Nat × DelayedRsp)} {addr : Nat}
    {d : DelayedRsp} (h : Carries s x (before ++ (addr, d) :: after)) :
    Carries (diagDciDeleteDelayedRspEntry s (.entry addr))
      { x with waiting := (before ++ after).map Prod.snd } (before ++ after) := by
  have hNodup := h.nodup
  rw [List.map_append, List.map_cons, List.nodup_middle] at hNodup
  obtain ⟨hOnce, -⟩ := List.nodup_cons.mp hNodup
  have hLive : addr ∈ s.live := h.live.mem_iff.mpr (by simp)
  rw [diagDciDeleteDelayedRspEntry, if_pos hLive]
  refine { h with tag := h.tag, ring := ?_, info := ?_, live := ?_, waiting := rfl }
  · have hRing := h.ring
    rw [List.map_append, List.map_cons] at hRing
    rw [List.map_append]
    exact hRing.unlink
  · intro p hMem
    have hNe : p.1 ≠ addr := by
      rintro rfl
      rw [← List.map_append] at hOnce
      exact hOnce (List.mem_map.mpr ⟨p, hMem, rfl⟩)
    have hOld : p ∈ before ++ (addr, d) :: after := by
      rcases List.mem_append.mp hMem with hBefore | hAfter
      · exact List.mem_append_left _ hBefore
      · exact List.mem_append_right _ (List.mem_cons_of_mem _ hAfter)
    exact (Function.update_of_ne hNe _ _).trans (h.info p hOld)
  · have hErase := h.live.erase addr
    rw [List.map_append, List.map_cons, List.erase_append_right _ (by
      exact fun hMem => hOnce (List.mem_append_left _ hMem)), List.erase_cons_head,
      ← List.map_append] at hErase
    exact hErase

theorem Route.type_plain {route : Route} (h : ∀ tag, route ≠ .dci tag) :
    route.type < 256 ^ 4 ∧ route.type ≠ diagDataTypeDciPkt := by
  cases route with
  | unset => decide
  | tool => decide
  | dci tag => exact absurd rfl (h tag)

theorem Exchange.commit_plain (h : ∀ tag, x.route ≠ .dci tag) {rsp : RspItem}
    (hLength : rsp.length ≠ 0) (added written : Bool) :
    x.commit rsp added written =
      (x, if written then [.plain x.route.type rsp.packet] else []) := by
  rw [Exchange.commit, if_neg hLength]
  split
  · rename_i tag hRoute
    exact absurd hRoute (h tag)
  · rfl

theorem Exchange.commit_dci {tag : UInt32} (h : x.route = .dci tag) {rsp : RspItem}
    (hLength : rsp.length ≠ 0) (added written : Bool) :
    x.commit rsp added written =
      (if rsp.isVer2 ∧ added then { x with waiting := x.waiting ++ [⟨rsp.delayedRspId, tag⟩] }
        else x,
      if written then
        [.dci (if rsp.isVer2 then dciDelayedRspCode else dciPktRspCode) tag rsp.packet]
      else []) := by
  rw [Exchange.commit, if_neg hLength, h]
  cases rsp.isVer2 with
  | true => cases added <;> rfl
  | false => rfl

/-- A committed response is written with the type of the last request, and over DCI
with its tag. -/
theorem Carries.commit (h : Carries s x nodes) (rsp : RspItem) (newEntry : Option Allocation)
    (temp : Option (Nat → Byte)) :
    ∃ nodes', Carries (diagpktCommit s rsp newEntry temp).1
        (x.commit rsp newEntry.isSome temp.isSome).1 nodes' ∧
      List.Forall₂ PacketOutput.Means (diagpktCommit s rsp newEntry temp).2
        (x.commit rsp newEntry.isSome temp.isSome).2 := by
  by_cases hEmpty : rsp.length = 0
  · rw [diagpktCommit, if_pos hEmpty, Exchange.commit, if_pos hEmpty]
    exact ⟨nodes, h, List.Forall₂.nil⟩
  rw [diagpktCommit, if_neg hEmpty]
  have hLength : rsp.packet.length = rsp.length := length_slice rsp.length
  by_cases hDci : ∃ tag, x.route = .dci tag
  · obtain ⟨tag, hRoute⟩ := hDci
    have hType : s.pktType = diagDataTypeDciPkt := by rw [h.type, hRoute]; rfl
    rw [x.commit_dci hRoute hEmpty]
    simp only [hType, h.tag tag hRoute, if_true, diagpktGetCmdCode]
    -- A response of version 2 is waited for, and its tag is further back.
    by_cases hVer2 : rsp.pkt 0 = diagSubsysCmdVer2F
    · have hIs : rsp.isVer2 = true := by simp [RspItem.isVer2, hVer2]
      simp only [hVer2, hIs, if_true, true_and]
      obtain ⟨nodes', hNext⟩ : ∃ nodes', Carries
          (diagDciAddDelayedRsp s (diagpktSubsysGetDelayedRspId rsp.pkt 0) tag newEntry)
          (if newEntry.isSome = true then
            { x with waiting := x.waiting ++ [⟨rsp.delayedRspId, tag⟩] } else x) nodes' := by
        cases newEntry with
        | none => exact ⟨nodes, h⟩
        | some a => exact ⟨_, h.addDelayedRsp rsp.delayedRspId tag a⟩
      refine ⟨nodes', ?_⟩
      cases temp with
      | none => exact ⟨hNext, List.Forall₂.nil⟩
      | some block =>
          have hReply :=
            @decodeReply_dciCommit H block dciDelayedRspCode 3 rfl tag rsp.packet
          rw [hLength] at hReply
          exact ⟨hNext, List.Forall₂.cons (means_written hReply) List.Forall₂.nil⟩
    · have hNot : rsp.isVer2 = false := by simp [RspItem.isVer2, hVer2]
      simp only [hVer2, hNot, if_false, false_and, Bool.false_eq_true]
      refine ⟨nodes, ?_⟩
      cases temp with
      | none => exact ⟨h, List.Forall₂.nil⟩
      | some block =>
          have hReply := @decodeReply_dciCommit H block dciPktRspCode 0 rfl tag rsp.packet
          rw [hLength] at hReply
          exact ⟨h, List.Forall₂.cons (means_written hReply) List.Forall₂.nil⟩
  · have hPlain : ∀ tag, x.route ≠ .dci tag := fun tag hRoute => hDci ⟨tag, hRoute⟩
    obtain ⟨hSmall, hType⟩ := Route.type_plain hPlain
    rw [← h.type] at hSmall hType
    rw [x.commit_plain hPlain hEmpty, if_neg hType, ← h.type]
    cases temp with
    | none => exact ⟨nodes, h, List.Forall₂.nil⟩
    | some block =>
        have hReply := @decodeReply_commit H block s.pktType hSmall hType rsp.packet
        rw [hLength] at hReply
        exact ⟨nodes, h, List.Forall₂.cons (means_written hReply) List.Forall₂.nil⟩

/-- A delayed response goes to the driver as the first entry with its id says. -/
theorem Carries.delayCommit (h : Carries s x nodes) (item : DelayedItem)
    (temp : Option (Nat → Byte)) :
    ∃ nodes', Carries (diagpktDelayCommit s item temp).1
        (x.delayCommit item temp.isSome).1 nodes' ∧
      List.Forall₂ PacketOutput.Means (diagpktDelayCommit s item temp).2
        (x.delayCommit item temp.isSome).2 := by
  have hLength : item.packet.length = item.length := length_slice item.length
  have hId : diagpktSubsysGetDelayedRspId item.pkt 0 = item.delayedRspId := rfl
  simp only [diagpktDelayCommit, hId, h.delayedRspIdPresent, Exchange.delayCommit, h.waitingFor]
  by_cases hEmpty : item.length = 0
  · rw [if_neg (by omega), if_pos hEmpty]
    exact ⟨nodes, h, List.Forall₂.nil⟩
  rw [if_pos (by omega), if_neg hEmpty]
  cases hFound : nodes.find? (·.2.delayedRspId == item.delayedRspId) with
  | none =>
      have hReply := @decodeReply_plain H diagDataTypeDelayedResponse (by decide) (by decide)
        item.packet
      exact ⟨nodes, h, List.Forall₂.cons (means_written hReply) List.Forall₂.nil⟩
  | some p =>
      obtain ⟨addr, d⟩ := p
      have hInfo : s.info addr = some d := h.info _ (List.mem_of_find?_eq_some hFound)
      obtain ⟨hIs, before, after, rfl, hBefore⟩ := List.find?_eq_some_iff_append.mp hFound
      simp only [Option.map_some, hInfo]
      cases temp with
      | none => exact ⟨_, h, List.Forall₂.nil⟩
      | some block =>
          have hReply := @decodeReply_delayedCommit H block d.dciTag item.packet
          rw [hLength] at hReply
          simp only [Option.isSome_some, if_true]
          have hOutput := List.Forall₂.cons (means_written hReply) List.Forall₂.nil
          by_cases hLast : 0 < rspCnt item.pkt 0 ∧ rspCnt item.pkt 0 < 0x1000
          · have hErased : x.waiting.eraseP (·.delayedRspId == item.delayedRspId) =
                (before ++ after).map Prod.snd := by
              have hOthers : ∀ d' ∈ before.map Prod.snd,
                  ¬ (d'.delayedRspId == item.delayedRspId) = true := by
                intro d' hMem
                obtain ⟨q, hq, rfl⟩ := List.mem_map.mp hMem
                simpa using hBefore q hq
              rw [h.waiting, List.map_append, List.map_cons, List.eraseP_append_right _ hOthers,
                List.eraseP_cons_of_pos (by exact hIs), List.map_append]
            have hIsLast : item.isLast = true := decide_eq_true hLast
            rw [if_pos hLast, if_pos hIsLast, hErased]
            exact ⟨_, h.deleteDelayedRsp, hOutput⟩
          · have hNotLast : ¬ item.isLast = true := by
              simpa [DelayedItem.isLast] using hLast
            rw [if_neg hLast, if_neg hNotLast]
            exact ⟨_, h, hOutput⟩

/-- The end of the service reads an entry after it was freed, if there is one. -/
theorem Carries.deInit (h : Carries s x nodes) :
    ∃ nodes', Carries (diagLsmPktDeInit s)
      { x with
        tables := []
        waiting := x.waiting.tail
        undefined := x.undefined || !x.waiting.isEmpty } nodes' := by
  have hCleared : Carries (H := H) { s with userTable := [] } { x with tables := [] } nodes :=
    { h with tables := rfl, tag := h.tag }
  have hFirst := h.ring.next_head
  simp only [diagLsmPktDeInit]
  cases nodes with
  | nil =>
      have hNone : s.links.next .head = .head := hFirst
      have hWaiting : x.waiting = [] := h.waiting
      refine ⟨[], ?_⟩
      simp only [hNone, hWaiting]
      refine { hCleared with tag := h.tag, waiting := rfl, undefined := ?_ }
      rw [h.undefined]
      simp
  | cons p rest =>
      obtain ⟨addr, d⟩ := p
      have hEntry : s.links.next .head = .entry addr := hFirst
      have hWaiting : x.waiting = d :: rest.map Prod.snd := h.waiting
      have hDeleted := @Carries.deleteDelayedRsp H _ _ [] rest addr d hCleared
      refine ⟨rest, ?_⟩
      simp only [hEntry, hWaiting]
      refine { hDeleted with tag := hDeleted.tag, waiting := rfl, undefined := ?_ }
      simp

/-- A table goes to the first free slot. -/
theorem Carries.register (h : Carries s x nodes) (tbl : UserTable H) (bindReq slot : Bool) :
    Carries (diagpktTblReg s tbl bindReq slot).1 (exchangeStep x (.register tbl bindReq slot)).1
        nodes ∧
      List.Forall₂ PacketOutput.Means (diagpktTblReg s tbl bindReq slot).2
        (exchangeStep x (.register tbl bindReq slot)).2 := by
  have hStored : Carries { s with userTable := s.userTable ++ [tbl] }
      { x with tables := x.tables ++ [tbl] } nodes :=
    { h with tables := by rw [h.tables], tag := h.tag }
  simp only [diagpktTblReg, exchangeStep, ← h.tables] at hStored ⊢
  split
  · split
    · split
      · exact ⟨hStored, List.Forall₂.cons (.bound _) List.Forall₂.nil⟩
      · exact ⟨h, List.Forall₂.nil⟩
    · exact ⟨h, List.Forall₂.cons (.bound _) List.Forall₂.nil⟩
  · exact ⟨h, List.Forall₂.nil⟩

/-- A request is looked up, and its responses will go where it has come from. -/
theorem Carries.lookedUp (h : Carries s x nodes) {thread : ReadThread}
    (hReading : thread.state = .reading) (header : RequestHeader) :
    Carries ({ s with thread := thread }.lookedUp header) { x with route := header.route }
      nodes := by
  refine { h with reading := hReading, type := rfl, tag := ?_ }
  intro tag hRoute
  cases header with
  | tool => simp [RequestHeader.route] at hRoute
  | dci start version length code own =>
      have hTag : own = tag := by simpa [RequestHeader.route] using hRoute
      exact hTag

/-- Step lemma: a step of the service is one of the exchange, with outputs that stand
for its replies. -/
theorem packetStep_carries {n turns : Nat} (h : Carries s x nodes) (e : PacketEvent H) :
    ∃ nodes', Carries (packetStep n turns s e).1 (exchangeStep x e).1 nodes' ∧
      List.Forall₂ PacketOutput.Means (packetStep n turns s e).2 (exchangeStep x e).2 := by
  cases e with
  | register tbl bindReq slot => exact ⟨nodes, h.register tbl bindReq slot⟩
  | request r =>
      simp only [packetStep, exchangeStep]
      rw [h.handling]
      by_cases hHandling : x.handling = true
      · rw [if_pos hHandling, if_pos hHandling]
        exact ⟨nodes, h, List.Forall₂.nil⟩
      obtain ⟨thread, beyond, hReading, hBeyond, hTurn⟩ :=
        @packetTurn_request H n turns s h.reading r
      have hLookedUp := h.lookedUp hReading r.header
      have hHandler : handlerOf s.userTable r.command = handlerOf x.tables r.command := by
        rw [h.tables]
      rw [if_neg hHandling, if_neg hHandling, hTurn, hHandler]
      refine ⟨nodes, ?_⟩
      cases handlerOf x.tables r.command with
      | none => exact ⟨hLookedUp, List.Forall₂.nil⟩
      | some f =>
          exact ⟨{ hLookedUp with handling := rfl, tag := hLookedUp.tag },
            List.Forall₂.cons (.called f _ _ _ hBeyond) List.Forall₂.nil⟩
  | returned rsp newEntry temp =>
      simp only [packetStep, exchangeStep, ← h.handling]
      by_cases hHandling : s.handling = true
      · have hBack : Carries (H := H) { s with handling := false } { x with handling := false }
            nodes := { h with handling := rfl, tag := h.tag }
        rw [if_pos hHandling, if_pos hHandling]
        cases rsp with
        | none => exact ⟨nodes, hBack, List.Forall₂.nil⟩
        | some rsp => exact hBack.commit rsp newEntry temp
      · rw [if_neg hHandling, if_neg hHandling]
        exact ⟨nodes, h, List.Forall₂.nil⟩
  | commit rsp newEntry temp => exact h.commit rsp newEntry temp
  | delayCommit item temp => exact h.delayCommit item temp
  | deInit =>
      obtain ⟨nodes', hEnd⟩ := h.deInit
      exact ⟨nodes', hEnd, List.Forall₂.nil⟩

end Carries

/-! ## What a step of the exchange can do -/

section Cases

variable {H : Type u} (x : Exchange H)

/-- The tag of a reply. -/
def Reply.tag : Reply H → Option UInt32
  | .dci _ tag _ => some tag
  | _ => none

theorem exchangeStep_register (tbl : UserTable H) (bindReq slot : Bool) :
    (∃ tables, (exchangeStep x (.register tbl bindReq slot)).1 = { x with tables := tables }) ∧
      ∀ reply ∈ (exchangeStep x (.register tbl bindReq slot)).2, reply.tag = none := by
  simp only [exchangeStep]
  split
  · split
    · split
      · exact ⟨⟨_, rfl⟩, by simp [Reply.tag]⟩
      · exact ⟨⟨_, rfl⟩, by simp⟩
    · exact ⟨⟨_, rfl⟩, by simp [Reply.tag]⟩
  · exact ⟨⟨_, rfl⟩, by simp⟩

theorem exchangeStep_request (r : DriverRequest) :
    (x.handling = true ∧ (exchangeStep x (.request r)).1 = x ∨
      x.handling = false ∧ ∃ handling, (exchangeStep x (.request r)).1 =
        { x with route := r.header.route, handling := handling }) ∧
      ∀ reply ∈ (exchangeStep x (.request r)).2, reply.tag = none := by
  simp only [exchangeStep]
  split
  · rename_i hHandling
    exact ⟨Or.inl ⟨hHandling, rfl⟩, by simp⟩
  · rename_i hFree
    rw [Bool.not_eq_true] at hFree
    split
    · exact ⟨Or.inr ⟨hFree, _, rfl⟩, by simp [Reply.tag]⟩
    · exact ⟨Or.inr ⟨hFree, _, rfl⟩, by simp⟩

/-- A response changes nothing but what is waited for, and that only for the route. -/
theorem Exchange.commit_cases (rsp : RspItem) (added written : Bool) :
    (∃ new, (x.commit rsp added written).1 = { x with waiting := x.waiting ++ new } ∧
        ∀ d ∈ new, x.route = .dci d.dciTag) ∧
      ∀ reply ∈ (x.commit rsp added written).2, ∀ tag, reply.tag = some tag →
        x.route = .dci tag := by
  by_cases hLength : rsp.length = 0
  · rw [Exchange.commit, if_pos hLength]
    exact ⟨⟨[], by simp, by simp⟩, by simp⟩
  by_cases hDci : ∃ tag, x.route = .dci tag
  · obtain ⟨tag, hRoute⟩ := hDci
    rw [x.commit_dci hRoute hLength]
    constructor
    · split
      · exact ⟨_, rfl, by simp [hRoute]⟩
      · exact ⟨[], by simp, by simp⟩
    · cases written <;> simp [Reply.tag, hRoute]
  · rw [x.commit_plain (fun tag hRoute => hDci ⟨tag, hRoute⟩) hLength]
    exact ⟨⟨[], by simp, by simp⟩, by cases written <;> simp [Reply.tag]⟩

/-- A delayed response changes nothing but what is waited for, and that only if it is
the last of its sequence and is written. -/
theorem Exchange.delayCommit_cases (item : DelayedItem) (written : Bool) :
    ((x.delayCommit item written).1 = x ∨
        (item.length ≠ 0 ∧ item.isLast ∧ written) ∧ (x.delayCommit item written).1 =
          { x with waiting := x.waiting.eraseP (·.delayedRspId == item.delayedRspId) }) ∧
      ∀ reply ∈ (x.delayCommit item written).2, ∀ tag, reply.tag = some tag →
        ∃ d ∈ x.waiting, d.dciTag = tag := by
  unfold Exchange.delayCommit
  by_cases hLength : item.length = 0
  · rw [if_pos hLength]
    exact ⟨Or.inl rfl, by simp⟩
  rw [if_neg hLength]
  cases hFound : x.waitingFor item.delayedRspId with
  | none => exact ⟨Or.inl rfl, by simp [Reply.tag]⟩
  | some d =>
      have hMem : d ∈ x.waiting := List.mem_of_find?_eq_some hFound
      cases written with
      | false => exact ⟨Or.inl rfl, by simp⟩
      | true =>
          refine ⟨?_, fun reply hReply tag hTag => ⟨d, hMem, ?_⟩⟩
          · by_cases hLast : item.isLast = true
            · exact Or.inr ⟨⟨hLength, hLast, rfl⟩, by simp [hLast]⟩
            · exact Or.inl (by simp [hLast])
          · obtain rfl := List.mem_singleton.mp hReply
            exact Option.some.inj hTag

end Cases

/-! ## Whole runs -/

section Runs

variable {H : Type u} {n turns : Nat} {thread : ReadThread}

/-- The exchange after some events. -/
def exchangeAfter (events : List (PacketEvent H)) : Exchange H :=
  (run exchangeStep Exchange.start events).1

/-- The service after some events, from its initialisation on. -/
def packetsAfter (n turns : Nat) (thread : ReadThread) (m : Links DelayedRef)
    (events : List (PacketEvent H)) : PacketService H :=
  (run (packetStep n turns) (PacketService.start thread m) events).1

/-- Run lemma: the service stays where the exchange is. -/
theorem carries_run (hReading : thread.state = .reading) (m : Links DelayedRef)
    (events : List (PacketEvent H)) :
    (∃ nodes, Carries (packetsAfter n turns thread m events) (exchangeAfter events) nodes) ∧
      List.Forall₂ PacketOutput.Means
        (run (packetStep n turns) (PacketService.start thread m) events).2
        (run exchangeStep Exchange.start events).2 := by
  refine run_refines_outputs (packetStep n turns) exchangeStep
    (fun s x => ∃ nodes, Carries s x nodes) PacketOutput.Means ?_
    ⟨[], carries_start hReading m⟩ events
  rintro s x e ⟨nodes, h⟩
  obtain ⟨nodes', hNext, hOutputs⟩ := packetStep_carries h e
  exact ⟨⟨nodes', hNext⟩, hOutputs⟩

/-- In every defined run, whatever the requests, the tables and the responses are and
however clients and read thread take turns: the handlers are called and the frames
written as the exchange says, and the circular list holds exactly what is waited for,
oldest first, with nothing else allocated. -/
theorem packets_refine (hReading : thread.state = .reading) (m : Links DelayedRef)
    (events : List (PacketEvent H))
    (_hDefined : (packetsAfter n turns thread m events).undefined = false) :
    List.Forall₂ PacketOutput.Means
        (run (packetStep n turns) (PacketService.start thread m) events).2
        (run exchangeStep Exchange.start events).2 ∧
      ∃ nodes : List (Nat × DelayedRsp),
        IsRing (packetsAfter n turns thread m events).links .head
            (nodes.map fun p => .entry p.1) ∧
          (∀ p ∈ nodes, (packetsAfter n turns thread m events).info p.1 = some p.2) ∧
          (packetsAfter n turns thread m events).live.Perm (nodes.map Prod.fst) ∧
          nodes.map Prod.snd = (exchangeAfter events).waiting := by
  obtain ⟨⟨nodes, h⟩, hOutputs⟩ := carries_run hReading m events
  exact ⟨hOutputs, nodes, h.ring, h.info, h.live, h.waiting.symm⟩

/-- The address behind all that are in use. -/
def addrBehind : Allocation where
  addr live := live.foldr max 0 + 1
  fresh live := by
    have hBelow (a : Nat) (hMem : a ∈ live) : a ≤ live.foldr max 0 := by
      induction live with
      | nil => exact absurd hMem List.not_mem_nil
      | cons b live ih =>
          rcases List.mem_cons.mp hMem with rfl | hMem
          · exact Nat.le_max_left _ _
          · exact Nat.le_trans (ih hMem) (Nat.le_max_right _ _)
    exact fun hMem => absurd (hBelow _ hMem) (Nat.not_succ_le_self _)

/-- A handler for the commands 0x10 to 0x1F of subsystem 5. -/
def sampleTable : UserTable Unit := ⟨0, 128, 5, [⟨0x10, 0x1F, some ()⟩]⟩

/-- A request for one of them, with the tag 7. -/
def taggedRequest : DriverRequest :=
  ⟨.dci 0x7F 1 9 0 7, .subsysVer2 5 0x12, [1], by decide⟩

/-- The response that announces more of them. -/
def firstRsp : RspItem :=
  ⟨fun k => [128, 5, 0x12, 0, 0, 0, 0, 0, 0x34, 0x12, 0, 0].getD k 0, 12, by decide⟩

/-- The last of these. -/
def lastRsp : DelayedItem :=
  ⟨fun k => [128, 5, 0x12, 0, 0, 0, 0, 0, 0x34, 0x12, 1, 0].getD k 0, 12, by decide, rfl⟩

/-- A DCI request with two responses. -/
def twoResponses : List (PacketEvent Unit) :=
  [.register sampleTable true true, .request taggedRequest,
    .returned (some firstRsp) (some addrBehind) (some fun _ => 9),
    .delayCommit lastRsp (some fun _ => 9)]

theorem packets_refine_twoResponses :
    List.Forall₂ PacketOutput.Means
      (run (packetStep 1 0) (PacketService.start sampleThread ⟨id, id⟩) twoResponses).2
      [.bound [⟨128, 5, 0x10, 0x1F⟩], .request () (.dci 7) [128, 5, 0x12, 0, 1],
        .dci dciDelayedRspCode 7 [128, 5, 0x12, 0, 0, 0, 0, 0, 0x34, 0x12, 0, 0],
        .dci dciDelayedRspCode 7 [128, 5, 0x12, 0, 0, 0, 0, 0, 0x34, 0x12, 1, 0]] :=
  (packets_refine rfl ⟨id, id⟩ twoResponses (by decide)).1

/-- A request with this tag is among the events. -/
def Requested (events : List (PacketEvent H)) (tag : UInt32) : Prop :=
  ∃ r, .request r ∈ events ∧ r.header.route = .dci tag

/-- The tags that the exchange remembers are those of requests. -/
structure TagsRequested (x : Exchange H) (events : List (PacketEvent H)) : Prop where
  route : ∀ tag, x.route = .dci tag → Requested events tag
  waiting : ∀ d ∈ x.waiting, Requested events d.dciTag

theorem TagsRequested.mono {x : Exchange H} {events events' : List (PacketEvent H)}
    (h : TagsRequested x events) (hMore : events ⊆ events') : TagsRequested x events' where
  route tag hRoute := (h.route tag hRoute).imp fun _ hReq => ⟨hMore hReq.1, hReq.2⟩
  waiting d hMem := (h.waiting d hMem).imp fun _ hReq => ⟨hMore hReq.1, hReq.2⟩

theorem TagsRequested.commit {x : Exchange H} {events : List (PacketEvent H)}
    (h : TagsRequested x events) (rsp : RspItem) (added written : Bool) :
    TagsRequested (x.commit rsp added written).1 events ∧
      ∀ reply ∈ (x.commit rsp added written).2, ∀ tag, reply.tag = some tag →
        Requested events tag := by
  obtain ⟨⟨new, hNext, hNew⟩, hReplies⟩ := x.commit_cases rsp added written
  refine ⟨?_, fun reply hMem tag hTag => h.route tag (hReplies reply hMem tag hTag)⟩
  rw [hNext]
  refine ⟨h.route, fun d hMem => ?_⟩
  rcases List.mem_append.mp hMem with hOld | hAdded
  · exact h.waiting d hOld
  · exact h.route d.dciTag (hNew d hAdded)

/-- Step lemma: only requests bring tags. -/
theorem TagsRequested.step {x : Exchange H} {past : List (PacketEvent H)}
    (h : TagsRequested x past) (e : PacketEvent H) :
    TagsRequested (exchangeStep x e).1 (past ++ [e]) ∧
      ∀ reply ∈ (exchangeStep x e).2, ∀ tag, reply.tag = some tag →
        Requested (past ++ [e]) tag := by
  have hOld : TagsRequested x (past ++ [e]) := h.mono (List.subset_append_left _ _)
  have hNone {replies : List (Reply H)} (hUntagged : ∀ reply ∈ replies, reply.tag = none) :
      ∀ reply ∈ replies, ∀ tag, reply.tag = some tag → Requested (past ++ [e]) tag :=
    fun reply hMem tag hTag => absurd ((hUntagged reply hMem).symm.trans hTag) (by simp)
  cases e with
  | register tbl bindReq slot =>
      obtain ⟨⟨tables, hNext⟩, hReplies⟩ := exchangeStep_register x tbl bindReq slot
      rw [hNext]
      exact ⟨⟨hOld.route, hOld.waiting⟩, hNone hReplies⟩
  | request r =>
      obtain ⟨⟨-, hNext⟩ | ⟨-, handling, hNext⟩, hReplies⟩ := exchangeStep_request x r
      · rw [hNext]
        exact ⟨hOld, hNone hReplies⟩
      · rw [hNext]
        exact ⟨⟨fun tag hRoute => ⟨r, by simp, hRoute⟩, hOld.waiting⟩, hNone hReplies⟩
  | returned rsp newEntry temp =>
      simp only [exchangeStep]
      split
      · have hBack : TagsRequested { x with handling := false } (past ++ [_]) :=
          ⟨hOld.route, hOld.waiting⟩
        cases rsp with
        | none => exact ⟨hBack, hNone (by simp)⟩
        | some rsp => exact hBack.commit rsp newEntry.isSome temp.isSome
      · exact ⟨hOld, hNone (by simp)⟩
  | commit rsp newEntry temp => exact hOld.commit rsp newEntry.isSome temp.isSome
  | delayCommit item temp =>
      obtain ⟨hNext, hReplies⟩ := x.delayCommit_cases item temp.isSome
      constructor
      · obtain hNext | ⟨-, hNext⟩ := hNext
        · rw [exchangeStep, hNext]
          exact hOld
        · rw [exchangeStep, hNext]
          exact ⟨hOld.route, fun d hMem => hOld.waiting d (List.mem_of_mem_eraseP hMem)⟩
      · intro reply hMem tag hTag
        obtain ⟨d, hWaits, rfl⟩ := hReplies reply hMem tag hTag
        exact hOld.waiting d hWaits
  | deInit =>
      exact ⟨⟨hOld.route, fun d hMem => hOld.waiting d (List.mem_of_mem_tail hMem)⟩,
        hNone (by simp [exchangeStep])⟩

/-- Run lemma: no reply has a tag that no request has brought. -/
theorem exchangeAfter_tags (events : List (PacketEvent H)) :
    TagsRequested (exchangeAfter events) events ∧
      ∀ reply ∈ (run exchangeStep Exchange.start events).2, ∀ tag, reply.tag = some tag →
        Requested events tag := by
  induction events using List.reverseRecOn with
  | nil =>
      refine ⟨⟨fun tag hRoute => ?_, by simp [exchangeAfter, Exchange.start]⟩, by simp⟩
      exact absurd hRoute (by simp [exchangeAfter, Exchange.start])
  | append_singleton past e ih =>
      obtain ⟨hTags, hReplies⟩ := ih
      obtain ⟨hNext, hOwn⟩ := hTags.step e
      rw [exchangeAfter, run_append, run_singleton]
      refine ⟨hNext, fun reply hMem tag hTag => ?_⟩
      rcases List.mem_append.mp hMem with hOld | hNew
      · obtain ⟨r, hReq, hRoute⟩ := hReplies reply hOld tag hTag
        exact ⟨r, List.mem_append_left _ hReq, hRoute⟩
      · exact hOwn reply hNew tag hTag

/-- A frame of the service stands for a reply of the exchange. -/
theorem decodeReply_mem {outputs : List (PacketOutput H)} {replies : List (Reply H)}
    (h : List.Forall₂ PacketOutput.Means outputs replies) {frame : List Byte}
    (hMem : .written frame ∈ outputs) : decodeReply frame ∈ replies := by
  induction h with
  | nil => exact absurd hMem List.not_mem_nil
  | cons hMeans hRest ih =>
      rcases List.mem_cons.mp hMem with rfl | hLater
      · cases hMeans with
        | written => exact List.mem_cons_self
      · exact List.mem_cons_of_mem _ (ih hLater)

/-- In every defined run, a frame that the driver takes for a response over DCI has the
tag of a request that has come over DCI. -/
theorem tags_requested (hReading : thread.state = .reading) (m : Links DelayedRef)
    (events : List (PacketEvent H))
    (_hDefined : (packetsAfter n turns thread m events).undefined = false) {frame : List Byte}
    (hMem : .written frame ∈
      (run (packetStep n turns) (PacketService.start thread m) events).2)
    {code : Byte} {tag : UInt32} {packet : List Byte}
    (hTag : (decodeReply frame : Reply H) = .dci code tag packet) : Requested events tag := by
  have hReply := decodeReply_mem (carries_run hReading m events).2 hMem
  exact (exchangeAfter_tags events).2 _ hReply tag (by rw [hTag]; rfl)

/-- The frame of the first of the two responses; three bytes are left from the block. -/
def firstFrame : List Byte := [0, 4, 0, 0, 0x94, 9, 9, 9, 7, 0, 0, 0] ++ firstRsp.packet

theorem tags_requested_firstFrame : Requested twoResponses 7 :=
  @tags_requested Unit 1 0 sampleThread rfl ⟨id, id⟩ twoResponses (by decide) firstFrame
    (by decide +kernel) dciDelayedRspCode 7 firstRsp.packet (by decide +kernel)

/-! ### A response reaches its request -/

/-- The read thread comes back from a handler. -/
def PacketEvent.isReturn : PacketEvent H → Bool
  | .returned _ _ _ => true
  | _ => false

/-- How the driver gets a response to a request. -/
def RequestHeader.reply (header : RequestHeader) (rsp : RspItem) : Reply H :=
  match header with
  | .tool => .plain diagDataTypeResponse rsp.packet
  | .dci _ _ _ _ tag => .dci (if rsp.isVer2 then dciDelayedRspCode else dciPktRspCode) tag rsp.packet

/-- While the read thread is in a handler, the route stays. -/
theorem exchangeStep_handling {x : Exchange H} {e : PacketEvent H} (hHandling : x.handling = true)
    (hNot : e.isReturn = false) :
    (exchangeStep x e).1.handling = true ∧ (exchangeStep x e).1.route = x.route := by
  cases e with
  | register tbl bindReq slot =>
      obtain ⟨tables, hNext⟩ := (exchangeStep_register x tbl bindReq slot).1
      rw [hNext]
      exact ⟨hHandling, rfl⟩
  | request r =>
      obtain ⟨-, hNext⟩ | ⟨hFree, -⟩ := (exchangeStep_request x r).1
      · rw [hNext]
        exact ⟨hHandling, rfl⟩
      · exact absurd (hHandling.symm.trans hFree) (by simp)
  | returned rsp newEntry temp => exact absurd hNot (by simp [PacketEvent.isReturn])
  | commit rsp newEntry temp =>
      obtain ⟨new, hNext, -⟩ := (x.commit_cases rsp newEntry.isSome temp.isSome).1
      rw [exchangeStep, hNext]
      exact ⟨hHandling, rfl⟩
  | delayCommit item temp =>
      obtain hNext | ⟨-, hNext⟩ := (x.delayCommit_cases item temp.isSome).1
      · rw [exchangeStep, hNext]
        exact ⟨hHandling, rfl⟩
      · rw [exchangeStep, hNext]
        exact ⟨hHandling, rfl⟩
  | deInit => exact ⟨hHandling, rfl⟩

/-- The run up to the return from the handler of a request. -/
theorem exchangeAfter_handling {past mid : List (PacketEvent H)} {r : DriverRequest}
    (hFree : (exchangeAfter past).handling = false) {f : H}
    (hHandler : handlerOf (exchangeAfter past).tables r.command = some f)
    (hMid : ∀ e ∈ mid, e.isReturn = false) :
    (exchangeAfter (past ++ .request r :: mid)).handling = true ∧
      (exchangeAfter (past ++ .request r :: mid)).route = r.header.route := by
  have hTaken : (exchangeStep (exchangeAfter past) (.request r)).1 =
      { exchangeAfter past with handling := true, route := r.header.route } := by
    simp only [exchangeStep]
    rw [if_neg (by simp [hFree]), hHandler]
  rw [exchangeAfter, run_append, run_cons]
  show (run exchangeStep (exchangeStep (exchangeAfter past) (.request r)).1 mid).1.handling = true ∧
    (run exchangeStep (exchangeStep (exchangeAfter past) (.request r)).1 mid).1.route =
      r.header.route
  rw [hTaken]
  refine run_invariant_of_split exchangeStep
    (fun x => x.handling = true ∧ x.route = r.header.route) (fun _ e => e.isReturn = false) ?_
    ⟨rfl, rfl⟩ mid ?_
  · rintro x e ⟨hHandling, hRoute⟩ hNot
    obtain ⟨hStays, hSame⟩ := exchangeStep_handling hHandling hNot
    exact ⟨hStays, hSame.trans hRoute⟩
  · exact fun before e after hSplit => hMid e (by rw [hSplit]; simp)

theorem Exchange.commit_reply {x : Exchange H} {header : RequestHeader}
    (h : x.route = header.route) {rsp : RspItem} (hLength : rsp.length ≠ 0) (added : Bool) :
    (x.commit rsp added true).2 = [header.reply rsp] := by
  cases header with
  | tool =>
      have hPlain : ∀ tag, x.route ≠ .dci tag := fun tag hDci => by
        rw [h] at hDci
        exact Route.noConfusion hDci
      rw [x.commit_plain hPlain hLength, h]
      rfl
  | dci start version length code tag =>
      rw [x.commit_dci h hLength]
      rfl

/-- The reply goes to the driver. -/
def Reply.isFrame : Reply H → Bool
  | .plain _ _ => true
  | .dci _ _ _ => true
  | _ => false

theorem RequestHeader.isFrame_reply (header : RequestHeader) (rsp : RspItem) :
    (header.reply rsp : Reply H).isFrame = true := by
  cases header <;> rfl

/-- What stands for a reply to the driver is a frame. -/
theorem exists_frame {outputs : List (PacketOutput H)} {reply : Reply H}
    (h : List.Forall₂ PacketOutput.Means outputs [reply]) (hFrame : reply.isFrame = true) :
    ∃ frame, outputs = [.written frame] ∧ decodeReply frame = reply := by
  obtain ⟨o, rest, hMeans, hRest, rfl⟩ := List.forall₂_cons_right_iff.mp h
  obtain rfl := List.forall₂_nil_right_iff.mp hRest
  cases hMeans with
  | called f route packet beyond hBeyond => exact absurd hFrame Bool.false_ne_true
  | written frame => exact ⟨frame, rfl, rfl⟩
  | bound params => exact absurd hFrame Bool.false_ne_true

/-- The response which a handler returns goes where the request of its call has come
from, whatever the clients do before it comes back. -/
theorem response_reaches_request (hReading : thread.state = .reading) (m : Links DelayedRef)
    {past mid : List (PacketEvent H)} {r : DriverRequest} {f : H}
    (hFree : (packetsAfter n turns thread m past).handling = false)
    (hHandler : handlerOf (packetsAfter n turns thread m past).userTable r.command = some f)
    (hMid : ∀ e ∈ mid, e.isReturn = false)
    (_hDefined :
      (packetsAfter n turns thread m (past ++ .request r :: mid)).undefined = false)
    {rsp : RspItem} (hLength : rsp.length ≠ 0) (newEntry : Option Allocation)
    (block : Nat → Byte) :
    (∃ beyond : List Byte, beyond.length = r.header.route.excess ∧
        (packetStep n turns (packetsAfter n turns thread m past) (.request r)).2 =
          [.called f (r.packet ++ beyond)]) ∧
      ∃ frame, (packetStep n turns (packetsAfter n turns thread m (past ++ .request r :: mid))
          (.returned (some rsp) newEntry (some block))).2 = [.written frame] ∧
        (decodeReply frame : Reply H) = r.header.reply rsp := by
  obtain ⟨⟨nodes, hBefore⟩, -⟩ := @carries_run H n turns thread hReading m past
  constructor
  · obtain ⟨thread', beyond, -, hBeyond, hTurn⟩ :=
      @packetTurn_request H n turns _ hBefore.reading r
    refine ⟨beyond, hBeyond, ?_⟩
    simp only [packetStep]
    rw [if_neg (by simp [hFree]), hTurn, hHandler]
  · obtain ⟨⟨nodes', hCarries⟩, -⟩ :=
      @carries_run H n turns thread hReading m (past ++ .request r :: mid)
    obtain ⟨-, -, hOutputs⟩ := packetStep_carries hCarries
      (.returned (some rsp) newEntry (some block))
    rw [hBefore.handling] at hFree
    rw [hBefore.tables] at hHandler
    obtain ⟨hHandling, hRoute⟩ := exchangeAfter_handling hFree hHandler hMid
    have hReply : (exchangeStep (exchangeAfter (past ++ .request r :: mid))
        (.returned (some rsp) newEntry (some block))).2 = [r.header.reply rsp] := by
      simp only [exchangeStep]
      rw [if_pos hHandling]
      exact Exchange.commit_reply (by exact hRoute) hLength newEntry.isSome
    rw [hReply] at hOutputs
    exact exists_frame hOutputs (r.header.isFrame_reply rsp)

/-- The handler of `twoResponses` returns after another registration. -/
theorem response_reaches_request_first :
    ∃ frame, (packetStep 1 0 (packetsAfter 1 0 sampleThread ⟨id, id⟩
        (twoResponses.take 1 ++ .request taggedRequest :: [.register sampleTable true true]))
          (.returned (some firstRsp) none (some fun _ => 9))).2 = [.written frame] ∧
      (decodeReply frame : Reply Unit) = .dci dciDelayedRspCode 7 firstRsp.packet := by
  have hSample := @response_reaches_request Unit 1 0 sampleThread rfl ⟨id, id⟩
    (twoResponses.take 1) [.register sampleTable true true] taggedRequest () (by decide)
    (by decide) (by simp [PacketEvent.isReturn]) (by decide) firstRsp (by decide) none fun _ => 9
  exact hSample.2

theorem find?_eraseP {α : Type*} {p q : α → Bool} (h : ∀ a, p a → ¬ q a) (l : List α) :
    (l.eraseP p).find? q = l.find? q := by
  induction l with
  | nil => rfl
  | cons a l ih =>
      by_cases hp : p a
      · rw [List.eraseP_cons_of_pos hp, List.find?_cons_of_neg (h a hp)]
      · rw [List.eraseP_cons_of_neg hp, List.find?_cons, List.find?_cons, ih]

/-- The event ends the wait for an id. -/
def PacketEvent.Closes (id : UInt16) : PacketEvent H → Prop
  | .delayCommit item temp =>
      item.delayedRspId = id ∧ item.length ≠ 0 ∧ item.isLast ∧ temp.isSome
  | .deInit => True
  | _ => False

/-- What is waited for stays the first of its id until the wait ends. -/
theorem exchangeStep_waitingFor {x : Exchange H} {e : PacketEvent H} {id : UInt16}
    {d : DelayedRsp} (h : x.waitingFor id = some d) (hOpen : ¬ e.Closes id) :
    (exchangeStep x e).1.waitingFor id = some d := by
  have hLonger (new : List DelayedRsp) :
      (x.waiting ++ new).find? (·.delayedRspId == id) = some d := by
    rw [List.find?_append, ← Exchange.waitingFor, h]
    rfl
  cases e with
  | register tbl bindReq slot =>
      obtain ⟨tables, hNext⟩ := (exchangeStep_register x tbl bindReq slot).1
      rw [hNext]
      exact h
  | request r =>
      obtain ⟨-, hNext⟩ | ⟨-, handling, hNext⟩ := (exchangeStep_request x r).1
      · rw [hNext]
        exact h
      · rw [hNext]
        exact h
  | returned rsp newEntry temp =>
      simp only [exchangeStep]
      split
      · cases rsp with
        | none => exact h
        | some rsp =>
            obtain ⟨new, hNext, -⟩ := (Exchange.commit_cases
              { x with handling := false } rsp newEntry.isSome temp.isSome).1
            rw [hNext]
            exact hLonger new
      · exact h
  | commit rsp newEntry temp =>
      obtain ⟨new, hNext, -⟩ := (x.commit_cases rsp newEntry.isSome temp.isSome).1
      rw [exchangeStep, hNext]
      exact hLonger new
  | delayCommit item temp =>
      obtain hNext | ⟨⟨hLength, hLast, hWritten⟩, hNext⟩ :=
        (x.delayCommit_cases item temp.isSome).1
      · rw [exchangeStep, hNext]
        exact h
      · have hOther : item.delayedRspId ≠ id := fun hId =>
          hOpen ⟨hId, hLength, hLast, hWritten⟩
        rw [exchangeStep, hNext, Exchange.waitingFor, find?_eraseP]
        · exact h
        · intro d' hItem hId
          exact hOther ((eq_of_beq hItem).symm.trans (eq_of_beq hId))
  | deInit => exact absurd trivial hOpen

/-- A response of version 2 announces its id with the tag of the route. -/
theorem exchangeStep_announces {x : Exchange H} {tag : UInt32} {rsp : RspItem}
    (hHandling : x.handling = true) (hRoute : x.route = .dci tag) (hVer2 : rsp.isVer2 = true)
    (hLength : rsp.length ≠ 0) (hNew : x.waitingFor rsp.delayedRspId = none) (a : Allocation)
    (temp : Option (Nat → Byte)) :
    (exchangeStep x (.returned (some rsp) (some a) temp)).1.waitingFor rsp.delayedRspId =
      some ⟨rsp.delayedRspId, tag⟩ := by
  have hBack : ({ x with handling := false } : Exchange H).route = .dci tag := hRoute
  have hNone : x.waiting.find? (·.delayedRspId == rsp.delayedRspId) = none := hNew
  simp only [exchangeStep]
  rw [if_pos hHandling, Exchange.commit_dci hBack hLength, if_pos ⟨hVer2, rfl⟩,
    Exchange.waitingFor, List.find?_append, hNone]
  simp

/-- A response of version 2 that the handler of a DCI request returns announces its
delayed response id: as long as the wait for it lasts, every delayed response with that id
goes to the driver with the tag of the request, whatever else is requested, committed and
announced in between. -/
theorem delayed_reaches_request (hReading : thread.state = .reading) (m : Links DelayedRef)
    {past mid later : List (PacketEvent H)} {r : DriverRequest} {tag : UInt32} {f : H}
    (hDci : r.header.route = .dci tag)
    (hFree : (packetsAfter n turns thread m past).handling = false)
    (hHandler : handlerOf (packetsAfter n turns thread m past).userTable r.command = some f)
    (hMid : ∀ e ∈ mid, e.isReturn = false) {rsp : RspItem} (hVer2 : rsp.isVer2 = true)
    (hLength : rsp.length ≠ 0)
    (hNew : diagDciDelayedRspIdPresent
      (packetsAfter n turns thread m (past ++ .request r :: mid)) rsp.delayedRspId = some none)
    (a : Allocation) (temp : Option (Nat → Byte))
    (hOpen : ∀ e ∈ later, ¬ e.Closes rsp.delayedRspId)
    (_hDefined : (packetsAfter n turns thread m ((past ++ .request r :: mid) ++
      .returned (some rsp) (some a) temp :: later)).undefined = false)
    {item : DelayedItem} (hId : item.delayedRspId = rsp.delayedRspId) (hItem : item.length ≠ 0)
    (block : Nat → Byte) :
    ∃ frame, (packetStep n turns (packetsAfter n turns thread m ((past ++ .request r :: mid) ++
        .returned (some rsp) (some a) temp :: later))
          (.delayCommit item (some block))).2 = [.written frame] ∧
      (decodeReply frame : Reply H) = .dci dciDelayedRspCode tag item.packet := by
  obtain ⟨⟨nodes, hBefore⟩, -⟩ := @carries_run H n turns thread hReading m past
  obtain ⟨⟨nodes', hReturn⟩, -⟩ :=
    @carries_run H n turns thread hReading m (past ++ .request r :: mid)
  rw [hBefore.handling] at hFree
  rw [hBefore.tables] at hHandler
  obtain ⟨hHandling, hRoute⟩ := exchangeAfter_handling hFree hHandler hMid
  have hAnnounced := exchangeStep_announces hHandling (hRoute.trans hDci) hVer2 hLength
    (hReturn.not_waiting hNew) a temp
  have hWaiting : (exchangeAfter ((past ++ .request r :: mid) ++
      .returned (some rsp) (some a) temp :: later)).waitingFor rsp.delayedRspId =
        some ⟨rsp.delayedRspId, tag⟩ := by
    rw [exchangeAfter, run_append, run_cons]
    exact run_invariant_of_split exchangeStep
      (fun x => x.waitingFor rsp.delayedRspId = some ⟨rsp.delayedRspId, tag⟩)
      (fun _ e => ¬ e.Closes rsp.delayedRspId)
      (fun x e hWaits hStays => exchangeStep_waitingFor hWaits hStays) hAnnounced later
      (fun before e after hSplit => hOpen e (by rw [hSplit]; simp))
  obtain ⟨⟨nodes'', hCarries⟩, -⟩ := @carries_run H n turns thread hReading m
    ((past ++ .request r :: mid) ++ .returned (some rsp) (some a) temp :: later)
  obtain ⟨-, -, hOutputs⟩ := packetStep_carries hCarries (.delayCommit item (some block))
  refine exists_frame ?_ rfl
  simp only [exchangeStep, Exchange.delayCommit, hId, hWaiting, if_neg hItem] at hOutputs
  exact hOutputs

/-- The response that ends the wait in `twoResponses`. -/
theorem delayed_reaches_request_last :
    ∃ frame, (packetStep 1 0 (packetsAfter 1 0 sampleThread ⟨id, id⟩ ((twoResponses.take 1 ++
        .request taggedRequest :: []) ++
          .returned (some firstRsp) (some addrBehind) none :: [.register sampleTable true true]))
            (.delayCommit lastRsp (some fun _ => 9))).2 = [.written frame] ∧
      (decodeReply frame : Reply Unit) = .dci dciDelayedRspCode 7 lastRsp.packet :=
  @delayed_reaches_request Unit 1 0 sampleThread rfl ⟨id, id⟩ (twoResponses.take 1) []
    [.register sampleTable true true] taggedRequest 7 () rfl (by decide) (by decide) (by simp)
    firstRsp (by decide) (by decide) (by decide) addrBehind none (by simp [PacketEvent.Closes])
    (by decide) lastRsp (by decide) (by decide) _

end Runs

end Dci
end MgComm
