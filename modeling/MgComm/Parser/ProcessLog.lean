import MgComm.Dci.DCIBase
import MgComm.Library.StreamMachine

/-!
# `Parser`: log packets and the memory they are read from

`Parser::process_log` is registered as a log handler of `DCIBase`.  Here it is
modelled with the addresses it reads, together with the `dump` it calls and the
header that `_handle_log` reads before it.  The DCI library hands out a pointer
into its buffer and, as the length, the 16-bit field the packet starts with.

`dump` keeps to the length.  The log code is read at offset 2, by `_handle_log`
and again by `process_log`, without a look at the length; so the reads stay
within the packet exactly if it has four bytes (`logReads_within_iff`).

Console output is left out.
-/

namespace MgComm
namespace Parsing

open Dci StreamMachine

/-! ## `dump` -/

/-- The loop `while(u < len)` of `dump`: the addresses it reads. -/
def dumpLoop (data : Nat) (len u : UInt32) : List Nat :=
  if u < len then (data + u.toNat) :: dumpLoop data len (u + 1) else []
termination_by len.toNat - u.toNat
decreasing_by
  rename_i hLess
  have hBelow : u.toNat < len.toNat := UInt32.lt_iff_toNat_lt.mp hLess
  have hLen := len.toNat_lt
  have hNext : (u + 1).toNat = u.toNat + 1 := by
    rw [UInt32.toNat_add, UInt32.toNat_one]
    omega
  omega

/-- `void dump(void *data, unsigned len)`. -/
def dump (data : Nat) (len : UInt32) : List Nat := dumpLoop data len 0

/-! ## `process_log` -/

/-- The members that `Decoder` points to. -/
inductive Decoder where
  | decGsmSignalling
  | decGsmPowerscan
  deriving DecidableEq

/-- Qualcomm modem log description. -/
structure LogDescriptor where
  code : UInt16
  name : String
  decoder : Decoder
  deriving DecidableEq

/-- `LOG_GSM_RR_SIGNALING_MESSAGE_C`. -/
def logGsmRrSignalingMessageC : UInt16 := 0x5000 + 303

/-- `LOG_GSM_POWER_SCAN_C`. -/
def logGsmPowerScanC : UInt16 := 0x5000 + 100

/-- `DSDS`. -/
def dsds : UInt16 := 0x0A00

/-- `log_descriptors`. -/
def logDescriptors : List (UInt16 × LogDescriptor) :=
  [(logGsmRrSignalingMessageC,
      ⟨logGsmRrSignalingMessageC, "GSM SIGNALLING MESSAGE", .decGsmSignalling⟩),
    (logGsmRrSignalingMessageC + dsds,
      ⟨logGsmRrSignalingMessageC + dsds, "GSM SIGNALLING MESSAGE DSDS",
        .decGsmSignalling⟩),
    (logGsmPowerScanC,
      ⟨logGsmPowerScanC, "GSM POWER SCAN", .decGsmPowerscan⟩),
    (logGsmPowerScanC + dsds,
      ⟨logGsmPowerScanC + dsds, "GSM POWER SCAN DSDS", .decGsmPowerscan⟩)]

/-- Every description is filed under its own code, and no code twice. -/
theorem logDescriptors_keys :
    (∀ entry ∈ logDescriptors, entry.1 = entry.2.code) ∧
      (logDescriptors.map Prod.fst).Nodup := by
  decide

/-- The object. -/
structure Parser where
  bDump : Bool
  raw : Nat
  len : Int
  logCode : UInt16

/-- `dec_gsm_signalling` and `dec_gsm_powerscan` print their names: the value,
and the addresses they read. -/
def Decoder.call : Decoder → Parser → Int × List Nat
  | .decGsmSignalling, _ => (0, [])
  | .decGsmPowerscan, _ => (0, [])

/-- `*(uint16_t*)` with the addresses it reads. -/
def loadUint16 (mem : Nat → Byte) (addr : Nat) : UInt16 × List Nat :=
  (readUint16 mem addr, [addr, addr + 1])

/-- `int Parser::process_log(unsigned char *raw, int len)`: the object and the
addresses that are read. -/
def Parser.processLog (parser : Parser) (mem : Nat → Byte) (raw : Nat)
    (len : Int) : Parser × List Nat :=
  let parser := { parser with raw := raw, len := len }
  let dumped := if parser.bDump then dump raw (UInt32.ofInt len) else []
  let (code, loaded) := loadUint16 mem (raw + 2)
  let parser := { parser with logCode := code }
  match logDescriptors.lookup code with
  | none => (parser, dumped ++ loaded)
  | some desc => (parser, dumped ++ loaded ++ (desc.decoder.call parser).2)

/-! ## From the library to the parsers -/

/-- A call of the log callback with a 16-bit length. -/
def logPacket (mem : Nat → Byte) (ptr : Nat) (len : UInt16) : Packet :=
  { mem := mem, ptr := ptr, len := len.toNat }

/-- The call in `process_diag_payload`: a pointer to the packet, and its length
field as it is. -/
def payloadPacket (mem : Nat → Byte) (ptr : Nat) : Packet :=
  logPacket mem ptr (readUint16 mem ptr)

section Handlers

variable {ι : Type} [DecidableEq ι]

/-- A handler which `std::bind` has made of `process_log` and a parser. -/
def callParser (mem : Nat → Byte) (parsers : ι → Parser) (call : Invocation ι) :
    (ι → Parser) × List Nat :=
  let (parser, reads) := (parsers call.handler).processLog mem call.ptr call.len
  (Function.update parsers call.handler parser, reads)

/-- `DCIBase::_handle_log` with the parsers as its handlers: the addresses that
are read. -/
def logReads (dci : DCIBase ι) (parsers : ι → Parser) (p : Packet) : List Nat :=
  (loadUint16 p.mem (p.ptr + 2)).2 ++
    (run (callParser p.mem) parsers (dci.handleLog p)).2

end Handlers

/-- All addresses lie within the packet. -/
def ReadsWithin (p : Packet) (reads : List Nat) : Prop :=
  ∀ addr ∈ reads, ∃ offset : Nat, addr = p.ptr + offset ∧ (offset : Int) < p.len

theorem readsWithin_append (p : Packet) (reads reads' : List Nat) :
    ReadsWithin p (reads ++ reads') ↔
      ReadsWithin p reads ∧ ReadsWithin p reads' :=
  List.forall_mem_append

/-- `dump` reads the bytes from `u` up to its length. -/
theorem mem_dumpLoop (data : Nat) (len u : UInt32) (addr : Nat) :
    addr ∈ dumpLoop data len u →
      ∃ offset, addr = data + offset ∧ offset < len.toNat := by
  induction u using dumpLoop.induct len with
  | case1 u hLess ih =>
      intro hMem
      rw [dumpLoop, if_pos hLess] at hMem
      cases List.mem_cons.mp hMem with
      | inl hFirst => exact ⟨u.toNat, hFirst, UInt32.lt_iff_toNat_lt.mp hLess⟩
      | inr hLater => exact ih hLater
  | case2 u hDone =>
      intro hMem
      rw [dumpLoop, if_neg hDone] at hMem
      cases hMem

/-- `dump` keeps to the length that `process_log` gives to it. -/
theorem dump_within (mem : Nat → Byte) (ptr : Nat) (len : UInt16) :
    ReadsWithin (logPacket mem ptr len) (dump ptr (UInt32.ofInt len.toNat)) := by
  intro addr hMem
  obtain ⟨offset, hAddr, hOffset⟩ := mem_dumpLoop _ _ _ _ hMem
  have hSame : (UInt32.ofInt len.toNat).toNat = len.toNat := by
    have hBelow := len.toNat_lt
    rw [UInt32.ofInt, UInt32.toNat_ofNat']
    omega
  refine ⟨offset, hAddr, ?_⟩
  rw [hSame] at hOffset
  exact Int.ofNat_lt.mpr hOffset

/-- The log code is within the packet exactly if that has four bytes. -/
theorem loadUint16_within_iff (p : Packet) :
    ReadsWithin p (loadUint16 p.mem (p.ptr + 2)).2 ↔ 4 ≤ p.len := by
  constructor
  · intro h
    obtain ⟨offset, hAddr, hOffset⟩ := h (p.ptr + 2 + 1) (by simp [loadUint16])
    omega
  · intro hFour addr hMem
    have hCases : addr = p.ptr + 2 ∨ addr = p.ptr + 2 + 1 := by
      simpa [loadUint16] using hMem
    cases hCases with
    | inl hLow => exact ⟨2, hLow, by omega⟩
    | inr hHigh => exact ⟨3, hHigh, by omega⟩

/-- What `process_log` reads: the dump, and the log code. -/
theorem processLog_reads (parser : Parser) (mem : Nat → Byte) (raw : Nat)
    (len : Int) :
    (parser.processLog mem raw len).2 =
      (if parser.bDump then dump raw (UInt32.ofInt len) else []) ++
        (loadUint16 mem (raw + 2)).2 := by
  have hDecoder (decoder : Decoder) (parser : Parser) :
      (decoder.call parser).2 = [] := by
    cases decoder <;> rfl
  unfold Parser.processLog
  simp only
  split
  · rfl
  · rw [hDecoder, List.append_nil]

/-- One parser reads within a packet of four bytes and more. -/
theorem processLog_within (parser : Parser) (mem : Nat → Byte) (ptr : Nat)
    (len : UInt16) (hFour : 4 ≤ len.toNat) :
    ReadsWithin (logPacket mem ptr len)
      (parser.processLog mem ptr len.toNat).2 := by
  have hCode : ReadsWithin (logPacket mem ptr len)
      (loadUint16 mem (ptr + 2)).2 :=
    (loadUint16_within_iff (logPacket mem ptr len)).mpr (Int.ofNat_le.mpr hFour)
  rw [processLog_reads, readsWithin_append]
  refine ⟨?_, hCode⟩
  split
  · exact dump_within mem ptr len
  · exact List.forall_mem_nil _

/-- The handlers are called with the arguments of the callback. -/
theorem handleLog_args {ι : Type} (dci : DCIBase ι) (p : Packet) :
    ∀ call ∈ dci.handleLog p, call.ptr = p.ptr ∧ call.len = p.len := by
  intro call hMem
  unfold DCIBase.handleLog at hMem
  split at hMem
  · obtain ⟨handler, -, rfl⟩ := List.mem_map.mp hMem
    exact ⟨rfl, rfl⟩
  · cases hMem

/-- So do any calls of any parsers, one after another. -/
theorem callParsers_within {ι : Type} [DecidableEq ι] (mem : Nat → Byte)
    (ptr : Nat) (len : UInt16) (hFour : 4 ≤ len.toNat) (parsers : ι → Parser)
    (calls : List (Invocation ι))
    (hArgs : ∀ call ∈ calls, call.ptr = ptr ∧ call.len = len.toNat) :
    ReadsWithin (logPacket mem ptr len)
      (run (callParser mem) parsers calls).2 := by
  induction calls generalizing parsers with
  | nil => exact List.forall_mem_nil _
  | cons call calls ih =>
      obtain ⟨hPtr, hLen⟩ := hArgs call List.mem_cons_self
      have hFirst : ReadsWithin (logPacket mem ptr len)
          (callParser mem parsers call).2 := by
        show ReadsWithin (logPacket mem ptr len)
          ((parsers call.handler).processLog mem call.ptr call.len).2
        rw [hPtr, hLen]
        exact processLog_within _ mem ptr len hFour
      rw [run_cons, readsWithin_append]
      exact ⟨hFirst, ih _ fun c hMem => hArgs c (List.mem_cons_of_mem _ hMem)⟩

/-- For every packet buffer, every length, every active set and every list of
registered parsers, dumping or not: `_handle_log` and the parsers read within
the packet exactly if its length is at least four. -/
theorem logReads_within_iff {ι : Type} [DecidableEq ι] (dci : DCIBase ι)
    (parsers : ι → Parser) (mem : Nat → Byte) (ptr : Nat) (len : UInt16) :
    ReadsWithin (logPacket mem ptr len)
        (logReads dci parsers (logPacket mem ptr len)) ↔
      4 ≤ len.toNat := by
  have hCode := loadUint16_within_iff (logPacket mem ptr len)
  have hLen : 4 ≤ (logPacket mem ptr len).len ↔ 4 ≤ len.toNat :=
    Int.ofNat_le (m := 4)
  unfold logReads
  rw [readsWithin_append, hCode, hLen]
  constructor
  · exact fun h => h.1
  · intro hFour
    exact ⟨hFour, callParsers_within mem ptr len hFour parsers _
      (handleLog_args dci (logPacket mem ptr len))⟩

/-- A packet that ends after its length field: the code of log 0 is looked for
behind it. -/
theorem short_packet_overread :
    let mem : Nat → Byte := fun addr => if addr = 0 then 2 else 0
    let dci : DCIBase Unit :=
      { logCodes := {0}, logHandlers := [()], undefined := false }
    let parsers : Unit → Parser := fun _ => ⟨false, 0, 0, 0⟩
    ¬ ReadsWithin (payloadPacket mem 0)
      (logReads dci parsers (payloadPacket mem 0)) := by
  intro mem dci parsers h
  have hMem : 2 ∈ logReads dci parsers (payloadPacket mem 0) :=
    List.mem_append_left _ List.mem_cons_self
  obtain ⟨offset, hAddr, hOffset⟩ := h 2 hMem
  have hLen : (payloadPacket mem 0).len = 2 := by decide
  rw [hLen] at hOffset
  have hPtr : (payloadPacket mem 0).ptr = 0 := rfl
  omega

end Parsing
end MgComm
