import MgComm.Dci.ClientTable
import MgComm.Dci.Hardware

/-!
# From the driver to the log handlers

The read thread of the diag library reads blocks from the driver into
`read_buffer`, over what the block before has left there, and goes through each
(`processDciData`).  Its calls meet the client table in between the calls of the
client's threads.  `DCI` registers `proxy_log_handler`, which passes log packets
on to the handlers of the object.

`logs_reach_handlers` is the whole way: the records that go into the blocks on
the driver's side come out as calls of the log handlers, each log packet of the
processor once for each handler, in order and byte for byte.

The blocks that carry masks, packets or data for a memory device are not
followed beyond their type, and no memory device is being flushed.
-/

namespace MgComm
namespace Dci

universe u v w

open WireWords StreamMachine Monitor

/-! ## The thread -/

/-- `DEINIT_TYPE`. -/
def deinitType : Int := 0x10

/-- What `read(fd, read_buffer, READ_BUF_SIZE)` does. -/
inductive ReadResult where
  | failed
  | bytes (bs : List Byte)

/-- Where the thread is. -/
inductive ThreadState where
  | reading
  /-- It has left its loop. -/
  | exited
  /-- It has not come out of a block within the turns that were looked at. -/
  | looping
  deriving DecidableEq

/-- The memory with `read_buffer` in it, which lies within the address space. -/
structure ReadThread where
  mem : Nat → Byte
  readBuffer : Nat
  state : ThreadState
  inMemory : readBuffer + 2 * readBufSize < 2 ^ 64

/-- Bytes are written to memory. -/
def writeBytes (mem : Nat → Byte) (addr : Nat) (bs : List Byte) : Nat → Byte :=
  fun a => if addr ≤ a then bs.getD (a - addr) (mem a) else mem a

/-- `process_diag_payload` for the type `DCI_DATA_TYPE`, and the loop it is in:
the calls, each with the processor of its block. -/
def processDiagPayload (n : Nat) (turns : Nat) (thread : ReadThread) :
    ReadThread × List (Fin n × DciCall) :=
  if readInt thread.mem thread.readBuffer = dciDataType then
    match processDciData n thread.mem (thread.readBuffer + 4) turns with
    | none => (thread, [])
    | some (i, calls, ended) =>
        ({ thread with state := if ended then .reading else .looping },
          calls.map fun call => (i, call))
  else (thread, [])

/-- One turn of `CreateWaitThread`: `read` may return 0 across suspend; a failure
or `DEINIT_TYPE` ends the thread. -/
def readTurn (n : Nat) (turns : Nat) (thread : ReadThread) (result : ReadResult) :
    ReadThread × List (Fin n × DciCall) :=
  if thread.state = .reading then
    match result with
    | .failed => ({ thread with state := .exited }, [])
    | .bytes bs =>
        if bs = [] then (thread, [])
        else
          let thread := { thread with mem := writeBytes thread.mem thread.readBuffer bs }
          if readInt thread.mem thread.readBuffer = deinitType then
            ({ thread with state := .exited }, [])
          else processDiagPayload n turns thread
  else (thread, [])

/-! ## Blocks from the driver -/

/-- A block of records for a processor. -/
structure Block (n : Nat) where
  proc : Fin n
  records : List DciRecord

/-- The bytes of a block. -/
def Block.encode {n : Nat} (block : Block n) : List Byte :=
  intBytes dciDataType ++ encodeBlock block.proc.val block.records

/-- The records are proper ones, and the buffer holds the block. -/
def Block.WellFormed {n : Nat} (block : Block n) : Prop :=
  (∀ r ∈ block.records, r.WellFormed) ∧ block.encode.length ≤ readBufSize

theorem holds_writeBytes (mem : Nat → Byte) (addr : Nat) (bs : List Byte) :
    Holds (writeBytes mem addr bs) addr bs := by
  have hSlice (done rest : List Byte) (h : bs = done ++ rest) :
      Holds (writeBytes mem addr bs) (addr + done.length) rest := by
    induction rest generalizing done with
    | nil => trivial
    | cons b rest ih =>
        refine ⟨?_, ?_⟩
        · simp [writeBytes, h]
        · have hNext := ih (done ++ [b]) (by simp [h])
          rw [List.length_append, List.length_singleton, ← Nat.add_assoc] at hNext
          exact hNext
  exact hSlice [] bs rfl

/-- The calls of a block, as records: a signal before each. -/
def Block.calls {n : Nat} (block : Block n) : List (Fin n × Option DciRecord) :=
  block.records.flatMap fun r => [(block.proc, none), (block.proc, some r)]

theorem length_le_flatMap (records : List DciRecord) :
    records.length ≤ (records.flatMap DciRecord.encode).length := by
  induction records with
  | nil => simp
  | cons r records ih =>
      have hPos := r.encode_length_pos
      rw [List.flatMap_cons, List.length_cons, List.length_append]
      omega

/-- Step lemma: a block is taken apart into its records, and the thread goes on
reading. -/
theorem readTurn_block {n : Nat} (hProcs : n < 2 ^ 31) {turns : Nat}
    (hTurns : readBufSize < turns) {thread : ReadThread} (hReading : thread.state = .reading)
    {block : Block n} (hWell : block.WellFormed) :
    (readTurn n turns thread (.bytes block.encode)).1.state = .reading ∧
      (readTurn n turns thread (.bytes block.encode)).2.map
        (fun call => (call.1, call.2.record)) = block.calls := by
  obtain ⟨hRecords, hFits⟩ := hWell
  have hHolds := holds_writeBytes thread.mem thread.readBuffer block.encode
  set mem := writeBytes thread.mem thread.readBuffer block.encode with hMem
  have hNonempty : block.encode ≠ [] := by
    intro hNil
    have hLength := congrArg List.length hNil
    simp [Block.encode] at hLength
  rw [Block.encode, holds_append, length_intBytes] at hHolds
  have hType : readInt mem thread.readBuffer = dciDataType :=
    readInt_intBytes hHolds.1 (by decide) (by decide)
  have hInMemory := thread.inMemory
  rw [Block.encode, List.length_append, length_intBytes] at hFits
  have hCount : block.records.length ≤ readBufSize := by
    have hLength := length_le_flatMap block.records
    simp only [encodeBlock, List.length_append, length_intBytes] at hFits
    omega
  obtain ⟨calls, hData, hCalls⟩ := processDciData_encodeBlock block.proc hProcs hRecords
    (by omega) mem hHolds.2 (by omega) (by omega : block.records.length < turns)
  have hNotDeinit : ¬ dciDataType = deinitType := by decide
  simp only [readTurn, hReading, if_true, if_neg hNonempty, ← hMem, hType, hNotDeinit,
    if_false, processDiagPayload, hData]
  refine ⟨trivial, ?_⟩
  rw [List.map_map]
  show calls.map ((fun r => (block.proc, r)) ∘ DciCall.record) = block.calls
  rw [← List.map_map, hCalls, List.map_flatMap]
  rfl

/-- Run lemma for the thread. -/
theorem run_readTurn {n : Nat} (hProcs : n < 2 ^ 31) {turns : Nat}
    (hTurns : readBufSize < turns) (blocks : List (Block n))
    (hWell : ∀ block ∈ blocks, block.WellFormed) {thread : ReadThread}
    (hReading : thread.state = .reading) :
    (run (readTurn n turns) thread
        (blocks.map fun block => .bytes block.encode)).2.map
      (fun call => (call.1, call.2.record)) = blocks.flatMap Block.calls := by
  induction blocks generalizing thread with
  | nil => rfl
  | cons block blocks ih =>
      obtain ⟨hState, hCalls⟩ := readTurn_block hProcs hTurns hReading
        (hWell block List.mem_cons_self)
      rw [List.map_cons, run_cons, List.map_append, hCalls, List.flatMap_cons,
        ih (fun b hMem => hWell b (List.mem_cons_of_mem _ hMem)) hState]

/-! ## The handlers -/

/-- The stream callbacks of `DCI.cpp`. -/
inductive Proxy where
  | logHandler
  | eventHandler
  deriving DecidableEq

/-- A stream callback that a client may register: one of `DCI.cpp`, or any other. -/
inductive StreamFunc (K : Type u) where
  | proxy (p : Proxy)
  | other (f : K)
  deriving DecidableEq

/-- A call of a log handler with the bytes it is given. -/
structure HandlerCall (H : Type u) where
  registration : Nat
  handler : H
  bytes : List Byte
  deriving DecidableEq

section Handlers

variable {H : Type u}

/-- `void proxy_log_handler(unsigned char *ptr, int len)` -/
def proxyLogHandler (dciObject : Option (DCIBase H)) (p : Packet) : List (HandlerCall H) :=
  match dciObject with
  | none => []
  | some dci =>
      (DCI.handleLog dci p).map fun c =>
        ⟨c.registration, c.handler, slice p.mem c.ptr c.len.toNat⟩

/-- A stream callback.  `_handle_event` does nothing, and other callbacks have nothing
to do with the object. -/
def StreamFunc.call {K : Type w} (dciObject : Option (DCIBase H)) :
    StreamFunc K × DciCall → List (HandlerCall H)
  | (.proxy .logHandler, .log p) => proxyLogHandler dciObject p
  | _ => []

/-- What the handlers should see of a record. -/
def DciRecord.handlerCalls (dci : DCIBase H) : DciRecord → List (HandlerCall H)
  | .log packet => dci.logHandlers.zipIdx.map fun (handler, k) => ⟨k, handler, packet⟩
  | _ => []

/-- The calls of the read thread among the events. -/
def receivedCalls {K : Type u} {F : Type v} {n : Nat} (es : List (LibEvent K F n)) :
    List (Fin n × DciCall) :=
  es.filterMap fun
    | .received i call => some (i, call)
    | _ => none

theorem proxyLogHandler_eq (dci : DCIBase H) (p : Packet) :
    proxyLogHandler (some dci) p =
      DciRecord.handlerCalls dci (.log (slice p.mem p.ptr p.len.toNat)) := by
  simp [proxyLogHandler, DCI.handleLog, callHandlers, DciRecord.handlerCalls]

/-- What the handlers see of a call, from its record alone. -/
def recordCalls {n : Nat} (dci : DCIBase H) (i : Fin n) :
    Fin n × Option DciRecord → List (HandlerCall H)
  | (j, some r) => if j = i then r.handlerCalls dci else []
  | (_, none) => []

theorem arrived_calls {K : Type w} {F : Type v} {n : Nat} (dci : DCIBase H) (i : Fin n)
    (es : List (LibEvent (StreamFunc K) F n)) :
    (es.flatMap (arrived i (.proxy .logHandler) (.proxy .eventHandler))).flatMap
        (StreamFunc.call (some dci)) =
      ((receivedCalls es).map fun c => (c.1, c.2.record)).flatMap (recordCalls dci i) := by
  induction es with
  | nil => rfl
  | cons e es ih =>
      rw [List.flatMap_cons, List.flatMap_append, ih]
      cases e with
      | received j call =>
          show _ = recordCalls dci i (j, call.record) ++ _
          congr 1
          cases call with
          | signal => rfl
          | pktRsp rsp =>
              by_cases hj : j = i <;> simp [arrived, recordCalls, DciCall.record,
                DciRecord.handlerCalls, hj]
          | log p =>
              by_cases hj : j = i
              · simp [arrived, recordCalls, DciCall.record, hj, StreamFunc.call,
                  proxyLogHandler_eq]
              · simp [arrived, recordCalls, DciCall.record, hj]
          | event p =>
              by_cases hj : j = i <;> simp [arrived, recordCalls, DciCall.record,
                DciRecord.handlerCalls, hj, StreamFunc.call]
      | _ => rfl

theorem block_calls {n : Nat} (dci : DCIBase H) (i : Fin n) (block : Block n) :
    block.calls.flatMap (recordCalls dci i) =
      if block.proc = i then block.records.flatMap (DciRecord.handlerCalls dci) else [] := by
  obtain ⟨proc, records⟩ := block
  induction records with
  | nil => simp [Block.calls]
  | cons r records ih =>
      simp only [Block.calls, List.flatMap_cons, List.flatMap_append] at ih ⊢
      rw [ih]
      by_cases hProc : proc = i <;> simp [recordCalls, hProc]

/-! ### The other processors -/

section Others

variable {K : Type w} {F : Type v} {n : Nat} [NeZero n] {lib : DciLib (StreamFunc K) F n}
  {i : Fin n}

/-- No entry but that of the processor has a callback of `DCI.cpp`. -/
def NoOtherProxy (i : Fin n) (lib : DciLib (StreamFunc K) F n) : Prop :=
  ∀ j ≠ i, ∀ p, (lib.clients j).funcPtrLogs ≠ .func (.proxy p) ∧
    (lib.clients j).funcPtrEvents ≠ .func (.proxy p)

/-- The step registers no stream callbacks for the processor, and none of `DCI.cpp` for
another one. -/
def KeepsProxies (i : Fin n) (lib : DciLib (StreamFunc K) F n) :
    LibEvent (StreamFunc K) F n → Prop
  | .registerStream clientId logs events =>
      lib.getProc clientId ≠ some i ∧ ∀ p, logs ≠ some (.proxy p) ∧ events ≠ some (.proxy p)
  | _ => True

omit [NeZero n] in
theorem KeepsProxies.keepsStream {e : LibEvent (StreamFunc K) F n} (h : KeepsProxies i lib e) :
    KeepsStream i lib e := by
  cases e with
  | registerStream clientId logs events => exact h.1
  | _ => trivial

theorem FuncPtr.ofOption_ne_func {f : Option (StreamFunc K)} {g : StreamFunc K}
    (h : f ≠ some g) : FuncPtr.ofOption f ≠ .func g := by
  cases f with
  | none => simp [FuncPtr.ofOption]
  | some f => simpa [FuncPtr.ofOption] using h

theorem NoOtherProxy.libStep (h : NoOtherProxy i lib) {e : LibEvent (StreamFunc K) F n}
    (hKeeps : KeepsProxies i lib e) : NoOtherProxy i (libStep lib e).1 := by
  intro j
  refine libStep_forall (P := fun j (client : DiagDciClientTbl (StreamFunc K)) =>
    j ≠ i → ∀ p : Proxy, client.funcPtrLogs ≠ .func (.proxy p) ∧
      client.funcPtrEvents ≠ .func (.proxy p)) e h ?_ ?_ ?_ ?_ j
  · intro j client list signalType token clientId dciReqBuf _ _ hClient
    exact hClient
  · rintro j clientId logs events rfl - - p
    obtain ⟨hLogs, hEvents⟩ := hKeeps.2 p
    exact ⟨FuncPtr.ofOption_ne_func hLogs, FuncPtr.ofOption_ne_func hEvents⟩
  · intro j client flag signalType hClient
    exact hClient
  · intro j client hClient
    exact hClient

/-- Calls for other processors do not reach the object. -/
theorem libStep_streamed_calls (h : NoOtherProxy i lib) (dciObject : Option (DCIBase H))
    (e : LibEvent (StreamFunc K) F n) :
    (streamed (libStep lib e).2).flatMap (StreamFunc.call dciObject) =
      (delivered i (libStep lib e).2).flatMap (StreamFunc.call dciObject) := by
  cases e with
  | received j call =>
      cases call with
      | signal =>
          simp only [libStep, receive, streamed, delivered]
          split <;> rfl
      | pktRsp rsp =>
          simp [libStep, receive, streamed, delivered, List.filterMap_map]
      | log p =>
          simp only [libStep, receive]
          cases hFunc : (lib.clients j).funcPtrLogs with
          | indeterminate => rfl
          | null => rfl
          | func f =>
              by_cases hj : j = i
              · simp [callStream, streamed, delivered, hj]
              · cases f with
                | proxy q => exact absurd hFunc (h j hj q).1
                | other f => simp [callStream, streamed, delivered, hj, StreamFunc.call]
      | event p =>
          simp only [libStep, receive]
          cases hFunc : (lib.clients j).funcPtrEvents with
          | indeterminate => rfl
          | null => rfl
          | func f =>
              by_cases hj : j = i
              · simp [callStream, streamed, delivered, hj]
              · cases f with
                | proxy q => exact absurd hFunc (h j hj q).2
                | other f => simp [callStream, streamed, delivered, hj, StreamFunc.call]
  | _ => rfl

theorem run_streamed_calls (h : NoOtherProxy i lib) (dciObject : Option (DCIBase H))
    (es : List (LibEvent (StreamFunc K) F n))
    (hKeeps : Accepts libNext (KeepsProxies i) lib es) :
    (streamed (run libStep lib es).2).flatMap (StreamFunc.call dciObject) =
      (delivered i (run libStep lib es).2).flatMap (StreamFunc.call dciObject) := by
  induction es generalizing lib with
  | nil => rfl
  | cons e es ih =>
      obtain ⟨hKeep, hRest⟩ := hKeeps
      have hHead := libStep_streamed_calls h dciObject e
      have hTail := ih (h.libStep hKeep) hRest
      simp only [streamed, delivered] at hHead hTail ⊢
      rw [run_cons, List.filterMap_append, List.filterMap_append, List.flatMap_append,
        List.flatMap_append, hHead, hTail]

end Others

/-- The whole way of the log packets.  The driver delivers blocks of records, the
read thread takes them apart, and its calls meet the client table in any
interleaving with what the client's thread does.  As long as nothing undefined is
done, the callbacks of a processor stay the ones of `DCI.cpp` and no other processor
has them, the handlers of the object are called with exactly the log packets for this
processor, in order, each packet once for each handler and byte for byte, whatever
responses, events and blocks for other processors come in between. -/
theorem logs_reach_handlers {K : Type w} {F : Type v} {n : Nat} [NeZero n]
    (hProcs : n < 2 ^ 31) {turns : Nat} (hTurns : readBufSize < turns)
    (blocks : List (Block n)) (hWell : ∀ block ∈ blocks, block.WellFormed)
    {thread : ReadThread} (hReading : thread.state = .reading)
    {lib : DciLib (StreamFunc K) F n} {i : Fin n}
    (hLogs : (lib.clients i).funcPtrLogs = .func (.proxy .logHandler))
    (hEvents : (lib.clients i).funcPtrEvents = .func (.proxy .eventHandler))
    (hOthers : NoOtherProxy i lib) (es : List (LibEvent (StreamFunc K) F n))
    (hKeeps : Accepts libNext (KeepsProxies i) lib es)
    (_hDefined : (run libStep lib es).1.Defined)
    (hReceived : receivedCalls es = (run (readTurn n turns) thread
      (blocks.map fun block => .bytes block.encode)).2) (dci : DCIBase H) :
    (streamed (run libStep lib es).2).flatMap (StreamFunc.call (some dci)) =
      (blocks.filter fun block => block.proc = i).flatMap fun block =>
        block.records.flatMap (DciRecord.handlerCalls dci) := by
  have hStream := hKeeps.imp _ _ fun _ _ h => KeepsProxies.keepsStream h
  rw [run_streamed_calls hOthers _ es hKeeps, run_delivered hLogs hEvents es hStream,
    arrived_calls, hReceived, run_readTurn hProcs hTurns blocks hWell hReading,
    List.flatMap_assoc]
  clear hReceived hWell
  induction blocks with
  | nil => rfl
  | cons block blocks ih =>
      rw [List.flatMap_cons, block_calls, ih]
      by_cases hProc : block.proc = i
      · rw [if_pos hProc, List.filter_cons_of_pos (by simpa using hProc),
          List.flatMap_cons]
      · rw [if_neg hProc, List.filter_cons_of_neg (by simpa using hProc), List.nil_append]

/-- The calls of the read thread, with nothing in between. -/
def alone {K : Type u} {F : Type v} {n : Nat} (calls : List (Fin n × DciCall)) :
    List (LibEvent K F n) :=
  calls.map fun c => .received c.1 c.2

theorem receivedCalls_alone {K : Type u} {F : Type v} {n : Nat}
    (calls : List (Fin n × DciCall)) :
    receivedCalls (alone calls : List (LibEvent K F n)) = calls := by
  simp [receivedCalls, alone, List.filterMap_map]

theorem accepts_alone {K : Type w} {F : Type v} {n : Nat} [NeZero n] (i : Fin n)
    (lib : DciLib (StreamFunc K) F n) (calls : List (Fin n × DciCall)) :
    Accepts libNext (KeepsProxies i) lib (alone calls) := by
  induction calls generalizing lib with
  | nil => trivial
  | cons c calls ih => exact ⟨trivial, ih _⟩

end Handlers

/-- A block with a log packet, an event and a second packet. -/
def sampleBlock : Block 1 :=
  ⟨⟨0, Nat.zero_lt_one⟩, [.log [4, 0, 1, 2], .event [7], .log [5, 0, 3, 4, 5]]⟩

/-- A read thread at the start. -/
def sampleThread : ReadThread := ⟨fun _ => 0, 0, .reading, by simp [readBufSize]⟩

/-- The library after some events. -/
def libAfter {K : Type w} {F : Type v} {n : Nat} [NeZero n] (es : List (LibEvent K F n)) :
    DciLib K F n :=
  (run libStep (diagLsmDciInit ⟨id, id⟩) es).1

/-- The callbacks of `DCI.cpp` are registered. -/
def proxiesRegistered : List (LibEvent (StreamFunc Unit) Unit 1) :=
  registration 7 (.proxy .logHandler) (.proxy .eventHandler)

/-- The calls of the read thread for the block. -/
def sampleCalls : List (LibEvent (StreamFunc Unit) Unit 1) :=
  alone (run (readTurn 1 (readBufSize + 1)) sampleThread
    ([sampleBlock].map fun block => .bytes block.encode)).2

/-- The read thread gives this block to the library, with an object that has two
handlers. -/
theorem logs_reach_handlers_two :
    (streamed (run libStep (libAfter proxiesRegistered) sampleCalls).2).flatMap
      (StreamFunc.call (some { DCIBase.fresh Bool with logHandlers := [true, false] })) =
    [⟨0, true, [4, 0, 1, 2]⟩, ⟨1, false, [4, 0, 1, 2]⟩, ⟨0, true, [5, 0, 3, 4, 5]⟩,
      ⟨1, false, [5, 0, 3, 4, 5]⟩] :=
  (logs_reach_handlers (by simp) (Nat.lt_succ_self readBufSize) [sampleBlock]
    (by
      simp [sampleBlock, Block.WellFormed, DciRecord.WellFormed, Block.encode,
        encodeBlock, DciRecord.encode, readBufSize, WireWords.wordBytes])
    rfl (by decide) (by decide) (fun j hj => absurd (Subsingleton.elim j 0) hj) _
    (accepts_alone 0 _ _) (by unfold DciLib.Defined; decide +kernel) (receivedCalls_alone _) _).trans
    (by decide)

end Dci
end MgComm
