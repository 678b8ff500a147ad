import Mathlib.Data.Finset.Basic
import Mathlib.Data.Finset.Card
import MgComm.Bytes

/-!
# `DCIBase`: active log codes and log handlers

The software side of the DCI interface, `dci/DCIBase.cpp`, with the virtual
`_dci_configure_logs` as a parameter: what a subclass reads and writes there is
a state `δ` beside the object.

`_manipulate_log_codes` takes its set by reference, and `reset_log_codes` passes
it the object's own `_log_codes`.  The set argument is therefore a reference
here too: erasing the range of another container from `_log_codes` would be
undefined, and the record has a flag for it.

Console output and the event half of the class, which does nothing, are left
out.
-/

namespace MgComm
namespace Dci

universe u v

/-- `ENABLE` and `DISABLE`. -/
inductive Action where
  | enable
  | disable
  deriving DecidableEq

/-- The `int` which stands for an action. -/
def Action.toInt : Action → Int
  | .enable => 1
  | .disable => 0

/-- The fields of the object which log handling uses; `H` is the type of log
handlers. -/
structure DCIBase (H : Type u) where
  logCodes : Finset UInt16
  logHandlers : List H
  /-- Iterators of another container were given to `_log_codes.erase`. -/
  undefined : Bool

/-- An argument `const std::unordered_set<uint16_t> &`. -/
inductive CodesRef where
  /-- The object's own `_log_codes`. -/
  | own
  | other (codes : Finset UInt16)

/-- `virtual int _dci_configure_logs(int, std::unordered_set<uint16_t>)`, with
the state `δ` it works on.  The set is passed by value. -/
abbrev ConfigureLogs (δ : Type v) := Action → Finset UInt16 → δ → Int × δ

section Configuration

variable {H : Type u} {δ : Type v} (configure : ConfigureLogs δ)

/-- The set a reference refers to. -/
def DCIBase.deref (dci : DCIBase H) : CodesRef → Finset UInt16
  | .own => dci.logCodes
  | .other codes => codes

/-- `_log_codes.erase(log_codes.begin(), log_codes.end())`. -/
def DCIBase.eraseRange (dci : DCIBase H) : CodesRef → DCIBase H
  | .own => { dci with logCodes := ∅ }
  | .other _ => { dci with undefined := true }

/-- `int DCIBase::_manipulate_log_codes(const std::unordered_set<uint16_t>
&log_codes, int action)`. -/
def manipulateLogCodes (st : DCIBase H × δ) (logCodes : CodesRef)
    (action : Action) : Int × (DCIBase H × δ) :=
  let codes := st.1.deref logCodes
  if codes.card = 0 then (0, st)
  else
    -- Configure device
    let (result, device) := configure action codes st.2
    if result ≠ 0 then (1, (st.1, device))
    else
      -- Modify active log codes
      match action with
      | .enable =>
          (0, ({ st.1 with logCodes := st.1.logCodes ∪ codes }, device))
      | .disable => (0, (st.1.eraseRange logCodes, device))

/-- `int DCIBase::add_log_codes(const std::unordered_set<uint16_t>
&log_codes)`. -/
def addLogCodes (st : DCIBase H × δ) (logCodes : Finset UInt16) :
    Int × (DCIBase H × δ) :=
  manipulateLogCodes configure st (.other logCodes) .enable

/-- `int DCIBase::reset_log_codes()`. -/
def resetLogCodes (st : DCIBase H × δ) : Int × (DCIBase H × δ) :=
  manipulateLogCodes configure st .own .disable

/-- `int DCIBase::set_log_codes(const std::unordered_set<uint16_t>
&log_codes)`. -/
def setLogCodes (st : DCIBase H × δ) (logCodes : Finset UInt16) :
    Int × (DCIBase H × δ) :=
  let (result, st') := resetLogCodes configure st
  if result ≠ 0 then (result, st') else addLogCodes configure st' logCodes

/-- The calls that configure the log codes. -/
inductive ConfigCall where
  | set (logCodes : Finset UInt16)
  | add (logCodes : Finset UInt16)
  | reset

/-- The return value of a configuration call, and the state after it. -/
def configCall (st : DCIBase H × δ) : ConfigCall → Int × (DCIBase H × δ)
  | .set logCodes => setLogCodes configure st logCodes
  | .add logCodes => addLogCodes configure st logCodes
  | .reset => resetLogCodes configure st

/-! ## What the calls can do -/

/-- `add_log_codes` does nothing, fails with the device, or adds the codes on
both sides. -/
theorem addLogCodes_cases (st : DCIBase H × δ) (logCodes : Finset UInt16) :
    (logCodes = ∅ ∧ addLogCodes configure st logCodes = (0, st)) ∨
      (logCodes ≠ ∅ ∧ (configure .enable logCodes st.2).1 ≠ 0 ∧
        addLogCodes configure st logCodes =
          (1, (st.1, (configure .enable logCodes st.2).2))) ∨
      (logCodes ≠ ∅ ∧ (configure .enable logCodes st.2).1 = 0 ∧
        addLogCodes configure st logCodes =
          (0, ({ st.1 with logCodes := st.1.logCodes ∪ logCodes },
            (configure .enable logCodes st.2).2))) := by
  by_cases hEmpty : logCodes = ∅
  · simp [hEmpty, addLogCodes, manipulateLogCodes, DCIBase.deref]
  · by_cases hResult : (configure .enable logCodes st.2).1 = 0 <;>
      simp [hEmpty, hResult, addLogCodes, manipulateLogCodes, DCIBase.deref]

/-- `reset_log_codes` does nothing, fails with the device, or removes all codes
on both sides.  The range erased is the object's own. -/
theorem resetLogCodes_cases (st : DCIBase H × δ) :
    (st.1.logCodes = ∅ ∧ resetLogCodes configure st = (0, st)) ∨
      (st.1.logCodes ≠ ∅ ∧ (configure .disable st.1.logCodes st.2).1 ≠ 0 ∧
        resetLogCodes configure st =
          (1, (st.1, (configure .disable st.1.logCodes st.2).2))) ∨
      (st.1.logCodes ≠ ∅ ∧ (configure .disable st.1.logCodes st.2).1 = 0 ∧
        resetLogCodes configure st =
          (0, ({ st.1 with logCodes := ∅ },
            (configure .disable st.1.logCodes st.2).2))) := by
  by_cases hEmpty : st.1.logCodes = ∅
  · simp [hEmpty, resetLogCodes, manipulateLogCodes, DCIBase.deref]
  · by_cases hResult : (configure .disable st.1.logCodes st.2).1 = 0 <;>
      simp [hEmpty, hResult, resetLogCodes, manipulateLogCodes, DCIBase.deref,
        DCIBase.eraseRange]

/-- `set_log_codes` is `reset_log_codes`, then `add_log_codes` if that
returned 0. -/
theorem setLogCodes_cases (st : DCIBase H × δ) (logCodes : Finset UInt16) :
    ((resetLogCodes configure st).1 ≠ 0 ∧
        setLogCodes configure st logCodes = resetLogCodes configure st) ∨
      ((resetLogCodes configure st).1 = 0 ∧
        setLogCodes configure st logCodes =
          addLogCodes configure (resetLogCodes configure st).2 logCodes) := by
  by_cases hResult : (resetLogCodes configure st).1 = 0
  · exact Or.inr ⟨hResult, by simp [setLogCodes, hResult]⟩
  · exact Or.inl ⟨hResult, by simp [setLogCodes, hResult]⟩

/-- Step rule: what adding and resetting preserve, every configuration call
preserves. -/
theorem configCall_invariant (Inv : DCIBase H × δ → Prop)
    (hAdd : ∀ st logCodes, Inv st → Inv (addLogCodes configure st logCodes).2)
    (hReset : ∀ st, Inv st → Inv (resetLogCodes configure st).2)
    {st : DCIBase H × δ} (hInv : Inv st) (call : ConfigCall) :
    Inv (configCall configure st call).2 := by
  cases call with
  | add logCodes => exact hAdd st logCodes hInv
  | reset => exact hReset st hInv
  | set logCodes =>
      show Inv (setLogCodes configure st logCodes).2
      rcases setLogCodes_cases configure st logCodes with
        ⟨-, hSet⟩ | ⟨-, hSet⟩
      · rw [hSet]
        exact hReset st hInv
      · rw [hSet]
        exact hAdd _ logCodes (hReset st hInv)

/-- Configuration leaves the handlers alone and meets no undefined erasure. -/
theorem configCall_frame (st : DCIBase H × δ) (call : ConfigCall) :
    (configCall configure st call).2.1.logHandlers = st.1.logHandlers ∧
      (configCall configure st call).2.1.undefined = st.1.undefined := by
  refine configCall_invariant configure
    (fun st' => st'.1.logHandlers = st.1.logHandlers ∧
      st'.1.undefined = st.1.undefined) ?_ ?_ ⟨rfl, rfl⟩ call
  · intro st' logCodes hInv
    rcases addLogCodes_cases configure st' logCodes with
      ⟨-, h⟩ | ⟨-, -, h⟩ | ⟨-, -, h⟩ <;> rw [h] <;> exact hInv
  · intro st' hInv
    rcases resetLogCodes_cases configure st' with
      ⟨-, h⟩ | ⟨-, -, h⟩ | ⟨-, -, h⟩ <;> rw [h] <;> exact hInv

end Configuration

/-! ## Log packets -/

/-- The arguments of a log callback, with the memory they point into. -/
structure Packet where
  mem : Nat → Byte
  ptr : Nat
  len : Int

/-- `*(uint16_t*)` at an address, on a little-endian machine. -/
def readUint16 (mem : Nat → Byte) (addr : Nat) : UInt16 :=
  (mem addr).toUInt16 + (mem (addr + 1)).toUInt16 * 256

/-- `*(uint16_t*)(ptr + 2)`. -/
def Packet.logCode (p : Packet) : UInt16 := readUint16 p.mem (p.ptr + 2)

/-- One call of a log handler.  The handlers are told apart by their position
in `_log_handlers`. -/
structure Invocation (H : Type u) where
  registration : Nat
  handler : H
  ptr : Nat
  len : Int
  deriving DecidableEq

section Handlers

variable {H : Type u}

/-- `for(auto handler: _log_handlers) handler(ptr, len);` -/
def callHandlers (handlers : List H) (p : Packet) : List (Invocation H) :=
  handlers.zipIdx.map fun (handler, i) => ⟨i, handler, p.ptr, p.len⟩

/-- `void DCIBase::_handle_log(unsigned char *ptr, int len)`: the handler calls
it makes. -/
def DCIBase.handleLog (dci : DCIBase H) (p : Packet) : List (Invocation H) :=
  if p.logCode ∈ dci.logCodes then callHandlers dci.logHandlers p else []

/-- `void DCIBase::add_log_handler(log_callback_t const & c)`. -/
def DCIBase.addLogHandler (dci : DCIBase H) (c : H) : DCIBase H :=
  { dci with logHandlers := dci.logHandlers ++ [c] }

/-- The object after its construction. -/
def DCIBase.fresh (H : Type u) : DCIBase H :=
  { logCodes := ∅, logHandlers := [], undefined := false }

end Handlers

end Dci
end MgComm
