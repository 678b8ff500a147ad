import Mathlib.Data.List.Infix
import MgComm.Bytes

/-!
# `ModemAt`: AT commands over the modem channel

`at_cmd` writes a command line and returns whatever `read_` gets within its
budget of loop iterations.  The channel is a parameter: a state `ε` with what
`write()` and `read()` do on it.  The elements read are of any type `α` with a
byte in them, so that what the code does with bytes can be followed for bytes
that carry more.

Debug output, the signal handler and the constructor's `open` and `fcntl` calls
are left out.
-/

namespace MgComm
namespace Atcmd

universe u v

/-- The modem channel behind `fd_`.  `read` is given the size of the buffer and
returns no elements where the call returns 0 or an error. -/
structure Channel (α : Type u) (ε : Type v) where
  write : List Byte → ε → Int × ε
  read : Nat → ε → List α × ε

/-- A system call of `read_`. -/
inductive Syscall (α : Type u) where
  | read (buf : List α)
  | usleep (usec : Nat)

/-- The variables of `read_` at the head of its loop, with the calls it has
made. -/
structure Reading (α : Type u) (ε : Type v) where
  result : List α
  syscalls : List (Syscall α)
  channel : ε

namespace ModemAt

/-- `bufsize` of `read_`. -/
def bufsize : Nat := 64

section Read

variable {α : Type u} {ε : Type v} (toByte : α → Byte) (io : Channel α ε)

/-- What `result += buf` appends of a terminated buffer. -/
def cString (buf : List α) : List α := buf.takeWhile fun x => toByte x ≠ 0

/-- `result.find(...) != std::string::npos`, for both final result codes. -/
def foundResultCode (result : List α) : Bool :=
  decide (ascii "\r\nOK\r\n" <:+: result.map toByte) ||
    decide (ascii "ERROR\n" <:+: result.map toByte)

/-- The loop body of `read_`, and whether it breaks out of the loop. -/
def readBody (st : Reading α ε) : Reading α ε × Bool :=
  match io.read (bufsize - 1) st.channel with
  | ([], channel) =>
      -- Nothing read: wait 0.1 s.
      ({ result := st.result, syscalls := st.syscalls ++ [.read [], .usleep 100000],
         channel := channel }, false)
  | (x :: xs, channel) =>
      let result := st.result ++ cString toByte (x :: xs)
      ({ result := result, syscalls := st.syscalls ++ [.read (x :: xs)],
         channel := channel }, foundResultCode toByte result)

/-- The loop `do { ... } while(tenth--)` of `read_`. -/
def readLoop : Nat → Reading α ε → Reading α ε
  | 0, st => (readBody toByte io st).1
  | tenth + 1, st =>
      if (readBody toByte io st).2 then (readBody toByte io st).1
      else readLoop tenth (readBody toByte io st).1

/-- The initial value of `tenth` in `read_`. -/
def tenths (timeout : UInt32) : UInt32 := timeout * 10

/-- `std::string ModemAt::read_(unsigned timeout)`. -/
def read (timeout : UInt32) (channel : ε) : Reading α ε :=
  readLoop toByte io (tenths timeout).toNat
    { result := [], syscalls := [], channel := channel }

/-- `full_cmd` of `write_`. -/
def fullCmd (command : List Byte) : List Byte :=
  ascii "AT" ++ command ++ ascii "\r\n"

/-- `void ModemAt::write_(const std::string command)`. -/
def write (command : List Byte) (channel : ε) : Except String Unit × ε :=
  let (written, channel') := io.write (fullCmd command) channel
  if sizeT written ≠ (fullCmd command).length then
    (.error "Command write failed", channel')
  else (.ok (), channel')

/-- `std::string ModemAt::at_cmd(std::string command, int timeout)`. -/
def atCmd (command : List Byte) (timeout : Int) (channel : ε) :
    Except String (List α) × ε :=
  match write io command channel with
  | (.error message, channel') => (.error message, channel')
  | (.ok (), channel') =>
      let reading := read toByte io (UInt32.ofInt timeout) channel'
      (.ok reading.result, reading.channel)

/-! ## What the calls do -/

theorem write_short {command : List Byte} {channel : ε}
    (hSize : sizeT (io.write (fullCmd command) channel).1 ≠
      (fullCmd command).length) :
    write io command channel =
      (.error "Command write failed", (io.write (fullCmd command) channel).2) := by
  simp only [write, if_pos hSize]

theorem write_whole {command : List Byte} {channel : ε}
    (hSize : sizeT (io.write (fullCmd command) channel).1 =
      (fullCmd command).length) :
    write io command channel = (.ok (), (io.write (fullCmd command) channel).2) := by
  simp only [write, if_neg (not_not_intro hSize)]

/-- The value of `write()` when the channel takes `n` of the bytes; `none` is an
error. -/
def writeCount (accepted : Option Nat) (bytes : List Byte) : Int :=
  match accepted with
  | none => -1
  | some n => (bytes.take n).length

/-- The test of `write_`, in which an error is converted to `size_t`, holds
exactly if all bytes are taken. -/
theorem sizeT_writeCount (accepted : Option Nat) {bytes : List Byte}
    (hFits : bytes.length < 2 ^ 63) :
    sizeT (writeCount accepted bytes) = bytes.length ↔
      ∃ n ∈ accepted, bytes.length ≤ n := by
  unfold sizeT writeCount
  cases accepted with
  | none =>
      simp only [Option.not_mem_none, false_and, exists_false, iff_false]
      omega
  | some n =>
      simp only [Option.mem_some_iff, exists_eq_left', List.length_take]
      omega

/-- One iteration appends what it has read, up to a NUL byte. -/
theorem readBody_result (st : Reading α ε) :
    (readBody toByte io st).1.result =
      st.result ++ cString toByte (io.read (bufsize - 1) st.channel).1 := by
  unfold readBody
  split <;> rename_i hRead <;> simp [hRead, cString]

theorem readBody_channel (st : Reading α ε) :
    (readBody toByte io st).1.channel = (io.read (bufsize - 1) st.channel).2 := by
  unfold readBody
  split <;> rename_i hRead <;> simp [hRead]

/-- Only an iteration that has read something ends the loop. -/
theorem readBody_continues {st : Reading α ε}
    (hRead : (io.read (bufsize - 1) st.channel).1 = []) :
    (readBody toByte io st).2 = false := by
  unfold readBody
  split <;> rename_i hGot <;> simp_all

/-- Loop rule: what an iteration preserves, the loop preserves. -/
theorem readLoop_invariant (Inv : Reading α ε → Prop)
    (hStep : ∀ st, Inv st → Inv (readBody toByte io st).1)
    (tenth : Nat) {st : Reading α ε} (hInv : Inv st) :
    Inv (readLoop toByte io tenth st) := by
  induction tenth generalizing st with
  | zero => exact hStep st hInv
  | succ tenth ih =>
      unfold readLoop
      split
      · exact hStep st hInv
      · exact ih (hStep st hInv)

end Read

end ModemAt

end Atcmd
end MgComm
