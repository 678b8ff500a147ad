import MgComm.Library.StreamMachine
import MgComm.Atcmd.ModemAt

/-!
# The command lines the modem receives

The descriptor is non-blocking, so a `write()` may take any part of a command
line.  `write_` then throws, and what has been taken stays with the modem, in
front of the next command line.

The bytes handed to the modem are followed over any sequence of `at_cmd` calls
whose exceptions are caught.  What `read()` returns does not matter and is left
open.  The complete lines are those of the calls that have not thrown, unless a
line was written in part and a later one as a whole (`linesIntact_iff`).
-/

namespace MgComm
namespace Atcmd

universe v

open StreamMachine ModemAt

/-! ## The wire -/

/-- The channel as the modem sees it. -/
structure Wire (ε : Type v) where
  /-- The bytes handed to the modem. -/
  sent : List Byte
  /-- How many bytes the next `write()` takes; `none` is an error. -/
  accepted : Option Nat
  /-- Whatever else `read()` depends on. -/
  modem : ε

/-- What a `read()` of some size returns, given the bytes sent. -/
abbrev Answering (ε : Type v) := Nat → List Byte → ε → List Byte × ε

/-- The bytes a `write()` takes. -/
def taken (accepted : Option Nat) (bytes : List Byte) : List Byte :=
  bytes.take (accepted.getD 0)

/-- `write()` and `read()` on the wire. -/
def wireChannel {ε : Type v} (answering : Answering ε) : Channel Byte (Wire ε) where
  write bytes wire :=
    (writeCount wire.accepted bytes,
      { wire with sent := wire.sent ++ taken wire.accepted bytes })
  read size wire :=
    ((answering size wire.sent wire.modem).1,
      { wire with modem := (answering size wire.sent wire.modem).2 })

/-- A call of `at_cmd` with a command of one line, and what its `write()`
takes. -/
structure PlainCall where
  command : List Byte
  one_line : 13 ∉ command ∧ newline ∉ command
  /-- The command line is not longer than a string can be. -/
  fits : (fullCmd command).length < 2 ^ 63
  timeout : Int
  accepted : Option Nat

namespace PlainCall

/-- The whole command line is written. -/
def WritesWhole (c : PlainCall) : Prop :=
  ∃ n ∈ c.accepted, (fullCmd c.command).length ≤ n

/-- Some of the command line is written, but not all of it. -/
def WritesPart (c : PlainCall) : Prop :=
  ∃ n ∈ c.accepted, 0 < n ∧ n < (fullCmd c.command).length

instance (c : PlainCall) : Decidable c.WritesWhole :=
  inferInstanceAs (Decidable (∃ n ∈ c.accepted, (fullCmd c.command).length ≤ n))

instance (c : PlainCall) : Decidable c.WritesPart :=
  inferInstanceAs (Decidable
    (∃ n ∈ c.accepted, 0 < n ∧ n < (fullCmd c.command).length))

/-- The bytes of the command line that reach the modem. -/
def written (c : PlainCall) : List Byte := taken c.accepted (fullCmd c.command)

end PlainCall

/-- What the caller knows of a call. -/
structure Issued where
  command : List Byte
  threw : Bool

/-- A call has thrown unless its whole line was written. -/
def PlainCall.issued (c : PlainCall) : Issued := ⟨c.command, !decide c.WritesWhole⟩

section Calls

variable {ε : Type v} (answering : Answering ε)

/-- A call of `at_cmd`; the caller catches the exception and goes on. -/
def callStep (wire : Wire ε) (c : PlainCall) : Wire ε × List Issued :=
  match atCmd id (wireChannel answering) c.command c.timeout
      { wire with accepted := c.accepted } with
  | (.ok _, wire') => (wire', [⟨c.command, false⟩])
  | (.error _, wire') => (wire', [⟨c.command, true⟩])

/-- The wire of a constructed `ModemAt`: no line is incomplete. -/
def cleanWire (modem : ε) : Wire ε := ⟨[], none, modem⟩

/-- Collect a line up to and including its carriage return and line feed. -/
def lineStep (partialLine : List Byte) (b : Byte) :
    List Byte × List (List Byte) :=
  if ascii "\r\n" <:+ partialLine ++ [b] then ([], [partialLine ++ [b]])
  else (partialLine ++ [b], [])

/-- The complete lines of a byte stream. -/
def completeLines (bytes : List Byte) : List (List Byte) :=
  (run lineStep [] bytes).2

/-- The lines are those of the issued commands, in issue order, where only
commands that threw may be missing. -/
inductive Intact : List Issued → List (List Byte) → Prop
  | nil : Intact [] []
  | appears {issued : List Issued} {lines : List (List Byte)} (i : Issued) :
      Intact issued lines →
        Intact (i :: issued) (fullCmd i.command :: lines)
  | missing {issued : List Issued} {lines : List (List Byte)} (i : Issued) :
      i.threw = true → Intact issued lines → Intact (i :: issued) lines

/-- The command lines of a sequence of calls reach the modem intact. -/
def LinesIntact (modem : ε) (calls : List PlainCall) : Prop :=
  Intact (run (callStep answering) (cleanWire modem) calls).2
    (completeLines (run (callStep answering) (cleanWire modem) calls).1.sent)

/-! ## What a call writes -/

/-- Reading leaves alone what has been sent. -/
theorem read_sent (timeout : UInt32) (wire : Wire ε) :
    (read id (wireChannel answering) timeout wire).channel.sent = wire.sent := by
  apply readLoop_invariant id (wireChannel answering)
    (fun st => st.channel.sent = wire.sent)
  · intro st hSent
    rw [readBody_channel]
    exact hSent
  · rfl

/-- A call hands over what its `write()` takes, and throws unless that is the
whole line. -/
theorem callStep_spec (wire : Wire ε) (c : PlainCall) :
    (callStep answering wire c).1.sent = wire.sent ++ c.written ∧
      (callStep answering wire c).2 = [c.issued] := by
  have hTest := sizeT_writeCount c.accepted c.fits
  by_cases hWhole : c.WritesWhole
  · have hWrite : ModemAt.write (wireChannel answering) c.command
        { wire with accepted := c.accepted } = _ :=
      write_whole (wireChannel answering) (hTest.mpr hWhole)
    unfold callStep atCmd
    rw [hWrite]
    exact ⟨read_sent answering _ _, by simp [PlainCall.issued, hWhole]⟩
  · have hWrite : ModemAt.write (wireChannel answering) c.command
        { wire with accepted := c.accepted } = _ :=
      write_short (wireChannel answering) (mt hTest.mp hWhole)
    unfold callStep atCmd
    rw [hWrite]
    exact ⟨rfl, by simp [PlainCall.issued, hWhole]⟩

/-- What a sequence of calls hands to the modem, and which of them threw. -/
theorem run_callStep (wire : Wire ε) (calls : List PlainCall) :
    (run (callStep answering) wire calls).1.sent =
        wire.sent ++ calls.flatMap PlainCall.written ∧
      (run (callStep answering) wire calls).2 = calls.map PlainCall.issued := by
  induction calls generalizing wire with
  | nil => simp
  | cons c calls ih =>
      obtain ⟨hSent, hIssued⟩ := callStep_spec answering wire c
      obtain ⟨hSents, hIssueds⟩ := ih (callStep answering wire c).1
      rw [run_cons]
      simp only [hSents, hIssueds, hSent, hIssued, List.flatMap_cons,
        List.map_cons, List.append_assoc, List.singleton_append, and_self]

/-! ## The lines of what is written -/

/-- A line is completed by a line feed only. -/
theorem run_lineStep_open (partialLine bytes : List Byte)
    (hOpen : newline ∉ bytes) :
    run lineStep partialLine bytes = (partialLine ++ bytes, []) := by
  induction bytes generalizing partialLine with
  | nil => simp
  | cons b bytes ih =>
      obtain ⟨hByte, hBytes⟩ : newline ≠ b ∧ newline ∉ bytes := by
        simpa using hOpen
      have hNoEnd : ¬ ascii "\r\n" <:+ partialLine ++ [b] := by
        rintro ⟨front, hFront⟩
        have hLast := congrArg List.getLast? hFront
        rw [List.getLast?_append, List.getLast?_concat] at hLast
        exact hByte (Option.some.inj hLast)
      rw [run_cons, lineStep, if_neg hNoEnd, ih _ hBytes]
      simp

/-- A command line up to its line feed. -/
theorem fullCmd_eq (command : List Byte) :
    fullCmd command = (ascii "AT" ++ command ++ [13]) ++ [newline] := by
  have hEnd : ascii "\r\n" = [13, newline] := rfl
  simp [fullCmd, hEnd]

namespace PlainCall

/-- The only line feed of a command line is its last byte. -/
theorem newline_not_mem (c : PlainCall) :
    newline ∉ ascii "AT" ++ c.command ++ [13] := by
  intro hMem
  rw [List.append_assoc, List.mem_append, List.mem_append] at hMem
  rcases hMem with hStart | hCommand | hEnd
  · revert hStart
    decide
  · exact c.one_line.2 hCommand
  · revert hEnd
    decide

/-- A command line written in part completes no line. -/
theorem newline_not_mem_written {c : PlainCall} (h : ¬ c.WritesWhole) :
    newline ∉ c.written := by
  intro hMem
  apply c.newline_not_mem
  unfold written taken at hMem
  rw [fullCmd_eq, List.take_append_of_le_length] at hMem
  · exact List.mem_of_mem_take hMem
  · cases hAccepted : c.accepted with
    | none => simp
    | some n =>
        have hLess : ¬ (fullCmd c.command).length ≤ n := fun hLe =>
          h ⟨n, hAccepted, hLe⟩
        rw [fullCmd_eq, List.length_append, List.length_singleton] at hLess
        rw [Option.getD_some]
        omega

theorem written_of_whole {c : PlainCall} (h : c.WritesWhole) :
    c.written = fullCmd c.command := by
  obtain ⟨n, hAccepted, hLe⟩ := h
  rw [written, taken, Option.mem_def.mp hAccepted]
  exact List.take_of_length_le hLe

/-- Unless the whole line is written, nothing is or a part is. -/
theorem written_eq_nil_iff {c : PlainCall} (h : ¬ c.WritesWhole) :
    c.written = [] ↔ ¬ c.WritesPart := by
  unfold written taken WritesPart
  unfold WritesWhole at h
  cases hAccepted : c.accepted with
  | none => simp
  | some n =>
      have hLess : n < (fullCmd c.command).length := by
        simpa [hAccepted] using h
      have hNonempty : fullCmd c.command ≠ [] := by
        rw [fullCmd_eq]
        simp
      simp [hNonempty, hLess]

end PlainCall

/-- A command line written as a whole completes a line, whatever is in front of
it. -/
theorem run_lineStep_fullCmd (partialLine : List Byte) (c : PlainCall) :
    run lineStep partialLine (fullCmd c.command) =
      ([], [partialLine ++ fullCmd c.command]) := by
  have hEnd : ascii "\r\n" <:+
      (partialLine ++ (ascii "AT" ++ c.command ++ [13])) ++ [newline] :=
    ⟨partialLine ++ (ascii "AT" ++ c.command), by
      simp [show ascii "\r\n" = [13, newline] from rfl]⟩
  rw [fullCmd_eq, run_append, run_lineStep_open _ _ c.newline_not_mem,
    run_singleton, lineStep, if_pos hEnd]
  simp

/-- The lines of a sequence of calls, from what an incomplete line has left in
front of them. -/
def linesOf (partialLine : List Byte) (calls : List PlainCall) :
    List (List Byte) :=
  (run lineStep partialLine (calls.flatMap PlainCall.written)).2

theorem linesOf_whole (partialLine : List Byte) {c : PlainCall}
    (hWhole : c.WritesWhole) (calls : List PlainCall) :
    linesOf partialLine (c :: calls) =
      (partialLine ++ fullCmd c.command) :: linesOf [] calls := by
  unfold linesOf
  rw [List.flatMap_cons, run_append, PlainCall.written_of_whole hWhole,
    run_lineStep_fullCmd]
  rfl

theorem linesOf_part (partialLine : List Byte) {c : PlainCall}
    (hPart : ¬ c.WritesWhole) (calls : List PlainCall) :
    linesOf partialLine (c :: calls) =
      linesOf (partialLine ++ c.written) calls := by
  unfold linesOf
  rw [List.flatMap_cons, run_append,
    run_lineStep_open _ _ (PlainCall.newline_not_mem_written hPart)]
  rfl

/-- There is a line for every call that has not thrown. -/
theorem length_linesOf (partialLine : List Byte) (calls : List PlainCall) :
    (linesOf partialLine calls).length =
      (calls.map PlainCall.issued).countP fun i => !i.threw := by
  induction calls generalizing partialLine with
  | nil => rfl
  | cons c calls ih =>
      by_cases hWhole : c.WritesWhole
      · simp [linesOf_whole _ hWhole, ih, PlainCall.issued, hWhole]
      · simp [linesOf_part _ hWhole, ih, PlainCall.issued, hWhole]

/-- Intact lines are at least as many as the calls that have not thrown. -/
theorem Intact.countP_le {issued : List Issued} {lines : List (List Byte)}
    (h : Intact issued lines) : (issued.countP fun i => !i.threw) ≤ lines.length := by
  induction h with
  | nil => exact Nat.le_refl 0
  | appears i _ ih =>
      rw [List.countP_cons, List.length_cons]
      split <;> omega
  | missing i hThrew _ ih => simpa [hThrew] using ih

/-- After a call that has not thrown, its own line comes next. -/
theorem intact_whole_iff {c : PlainCall} (hWhole : c.WritesWhole)
    {issued : List Issued} {line : List Byte} {lines : List (List Byte)} :
    Intact (c.issued :: issued) (line :: lines) ↔
      line = fullCmd c.command ∧ Intact issued lines := by
  have hKept : c.issued.threw = false := by simp [PlainCall.issued, hWhole]
  constructor
  · intro h
    cases h with
    | appears _ hRest => exact ⟨rfl, hRest⟩
    | missing _ hThrew _ =>
        rw [hKept] at hThrew
        cases hThrew
  · rintro ⟨rfl, hRest⟩
    exact Intact.appears c.issued hRest

/-- The lines of the other calls are too few for one of them to be the line of a
call that has thrown. -/
theorem intact_part_iff {c : PlainCall} (hPart : ¬ c.WritesWhole)
    (partialLine : List Byte) (calls : List PlainCall) :
    Intact (c.issued :: calls.map PlainCall.issued) (linesOf partialLine calls) ↔
      Intact (calls.map PlainCall.issued) (linesOf partialLine calls) := by
  have hThrew : c.issued.threw = true := by simp [PlainCall.issued, hPart]
  constructor
  · intro h
    have hLength := length_linesOf partialLine calls
    -- If the first line were that of `c`, one of the other calls would lack its
    -- own.
    generalize linesOf partialLine calls = lines at h hLength
    cases h with
    | appears _ hRest =>
        have hCount := hRest.countP_le
        rw [List.length_cons] at hLength
        omega
    | missing _ _ hRest => exact hRest
  · exact Intact.missing c.issued hThrew

/-- The lines of the calls are intact exactly if no whole line follows a part of
one, nor what an earlier line has left. -/
theorem intact_linesOf_iff (partialLine : List Byte) (calls : List PlainCall) :
    Intact (calls.map PlainCall.issued) (linesOf partialLine calls) ↔
      (partialLine ≠ [] → ∀ c ∈ calls, ¬ c.WritesWhole) ∧
        calls.Pairwise fun c c' => c.WritesPart → ¬ c'.WritesWhole := by
  induction calls generalizing partialLine with
  | nil => simpa [linesOf] using Intact.nil
  | cons c calls ih =>
      rw [List.map_cons, List.pairwise_cons, List.forall_mem_cons]
      by_cases hWhole : c.WritesWhole
      · -- The line is the command line if nothing is in front of it.
        have hNoPart : ¬ c.WritesPart := by
          rintro ⟨n, hAccepted, -, hLess⟩
          obtain ⟨n', hAccepted', hLe⟩ := hWhole
          have hSame : n = n' := Option.mem_unique hAccepted hAccepted'
          omega
        rw [linesOf_whole _ hWhole, intact_whole_iff hWhole, ih]
        simp [hWhole, hNoPart]
      · -- What is written stands in front of all later lines.
        have hNil := PlainCall.written_eq_nil_iff hWhole
        rw [linesOf_part _ hWhole, intact_part_iff hWhole, ih]
        by_cases hPart : c.WritesPart
        · have hSome : c.written ≠ [] := fun h => hNil.mp h hPart
          simp only [ne_eq, List.append_eq_nil_iff, hSome, and_false,
            not_false_eq_true, forall_const, hPart, hWhole, true_and]
          tauto
        · have hNone : c.written = [] := hNil.mpr hPart
          simp [hNone, hWhole, hPart]

/-- The command lines reach the modem intact exactly in the runs in which no
call that writes a part of its line precedes one that writes its whole line. -/
theorem linesIntact_iff (modem : ε) (calls : List PlainCall) :
    LinesIntact answering modem calls ↔
      calls.Pairwise fun c c' => c.WritesPart → ¬ c'.WritesWhole := by
  obtain ⟨hSent, hIssued⟩ := run_callStep answering (cleanWire modem) calls
  have hLines := intact_linesOf_iff [] calls
  unfold LinesIntact completeLines
  rw [hSent, hIssued]
  simpa [cleanWire, linesOf] using hLines

end Calls

/-- Five bytes of `AT+CFUN?` are taken and the call throws; the next command
line reaches the modem as `AT+CFATI`. -/
theorem part_of_line_joins_next :
    ¬ LinesIntact (fun _ _ _ => ([], ())) ()
      [⟨ascii "+CFUN?", by decide, by decide, 1, some 5⟩,
        ⟨ascii "I", by decide, by decide, 1, some 64⟩] := by
  intro hIntact
  have hLines : completeLines (ascii "AT+CFATI\r\n") =
      [ascii "AT+CFATI\r\n"] := by decide
  have hIssuedTwo : Intact [⟨ascii "+CFUN?", true⟩, ⟨ascii "I", false⟩]
      (completeLines (ascii "AT+CFATI\r\n")) := by
    unfold LinesIntact at hIntact
    rw [(run_callStep _ _ _).1, (run_callStep _ _ _).2] at hIntact
    exact hIntact
  rw [hLines] at hIssuedTwo
  generalize hLine : ascii "AT+CFATI\r\n" = line at hIssuedTwo
  cases hIssuedTwo with
  | appears => exact absurd hLine (by decide)
  | missing _ _ hRest =>
      cases hRest with
      | appears => exact absurd hLine (by decide)
      | missing _ hThrew _ => cases hThrew

end Atcmd
end MgComm
