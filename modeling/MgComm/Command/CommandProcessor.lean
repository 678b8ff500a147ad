import MgComm.Bytes
import MgComm.Library.StreamMachine
import MgComm.Library.WordExtraction

/-!
# `CommandProcessor`: from a command string to a handler

`CommandProcessor.cpp`, function by function.  The member `cmd_stream_` is the
`InStream` of `WordExtraction`; what a command does is recorded as a
`Dispatch`: the word looked up in `cmd_handlers_`, the handler found, and the
strings the handler visits.

The stream is reused for every command.  `processCommand_dispatch` shows that
nothing of its earlier use matters: a dispatch is a function of the words of
the command string alone, and so every command is dispatched as by a fresh
object (`dispatches_as_fresh`).  The loop over the arguments visits one word too
many (`not_visitsArguments`).
-/

namespace MgComm
namespace Command

open StreamMachine WordExtraction

/-- `isspace` in the C locale. -/
def isSpace (c : Byte) : Bool := c == 32 || (9 ≤ c && c ≤ 13)

/-- `::toupper` in the C locale. -/
def toupper (c : Byte) : Byte := if 97 ≤ c ∧ c ≤ 122 then c - 32 else c

/-- The member functions that `cmd_handlers_` refers to. -/
inductive CommandHandler where
  | cmdSetLogCodes
  deriving DecidableEq, Repr

/-- `cmd_handlers_`. -/
def cmdHandlers : List (List Byte × CommandHandler) :=
  [(ascii "set_log_codes", .cmdSetLogCodes)]

/-- The state of the object. -/
structure CommandProcessor where
  cmdStream : InStream Byte

/-- A freshly constructed object. -/
def CommandProcessor.fresh : CommandProcessor := ⟨⟨[], false, false⟩⟩

/-- What one command leads to. -/
structure Dispatch where
  /-- The word looked up. -/
  command : List Byte
  /-- The handler found; `none` is the "Invalid command" outcome. -/
  handler : Option CommandHandler
  /-- The values of `str_code` upper-cased and printed by the handler. -/
  visited : List (List Byte)
  deriving DecidableEq

/-- The loop `while(cmd_stream_)` of `cmd_set_log_codes`: extract, upper-case,
print.  The stream is tested before the extraction only. -/
def argumentLoop (cmdStream : InStream Byte) (strCode : List Byte) :
    InStream Byte × List (List Byte) :=
  if cmdStream.failbit then (cmdStream, [])
  else
    let extracted := extract isSpace cmdStream strCode
    let upper := extracted.2.map toupper
    let rest := argumentLoop extracted.1 upper
    (rest.1, upper :: rest.2)
termination_by cmdStream.attempts
decreasing_by
  next hGood => exact attempts_extract isSpace (by simpa using hGood) strCode

/-- `int CommandProcessor::cmd_set_log_codes()`. -/
def cmdSetLogCodes (p : CommandProcessor) : CommandProcessor × List (List Byte) :=
  let result := argumentLoop p.cmdStream []
  (⟨result.1⟩, result.2)

/-- The call `(this->*phandler)()`. -/
def runHandler : CommandHandler → CommandProcessor →
    CommandProcessor × List (List Byte)
  | .cmdSetLogCodes => cmdSetLogCodes

/-- `void CommandProcessor::process_command(const std::string &cmd)`. -/
def processCommand (p : CommandProcessor) (cmd : List Byte) :
    CommandProcessor × Dispatch :=
  let cmdStream := (p.cmdStream.str cmd).clear
  let extracted := extract isSpace cmdStream []
  match cmdHandlers.lookup extracted.2 with
  | none => (⟨extracted.1⟩, ⟨extracted.2, none, []⟩)
  | some phandler =>
      let result := runHandler phandler ⟨extracted.1⟩
      (result.1, ⟨extracted.2, some phandler, result.2⟩)

/-! ## A dispatch as a function of the words -/

/-- The strings `cmd_set_log_codes` visits for the argument words `ws`: each of
them, and once more the value `str_code` has when the extraction fails. -/
def visitedWords (ws : List (List Byte)) (strCode : List Byte) :
    List (List Byte) :=
  let upper := ws.map fun w => w.map toupper
  upper ++ [upper.getLastD (strCode.map toupper)]

/-- The dispatch of a command with the words `ws`. -/
def dispatchOf (ws : List (List Byte)) : Dispatch :=
  let command := ws.head?.getD []
  match cmdHandlers.lookup command with
  | none => ⟨command, none, []⟩
  | some .cmdSetLogCodes =>
      ⟨command, some .cmdSetLogCodes, visitedWords ws.tail []⟩

theorem toupper_toupper (c : Byte) : toupper (toupper c) = toupper c := by
  unfold toupper
  grind

/-- The loop visits every remaining word and then fails once. -/
theorem argumentLoop_visits {s : InStream Byte} (hConsistent : s.Consistent)
    (hFail : s.failbit = false) (strCode : List Byte) :
    (argumentLoop s strCode).2 = visitedWords (words isSpace s.unread) strCode := by
  induction hWords : words isSpace s.unread generalizing s strCode with
  | nil =>
      obtain ⟨-, hFailed, hTarget⟩ | ⟨w, ws, hCons, -⟩ :=
        extract_spec isSpace hConsistent hFail strCode
      · -- The extraction fails, and what `str_code` still holds is visited.
        have hStop : argumentLoop (extract isSpace s strCode).1
            (strCode.map toupper) = ((extract isSpace s strCode).1, []) := by
          rw [argumentLoop, if_pos hFailed]
        rw [argumentLoop, if_neg (by simp [hFail])]
        simp [hTarget, hStop, visitedWords]
      · rw [hWords] at hCons
        cases hCons
  | cons w ws ih =>
      obtain ⟨hNil, -⟩ | ⟨w', ws', hCons, hGood, hNext, hRest, hTarget⟩ :=
        extract_spec isSpace hConsistent hFail strCode
      · rw [hWords] at hNil
        cases hNil
      · obtain ⟨rfl, rfl⟩ : w = w' ∧ ws = ws' := by
          rw [hWords] at hCons
          exact List.cons.inj hCons
        have hTail := ih hNext hGood (w.map toupper) hRest
        rw [argumentLoop, if_neg (by simp [hFail])]
        simp only [hTarget, hTail]
        simp [visitedWords, List.getLast?_cons, Function.comp_def,
          toupper_toupper]

/-- What a command leads to depends on its words alone: not on earlier
commands, and not on how the words are separated. -/
theorem processCommand_dispatch (p : CommandProcessor) (cmd : List Byte) :
    (processCommand p cmd).2 = dispatchOf (words isSpace cmd) := by
  set s := (p.cmdStream.str cmd).clear with hs
  have hConsistent : s.Consistent := by
    intro hEof
    simp [hs, InStream.clear] at hEof
  obtain ⟨hWords, -, hTarget⟩ |
      ⟨w, ws, hWords, hGood, hNext, hRest, hTarget⟩ :=
    extract_spec isSpace hConsistent rfl []
  · have hEmpty : words isSpace cmd = [] := hWords
    have hInvalid : cmdHandlers.lookup [] = none := by decide
    simp only [processCommand, ← hs, hTarget, hInvalid, hEmpty, dispatchOf,
      List.head?_nil, Option.getD_none]
  · have hCons : words isSpace cmd = w :: ws := hWords
    have hVisits := argumentLoop_visits hNext hGood []
    rw [hRest] at hVisits
    cases hLookup : cmdHandlers.lookup w with
    | none =>
        simp only [processCommand, ← hs, hTarget, hLookup, hCons, dispatchOf,
          List.head?_cons, Option.getD_some]
    | some phandler =>
        cases phandler
        simp only [processCommand, ← hs, hTarget, hLookup, hCons, dispatchOf,
          List.head?_cons, Option.getD_some, runHandler, cmdSetLogCodes,
          hVisits, List.tail_cons]

/-! ## One command after another -/

/-- A call of `process_command` as a step of the object: the callback `cb_cmd`
that `qscan.cpp` binds to the processor. -/
def cbCmd (p : CommandProcessor) (cmd : List Byte) :
    CommandProcessor × List Dispatch :=
  ((processCommand p cmd).1, [(processCommand p cmd).2])

/-- The dispatches of a sequence of command strings, one for each. -/
theorem run_cbCmd (p : CommandProcessor) (cmds : List (List Byte)) :
    (run cbCmd p cmds).2 =
      cmds.map fun cmd => dispatchOf (words isSpace cmd) := by
  induction cmds generalizing p with
  | nil => rfl
  | cons cmd cmds ih =>
      rw [run_cons, ih]
      simp [cbCmd, processCommand_dispatch]

/-- Commands do not leak into each other: whatever an object has processed
before, and whatever state that left its stream in, each command is dispatched
as by a fresh object. -/
theorem dispatches_as_fresh (p : CommandProcessor) (cmds : List (List Byte)) :
    (run cbCmd p cmds).2 =
      cmds.map fun cmd => (processCommand CommandProcessor.fresh cmd).2 := by
  rw [run_cbCmd]
  exact List.map_congr_left fun cmd _ => (processCommand_dispatch _ cmd).symm

/-! ## The arguments of `set_log_codes` -/

/-- The handler of a command visits its argument words, upper-cased, and
nothing else. -/
def VisitsArguments (p : CommandProcessor) (cmd : List Byte) : Prop :=
  (processCommand p cmd).2.visited =
    (words isSpace cmd).tail.map fun w => w.map toupper

/-- There is always one visit too many: the loop tests the stream before it
extracts, so the extraction that fails is followed by a visit as well. -/
theorem not_visitsArguments (p : CommandProcessor) {cmd : List Byte}
    (hCommand : (words isSpace cmd).head? = some (ascii "set_log_codes")) :
    ¬ VisitsArguments p cmd := by
  intro hVisits
  have hLookup : cmdHandlers.lookup (ascii "set_log_codes") =
      some .cmdSetLogCodes := by decide
  have hVisited : (processCommand p cmd).2.visited =
      visitedWords (words isSpace cmd).tail [] := by
    rw [processCommand_dispatch, dispatchOf, hCommand, Option.getD_some, hLookup]
  have hLength := congrArg List.length (hVisited.symm.trans hVisits)
  simp [visitedWords] at hLength

theorem not_visitsArguments_none :
    ¬ VisitsArguments CommandProcessor.fresh (ascii "set_log_codes ") :=
  not_visitsArguments CommandProcessor.fresh (by decide)

/-- The only argument is visited twice. -/
theorem last_argument_visited_twice :
    (words isSpace (ascii "set_log_codes b0c0")).head? =
        some (ascii "set_log_codes") ∧
      (processCommand CommandProcessor.fresh
        (ascii "set_log_codes b0c0")).2.visited = [ascii "B0C0", ascii "B0C0"] ∧
      ¬ VisitsArguments CommandProcessor.fresh (ascii "set_log_codes b0c0") := by
  unfold VisitsArguments
  rw [processCommand_dispatch]
  decide

end Command
end MgComm
