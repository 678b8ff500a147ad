import Mathlib.Data.List.TakeWhile
import MgComm.Server.ClientHandler

/-!
# Writing lines to the client

Both overloads of `writeline` write to `clientfd_`, which the client thread
stores and clears.  A run interleaves the steps of that thread with calls of
`writeline`; every call is recorded with the client connected at that point
and with what `send()` answered.  A call made from the callback comes before
the step that ends its `process_buf`, which leaves `clientfd_` alone.

The `const char*` overload reports the count of `send()`, compared as an `int`.
The `std::string` overload drops that report and returns 0, and what stands
behind an embedded NUL is not sent at all.  `truthful_iff` says which calls are
reported truthfully, and `writeline_contract_iff` in which runs the reports of
both overloads can be relied on.
-/

namespace MgComm
namespace Server

open StreamMachine

/-! ## `writeline` -/

/-- The C string that starts a memory area: the bytes before the first NUL. -/
def cStr (pc : List Byte) : List Byte := pc.takeWhile fun b => b ≠ 0

/-- `strlen(pc)`. -/
def strlen (pc : List Byte) : Nat := (cStr pc).length

/-- `send()` for some bytes: its value, and the bytes it took.  It fails
(`none`) or is ready to take up to a number of bytes. -/
def send (outcome : Option Nat) (bytes : List Byte) : Int × List Byte :=
  match outcome with
  | none => (-1, [])
  | some n => ((bytes.take n).length, bytes.take n)

/-- `int TcpServer::writeline(const char *pc)`, with the bytes that were
sent. -/
def writelineChars (pc : List Byte) (outcome : Option Nat) : Int × List Byte :=
  let len := strlen pc
  let (value, sent) := send outcome (pc.take len)
  let cnt := Int32.ofInt value
  if cnt ≠ Int32.ofInt len then (1, sent) else (0, sent)

/-- `int TcpServer::writeline(const std::string &line)`, with the bytes that
were sent. -/
def writelineString (line : List Byte) (outcome : Option Nat) :
    Int × List Byte :=
  -- `c_str()` puts a NUL behind the string.
  let (_, sent) := writelineChars (line ++ [0]) outcome
  (0, sent)

/-- The two functions called `writeline`. -/
inductive Overload where
  | chars
  | string
  deriving DecidableEq

/-- `writeline`, by overload. -/
def writeline : Overload → List Byte → Option Nat → Int × List Byte
  | .chars => writelineChars
  | .string => writelineString

/-! ## Calls between the steps of the client thread -/

/-- One call of `writeline`, with the client it was for. -/
structure LineCall where
  overload : Overload
  content : List Byte
  /-- What `send()` answered. -/
  outcome : Option Nat
  /-- The client connected on `clientfd_`, as the number of its connection. -/
  client : Option Nat
  deriving DecidableEq

namespace LineCall

/-- The line of the call: an argument `const char*` ends at its NUL. -/
def line (c : LineCall) : List Byte :=
  match c.overload with
  | .chars => cStr c.content
  | .string => c.content

/-- What the call returned. -/
def value (c : LineCall) : Int :=
  (writeline c.overload c.content c.outcome).1

/-- What `send()` took. -/
def sent (c : LineCall) : List Byte :=
  (writeline c.overload c.content c.outcome).2

end LineCall

/-- The client thread, the descriptor of the client that is connected, and how
many clients have been accepted. -/
structure Connection where
  thread : ClientThread
  held : Option Int
  clients : Nat

/-- The client on `clientfd_`. -/
def Connection.client (s : Connection) : Option Nat :=
  if s.held = some s.thread.srv.clientfd then some s.clients else none

/-- An `accept()` that returned a client. -/
def Event.isClient : Event → Bool
  | .acceptReturn fd => 0 ≤ fd
  | _ => false

/-- What happens next: an answer for the client thread, or a call. -/
inductive Activity where
  | thread (a : Answer)
  | writeline (overload : Overload) (content : List Byte) (outcome : Option Nat)

/-- One activity, with the call it makes. -/
def connectionStep (s : Connection) : Activity → Connection × List LineCall
  | .thread a =>
      let (t, events) := clientHandler s.thread a
      ({ thread := t
         held := events.foldl heldNext s.held
         clients := s.clients + events.countP Event.isClient }, [])
  | .writeline overload content outcome =>
      (s, [⟨overload, content, outcome, s.client⟩])

/-- The calls of a run, in order. -/
def lineCalls (s : Connection) (activities : List Activity) : List LineCall :=
  (run connectionStep s activities).2

/-! ## What a call should report -/

/-- `send()` took the whole line, for a connected client. -/
def LineCall.AcceptedWhole (c : LineCall) : Prop :=
  c.client ≠ none ∧ c.outcome ≠ none ∧ c.sent = c.line

/-- The call returns 0 exactly if `send()` took the whole line. -/
def LineCall.Truthful (c : LineCall) : Prop :=
  c.value = 0 ↔ c.AcceptedWhole

/-- The other overload does the same with this line. -/
def LineCall.Agrees (c : LineCall) : Prop :=
  writeline .chars c.content c.outcome = writeline .string c.content c.outcome

/-- The calls for a client that returned 0. -/
def reported (client : Nat) (calls : List LineCall) : List LineCall :=
  calls.filter fun c => c.client = some client ∧ c.value = 0

/-- The contract of `writeline` over a run. -/
structure WritelineContract (calls : List LineCall) : Prop where
  truthful : ∀ c ∈ calls, c.Truthful
  /-- What the calls that returned 0 sent to a client is their lines. -/
  delivered : ∀ client,
    (reported client calls).map LineCall.sent =
      (reported client calls).map LineCall.line
  agree : ∀ c ∈ calls, c.Agrees

/-! ## When a call does -/

/-- A client is connected, `send()` is ready to take the whole line, and the
line has no NUL. -/
def LineCall.Complete (c : LineCall) : Prop :=
  c.client ≠ none ∧ 0 ∉ c.line ∧ ∃ n, c.outcome = some n ∧ c.line.length ≤ n

/-- An error or a short count cannot be mistaken for the length of the line as
an `int`, and the whole length is not reported without a client. -/
def LineCall.CountTells (c : LineCall) : Prop :=
  match c.outcome with
  | none => ¬ 2 ^ 32 ∣ c.line.length + 1
  | some n =>
      if n < c.line.length then ¬ 2 ^ 32 ∣ c.line.length - n
      else c.client ≠ none

/-- The condition under which a call is truthful. -/
def LineCall.WellReported (c : LineCall) : Prop :=
  match c.overload with
  | .chars => c.CountTells
  | .string => c.Complete

theorem cStr_append_nul (line : List Byte) : cStr (line ++ [0]) = cStr line := by
  induction line with
  | nil => rfl
  | cons b line ih =>
      unfold cStr at ih ⊢
      rw [List.cons_append, List.takeWhile_cons, List.takeWhile_cons, ih]

theorem take_strlen (pc : List Byte) : pc.take (strlen pc) = cStr pc := by
  unfold strlen cStr
  exact (List.prefix_iff_eq_take.mp (List.takeWhile_prefix _)).symm

theorem nul_notMem_cStr (pc : List Byte) : 0 ∉ cStr pc := by
  intro hMem
  have hAll := List.all_takeWhile (p := fun b : Byte => b ≠ 0) (l := pc)
  have hZero := List.all_eq_true.mp hAll 0 hMem
  simp at hZero

/-- A string is its C string unless it contains a NUL. -/
theorem cStr_eq_self_iff (line : List Byte) : cStr line = line ↔ 0 ∉ line := by
  constructor
  · intro hEq
    rw [← hEq]
    exact nul_notMem_cStr line
  · intro hNul
    unfold cStr
    rw [List.takeWhile_eq_self_iff]
    intro b hMem
    have hNe : b ≠ 0 := fun hZero => hNul (hZero ▸ hMem)
    simpa using hNe

/-- Two values of 64 bits are the same `int` if they differ by a multiple of
`2^32`. -/
theorem int32_ofInt_eq_iff (a b : Int) :
    Int32.ofInt a = Int32.ofInt b ↔ (2 ^ 32 : Int) ∣ a - b := by
  rw [← Int32.toInt_inj, Int32.toInt_ofInt, Int32.toInt_ofInt,
    Int.bmod_eq_bmod_iff_bmod_sub_eq_zero, ← Int.dvd_iff_bmod_eq_zero]
  rfl

/-- The `const char*` overload hands `send()` the C string and compares its
value with the length of that. -/
theorem writelineChars_eq (pc : List Byte) (outcome : Option Nat) :
    writelineChars pc outcome =
      (if Int32.ofInt (send outcome (cStr pc)).1 = Int32.ofInt (cStr pc).length
        then 0 else 1,
        (send outcome (cStr pc)).2) := by
  simp only [writelineChars, take_strlen]
  by_cases hEq : Int32.ofInt (send outcome (cStr pc)).1 =
      Int32.ofInt (strlen pc)
  · rw [if_neg (not_not.mpr hEq)]
    exact Prod.ext (if_pos hEq).symm rfl
  · rw [if_pos hEq]
    exact Prod.ext (if_neg hEq).symm rfl

/-- The `std::string` overload does the same and returns 0. -/
theorem writelineString_eq (line : List Byte) (outcome : Option Nat) :
    writelineString line outcome = (0, (writelineChars line outcome).2) := by
  have hSent : (writelineChars (line ++ [0]) outcome).2 =
      (writelineChars line outcome).2 := by
    rw [writelineChars_eq, writelineChars_eq, cStr_append_nul]
  exact Prod.ext rfl hSent

/-- Both overloads send the C string of their argument. -/
theorem sent_eq (c : LineCall) : c.sent = (send c.outcome (cStr c.content)).2 := by
  unfold LineCall.sent
  cases c.overload with
  | chars => simp only [writeline, writelineChars_eq]
  | string => simp only [writeline, writelineString_eq, writelineChars_eq]

/-- The whole line is accepted exactly if the call is complete. -/
theorem acceptedWhole_iff (c : LineCall) : c.AcceptedWhole ↔ c.Complete := by
  unfold LineCall.AcceptedWhole LineCall.Complete
  rw [sent_eq]
  have hLine : c.line = cStr c.content ∨ c.line = c.content := by
    unfold LineCall.line
    cases c.overload <;> simp
  have hNul : 0 ∉ c.line ↔ c.line = cStr c.content := by
    constructor
    · intro hNot
      rcases hLine with hEq | hEq
      · exact hEq
      · rw [hEq] at hNot ⊢
        exact ((cStr_eq_self_iff c.content).mpr hNot).symm
    · intro hEq
      rw [hEq]
      exact nul_notMem_cStr c.content
  rw [hNul]
  have hPrefix : (cStr c.content).length ≤ c.line.length := by
    rcases hLine with hEq | hEq
    · rw [hEq]
    · rw [hEq]
      exact (List.takeWhile_sublist _).length_le
  cases hOutcome : c.outcome with
  | none => simp
  | some n =>
      simp only [send, ne_eq, reduceCtorEq, not_false_eq_true, true_and,
        Option.some.injEq, exists_eq_left']
      apply and_congr_right
      intro _
      constructor
      · intro hSent
        have hLength := congrArg List.length hSent
        rw [List.length_take] at hLength
        have hWhole : (cStr c.content).length ≤ n := by omega
        rw [List.take_of_length_le hWhole] at hSent
        exact ⟨hSent.symm, hSent ▸ hWhole⟩
      · rintro ⟨hEq, hWhole⟩
        rw [hEq] at hWhole ⊢
        exact List.take_of_length_le hWhole

/-- When the `const char*` overload returns 0. -/
theorem writelineChars_value_iff (pc : List Byte) (outcome : Option Nat) :
    (writelineChars pc outcome).1 = 0 ↔
      match outcome with
      | none => 2 ^ 32 ∣ (cStr pc).length + 1
      | some n => n < (cStr pc).length → 2 ^ 32 ∣ (cStr pc).length - n := by
  have hValue : (writelineChars pc outcome).1 = 0 ↔
      Int32.ofInt (send outcome (cStr pc)).1 = Int32.ofInt (cStr pc).length := by
    rw [writelineChars_eq]
    simp
  rw [hValue, int32_ofInt_eq_iff]
  cases outcome with
  | none =>
      simp only [send]
      omega
  | some n =>
      simp only [send, List.length_take]
      omega

/-- A call is truthful exactly under the stated condition. -/
theorem truthful_iff (c : LineCall) : c.Truthful ↔ c.WellReported := by
  unfold LineCall.Truthful
  rw [acceptedWhole_iff]
  obtain ⟨overload, content, outcome, client⟩ := c
  cases overload with
  | string =>
      -- The value is 0 whatever happens.
      have hValue : (writelineString content outcome).1 = 0 := rfl
      simp [LineCall.value, writeline, hValue, LineCall.WellReported]
  | chars =>
      have hNul : 0 ∉ cStr content := nul_notMem_cStr content
      simp only [LineCall.value, writeline, writelineChars_value_iff,
        LineCall.Complete, LineCall.line, LineCall.WellReported,
        LineCall.CountTells, hNul, not_false_eq_true, true_and]
      cases outcome with
      | none => simp
      | some n =>
          by_cases hShort : n < (cStr content).length
          · simp [hShort, Nat.not_le.mpr hShort]
          · simp [hShort, Nat.le_of_not_lt hShort]

/-- The overloads agree on a line exactly when the one that reports returns
0. -/
theorem agrees_iff (c : LineCall) :
    c.Agrees ↔ (writelineChars c.content c.outcome).1 = 0 := by
  change writelineChars c.content c.outcome =
    writelineString c.content c.outcome ↔ _
  rw [writelineString_eq]
  constructor
  · intro hEq
    rw [hEq]
  · intro hZero
    exact Prod.ext hZero rfl

/-- The whole length is recognised. -/
theorem agrees_of_complete {c : LineCall} (h : c.Complete) : c.Agrees := by
  obtain ⟨-, hNul, n, hOutcome, hLength⟩ := h
  have hLine : c.line = cStr c.content := by
    unfold LineCall.line at hNul ⊢
    cases hOverload : c.overload with
    | chars => rfl
    | string =>
        rw [hOverload] at hNul
        exact ((cStr_eq_self_iff c.content).mpr hNul).symm
  rw [agrees_iff, writelineChars_value_iff, hOutcome]
  intro hShort
  rw [hLine] at hLength
  omega

/-- A call that is truthful and on which the overloads agree is complete. -/
theorem complete_of_agrees {c : LineCall} (hTruthful : c.Truthful)
    (hAgrees : c.Agrees) : c.Complete := by
  rw [← acceptedWhole_iff]
  apply hTruthful.mp
  have hZero := (agrees_iff c).mp hAgrees
  unfold LineCall.value writeline
  cases c.overload with
  | chars => exact hZero
  | string => rfl

theorem truthful_of_complete {c : LineCall} (h : c.Complete) : c.Truthful := by
  have hAgrees := (agrees_iff c).mp (agrees_of_complete h)
  have hValue : c.value = 0 := by
    unfold LineCall.value writeline
    cases c.overload with
    | chars => exact hAgrees
    | string => rfl
  exact ⟨fun _ => (acceptedWhole_iff c).mpr h, fun _ => hValue⟩

/-- Over truthful calls, what the calls that returned 0 sent is their lines. -/
theorem reported_delivered {calls : List LineCall}
    (hTruthful : ∀ c ∈ calls, c.Truthful) (client : Nat) :
    (reported client calls).map LineCall.sent =
      (reported client calls).map LineCall.line := by
  apply List.map_congr_left
  intro c hMem
  obtain ⟨hCall, hReported⟩ := List.mem_filter.mp hMem
  have hValue : c.client = some client ∧ c.value = 0 := by simpa using hReported
  exact ((hTruthful c hCall).mp hValue.2).2.2

/-- In every run, from every state of the thread: every call is truthful
exactly if the `const char*` calls can tell a failed `send()` by its count and
the `std::string` calls are complete; and the contract as a whole holds exactly
if every call is made with a client connected, for a line without NUL which
`send()` takes whole. -/
theorem writeline_contract_iff (s : Connection) (activities : List Activity) :
    ((∀ c ∈ lineCalls s activities, c.Truthful) ↔
        ∀ c ∈ lineCalls s activities, c.WellReported) ∧
      (WritelineContract (lineCalls s activities) ↔
        ∀ c ∈ lineCalls s activities, c.Complete) := by
  refine ⟨forall₂_congr fun c _ => truthful_iff c, ?_⟩
  constructor
  · intro h c hMem
    exact complete_of_agrees (h.truthful c hMem) (h.agree c hMem)
  · intro hComplete
    have hTruthful : ∀ c ∈ lineCalls s activities, c.Truthful :=
      fun c hMem => truthful_of_complete (hComplete c hMem)
    exact
      { truthful := hTruthful
        delivered := reported_delivered hTruthful
        agree := fun c hMem => agrees_of_complete (hComplete c hMem) }

/-- The client thread of a new server, waiting for its first client. -/
def waitingConnection (sockfd : Int) : Connection :=
  { thread := (outerLoop false (freshServer (Vector.replicate _ 0) sockfd 0).2).1
    held := none
    clients := 0 }

/-- A client is accepted, and `send()` fails for a `std::string`: the call
returns 0. -/
theorem failed_send_reported :
    ¬ WritelineContract (lineCalls (waitingConnection 3)
      [.thread ⟨some 5, .failed⟩, .writeline .string (ascii "Hello\n") none]) := by
  intro h
  have hTruthful := h.truthful
    ⟨.string, ascii "Hello\n", none, some 1⟩ (by decide)
  have hAccepted := hTruthful.mp (by decide)
  exact hAccepted.2.1 rfl

end Server
end MgComm
