import MgComm.Library.Monitor
import MgComm.Atcmd.ModemAt

/-!
# Which response a call returns

A modem answers every full command line with one response, and the responses
reach the channel in order, as late as they like.  Every byte of a response is
tagged with the number of the call whose command line it answers, and the
channel hands out the tagged bytes in pieces of arbitrary sizes.

`at_cmd` does not discard what is in the channel before it writes, so a response
that arrives after its call has given up is returned by a later call.  The
returned bytes belong to the call's own response in every run in which each call
that reads something finds no earlier response outstanding, and, for modems that
send no NUL bytes, only in these (`attributed_of_drained`).
-/

namespace MgComm
namespace Atcmd

open Monitor ModemAt

/-! ## The modem and the line -/

/-- A response: a final result code ends it and occurs nowhere else in it. -/
structure Response where
  body : List Byte
  code : List Byte
  code_nonempty : code ≠ []
  code_once : ∀ before after, body ++ code = before ++ code ++ after → after = []

/-- The bytes of a response. -/
def Response.text (r : Response) : List Byte := r.body ++ r.code

/-- A modem answers a full line, given all lines so far. -/
abbrev Modem := List (List Byte) → Response

/-- A byte of the response to the command line of a call. -/
structure Tagged where
  byte : Byte
  origin : Nat
  deriving DecidableEq

/-- Both ends of the modem channel. -/
structure Line where
  /-- The number of the current call. -/
  call : Nat
  /-- What the modem has received of an incomplete line. -/
  partialLine : List Byte
  /-- The full lines it has received. -/
  lines : List (List Byte)
  /-- The response bytes which have not been read, arrived or not. -/
  outstanding : List Tagged
  /-- How many bytes `write()` takes; `none` is an error. -/
  accepted : Option Nat
  /-- How many bytes are there to be handed out by each `read()`. -/
  arrivals : List Nat

/-- The modem receives a byte, and answers if it completes a line. -/
def receiveByte (modem : Modem) (line : Line) (b : Byte) : Line :=
  let received := line.partialLine ++ [b]
  if ascii "\r\n" <:+ received then
    { line with
      partialLine := []
      lines := line.lines ++ [received]
      outstanding := line.outstanding ++
        (modem (line.lines ++ [received])).text.map fun b => ⟨b, line.call⟩ }
  else { line with partialLine := received }

/-- `write()` and `read()` on the line. -/
def lineChannel (modem : Modem) : Channel Tagged Line where
  write bytes line :=
    match line.accepted with
    | none => (-1, line)
    | some n =>
        ((bytes.take n).length, (bytes.take n).foldl (receiveByte modem) line)
  read size line :=
    let n := min (line.arrivals.head?.getD 0) size
    (line.outstanding.take n,
      { line with
        outstanding := line.outstanding.drop n
        arrivals := line.arrivals.tail })

/-- A call of `at_cmd`, with what its environment does meanwhile. -/
structure AtCall where
  command : List Byte
  /-- The command line is not longer than a string can be. -/
  fits : (fullCmd command).length < 2 ^ 63
  timeout : Int
  accepted : Option Nat
  arrivals : List Nat

section Calls

variable (modem : Modem)

/-- A call of `at_cmd` on the line. -/
def atCall (line : Line) (c : AtCall) : Except String (List Tagged) × Line :=
  atCmd Tagged.byte (lineChannel modem) c.command c.timeout
    { line with accepted := c.accepted, arrivals := c.arrivals }

/-- The line before the next call. -/
def lineNext (line : Line) (c : AtCall) : Line :=
  { (atCall modem line c).2 with call := line.call + 1 }

/-- The bytes a call returns, if it returns. -/
def returned (line : Line) (c : AtCall) : List Tagged :=
  match (atCall modem line c).1 with
  | .ok result => result
  | .error _ => []

/-- A call returns only bytes of the response to its own command line. -/
def Attributed (line : Line) (c : AtCall) : Prop :=
  ∀ b ∈ returned modem line c, b.origin = line.call

instance (line : Line) (c : AtCall) : Decidable (Attributed modem line c) :=
  inferInstanceAs (Decidable (∀ b ∈ returned modem line c, b.origin = line.call))

/-- The whole command line is written. -/
def WritesAll (c : AtCall) : Prop :=
  ∃ n ∈ c.accepted, (fullCmd c.command).length ≤ n

instance (c : AtCall) : Decidable (WritesAll c) :=
  inferInstanceAs (Decidable (∃ n ∈ c.accepted, (fullCmd c.command).length ≤ n))

/-- No byte of an earlier response is outstanding, or the call does not get to
reading, or nothing has arrived at any of its reads. -/
def Drained (line : Line) (c : AtCall) : Prop :=
  line.outstanding = [] ∨ ¬ WritesAll c ∨
    ∀ n ∈ c.arrivals.take ((tenths (UInt32.ofInt c.timeout)).toNat + 1), n = 0

instance (line : Line) (c : AtCall) : Decidable (Drained line c) :=
  inferInstanceAs (Decidable (line.outstanding = [] ∨ ¬ WritesAll c ∨
    ∀ n ∈ c.arrivals.take ((tenths (UInt32.ofInt c.timeout)).toNat + 1), n = 0))

/-- A constructed `ModemAt` whose input is drained. -/
def drainedLine : Line :=
  { call := 0, partialLine := [], lines := [], outstanding := [],
    accepted := none, arrivals := [] }

/-! ## Writing -/

/-- Receiving bytes appends responses of the current call. -/
theorem foldl_receiveByte (line : Line) (bytes : List Byte) :
    ∃ added, (bytes.foldl (receiveByte modem) line).outstanding =
        line.outstanding ++ added ∧
      (∀ b ∈ added, b.origin = line.call ∧
        ∃ lines, b.byte ∈ (modem lines).text) ∧
      (bytes.foldl (receiveByte modem) line).call = line.call ∧
      (bytes.foldl (receiveByte modem) line).arrivals = line.arrivals := by
  induction bytes generalizing line with
  | nil => exact ⟨[], by simp⟩
  | cons b bytes ih =>
      obtain ⟨added, hOutstanding, hAdded, hCall, hArrivals⟩ :=
        ih (receiveByte modem line b)
      rw [List.foldl_cons]
      by_cases hLine : ascii "\r\n" <:+ line.partialLine ++ [b]
      · have hStep : receiveByte modem line b =
            { line with
              partialLine := []
              lines := line.lines ++ [line.partialLine ++ [b]]
              outstanding := line.outstanding ++
                (modem (line.lines ++ [line.partialLine ++ [b]])).text.map
                  fun b => ⟨b, line.call⟩ } := by
          simp [receiveByte, hLine]
        rw [hStep] at hOutstanding hAdded hCall hArrivals ⊢
        refine ⟨_, hOutstanding.trans (List.append_assoc _ _ _), ?_, hCall,
          hArrivals⟩
        intro t hMem
        rcases List.mem_append.mp hMem with hOwn | hLater
        · obtain ⟨b', hText, rfl⟩ := List.mem_map.mp hOwn
          exact ⟨rfl, _, hText⟩
        · exact hAdded t hLater
      · have hStep : receiveByte modem line b =
            { line with partialLine := line.partialLine ++ [b] } := by
          simp [receiveByte, hLine]
        rw [hStep] at hOutstanding hAdded hCall hArrivals ⊢
        exact ⟨added, hOutstanding, hAdded, hCall, hArrivals⟩

/-- The bytes of the command line which `write()` takes. -/
def written (c : AtCall) : List Byte :=
  match c.accepted with
  | none => []
  | some n => (fullCmd c.command).take n

/-- The line after the `write()` of a call. -/
def afterWrite (line : Line) (c : AtCall) : Line :=
  (written c).foldl (receiveByte modem)
    { line with accepted := c.accepted, arrivals := c.arrivals }

/-- `write_` succeeds exactly if the whole command line is written. -/
theorem write_cases (line : Line) (c : AtCall) :
    (WritesAll c ∧
        ModemAt.write (lineChannel modem) c.command
            { line with accepted := c.accepted, arrivals := c.arrivals } =
          (.ok (), afterWrite modem line c)) ∨
      (¬ WritesAll c ∧
        ModemAt.write (lineChannel modem) c.command
            { line with accepted := c.accepted, arrivals := c.arrivals } =
          (.error "Command write failed", afterWrite modem line c)) := by
  have hTest := sizeT_writeCount c.accepted c.fits
  have hWrite : (lineChannel modem).write (fullCmd c.command)
      { line with accepted := c.accepted, arrivals := c.arrivals } =
        (writeCount c.accepted (fullCmd c.command), afterWrite modem line c) := by
    unfold lineChannel afterWrite written
    cases c.accepted with
    | none => rfl
    | some n => rfl
  by_cases hAll : WritesAll c
  · have hWhole := write_whole (lineChannel modem)
      ((congrArg (fun w => sizeT w.1) hWrite).trans (hTest.mpr hAll))
    rw [hWrite] at hWhole
    exact Or.inl ⟨hAll, hWhole⟩
  · have hShort := write_short (lineChannel modem)
      (((congrArg (fun w => sizeT w.1) hWrite).trans_ne (mt hTest.mp hAll)))
    rw [hWrite] at hShort
    exact Or.inr ⟨hAll, hShort⟩

/-- A call whose command line is written reads; any other one throws. -/
theorem atCall_cases (line : Line) (c : AtCall) :
    (WritesAll c ∧
        atCall modem line c =
          (.ok (read Tagged.byte (lineChannel modem) (UInt32.ofInt c.timeout)
              (afterWrite modem line c)).result,
            (read Tagged.byte (lineChannel modem) (UInt32.ofInt c.timeout)
              (afterWrite modem line c)).channel)) ∨
      (¬ WritesAll c ∧
        atCall modem line c =
          (.error "Command write failed", afterWrite modem line c)) := by
  rcases write_cases modem line c with ⟨hAll, hWrite⟩ | ⟨hAll, hWrite⟩
  · exact Or.inl ⟨hAll, by simp only [atCall, atCmd, hWrite]⟩
  · exact Or.inr ⟨hAll, by simp only [atCall, atCmd, hWrite]⟩

/-! ## Reading -/

/-- A property of all bytes that a call may return is kept by its loop. -/
theorem read_forall {P : Tagged → Prop} (timeout : UInt32) (line : Line)
    (h : ∀ b ∈ line.outstanding, P b) :
    (∀ b ∈ (read Tagged.byte (lineChannel modem) timeout line).result, P b) ∧
      (∀ b ∈ (read Tagged.byte (lineChannel modem) timeout
        line).channel.outstanding, P b) := by
  refine readLoop_invariant Tagged.byte (lineChannel modem)
    (fun st => (∀ b ∈ st.result, P b) ∧ ∀ b ∈ st.channel.outstanding, P b)
    ?_ _ ⟨by simp, h⟩
  rintro st ⟨hResult, hOutstanding⟩
  rw [readBody_result, readBody_channel]
  constructor
  · intro b hMem
    rcases List.mem_append.mp hMem with hOld | hNew
    · exact hResult b hOld
    · exact hOutstanding b
        (List.mem_of_mem_take ((List.takeWhile_sublist _).subset hNew))
  · intro b hMem
    exact hOutstanding b (List.mem_of_mem_drop hMem)

/-- What one iteration does on the line. -/
theorem readBody_line (st : Reading Tagged Line) {n : Nat}
    (hn : min (st.channel.arrivals.head?.getD 0) (bufsize - 1) = n) :
    (readBody Tagged.byte (lineChannel modem) st).1.result =
        st.result ++ cString Tagged.byte (st.channel.outstanding.take n) ∧
      (readBody Tagged.byte (lineChannel modem) st).1.channel =
        { st.channel with
          outstanding := st.channel.outstanding.drop n
          arrivals := st.channel.arrivals.tail } := by
  subst hn
  exact ⟨readBody_result _ _ st, readBody_channel _ _ st⟩

/-- An iteration in which nothing arrives uses up an arrival and nothing
else. -/
theorem readBody_silent {st : Reading Tagged Line}
    (hNone : st.channel.arrivals.head?.getD 0 = 0) :
    (readBody Tagged.byte (lineChannel modem) st).1.result = st.result ∧
      (readBody Tagged.byte (lineChannel modem) st).1.channel =
        { st.channel with arrivals := st.channel.arrivals.tail } ∧
      (readBody Tagged.byte (lineChannel modem) st).2 = false := by
  obtain ⟨hResult, hChannel⟩ := readBody_line modem st (n := 0) (by simp [hNone])
  refine ⟨by simpa [cString] using hResult, by simpa using hChannel, ?_⟩
  apply readBody_continues
  simp [lineChannel, hNone]

/-- Nothing arrives in the first `k + 1` reads if nothing does in the first and
in the `k` reads after it. -/
theorem forall_take_succ (arrivals : List Nat) (k : Nat) :
    (∀ n ∈ arrivals.take (k + 1), n = 0) ↔
      arrivals.head?.getD 0 = 0 ∧ ∀ n ∈ arrivals.tail.take k, n = 0 := by
  cases arrivals <;> simp

/-- While nothing arrives the loop gathers nothing. -/
theorem readLoop_silent (tenth : Nat) (st : Reading Tagged Line)
    (hSilent : ∀ n ∈ st.channel.arrivals.take (tenth + 1), n = 0) :
    (readLoop Tagged.byte (lineChannel modem) tenth st).result = st.result := by
  induction tenth generalizing st with
  | zero =>
      obtain ⟨hNone, -⟩ := (forall_take_succ _ _).mp hSilent
      exact (readBody_silent modem hNone).1
  | succ tenth ih =>
      obtain ⟨hNone, hLater⟩ := (forall_take_succ _ _).mp hSilent
      obtain ⟨hResult, hChannel, hContinues⟩ := readBody_silent modem hNone
      rw [readLoop, hContinues]
      exact (ih _ (by rw [hChannel]; exact hLater)).trans hResult

/-- The loop keeps what it has gathered. -/
theorem mem_readLoop_of_mem (tenth : Nat) {st : Reading Tagged Line} {b : Tagged}
    (hMem : b ∈ st.result) :
    b ∈ (readLoop Tagged.byte (lineChannel modem) tenth st).result :=
  readLoop_invariant Tagged.byte (lineChannel modem)
    (fun st => b ∈ st.result)
    (fun st hInv => by
      rw [readBody_result]
      exact List.mem_append_left _ hInv) tenth hMem

/-- An iteration in which something arrives gathers the first outstanding byte,
unless it is a NUL byte. -/
theorem mem_readBody {st : Reading Tagged Line} {b : Tagged} {rest : List Tagged}
    (hOutstanding : st.channel.outstanding = b :: rest) (hNul : b.byte ≠ 0)
    (hSome : st.channel.arrivals.head?.getD 0 ≠ 0) :
    b ∈ (readBody Tagged.byte (lineChannel modem) st).1.result := by
  obtain ⟨k, hk⟩ : ∃ k,
      min (st.channel.arrivals.head?.getD 0) (bufsize - 1) = k + 1 := by
    refine ⟨min (st.channel.arrivals.head?.getD 0) (bufsize - 1) - 1, ?_⟩
    simp only [bufsize]
    omega
  rw [(readBody_line modem st hk).1, hOutstanding]
  simp [cString, hNul]

/-- Once something arrives, so does the loop. -/
theorem mem_readLoop (tenth : Nat) {st : Reading Tagged Line} {b : Tagged}
    {rest : List Tagged} (hOutstanding : st.channel.outstanding = b :: rest)
    (hNul : b.byte ≠ 0)
    (hSome : ¬ ∀ n ∈ st.channel.arrivals.take (tenth + 1), n = 0) :
    b ∈ (readLoop Tagged.byte (lineChannel modem) tenth st).result := by
  induction tenth generalizing st with
  | zero =>
      rw [forall_take_succ] at hSome
      exact mem_readBody modem hOutstanding hNul (by simpa using hSome)
  | succ tenth ih =>
      rw [forall_take_succ] at hSome
      by_cases hNone : st.channel.arrivals.head?.getD 0 = 0
      · obtain ⟨-, hChannel, hContinues⟩ := readBody_silent modem hNone
        rw [readLoop, hContinues]
        refine ih (by rw [hChannel]; exact hOutstanding) ?_
        rw [hChannel]
        exact fun hLater => hSome ⟨hNone, hLater⟩
      · have hGathered := mem_readBody modem hOutstanding hNul hNone
        unfold readLoop
        split
        · exact hGathered
        · exact mem_readLoop_of_mem modem tenth hGathered

/-! ## Calls -/

/-- What is outstanding before a call is of earlier responses. -/
def OutstandingEarlier (line : Line) : Prop :=
  ∀ b ∈ line.outstanding,
    b.origin < line.call ∧ ∃ lines, b.byte ∈ (modem lines).text

/-- Writing adds bytes of the call's own response to those outstanding. -/
theorem afterWrite_spec (line : Line) (c : AtCall) :
    ∃ added, (afterWrite modem line c).outstanding = line.outstanding ++ added ∧
      (∀ b ∈ added, b.origin = line.call ∧
        ∃ lines, b.byte ∈ (modem lines).text) ∧
      (afterWrite modem line c).arrivals = c.arrivals := by
  obtain ⟨added, hOutstanding, hAdded, -, hArrivals⟩ := foldl_receiveByte modem
    { line with accepted := c.accepted, arrivals := c.arrivals } (written c)
  exact ⟨added, hOutstanding, hAdded, hArrivals⟩

/-- Step lemma: after a call, what is outstanding is of responses up to its
own. -/
theorem lineNext_outstandingEarlier (line : Line) (c : AtCall)
    (h : OutstandingEarlier modem line) :
    OutstandingEarlier modem (lineNext modem line c) := by
  obtain ⟨added, hOutstanding, hAdded, -⟩ := afterWrite_spec modem line c
  have hWritten : ∀ b ∈ (afterWrite modem line c).outstanding,
      b.origin < line.call + 1 ∧ ∃ lines, b.byte ∈ (modem lines).text := by
    intro b hMem
    rw [hOutstanding] at hMem
    rcases List.mem_append.mp hMem with hOld | hNew
    · exact ⟨Nat.lt_succ_of_lt (h b hOld).1, (h b hOld).2⟩
    · exact ⟨(hAdded b hNew).1 ▸ Nat.lt_succ_self _, (hAdded b hNew).2⟩
  unfold OutstandingEarlier lineNext
  rcases atCall_cases modem line c with ⟨-, hCall⟩ | ⟨-, hCall⟩
  · rw [hCall]
    exact (read_forall modem _ _ hWritten).2
  · rw [hCall]
    exact hWritten

/-- A call that finds no earlier response outstanding returns bytes of its own
response only. -/
theorem attributed_of_drained {line : Line} {c : AtCall} (h : Drained line c) :
    Attributed modem line c := by
  obtain ⟨added, hOutstanding, hAdded, hArrivals⟩ := afterWrite_spec modem line c
  unfold Attributed returned
  rcases atCall_cases modem line c with ⟨hWrites, hCall⟩ | ⟨-, hCall⟩
  · rw [hCall]
    rcases h with hNone | hThrows | hSilent
    · -- All that can be read was added by the call's own line.
      rw [hNone, List.nil_append] at hOutstanding
      exact (read_forall modem _ _ fun b hMem =>
        (hAdded b (hOutstanding ▸ hMem)).1).1
    · exact absurd hWrites hThrows
    · have hNothing := readLoop_silent modem
        (tenths (UInt32.ofInt c.timeout)).toNat
        { result := [], syscalls := [], channel := afterWrite modem line c }
        (by rw [hArrivals]; exact hSilent)
      simp [ModemAt.read, hNothing]
  · rw [hCall]
    simp

/-- A call that reads something while an earlier response is outstanding returns
the first byte of that response, if it is not a NUL byte. -/
theorem drained_of_attributed {line : Line} {c : AtCall}
    (hNul : ∀ lines, 0 ∉ (modem lines).text) (hEarlier : OutstandingEarlier modem line)
    (h : Attributed modem line c) : Drained line c := by
  by_contra hNot
  rw [Drained, not_or, not_or, not_not] at hNot
  obtain ⟨hSome, hWrites, hArrives⟩ := hNot
  obtain ⟨b, rest, hHead⟩ := List.exists_cons_of_ne_nil hSome
  obtain ⟨hOrigin, lines, hText⟩ := hEarlier b (by simp [hHead])
  obtain ⟨added, hOutstanding, -, hArrivals⟩ := afterWrite_spec modem line c
  have hByte : b.byte ≠ 0 := fun hZero => hNul lines (hZero ▸ hText)
  have hMem : b ∈ (read Tagged.byte (lineChannel modem) (UInt32.ofInt c.timeout)
      (afterWrite modem line c)).result := by
    -- The earlier response comes first, and its first byte is read.
    have hFirst :
        (afterWrite modem line c).outstanding = b :: (rest ++ added) := by
      rw [hOutstanding, hHead, List.cons_append]
    exact mem_readLoop modem _ hFirst hByte (by rw [hArrivals]; exact hArrives)
  have hOwn : b.origin = line.call := by
    refine h b ?_
    unfold returned
    rcases atCall_cases modem line c with ⟨-, hCall⟩ | ⟨hThrows, -⟩
    · rw [hCall]
      exact hMem
    · exact absurd hWrites hThrows
  omega

/-- In every run in which each call that reads something finds no earlier
response outstanding, each call returns bytes of its own response only.  For
modems that send no NUL bytes there are no other such runs. -/
theorem responses_attributed (calls : List AtCall) :
    (Accepts (lineNext modem) Drained drainedLine calls →
        Accepts (lineNext modem) (Attributed modem) drainedLine calls) ∧
      ((∀ lines, 0 ∉ (modem lines).text) →
        (Accepts (lineNext modem) (Attributed modem) drainedLine calls ↔
          Accepts (lineNext modem) Drained drainedLine calls)) := by
  have hStart : OutstandingEarlier modem drainedLine := by
    simp [OutstandingEarlier, drainedLine]
  have hForward : Accepts (lineNext modem) Drained drainedLine calls →
      Accepts (lineNext modem) (Attributed modem) drainedLine calls :=
    accepts_mono (lineNext modem) Drained (P := fun _ => True)
      (fun line c _ h => ⟨attributed_of_drained modem h, trivial⟩) trivial
  refine ⟨hForward, fun hNul => ⟨?_, hForward⟩⟩
  exact accepts_mono (lineNext modem) (Attributed modem)
    (P := OutstandingEarlier modem)
    (fun line c hEarlier h => ⟨drained_of_attributed modem hNul hEarlier h,
      lineNext_outstandingEarlier modem line c hEarlier⟩) hStart

end Calls

/-! ## A late response -/

/-- A modem that answers every line with `OK`. -/
def okModem : Modem := fun _ =>
  { body := []
    code := ascii "\r\nOK\r\n"
    code_nonempty := by decide
    code_once := by
      intro before after hSplit
      have hLength := congrArg List.length hSplit
      simp only [List.nil_append, List.length_append] at hLength
      exact List.length_eq_zero_iff.mp (by omega) }

theorem responses_attributed_prompt :
    Accepts (lineNext okModem) (Attributed okModem) drainedLine
      [⟨ascii "I", by decide, 1, some 100, [0, 4, 2]⟩,
        ⟨ascii "+CFUN?", by decide, 1, some 100, [63]⟩] :=
  (responses_attributed okModem
    [⟨ascii "I", by decide, 1, some 100, [0, 4, 2]⟩,
      ⟨ascii "+CFUN?", by decide, 1, some 100, [63]⟩]).1 (by decide)

/-- Nothing has arrived when the first call times out; the second call returns
the response to the first. -/
theorem late_response_misattributed :
    ¬ Accepts (lineNext okModem) (Attributed okModem) drainedLine
      [⟨ascii "I", by decide, 1, some 100, []⟩,
        ⟨ascii "+CFUN?", by decide, 1, some 100, [63]⟩] := by
  decide

end Atcmd
end MgComm
