import Mathlib.Order.Monotone.Basic
import MgComm.Atcmd.ModemAt

/-!
# `read_` over any sequence of `read()` results

The results of successive `read()` calls are given as a sequence: a piece of at
most 63 bytes, or nothing where `read()` returns 0 or an error.  Everything
`read_` does is then determined by how many of them it takes
(`readCall_spec`): it stops after the first one with which the gathered text
contains a final result code, or when its budget of iterations is used up.

From this follow the exact conditions under which `read_` returns right after
the final result code (`endsAtCode_iff`), waits for its whole timeout
(`waitsFully_iff`), keeps within the timeout given to `at_cmd`
(`withinTimeout_iff`) and returns all the bytes it has read
(`losesNothing_iff`).
-/

namespace MgComm
namespace Atcmd

open ModemAt

/-- The bytes a `read()` of `bufsize-1` bytes delivers. -/
structure Piece where
  bytes : List Byte
  fits : bytes.length ≤ bufsize - 1

/-- What successive calls of `read()` deliver; no bytes stand for a result of 0
and for an error. -/
abbrev ReadResults := Nat → Piece

/-- The channel with these results.  Its state is the number of `read()` calls
so far. -/
def resultsChannel (results : ReadResults) : Channel Byte Nat where
  write bytes n := (bytes.length, n)
  read _ n := ((results n).bytes, n + 1)

/-- `read_(timeout)` on these results. -/
def readCall (results : ReadResults) (timeout : UInt32) : Reading Byte Nat :=
  ModemAt.read id (resultsChannel results) timeout 0

section Loop

variable (results : ReadResults)

/-- What the first `n` calls of `read()` deliver. -/
def firstReads (n : Nat) : List (List Byte) :=
  (List.range n).map fun i => (results i).bytes

/-- All bytes of the first `n` results. -/
def arrived (n : Nat) : List Byte := (firstReads results n).flatten

/-- What `read_` makes of them: each up to a NUL byte. -/
def gathered (n : Nat) : List Byte := (firstReads results n).flatMap (cString id)

/-- The system calls of an iteration. -/
def iterationCalls (buf : List Byte) : List (Syscall Byte) :=
  if buf = [] then [.read [], .usleep 100000] else [.read buf]

/-- The system calls of the first `n` iterations. -/
def callsOf (n : Nat) : List (Syscall Byte) :=
  (firstReads results n).flatMap iterationCalls

/-- The variables of `read_` after `n` iterations. -/
def afterReads (n : Nat) : Reading Byte Nat :=
  { result := gathered results n, syscalls := callsOf results n, channel := n }

theorem firstReads_succ (n : Nat) :
    firstReads results (n + 1) = firstReads results n ++ [(results n).bytes] := by
  simp [firstReads, List.range_succ]

theorem arrived_succ (n : Nat) :
    arrived results (n + 1) = arrived results n ++ (results n).bytes := by
  simp [arrived, firstReads_succ]

theorem gathered_succ (n : Nat) :
    gathered results (n + 1) =
      gathered results n ++ cString id (results n).bytes := by
  simp [gathered, firstReads_succ]

theorem callsOf_succ (n : Nat) :
    callsOf results (n + 1) =
      callsOf results n ++ iterationCalls (results n).bytes := by
  simp [callsOf, firstReads_succ]

/-- A final result code that has been found stays in the text. -/
theorem foundResultCode_mono {text text' : List Byte} (hPrefix : text <+: text')
    (hFound : foundResultCode id text = true) :
    foundResultCode id text' = true := by
  simp only [foundResultCode, List.map_id, Bool.or_eq_true,
    decide_eq_true_eq] at hFound ⊢
  exact hFound.imp (fun h => h.trans hPrefix.isInfix)
    fun h => h.trans hPrefix.isInfix

/-- What only grows at its end is a prefix of all that it becomes. -/
theorem prefix_of_le {text : Nat → List Byte}
    (hGrows : ∀ n, text n <+: text (n + 1)) {m n : Nat} (h : m ≤ n) :
    text m <+: text n := by
  induction n, h using Nat.le_induction with
  | base => exact List.prefix_refl _
  | succ n _ ih => exact ih.trans (hGrows n)

theorem gathered_mono {m n : Nat} (h : m ≤ n) :
    gathered results m <+: gathered results n := by
  refine prefix_of_le (fun k => ?_) h
  rw [gathered_succ]
  exact List.prefix_append _ _

theorem arrived_mono {m n : Nat} (h : m ≤ n) :
    arrived results m <+: arrived results n := by
  refine prefix_of_le (fun k => ?_) h
  rw [arrived_succ]
  exact List.prefix_append _ _

/-- One iteration handles one result, and breaks out of the loop if a final
result code is found with it. -/
theorem readBody_afterReads {n : Nat}
    (hNot : foundResultCode id (gathered results n) = false) :
    readBody id (resultsChannel results) (afterReads results n) =
      (afterReads results (n + 1),
        foundResultCode id (gathered results (n + 1))) := by
  cases hBytes : (results n).bytes with
  | nil =>
      -- The text stays as it is, so nothing is found in it now either.
      have hSame : gathered results (n + 1) = gathered results n := by
        rw [gathered_succ, hBytes]
        exact List.append_nil _
      rw [hSame, hNot]
      simp [readBody, resultsChannel, afterReads, hBytes, hSame, callsOf_succ,
        iterationCalls]
  | cons b bytes =>
      simp [readBody, resultsChannel, afterReads, hBytes, gathered_succ,
        callsOf_succ, iterationCalls]

/-- The loop with the counter at `tenth` ends with the `n`-th result. -/
structure StopsAfter (tenth n : Nat) : Prop where
  le : n ≤ tenth + 1
  exit : n = tenth + 1 ∨ foundResultCode id (gathered results n) = true
  before : ∀ j < n, foundResultCode id (gathered results j) = false

/-- The loop, from after `n` results. -/
theorem readLoop_afterReads (tenth n : Nat)
    (hNot : ∀ j ≤ n, foundResultCode id (gathered results j) = false) :
    ∃ m, StopsAfter results (n + tenth) m ∧
      readLoop id (resultsChannel results) tenth (afterReads results n) =
        afterReads results m := by
  -- Induction on the counter: `tenth` more iterations may follow this one.
  induction tenth generalizing n with
  | zero =>
      refine ⟨n + 1, ⟨Nat.le_refl _, Or.inl rfl, fun j hj => hNot j (by omega)⟩, ?_⟩
      rw [readLoop, readBody_afterReads results (hNot n (Nat.le_refl n))]
  | succ tenth ih =>
      rw [readLoop, readBody_afterReads results (hNot n (Nat.le_refl n))]
      by_cases hFound : foundResultCode id (gathered results (n + 1)) = true
      · refine ⟨n + 1, ⟨by omega, Or.inr hFound, fun j hj => hNot j (by omega)⟩, ?_⟩
        rw [if_pos hFound]
      · have hNext : ∀ j ≤ n + 1, foundResultCode id (gathered results j) = false := by
          intro j hj
          rcases Nat.le_succ_iff.mp hj with hOld | rfl
          · exact hNot j hOld
          · simpa using hFound
        obtain ⟨m, hStops, hLoop⟩ := ih (n + 1) hNext
        rw [if_neg hFound, hLoop]
        exact ⟨m, by rwa [show n + 1 + tenth = n + (tenth + 1) by omega] at hStops,
          rfl⟩

/-- `read_` takes results up to the first final result code, or as many as its
budget allows. -/
theorem readCall_spec (timeout : UInt32) :
    ∃ n, StopsAfter results (tenths timeout).toNat n ∧
      readCall results timeout = afterReads results n := by
  have hStart : ∀ j ≤ 0, foundResultCode id (gathered results j) = false := by
    intro j hj
    rw [Nat.le_zero.mp hj]
    show foundResultCode id [] = false
    decide
  have hLoop := readLoop_afterReads results (tenths timeout).toNat 0 hStart
  rwa [Nat.zero_add] at hLoop

/-- A property of all results that the loop takes, in terms of the results
within its budget. -/
theorem StopsAfter.forall_lt_iff {tenth n : Nat} (h : StopsAfter results tenth n)
    (P : Nat → Prop) :
    (∀ i < n, P i) ↔
      ∀ i ≤ tenth, foundResultCode id (gathered results i) = false → P i := by
  have hBudget := h.le
  constructor
  · intro hTaken i hi hNot
    apply hTaken i
    by_contra hLate
    -- The loop has ended before, and with a final result code.
    have hFound : foundResultCode id (gathered results n) = true :=
      h.exit.resolve_left (by omega)
    have hLater := foundResultCode_mono
      (gathered_mono results (Nat.le_of_not_lt hLate)) hFound
    rw [hNot] at hLater
    cases hLater
  · intro hBefore i hi
    exact hBefore i (by omega) (h.before i hi)

/-! ## No byte is lost -/

/-- The bytes the `read()` calls among some system calls have delivered. -/
def deliveredBytes (syscalls : List (Syscall Byte)) : List Byte :=
  syscalls.flatMap fun
    | .read buf => buf
    | .usleep _ => []

/-- `read_` returns all bytes it has read. -/
def LosesNothing (timeout : UInt32) : Prop :=
  (readCall results timeout).result =
    deliveredBytes (readCall results timeout).syscalls

theorem deliveredBytes_callsOf (n : Nat) :
    deliveredBytes (callsOf results n) = arrived results n := by
  induction n with
  | zero => rfl
  | succ n ih =>
      have hOne (buf : List Byte) : deliveredBytes (iterationCalls buf) = buf := by
        by_cases hNil : buf = [] <;> simp [iterationCalls, deliveredBytes, hNil]
      rw [callsOf_succ, arrived_succ, ← ih]
      simp only [deliveredBytes, List.flatMap_append] at hOne ⊢
      rw [hOne]

/-- A C string is the whole buffer if no byte of it is NUL, and shorter
otherwise. -/
theorem cString_spec (buf : List Byte) :
    (0 ∉ buf → cString id buf = buf) ∧
      (0 ∈ buf → (cString id buf).length < buf.length) := by
  induction buf with
  | nil => simp [cString]
  | cons b buf ih =>
      by_cases hNul : b = 0
      · simp [cString, hNul]
      · have hCons : cString id (b :: buf) = b :: cString id buf := by
          simp [cString, hNul]
        rw [hCons]
        have hHead : (0 : Byte) ∈ b :: buf ↔ 0 ∈ buf := by simp [Ne.symm hNul]
        rw [hHead]
        refine ⟨fun h => by rw [ih.1 h], fun h => Nat.succ_lt_succ (ih.2 h)⟩

/-- Everything is gathered exactly if there is no NUL byte. -/
theorem gathered_eq_arrived_iff (n : Nat) :
    gathered results n = arrived results n ↔ ∀ i < n, 0 ∉ (results i).bytes := by
  have hLength (n : Nat) :
      (gathered results n).length ≤ (arrived results n).length := by
    induction n with
    | zero => exact Nat.le_refl 0
    | succ n ih =>
        have hPiece : (cString id (results n).bytes).length ≤
            (results n).bytes.length := (List.takeWhile_sublist _).length_le
        rw [gathered_succ, arrived_succ, List.length_append, List.length_append]
        exact Nat.add_le_add ih hPiece
  induction n with
  | zero => simp [gathered, arrived, firstReads]
  | succ n ih =>
      obtain ⟨hWhole, hShorter⟩ := cString_spec (results n).bytes
      rw [gathered_succ, arrived_succ, Nat.forall_lt_succ_right]
      by_cases hNul : 0 ∈ (results n).bytes
      · -- A byte that is lost is not made up for.
        have hLess := hShorter hNul
        have hBefore := hLength n
        simp only [hNul, not_true_eq_false, and_false, iff_false]
        intro hEq
        have hLengths := congrArg List.length hEq
        rw [List.length_append, List.length_append] at hLengths
        omega
      · rw [hWhole hNul, List.append_cancel_right_eq]
        simpa only [hNul, not_false_eq_true, and_true] using ih

/-- Two texts that agree as long as `P` holds: what is said of the results before
a final result code of the one can be said of those of the other. -/
theorem forall_before_code {text text' : Nat → List Byte} {P : Nat → Prop}
    (hGrows : ∀ n, text' n <+: text' (n + 1))
    (hSame : ∀ n, (∀ i < n, P i) → text n = text' n) {tenth : Nat}
    (h : ∀ n ≤ tenth, foundResultCode id (text n) = false → P n) :
    ∀ n ≤ tenth, foundResultCode id (text' n) = false → P n := by
  intro n
  induction n using Nat.strongRecOn with
  | ind n ih =>
      intro hn hNot
      apply h n hn
      rw [hSame n, hNot]
      intro i hi
      apply ih i hi (by omega)
      -- No code is found earlier either.
      by_contra hFound
      have hLater := foundResultCode_mono (prefix_of_le hGrows (Nat.le_of_lt hi))
        (Bool.not_eq_false _ ▸ hFound)
      rw [hNot] at hLater
      cases hLater

/-- `read_` returns all bytes it has read exactly if no NUL byte arrives before
a final result code has, nor together with it, within the budget. -/
theorem losesNothing_iff (timeout : UInt32) :
    LosesNothing results timeout ↔
      ∀ n ≤ (tenths timeout).toNat,
        foundResultCode id (arrived results n) = false →
          0 ∉ (results n).bytes := by
  obtain ⟨m, hStops, hCall⟩ := readCall_spec results timeout
  have hLoses : LosesNothing results timeout ↔
      ∀ i < m, 0 ∉ (results i).bytes := by
    unfold LosesNothing
    rw [hCall]
    show gathered results m = deliveredBytes (callsOf results m) ↔ _
    rw [deliveredBytes_callsOf, gathered_eq_arrived_iff]
  have hSame (n : Nat) (hClean : ∀ i < n, 0 ∉ (results i).bytes) :
      gathered results n = arrived results n :=
    (gathered_eq_arrived_iff results n).mpr hClean
  rw [hLoses, hStops.forall_lt_iff]
  constructor
  · refine forall_before_code (fun n => ?_) hSame
    exact arrived_mono results (Nat.le_succ n)
  · refine forall_before_code (fun n => ?_) fun n hClean => (hSame n hClean).symm
    exact gathered_mono results (Nat.le_succ n)

/-- Of a piece with a NUL byte in it only what precedes that byte is
returned. -/
theorem bytes_after_nul_lost :
    ¬ LosesNothing (fun n => if n = 0 then ⟨[65, 0, 66], by decide⟩
      else ⟨[], by decide⟩) 0 := by
  unfold LosesNothing
  decide

/-! ## The timeout -/

/-- The microseconds slept in some system calls. -/
def slept : List (Syscall Byte) → Nat
  | [] => 0
  | .read _ :: syscalls => slept syscalls
  | .usleep usec :: syscalls => usec + slept syscalls

theorem slept_append (syscalls syscalls' : List (Syscall Byte)) :
    slept (syscalls ++ syscalls') = slept syscalls + slept syscalls' := by
  induction syscalls with
  | nil => simp [slept]
  | cons call syscalls ih =>
      cases call with
      | read buf => simpa [slept] using ih
      | usleep usec => simp [slept, ih, Nat.add_assoc]

/-- Unless `read_` has found a final result code, it has slept for its whole
timeout. -/
def WaitsFully (timeout : UInt32) : Prop :=
  foundResultCode id (readCall results timeout).result = false →
    10 * timeout.toNat * 100000 ≤ slept (readCall results timeout).syscalls

/-- How many of the first `n` results have data. -/
def dataCount (n : Nat) : Nat := (firstReads results n).countP fun buf => buf ≠ []

theorem dataCount_succ (n : Nat) :
    dataCount results (n + 1) =
      dataCount results n + if (results n).bytes ≠ [] then 1 else 0 := by
  simp [dataCount, firstReads_succ]

/-- Every iteration that reads nothing sleeps for 0.1 s, and no other one
does. -/
theorem slept_callsOf (n : Nat) :
    slept (callsOf results n) + dataCount results n * 100000 = n * 100000 := by
  induction n with
  | zero => simp [slept, callsOf, dataCount, firstReads]
  | succ n ih =>
      have hOne (buf : List Byte) :
          slept (iterationCalls buf) + (if buf ≠ [] then 1 else 0) * 100000 =
            100000 := by
        by_cases hNil : buf = [] <;> simp [iterationCalls, slept, hNil]
      have hLast := hOne (results n).bytes
      have hSum : slept (callsOf results (n + 1)) =
          slept (callsOf results n) + slept (iterationCalls (results n).bytes) := by
        rw [callsOf_succ, slept_append]
      rw [hSum, dataCount_succ]
      omega

/-- `read_` waits for its whole timeout exactly if a final result code is
gathered within the budget, or at most one of the results within the budget has
data: every other one takes a tenth of a second off the waiting time. -/
theorem waitsFully_iff (timeout : UInt32) (hTimeout : 10 * timeout.toNat < 2 ^ 32) :
    WaitsFully results timeout ↔
      foundResultCode id (gathered results (10 * timeout.toNat + 1)) = true ∨
        dataCount results (10 * timeout.toNat + 1) ≤ 1 := by
  have hTenths : (tenths timeout).toNat = 10 * timeout.toNat := by
    rw [tenths, UInt32.toNat_mul]
    simp only [UInt32.reduceToNat]
    omega
  obtain ⟨n, hStops, hCall⟩ := readCall_spec results timeout
  rw [hTenths] at hStops
  unfold WaitsFully
  rw [hCall]
  show (foundResultCode id (gathered results n) = false →
    10 * timeout.toNat * 100000 ≤ slept (callsOf results n)) ↔ _
  by_cases hFound : foundResultCode id (gathered results n) = true
  · have hLater := foundResultCode_mono (gathered_mono results hStops.le) hFound
    simp [hFound, hLater]
  · -- The budget is used up.
    have hAll : n = 10 * timeout.toNat + 1 := hStops.exit.resolve_right hFound
    have hSlept := slept_callsOf results n
    rw [← hAll]
    simp only [Bool.not_eq_true] at hFound
    simp only [hFound, forall_const, Bool.false_eq_true, false_or]
    omega

theorem waitsFully_one_piece :
    WaitsFully (fun n => if n = 3 then ⟨ascii "+CREG: 1", by decide⟩
      else ⟨[], by decide⟩) 1 :=
  (waitsFully_iff _ 1 (by decide)).mpr (Or.inr (by decide))

/-- A response that keeps arriving is cut off after eleven reads, without any
waiting. -/
theorem cut_off_while_arriving :
    ¬ WaitsFully (fun _ => ⟨ascii "+CREG: 1", by decide⟩) 1 := by
  unfold WaitsFully
  decide

/-- `read_` sleeps for no longer than the `int` timeout of `at_cmd`, and not at
all if that is negative. -/
def WithinTimeout (timeout : Int) : Prop :=
  slept (readCall results (UInt32.ofInt timeout)).syscalls ≤
    10 * timeout.toNat * 100000

/-- The counter starts at ten times the timeout, modulo `2^32`. -/
theorem toNat_tenths_ofInt (timeout : Int) :
    (tenths (UInt32.ofInt timeout)).toNat = (10 * timeout % 2 ^ 32).toNat := by
  have hProduct : tenths (UInt32.ofInt timeout) = UInt32.ofInt (timeout * 10) := by
    rw [UInt32.ofInt_mul]
    rfl
  have hBelow : 10 * timeout % 2 ^ 32 < 2 ^ 32 := Int.emod_lt_of_pos _ (by decide)
  rw [hProduct, Int.mul_comm, UInt32.ofInt, UInt32.toNat_ofNat']
  exact Nat.mod_eq_of_lt (by omega)

theorem dataCount_pos_iff (n : Nat) :
    0 < dataCount results n ↔ ∃ i < n, (results i).bytes ≠ [] := by
  simp [dataCount, firstReads, List.countP_pos_iff]

theorem le_dataCount_iff (n : Nat) :
    n ≤ dataCount results n ↔ ∀ i < n, (results i).bytes ≠ [] := by
  have hLength : (firstReads results n).length = n := by simp [firstReads]
  have hAll : dataCount results n = (firstReads results n).length ↔
      ∀ i < n, (results i).bytes ≠ [] := by
    unfold dataCount
    rw [List.countP_eq_length]
    simp [firstReads]
  have hLe : dataCount results n ≤ (firstReads results n).length :=
    List.countP_le_length
  rw [← hAll]
  omega

/-- A final result code is found in data only. -/
theorem dataCount_pos_of_found {n : Nat}
    (hFound : foundResultCode id (gathered results n) = true) :
    0 < dataCount results n := by
  rw [dataCount_pos_iff]
  by_contra hNone
  have hNil : gathered results n = [] := by
    simp only [gathered, firstReads, List.flatMap_eq_nil_iff]
    intro buf hMem
    obtain ⟨i, hi, rfl⟩ := List.mem_map.mp hMem
    have hEmpty : (results i).bytes = [] := by
      by_contra hData
      exact hNone ⟨i, List.mem_range.mp hi, hData⟩
    rw [hEmpty]
    rfl
  rw [hNil] at hFound
  exact absurd hFound (by decide)

/-- The loop makes no more empty reads than its counter says exactly if one of
the results within its budget has data. -/
theorem StopsAfter.le_add_dataCount_iff {tenth n : Nat}
    (h : StopsAfter results tenth n) :
    n ≤ tenth + dataCount results n ↔ ∃ i ≤ tenth, (results i).bytes ≠ [] := by
  have hBudget := h.le
  have hPos : 0 < dataCount results n ↔ ∃ i ≤ tenth, (results i).bytes ≠ [] := by
    constructor
    · intro hData
      obtain ⟨i, hi, hNe⟩ := (dataCount_pos_iff results n).mp hData
      exact ⟨i, by omega, hNe⟩
    · rintro ⟨i, hi, hNe⟩
      rcases h.exit with hAll | hFound
      · exact (dataCount_pos_iff results n).mpr ⟨i, by omega, hNe⟩
      · exact dataCount_pos_of_found results hFound
  rw [← hPos]
  constructor
  · intro hLe
    rcases h.exit with hAll | hFound
    · omega
    · exact dataCount_pos_of_found results hFound
  · intro hData
    omega

/-- Every iteration sleeps for a tenth of a second or reads data. -/
theorem withinTimeout_iff_le {timeout : Int} {n : Nat}
    (hCall : readCall results (UInt32.ofInt timeout) = afterReads results n) :
    WithinTimeout results timeout ↔
      n ≤ 10 * timeout.toNat + dataCount results n := by
  have hSlept := slept_callsOf results n
  unfold WithinTimeout
  rw [hCall]
  show slept (callsOf results n) ≤ 10 * timeout.toNat * 100000 ↔ _
  omega

/-- When `read_` keeps within the timeout given to `at_cmd`.  A timeout of `t`
seconds stands for `10 * t + 1` iterations, so the first of their results must
not all be empty; from `2^32` tenths on the counter wraps and is small enough.
A negative timeout becomes a huge one, so until the loop ends no result may be
empty. -/
theorem withinTimeout_iff (timeout : Int) :
    WithinTimeout results timeout ↔
      (0 ≤ timeout → 10 * timeout < 2 ^ 32 →
        ∃ n ≤ 10 * timeout.toNat, (results n).bytes ≠ []) ∧
      (timeout < 0 → ∀ n ≤ (10 * timeout % 2 ^ 32).toNat,
        foundResultCode id (gathered results n) = false →
          (results n).bytes ≠ []) := by
  obtain ⟨n, hStops, hCall⟩ := readCall_spec results (UInt32.ofInt timeout)
  rw [toNat_tenths_ofInt] at hStops
  rw [withinTimeout_iff_le results hCall]
  by_cases hNeg : timeout < 0
  · -- The timeout stands for no waiting at all.
    have hZero : timeout.toNat = 0 := Int.toNat_of_nonpos hNeg.le
    have hTaken := hStops.forall_lt_iff results fun i => (results i).bytes ≠ []
    rw [hZero, Nat.mul_zero, Nat.zero_add, le_dataCount_iff, hTaken]
    simp [hNeg, Int.not_le.mpr hNeg]
  · have hNonneg : 0 ≤ timeout := Int.not_lt.mp hNeg
    have hTimes : (10 * timeout).toNat = 10 * timeout.toNat :=
      Int.toNat_mul (by decide) hNonneg
    by_cases hSmall : 10 * timeout < 2 ^ 32
    · have hNoWrap : 10 * timeout % 2 ^ 32 = 10 * timeout :=
        Int.emod_eq_of_lt (Int.mul_nonneg (by decide) hNonneg) hSmall
      rw [hNoWrap, hTimes] at hStops
      rw [hStops.le_add_dataCount_iff]
      simp only [hNonneg, hSmall, hNeg, forall_const, false_implies, and_true]
    · -- The product wraps, so the budget is below `2^32`.
      have hLarge : 2 ^ 32 ≤ 10 * timeout := Int.not_lt.mp hSmall
      have hPositive : 0 < 10 * timeout := Int.lt_of_lt_of_le (by decide) hLarge
      have hWrapped : 10 * timeout % 2 ^ 32 < 10 * timeout :=
        Int.lt_of_lt_of_le (Int.emod_lt_of_pos _ (by decide)) hLarge
      have hBelow : (10 * timeout % 2 ^ 32).toNat < (10 * timeout).toNat :=
        (Int.toNat_lt_toNat hPositive).mpr hWrapped
      have hLess : n ≤ 10 * timeout.toNat :=
        hTimes ▸ Nat.le_trans hStops.le (Nat.succ_le_of_lt hBelow)
      simp only [hSmall, hNeg, false_implies, implies_true, and_true, iff_true]
      exact Nat.le_add_right_of_le hLess

/-- No wait was asked for, and nothing is there to be read. -/
theorem sleeps_without_timeout :
    ¬ WithinTimeout (fun _ => ⟨[], by decide⟩) 0 := by
  unfold WithinTimeout
  decide

/-! ## The final result code -/

/-- The two final result codes, as the modem frames them. -/
inductive FinalCode where
  | ok
  | error
  deriving DecidableEq

def FinalCode.text : FinalCode → List Byte
  | .ok => ascii "\r\nOK\r\n"
  | .error => ascii "\r\nERROR\r\n"

/-- A response: some text and a final result code, which occurs for the first
time at the end. -/
structure Reply where
  body : List Byte
  code : FinalCode
  nulFree : 0 ∉ body
  ok_once : ¬ ascii "\r\nOK\r\n" <:+: (body ++ code.text).dropLast
  /-- No earlier line ends in `ERROR`. -/
  error_once : ¬ ascii "ERROR\n" <:+: (body ++ code.text).dropLast ∧
    ¬ ascii "ERROR\r\n" <:+: (body ++ code.text).dropLast

def Reply.text (r : Reply) : List Byte := r.body ++ r.code.text

/-- A way in which `read()` may deliver a reply: the first `count` results hold
it, and the last of them completes it.  What comes later is open. -/
structure Delivery (r : Reply) where
  results : ReadResults
  count : Nat
  whole : arrived results count = r.text
  completes : ∀ n < count, arrived results n ≠ r.text

/-- `read_` returns right after the `read()` that completes the reply, and what
it returns ends with the final result code. -/
def EndsAtCode (timeout : UInt32) {r : Reply} (d : Delivery r) : Prop :=
  (readCall d.results timeout).syscalls = callsOf d.results d.count ∧
    r.code.text <:+ (readCall d.results timeout).result

theorem Reply.zero_not_mem_text (r : Reply) : 0 ∉ r.text := by
  have hCode : 0 ∉ r.code.text := by
    cases r.code <;> decide
  simpa [Reply.text, r.nulFree] using hCode

/-- The final result code is found at the end of the reply only if it is
`OK`: the pattern for `ERROR` has no carriage return in it. -/
theorem Reply.found_text (r : Reply) :
    foundResultCode id r.text = decide (r.code = .ok) := by
  obtain ⟨body, code, -, hOk, hError, -⟩ := r
  cases code with
  | ok =>
      -- The whole frame is the pattern.
      have hSuffix : ascii "\r\nOK\r\n" <:+ body ++ FinalCode.text .ok :=
        List.suffix_append body _
      simp [foundResultCode, Reply.text, hSuffix.isInfix]
  | error =>
      have hLast : (body ++ FinalCode.text .error).dropLast ++ [newline] =
          body ++ FinalCode.text .error :=
        List.dropLast_append_getLast? newline (by
          rw [List.getLast?_append]
          rfl)
      -- A pattern that first occurs in the whole text ends it, and the text ends
      -- with the frame of `ERROR`, which neither pattern does.
      have hNew (pattern : List Byte)
          (hEarlier : ¬ pattern <:+: (body ++ FinalCode.text .error).dropLast)
          (hEnd : ¬ pattern <:+ FinalCode.text .error)
          (hLength : pattern.length ≤ (FinalCode.text .error).length) :
          ¬ pattern <:+: body ++ FinalCode.text .error := by
        rw [← hLast, List.infix_concat_iff, hLast]
        rintro (hSuffix | hInfix)
        · exact hEnd (List.suffix_of_suffix_length_le hSuffix
            (List.suffix_append body _) hLength)
        · exact hEarlier hInfix
      have hNoOk := hNew _ hOk (by decide) (by decide)
      have hNoError := hNew _ hError (by decide) (by decide)
      simp [foundResultCode, Reply.text, hNoOk, hNoError]

/-- Before the end of the reply, no final result code is found. -/
theorem Reply.not_found_of_prefix (r : Reply) {text : List Byte}
    (hPrefix : text <+: r.text) (hNot : text ≠ r.text) :
    foundResultCode id text = false := by
  have hNonempty : r.text ≠ [] := by
    intro hNil
    exact hNot ((List.prefix_nil.mp (hNil ▸ hPrefix)).trans hNil.symm)
  have hInit : text <+: r.text.dropLast := by
    rw [← List.dropLast_append_getLast hNonempty, List.prefix_concat_iff] at hPrefix
    refine hPrefix.resolve_left fun hWhole => hNot ?_
    rw [hWhole, List.dropLast_append_getLast]
  have hNoOk : ¬ ascii "\r\nOK\r\n" <:+: text := fun h =>
    r.ok_once (h.trans hInit.isInfix)
  have hNoError : ¬ ascii "ERROR\n" <:+: text := fun h =>
    r.error_once.1 (h.trans hInit.isInfix)
  simp [foundResultCode, hNoOk, hNoError]

/-- Up to the end of the reply, everything that arrives is gathered. -/
theorem Delivery.gathered_eq {r : Reply} (d : Delivery r) {n : Nat}
    (hn : n ≤ d.count) : gathered d.results n = arrived d.results n := by
  rw [gathered_eq_arrived_iff]
  intro i hi hNul
  apply r.zero_not_mem_text
  rw [← d.whole]
  refine List.mem_flatten.mpr ⟨(d.results i).bytes, ?_, hNul⟩
  exact List.mem_map.mpr ⟨i, List.mem_range.mpr (by omega), rfl⟩

/-- The loop ends in one place only. -/
theorem StopsAfter.unique {tenth m n : Nat} (hm : StopsAfter results tenth m)
    (hn : StopsAfter results tenth n) : m = n := by
  -- Neither can come before the other.
  have hNotLess {m n : Nat} (hm : StopsAfter results tenth m)
      (hn : StopsAfter results tenth n) : ¬ m < n := by
    intro hLess
    rcases hm.exit with rfl | hFound
    · exact absurd hn.le (by omega)
    · rw [hn.before m hLess] at hFound
      cases hFound
  have := hNotLess hm hn
  have := hNotLess hn hm
  omega

theorem callsOf_injective : Function.Injective (callsOf results) := by
  have hGrows : StrictMono fun n => (callsOf results n).length := by
    apply strictMono_nat_of_lt_succ
    intro n
    rw [callsOf_succ, List.length_append]
    by_cases hNil : (results n).bytes = [] <;> simp [iterationCalls, hNil]
  intro m n hEq
  exact hGrows.injective (congrArg List.length hEq)

/-- `read_` ends with the final result code exactly if the loop stops after the
result that completes it. -/
theorem endsAtCode_iff_stopsAfter (timeout : UInt32) {r : Reply} (d : Delivery r) :
    EndsAtCode timeout d ↔ StopsAfter d.results (tenths timeout).toNat d.count := by
  obtain ⟨n, hStops, hCall⟩ := readCall_spec d.results timeout
  unfold EndsAtCode
  rw [hCall]
  constructor
  · rintro ⟨hCalls, -⟩
    have hCount : n = d.count := callsOf_injective d.results hCalls
    exact hCount ▸ hStops
  · intro hCount
    rw [hStops.unique d.results hCount]
    refine ⟨rfl, ?_⟩
    show r.code.text <:+ gathered d.results d.count
    rw [d.gathered_eq (Nat.le_refl _), d.whole]
    exact List.suffix_append r.body _

/-- For a reply delivered within the budget, `read_` ends with the final result
code exactly if that is `OK`, or if the budget happens to be used up there. -/
theorem endsAtCode_iff (timeout : UInt32) {r : Reply} (d : Delivery r)
    (hWithin : d.count ≤ (tenths timeout).toNat + 1) :
    EndsAtCode timeout d ↔
      r.code = .ok ∨ d.count = (tenths timeout).toNat + 1 := by
  have hEnd : foundResultCode id (gathered d.results d.count) =
      decide (r.code = .ok) := by
    rw [d.gathered_eq (Nat.le_refl _), d.whole, r.found_text]
  rw [endsAtCode_iff_stopsAfter]
  constructor
  · intro hStops
    rcases hStops.exit with hBudget | hFound
    · exact Or.inr hBudget
    · exact Or.inl (by simpa [hEnd] using hFound)
  · intro hCondition
    refine ⟨hWithin, ?_, fun j hj => ?_⟩
    · rcases hCondition with hOk | hBudget
      · exact Or.inr (by simp [hEnd, hOk])
      · exact Or.inl hBudget
    · rw [d.gathered_eq (Nat.le_of_lt hj)]
      refine r.not_found_of_prefix ?_ (d.completes j hj)
      rw [← d.whole]
      exact arrived_mono d.results (Nat.le_of_lt hj)

/-- A reply in two pieces with an empty read in between. -/
def okDelivery : Delivery
    ⟨ascii "\r\n1", .ok, by decide, by decide, by decide⟩ where
  results n :=
    match n with
    | 0 => ⟨ascii "\r\n1\r\nO", by decide⟩
    | 2 => ⟨ascii "K\r\n", by decide⟩
    | _ => ⟨[], by decide⟩
  count := 3
  whole := by decide
  completes := by decide

theorem endsAtCode_ok : EndsAtCode 1 okDelivery :=
  (endsAtCode_iff 1 okDelivery (by decide)).mpr (Or.inl rfl)

/-- An error reply in one piece. -/
def errorDelivery : Delivery ⟨[], .error, by decide, by decide, by decide⟩ where
  results n :=
    match n with
    | 0 => ⟨ascii "\r\nERROR\r\n", by decide⟩
    | _ => ⟨[], by decide⟩
  count := 1
  whole := by decide
  completes := by decide

/-- After the error reply `read_` waits for its whole timeout. -/
theorem error_reply_not_recognised :
    ¬ EndsAtCode 1 errorDelivery ∧
      slept (readCall errorDelivery.results 1).syscalls = 1000000 := by
  have hSlept : slept (readCall errorDelivery.results 1).syscalls = 1000000 := by
    decide
  refine ⟨?_, hSlept⟩
  rintro ⟨hCalls, -⟩
  rw [hCalls] at hSlept
  exact absurd hSlept (by decide)

end Loop

end Atcmd
end MgComm
