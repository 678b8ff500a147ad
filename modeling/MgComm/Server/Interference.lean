import Mathlib.Logic.Function.Basic
import MgComm.Server.Framing

/-!
# Several servers in one process

`keeped_` belongs to the object, but `eol_flag` is a function-level static of
`process_buf`: all `TcpServer` objects of a process share it.  This module runs
any number of servers on any interleaving of their chunks and compares each of
them with a server that is alone.

The flag an object finds is the one the object served last has left.  That
matters only to a chunk which starts with a newline, and there it always does
(`undisturbed_iff`).
-/

namespace MgComm
namespace Server

open StreamMachine DoubledSeparator

universe u

/-- The servers of a process, told apart by `ι`, and the static they share. -/
structure Process (ι : Type u) where
  eolFlag : Bool
  server : ι → TcpServer

/-- The elements which belong to an object, in order. -/
def ofObject {ι : Type u} [DecidableEq ι] {α : Type} (i : ι) (l : List (ι × α)) :
    List α :=
  l.filterMap fun e => if e.1 = i then some e.2 else none

section Process

variable {ι : Type u} [DecidableEq ι]

theorem ofObject_append {α : Type} (i : ι) (l l' : List (ι × α)) :
    ofObject i (l ++ l') = ofObject i l ++ ofObject i l' :=
  List.filterMap_append

theorem ofObject_same {α : Type} (i : ι) (l : List α) :
    ofObject i (l.map fun x => (i, x)) = l := by
  simp [ofObject, List.filterMap_map]

theorem ofObject_other {α : Type} {i j : ι} (hOther : j ≠ i) (l : List α) :
    ofObject i (l.map fun x => (j, x)) = [] := by
  simp [ofObject, List.filterMap_map, hOther]

/-- One object receives a chunk. -/
def processStep (p : Process ι) (e : ι × Chunk) :
    Process ι × List (ι × List Byte) :=
  let received := receiveChunk (p.eolFlag, p.server e.1) e.2
  ({ eolFlag := received.1.1
     server := Function.update p.server e.1 received.1.2 },
    received.2.map fun line => (e.1, line))

variable (rcvBuf : ι → RcvBuf) (sockfd clientfd : ι → Int)

/-- Fresh servers, each with a callback set. -/
def freshProcess : Process ι where
  eolFlag := false
  server i := (freshServer (rcvBuf i) (sockfd i) (clientfd i)).2

/-- The process after all that its objects have received. -/
def together (events : List (ι × Chunk)) : Process ι × List (ι × List Byte) :=
  run processStep (freshProcess rcvBuf sockfd clientfd) events

/-- An object after the same if the other objects had received nothing. -/
def alone (events : List (ι × Chunk)) (i : ι) :
    (Bool × TcpServer) × List (List Byte) :=
  run receiveChunk (freshServer (rcvBuf i) (sockfd i) (clientfd i))
    (ofObject i events)

/-- An object has delivered, and keeps, what it would if the other objects had
received nothing. -/
def ServedAlike (events : List (ι × Chunk)) (i : ι) : Prop :=
  ofObject i (together rcvBuf sockfd clientfd events).2 =
      (alone rcvBuf sockfd clientfd events i).2 ∧
    ((together rcvBuf sockfd clientfd events).1.server i).keeped =
      (alone rcvBuf sockfd clientfd events i).1.2.keeped

/-- No object is disturbed by the others, after any number of the chunks. -/
def Undisturbed (events : List (ι × Chunk)) : Prop :=
  ∀ past, past <+: events → ∀ i, ServedAlike rcvBuf sockfd clientfd past i

/-! ## What the condition looks at -/

/-- The bytes an object has received. -/
def ownStream (events : List (ι × Chunk)) (i : ι) : List Byte :=
  stream (ofObject i events)

/-- The bytes received by the object which was served last. -/
def lastStream (events : List (ι × Chunk)) : List Byte :=
  match events.getLast? with
  | none => []
  | some e => ownStream events e.1

/-- A stream ends inside a possible terminator: with an odd number of
newlines. -/
def EndsOpen (s : List Byte) : Prop := trailing newline s % 2 = 1

instance (s : List Byte) : Decidable (EndsOpen s) :=
  inferInstanceAs (Decidable (_ = _))

/-- An object's chunk finds the flag that the object itself has left, or does
not look at it. -/
def FindsOwnFlag (past : List (ι × Chunk)) (e : ι × Chunk) : Prop :=
  e.2.bytes.head? = some newline →
    (EndsOpen (lastStream past) ↔ EndsOpen (ownStream past e.1))

/-! ## One chunk -/

theorem together_concat (events : List (ι × Chunk)) (e : ι × Chunk) :
    together rcvBuf sockfd clientfd (events ++ [e]) =
      ((processStep (together rcvBuf sockfd clientfd events).1 e).1,
        (together rcvBuf sockfd clientfd events).2 ++
          (processStep (together rcvBuf sockfd clientfd events).1 e).2) := by
  simp only [together, run_append, run_singleton]

theorem alone_concat (events : List (ι × Chunk)) (e : ι × Chunk) :
    alone rcvBuf sockfd clientfd (events ++ [e]) e.1 =
      ((receiveChunk (alone rcvBuf sockfd clientfd events e.1).1 e.2).1,
        (alone rcvBuf sockfd clientfd events e.1).2 ++
          (receiveChunk (alone rcvBuf sockfd clientfd events e.1).1 e.2).2) := by
  have hOwn : ofObject e.1 [e] = [e.2] := ofObject_same e.1 [e.2]
  simp only [alone, ofObject_append, hOwn, run_append, run_singleton]

/-- The chunk of one object changes nothing for another. -/
theorem servedAlike_other (events : List (ι × Chunk)) {e : ι × Chunk} {i : ι}
    (hOther : e.1 ≠ i) :
    ServedAlike rcvBuf sockfd clientfd (events ++ [e]) i ↔
      ServedAlike rcvBuf sockfd clientfd events i := by
  have hNone : ofObject i [e] = [] := ofObject_other hOther [e.2]
  have hAlone : alone rcvBuf sockfd clientfd (events ++ [e]) i =
      alone rcvBuf sockfd clientfd events i := by
    simp only [alone, ofObject_append, hNone, List.append_nil]
  unfold ServedAlike
  rw [hAlone, together_concat]
  simp only [processStep, ofObject_append, ofObject_other hOther,
    List.append_nil, Function.update_of_ne (Ne.symm hOther)]

/-- What an object alone keeps is determined by its stream. -/
theorem pending_alone (events : List (ι × Chunk)) (i : ι) :
    pending (alone rcvBuf sockfd clientfd events i).1 =
      (decode newline (ownStream events i)).1.toPending :=
  (run_freshServer _ _ _ (ofObject i events)).1

theorem eolFlag_alone (events : List (ι × Chunk)) (i : ι) :
    (alone rcvBuf sockfd clientfd events i).1.1 =
      decide (EndsOpen (ownStream events i)) :=
  (congrArg Pending.armed (pending_alone rcvBuf sockfd clientfd events i)).trans
    (decode_armed newline _)

theorem callbackSet_together (events : List (ι × Chunk)) (i : ι) :
    ((together rcvBuf sockfd clientfd events).1.server i).callbackSet = true := by
  apply run_invariant processStep (fun p => (p.server i).callbackSet = true)
  · intro p e hSet
    by_cases hOwn : e.1 = i
    · subst hOwn
      have hFrame := (receiveChunk_frame (p.eolFlag, p.server e.1) e.2).2.2.2
      simpa [processStep] using hFrame.trans hSet
    · simpa [processStep, Function.update_of_ne (Ne.symm hOwn)] using hSet
  · rfl

theorem callbackSet_alone (events : List (ι × Chunk)) (i : ι) :
    (alone rcvBuf sockfd clientfd events i).1.2.callbackSet = true := by
  apply run_invariant receiveChunk (fun s => s.2.callbackSet = true)
  · intro s c hSet
    exact (receiveChunk_frame s c).2.2.2.trans hSet
  · rfl

/-- A chunk of an object that is alone. -/
theorem alone_receives (events : List (ι × Chunk)) (e : ι × Chunk) :
    let own := alone rcvBuf sockfd clientfd events e.1
    let fed := feedChunk newline ⟨own.1.2.keeped, own.1.1⟩ e.2.bytes
    pending (alone rcvBuf sockfd clientfd (events ++ [e]) e.1).1 = fed.1 ∧
      (alone rcvBuf sockfd clientfd (events ++ [e]) e.1).2 = own.2 ++ fed.2 := by
  intro own fed
  obtain ⟨hPending, hLines⟩ := receiveChunk_callback
    (callbackSet_alone rcvBuf sockfd clientfd events e.1) e.2
  rw [alone_concat]
  exact ⟨hPending, congrArg (own.2 ++ ·) hLines⟩

/-- The same chunk among those of other objects: it finds another flag. -/
theorem together_receives (events : List (ι × Chunk)) (e : ι × Chunk)
    (hAlike : ServedAlike rcvBuf sockfd clientfd events e.1) :
    let own := alone rcvBuf sockfd clientfd events e.1
    let fed := feedChunk newline
      ⟨own.1.2.keeped, (together rcvBuf sockfd clientfd events).1.eolFlag⟩
      e.2.bytes
    let next := together rcvBuf sockfd clientfd (events ++ [e])
    pending (next.1.eolFlag, next.1.server e.1) = fed.1 ∧
      ofObject e.1 next.2 = own.2 ++ fed.2 := by
  intro own fed next
  set p := (together rcvBuf sockfd clientfd events).1 with hProcess
  have hSet : (p.eolFlag, p.server e.1).2.callbackSet = true :=
    callbackSet_together rcvBuf sockfd clientfd events e.1
  have hState : pending (p.eolFlag, p.server e.1) =
      ⟨own.1.2.keeped, p.eolFlag⟩ := by
    rw [← hAlike.2]
    rfl
  obtain ⟨hPending, hLines⟩ := receiveChunk_callback hSet e.2
  rw [hState] at hPending hLines
  have hNext : next = _ := together_concat rcvBuf sockfd clientfd events e
  rw [hNext, ← hProcess]
  constructor
  · simpa [processStep] using hPending
  · rw [ofObject_append, hAlike.1]
    simp only [processStep, ofObject_same, hLines]
    rfl

/-! ## Whole runs -/

/-- An object served alike so far is served alike with its next chunk exactly
if that chunk finds the object's own flag or does not look at it. -/
theorem servedAlike_own_iff {events : List (ι × Chunk)} {e : ι × Chunk}
    (hAlike : ServedAlike rcvBuf sockfd clientfd events e.1) :
    ServedAlike rcvBuf sockfd clientfd (events ++ [e]) e.1 ↔
      (e.2.bytes.head? = some newline →
        (together rcvBuf sockfd clientfd events).1.eolFlag =
          (alone rcvBuf sockfd clientfd events e.1).1.1) := by
  obtain ⟨hAlone, hAloneLines⟩ := alone_receives rcvBuf sockfd clientfd events e
  obtain ⟨hTogether, hTogetherLines⟩ :=
    together_receives rcvBuf sockfd clientfd events e hAlike
  have hKept := congrArg Pending.kept hTogether
  have hAloneKept := congrArg Pending.kept hAlone
  simp only [pending] at hKept hAloneKept
  unfold ServedAlike
  rw [hTogetherLines, hAloneLines, hKept, hAloneKept, List.append_cancel_left_eq]
  exact feedChunk_flag_iff newline _ _ _ e.2.nonempty

/-- The flag of the process, as long as no object is disturbed, is that of the
object served last. -/
theorem eolFlag_together {events : List (ι × Chunk)}
    (h : Undisturbed rcvBuf sockfd clientfd events) :
    (together rcvBuf sockfd clientfd events).1.eolFlag =
      decide (EndsOpen (lastStream events)) := by
  cases events using List.reverseRecOn with
  | nil => rfl
  | append_singleton events e =>
      -- The last object has found its own flag, so it leaves the one that it
      -- would alone.
      have hAlike := h events (List.prefix_append _ _) e.1
      have hFlags := (servedAlike_own_iff rcvBuf sockfd clientfd hAlike).mp
        (h (events ++ [e]) (List.prefix_refl _) e.1)
      obtain ⟨hAlone, -⟩ := alone_receives rcvBuf sockfd clientfd events e
      obtain ⟨hTogether, -⟩ :=
        together_receives rcvBuf sockfd clientfd events e hAlike
      have hSame := feedChunk_flag_congr newline
        (alone rcvBuf sockfd clientfd events e.1).1.2.keeped e.2.nonempty hFlags
      have hArmed := congrArg Pending.armed
        (hTogether.trans ((congrArg Prod.fst hSame).trans hAlone.symm))
      simp only [pending] at hArmed
      rw [hArmed, eolFlag_alone]
      simp [lastStream]

theorem undisturbed_concat_iff (events : List (ι × Chunk)) (e : ι × Chunk) :
    Undisturbed rcvBuf sockfd clientfd (events ++ [e]) ↔
      Undisturbed rcvBuf sockfd clientfd events ∧
        ServedAlike rcvBuf sockfd clientfd (events ++ [e]) e.1 := by
  constructor
  · intro h
    exact ⟨fun past hPast => h past (hPast.trans (List.prefix_append _ _)),
      h _ (List.prefix_refl _) e.1⟩
  · rintro ⟨hBefore, hOwn⟩ past hPast i
    rcases List.prefix_concat_iff.mp hPast with rfl | hShorter
    · by_cases hSame : e.1 = i
      · exact hSame ▸ hOwn
      · exact (servedAlike_other rcvBuf sockfd clientfd events hSame).mpr
          (hBefore events (List.prefix_refl _) i)
    · exact hBefore past hShorter i

/-- The servers of a process are undisturbed by each other exactly in the runs
in which every chunk that starts with a newline comes when the object's own
stream and that of the object served last both end with an odd number of
newlines, or neither does. -/
theorem undisturbed_iff (events : List (ι × Chunk)) :
    Undisturbed rcvBuf sockfd clientfd events ↔
      ∀ h ∈ histories events, FindsOwnFlag h.1 h.2 := by
  induction events using List.reverseRecOn with
  | nil =>
      have hNil : Undisturbed rcvBuf sockfd clientfd ([] : List (ι × Chunk)) := by
        intro past hPast i
        rw [List.prefix_nil.mp hPast]
        exact ⟨rfl, rfl⟩
      simpa using hNil
  | append_singleton events e ih =>
      rw [undisturbed_concat_iff, histories_concat, List.forall_mem_append, ← ih,
        List.forall_mem_singleton]
      refine and_congr_right fun hBefore => ?_
      rw [servedAlike_own_iff rcvBuf sockfd clientfd
          (hBefore events (List.prefix_refl _) e.1),
        eolFlag_together rcvBuf sockfd clientfd hBefore, eolFlag_alone]
      simp only [FindsOwnFlag, decide_eq_decide]

end Process

/-- A newline received by the second object between two chunks of the first:
the first takes its own newline for the second one of a terminator. -/
theorem newline_of_other_disturbs :
    ¬ Undisturbed (fun _ => Vector.replicate _ 0) (fun _ => 3) (fun _ => 4)
      ([(false, ⟨ascii "a", by decide, by decide⟩),
          (true, ⟨ascii "\n", by decide, by decide⟩)] ++
        [((false, ⟨ascii "\n", by decide, by decide⟩) : Bool × Chunk)]) := by
  generalize (fun _ : Bool => (Vector.replicate rcvBufSize 0 : RcvBuf)) = rcvBuf
  generalize hEvent :
    ((false, ⟨ascii "\n", by decide, by decide⟩) : Bool × Chunk) = e
  intro h
  obtain ⟨hPast, hAlike⟩ := (undisturbed_concat_iff _ _ _ _ e).mp h
  have hFlag := (servedAlike_own_iff _ _ _
    (hPast _ (List.prefix_refl _) e.1)).mp hAlike (by rw [← hEvent]; rfl)
  rw [eolFlag_together _ _ _ hPast, eolFlag_alone, ← hEvent] at hFlag
  exact absurd hFlag (by decide)

end Server
end MgComm
