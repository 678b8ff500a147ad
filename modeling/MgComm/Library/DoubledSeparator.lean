import Mathlib.Data.List.Basic
import Mathlib.Data.List.Infix
import MgComm.Library.StreamMachine

/-!
# Framing a stream by a doubled separator

A message is closed by two separators in a row.  A stream is scanned greedily
from the left: every double separator found closes a message, and whatever
follows the last one is the remainder.  The two carriers hold their own
well-formedness:

* a `Message` is a text that can be followed by its terminator without the
  terminator being found too early;
* a `Remainder` is a text in which no terminator is complete.

`decode` and `encode` are inverse to each other (`decode_encode`,
`encode_decode`).

The second half is about streams which arrive in chunks.  A receiver that
forgets, at a chunk boundary, that the separator it kept may belong to a
terminator hands out `m ++ [sep]` instead of `m` for a terminator which
straddles the boundary.  `run_feedChunk` says exactly what such a receiver
hands out, and `delivered_eq_iff` when two ways of cutting one stream agree.
-/

namespace DoubledSeparator

universe u

open StreamMachine

variable {α : Type u} (sep : α)

/-- No two consecutive separators. -/
def NoDouble (text : List α) : Prop := ¬ [sep, sep] <:+: text

instance [DecidableEq α] (text : List α) : Decidable (NoDouble sep text) :=
  inferInstanceAs (Decidable (¬ _))

@[simp] theorem noDouble_nil : NoDouble sep ([] : List α) := by
  simp [NoDouble]

/-- Appending one element keeps a text free of double separators unless a
separator follows a final separator. -/
theorem noDouble_concat_iff (text : List α) (x : α) :
    NoDouble sep (text ++ [x]) ↔
      NoDouble sep text ∧ ¬ (x = sep ∧ text.getLast? = some sep) := by
  have hSuffix : [sep, sep] <:+ text ++ [x] ↔
      x = sep ∧ text.getLast? = some sep := by
    rw [List.suffix_concat_iff]
    constructor
    · rintro (hnil | ⟨front, hfront, hsuffix⟩)
      · cases hnil
      · have hSplit : [sep] ++ [sep] = front ++ [x] := hfront
        obtain ⟨rfl, hx⟩ := List.append_inj' hSplit rfl
        exact ⟨(List.singleton_inj.mp hx).symm,
          List.singleton_suffix_iff_getLast?_eq_some.mp hsuffix⟩
    · rintro ⟨rfl, hlast⟩
      exact Or.inr ⟨[x], rfl,
        List.singleton_suffix_iff_getLast?_eq_some.mpr hlast⟩
  unfold NoDouble
  rw [List.infix_concat_iff, hSuffix]
  tauto

/-- A text whose terminator can be appended: the terminator is not found
before its end. -/
structure Message where
  text : List α
  terminable : NoDouble sep (text ++ [sep])

/-- The part of a stream after its last terminator. -/
structure Remainder where
  kept : List α
  clean : NoDouble sep kept

namespace Remainder

variable {sep}

@[ext] theorem ext {r r' : Remainder sep} (h : r.kept = r'.kept) : r = r' := by
  cases r; cases r'; cases h; rfl

/-- Nothing received since the last terminator. -/
def empty : Remainder sep := ⟨[], noDouble_nil sep⟩

@[simp] theorem empty_kept : (empty : Remainder sep).kept = [] := rfl

/-- The remainder ends with a separator: one more closes a message. -/
def armed [DecidableEq α] (r : Remainder sep) : Bool :=
  decide (r.kept.getLast? = some sep)

@[simp] theorem armed_empty [DecidableEq α] :
    (empty : Remainder sep).armed = false := rfl

end Remainder

namespace Message

variable {sep}

@[ext] theorem ext {m m' : Message sep} (h : m.text = m'.text) : m = m' := by
  cases m; cases m'; cases h; rfl

/-- An armed remainder is its message followed by the first separator of the
terminator. -/
theorem dropLast_append_of_armed [DecidableEq α] {r : Remainder sep}
    (h : r.armed = true) : r.kept.dropLast ++ [sep] = r.kept := by
  have hLast : r.kept.getLast? = some sep := by simpa [Remainder.armed] using h
  exact List.dropLast_append_getLast? sep (by simp [hLast])

/-- The message closed by the separator that follows an armed remainder. -/
def ofArmed [DecidableEq α] (r : Remainder sep) (h : r.armed = true) :
    Message sep where
  text := r.kept.dropLast
  terminable := by
    rw [dropLast_append_of_armed h]
    exact r.clean

end Message

/-- A message with no inner double separator and no final separator can be
terminated, and conversely. -/
theorem terminable_iff (text : List α) :
    NoDouble sep (text ++ [sep]) ↔
      NoDouble sep text ∧ text.getLast? ≠ some sep := by
  rw [noDouble_concat_iff]
  simp

/-- Texts that can be terminated are the texts of a list of messages. -/
theorem exists_messages (texts : List (List α))
    (h : ∀ text ∈ texts, NoDouble sep (text ++ [sep])) :
    ∃ msgs : List (Message sep), msgs.map Message.text = texts :=
  ⟨texts.pmap Message.mk h, by simp [List.map_pmap]⟩

/-- Positions of the final separators when the texts, each with its
terminator, are laid out from position `i`. -/
def closingPositions : Nat → List (List α) → List Nat
  | _, [] => []
  | i, text :: texts =>
      (i + text.length + 1) :: closingPositions (i + text.length + 2) texts

/-! ## Greedy framing of a stream -/

section Greedy

variable [DecidableEq α]

/-- One element of the stream: a separator after a kept separator closes the
message, anything else is kept. -/
def frameStep (r : Remainder sep) (x : α) :
    Remainder sep × List (Message sep) :=
  if h : x = sep ∧ r.armed = true then
    (Remainder.empty, [Message.ofArmed r h.2])
  else
    (⟨r.kept ++ [x], (noDouble_concat_iff sep r.kept x).mpr
      ⟨r.clean, by simpa [Remainder.armed] using h⟩⟩, [])

theorem frameStep_closes {r : Remainder sep} {x : α}
    (h : x = sep ∧ r.armed = true) :
    frameStep sep r x = (Remainder.empty, [Message.ofArmed r h.2]) := dif_pos h

/-- An element that closes no message is kept, and the new remainder is armed
exactly when that element is a separator. -/
theorem frameStep_keeps {r : Remainder sep} {x : α}
    (h : ¬ (x = sep ∧ r.armed = true)) :
    ∃ r' : Remainder sep, frameStep sep r x = (r', []) ∧
      r'.kept = r.kept ++ [x] ∧ r'.armed = decide (x = sep) := by
  refine ⟨⟨r.kept ++ [x], _⟩, dif_neg h, rfl, ?_⟩
  simp [Remainder.armed]

/-- The messages of a stream and what follows the last of them. -/
def decode (stream : List α) : Remainder sep × List (Message sep) :=
  run (frameStep sep) Remainder.empty stream

/-- The stream of a list of messages and a remainder. -/
def encode (msgs : List (Message sep)) (r : Remainder sep) : List α :=
  msgs.flatMap (fun m => m.text ++ [sep, sep]) ++ r.kept

/-- Positions of the elements that complete a terminator, scanning greedily
from position `i`; `armed` says that the element before was a separator not
yet used by a terminator. -/
def terminators : Bool → Nat → List α → List Nat
  | _, _, [] => []
  | armed, i, x :: xs =>
      if x = sep then
        if armed then i :: terminators false (i + 1) xs
        else terminators true (i + 1) xs
      else terminators false (i + 1) xs

/-- The first element of a text that stays free of double separators closes
nothing. -/
theorem keeps_of_clean {r : Remainder sep} {x : α} {xs : List α}
    (hClean : NoDouble sep (r.kept ++ x :: xs)) :
    ¬ (x = sep ∧ r.armed = true) := by
  have hHead : NoDouble sep (r.kept ++ [x]) := by
    intro hDouble
    apply hClean
    rw [show r.kept ++ x :: xs = (r.kept ++ [x]) ++ xs by simp]
    exact List.infix_append_of_infix_left hDouble
  have hNot := ((noDouble_concat_iff sep r.kept x).mp hHead).2
  simpa [Remainder.armed] using hNot

/-- A text that stays free of double separators is only kept. -/
theorem run_frameStep_clean (r : Remainder sep) (text : List α)
    (hClean : NoDouble sep (r.kept ++ text)) :
    run (frameStep sep) r text = (⟨r.kept ++ text, hClean⟩, []) := by
  induction text generalizing r with
  | nil =>
      rw [run_nil]
      congr 1
      exact Remainder.ext (List.append_nil _).symm
  | cons x xs ih =>
      obtain ⟨r', hStep, hKept, -⟩ := frameStep_keeps sep (keeps_of_clean sep hClean)
      have hSplit : r'.kept ++ xs = r.kept ++ x :: xs := by simp [hKept]
      rw [run_cons, hStep, ih r' (by rwa [hSplit])]
      simp [hSplit]

/-- A message and its terminator, from the empty remainder, give exactly that
message. -/
theorem run_frameStep_message (m : Message sep) :
    run (frameStep sep) Remainder.empty (m.text ++ [sep, sep]) =
      (Remainder.empty, [m]) := by
  have hSplit : m.text ++ [sep, sep] = (m.text ++ [sep]) ++ [sep] := by simp
  have hText := run_frameStep_clean sep Remainder.empty (m.text ++ [sep])
    (by simpa using m.terminable)
  rw [hSplit, run_append, hText, run_singleton, frameStep,
    dif_pos ⟨rfl, by simp [Remainder.armed]⟩]
  simp [Message.ofArmed]

theorem decode_encode (msgs : List (Message sep)) (r : Remainder sep) :
    decode sep (encode sep msgs r) = (r, msgs) := by
  induction msgs with
  | nil =>
      have hRest := run_frameStep_clean sep Remainder.empty r.kept
        (by simpa using r.clean)
      simpa [decode, encode] using hRest
  | cons m msgs ih =>
      have hSplit : encode sep (m :: msgs) r =
          (m.text ++ [sep, sep]) ++ encode sep msgs r := by
        simp [encode]
      unfold decode at ih ⊢
      rw [hSplit, run_append, run_frameStep_message, ih]
      simp

/-- One framing step only moves elements between the stream and the framing:
the encoding of what was kept and closed grows by the element. -/
theorem encode_frameStep (r : Remainder sep) (x : α) :
    encode sep (frameStep sep r x).2 (frameStep sep r x).1 = r.kept ++ [x] := by
  by_cases h : x = sep ∧ r.armed = true
  · have hKept := Message.dropLast_append_of_armed h.2
    rw [frameStep_closes sep h]
    calc
      encode sep [Message.ofArmed r h.2] Remainder.empty
          = (r.kept.dropLast ++ [sep]) ++ [sep] := by
        simp [encode, Message.ofArmed]
      _ = r.kept ++ [x] := by rw [hKept, h.1]
  · obtain ⟨r', hStep, hKept, -⟩ := frameStep_keeps sep h
    simp [hStep, encode, hKept]

theorem encode_run_frameStep (r : Remainder sep) (stream : List α) :
    encode sep (run (frameStep sep) r stream).2 (run (frameStep sep) r stream).1 =
      r.kept ++ stream := by
  induction stream generalizing r with
  | nil => simp [encode]
  | cons x xs ih =>
      have hStep := encode_frameStep sep r x
      have hRest := ih (frameStep sep r x).1
      rw [run_cons]
      simp only [encode, List.flatMap_append, List.append_assoc] at hStep hRest ⊢
      rw [hRest, ← List.append_assoc, hStep]
      simp

/-- Decoding loses nothing: the stream is its messages, each with its
terminator, followed by the remainder. -/
theorem encode_decode (stream : List α) :
    encode sep (decode sep stream).2 (decode sep stream).1 = stream := by
  have hRun := encode_run_frameStep sep Remainder.empty stream
  rwa [Remainder.empty_kept, List.nil_append] at hRun

/-- A separator after an armed remainder completes a terminator at its own
position. -/
theorem terminators_closes {r : Remainder sep} {x : α}
    (h : x = sep ∧ r.armed = true) (i : Nat) (xs : List α) :
    terminators sep r.armed i (x :: xs) =
      i :: terminators sep (frameStep sep r x).1.armed (i + 1) xs := by
  rw [frameStep_closes sep h]
  simp [terminators, h.1, h.2]

/-- Any other element completes none. -/
theorem terminators_keeps {r : Remainder sep} {x : α}
    (h : ¬ (x = sep ∧ r.armed = true)) (i : Nat) (xs : List α) :
    terminators sep r.armed i (x :: xs) =
      terminators sep (frameStep sep r x).1.armed (i + 1) xs := by
  obtain ⟨r', hStep, -, hArmed⟩ := frameStep_keeps sep h
  rw [hStep, hArmed]
  by_cases hx : x = sep
  · have hUnarmed : r.armed = false := by simpa [hx] using h
    simp [terminators, hx, hUnarmed]
  · simp [terminators, hx]

/-- Each position of `terminators` closes one message. -/
theorem length_terminators (r : Remainder sep) (i : Nat) (stream : List α) :
    (terminators sep r.armed i stream).length =
      (run (frameStep sep) r stream).2.length := by
  induction stream generalizing r i with
  | nil => rfl
  | cons x xs ih =>
      by_cases h : x = sep ∧ r.armed = true
      · rw [terminators_closes sep h, List.length_cons, ih, run_cons,
          frameStep_closes sep h]
        simp [Nat.add_comm]
      · obtain ⟨r', hStep, -⟩ := frameStep_keeps sep h
        rw [terminators_keeps sep h, ih, run_cons, hStep]
        simp

/-- No terminator ends inside a text that stays free of double separators. -/
theorem terminators_clean (r : Remainder sep) (i : Nat) (text rest : List α)
    (hClean : NoDouble sep (r.kept ++ text)) :
    terminators sep r.armed i (text ++ rest) =
      terminators sep (⟨r.kept ++ text, hClean⟩ : Remainder sep).armed
        (i + text.length) rest := by
  induction text generalizing r i with
  | nil => simp [Remainder.armed]
  | cons x xs ih =>
      have hKeeps := keeps_of_clean sep hClean
      obtain ⟨r', hStep, hKept, -⟩ := frameStep_keeps sep hKeeps
      have hSplit : r'.kept ++ xs = r.kept ++ x :: xs := by simp [hKept]
      rw [List.cons_append, terminators_keeps sep hKeeps, hStep,
        ih r' (i + 1) (by rwa [hSplit])]
      simp [Remainder.armed, hSplit, Nat.add_comm, Nat.add_left_comm]

/-- The greedy scan of an encoding finds the terminators that were put there,
and none in the remainder. -/
theorem terminators_encode (i : Nat) (msgs : List (Message sep))
    (r : Remainder sep) :
    terminators sep false i (encode sep msgs r) =
      closingPositions i (msgs.map Message.text) := by
  induction msgs generalizing i with
  | nil =>
      have hRest := terminators_clean sep Remainder.empty i r.kept []
        (by simpa using r.clean)
      simpa [encode, closingPositions, terminators] using hRest
  | cons m msgs ih =>
      have hSplit : encode sep (m :: msgs) r =
          (m.text ++ [sep]) ++ (sep :: encode sep msgs r) := by
        simp [encode]
      have hText := terminators_clean sep Remainder.empty i (m.text ++ [sep])
        (sep :: encode sep msgs r) (by simpa using m.terminable)
      rw [Remainder.armed_empty] at hText
      have hEnd : i + (m.text ++ [sep]).length = i + m.text.length + 1 := by
        simp [Nat.add_assoc]
      rw [hSplit, hText, hEnd, List.map_cons, closingPositions, ← ih]
      simp [terminators, Remainder.armed]

/-- Where the part after the last of the positions begins, if the scan started
at `i`. -/
def afterLast (i : Nat) (positions : List Nat) : Nat :=
  positions.getLast?.elim i (· + 1)

theorem afterLast_cons (i p : Nat) (positions : List Nat) :
    afterLast i (p :: positions) = afterLast (p + 1) positions := by
  unfold afterLast
  rw [List.getLast?_cons]
  cases positions.getLast? with
  | none => rfl
  | some q => rfl

omit [DecidableEq α] in
/-- The last terminator ends where the last message with its terminator
ends. -/
theorem afterLast_closingPositions (i : Nat) (msgs : List (Message sep)) :
    afterLast i (closingPositions i (msgs.map Message.text)) =
      i + (encode sep msgs Remainder.empty).length := by
  induction msgs generalizing i with
  | nil => rfl
  | cons m msgs ih =>
      rw [List.map_cons, closingPositions, afterLast_cons, ih]
      simp only [encode, List.flatMap_cons, List.length_append,
        List.length_cons, List.length_nil]
      omega

/-- The remainder of a stream is what follows its last terminator. -/
theorem decode_kept (stream : List α) :
    (decode sep stream).1.kept =
      stream.drop (afterLast 0 (terminators sep false 0 stream)) := by
  have hStream := encode_decode sep stream
  generalize (decode sep stream).1 = r at hStream ⊢
  generalize (decode sep stream).2 = msgs at hStream
  have hLength := afterLast_closingPositions sep 0 msgs
  subst hStream
  rw [terminators_encode, hLength, Nat.zero_add]
  simp [encode]

/-- How many separators a stream ends with. -/
def trailing (stream : List α) : Nat :=
  (stream.reverse.takeWhile fun x => x == sep).length

theorem trailing_concat (stream : List α) (x : α) :
    trailing sep (stream ++ [x]) = if x = sep then trailing sep stream + 1 else 0 := by
  unfold trailing
  rw [List.reverse_append, List.reverse_singleton, List.singleton_append,
    List.takeWhile_cons]
  by_cases hx : x = sep <;> simp [hx]

/-- The greedy scan uses up the final separators in pairs. -/
theorem decode_armed (stream : List α) :
    (decode sep stream).1.armed = decide (trailing sep stream % 2 = 1) := by
  induction stream using List.reverseRecOn with
  | nil => rfl
  | append_singleton stream x ih =>
      have hStep : (decode sep (stream ++ [x])).1 =
          (frameStep sep (decode sep stream).1 x).1 := by
        simp [decode, run_append]
      rw [hStep, trailing_concat]
      by_cases h : x = sep ∧ (decode sep stream).1.armed = true
      · have hOdd : trailing sep stream % 2 = 1 := by simpa [h.2] using ih.symm
        have hEven : ¬ (trailing sep stream + 1) % 2 = 1 := by omega
        rw [frameStep_closes sep h, if_pos h.1]
        simp [hEven]
      · obtain ⟨r', hFrame, -, hArmed⟩ := frameStep_keeps sep h
        rw [hFrame, hArmed]
        by_cases hx : x = sep
        · have hEven : ¬ trailing sep stream % 2 = 1 := fun hOdd =>
            h ⟨hx, by rw [ih, hOdd]; rfl⟩
          have hOdd : (trailing sep stream + 1) % 2 = 1 := by omega
          simp [hx, hOdd]
        · simp [hx]

end Greedy

/-! ## Receivers that see the stream in chunks -/

/-- What a receiver keeps between chunks: the text since the last terminator
and a flag saying that a separator is waiting for its partner.  Unlike a
`Remainder`, nothing ties the two together. -/
structure Pending (α : Type u) where
  kept : List α
  armed : Bool

/-- The coherent receiver state of a remainder. -/
def Remainder.toPending [DecidableEq α] {sep : α} (r : Remainder sep) :
    Pending α := ⟨r.kept, r.armed⟩

/-- Starting positions of the chunks, counted from `i`. -/
def chunkStarts : Nat → List (List α) → List Nat
  | _, [] => []
  | i, c :: cs => i :: chunkStarts (i + c.length) cs

theorem le_of_mem_chunkStarts {i p : Nat} {cs : List (List α)}
    (h : p ∈ chunkStarts i cs) : i ≤ p := by
  induction cs generalizing i with
  | nil => cases h
  | cons c cs ih =>
      rcases List.mem_cons.mp h with rfl | hTail
      · exact Nat.le_refl _
      · exact (Nat.le_add_right i c.length).trans (ih hTail)

/-- The text handed out for a message whose terminator ends at `p`. -/
def delivered (cut : Nat → Bool) (m : Message sep) (p : Nat) : List α :=
  if cut p then m.text ++ [sep] else m.text

section Chunked

variable [DecidableEq α]

/-- One element together with its position.  The separator kept for the
terminator is dropped from the message only when `cut` does not hold at the
position of the second separator. -/
def cutStep (cut : Nat → Bool) (s : Pending α) (x : α × Nat) :
    Pending α × List (List α) :=
  if x.1 = sep then
    if s.armed then
      (⟨[], false⟩, [if cut x.2 then s.kept else s.kept.dropLast])
    else (⟨s.kept ++ [x.1], true⟩, [])
  else (⟨s.kept ++ [x.1], false⟩, [])

theorem cutStep_closes (cut : Nat → Bool) {s : Pending α} {x : α} (i : Nat)
    (hx : x = sep) (hArmed : s.armed = true) :
    cutStep sep cut s (x, i) =
      (⟨[], false⟩, [if cut i then s.kept else s.kept.dropLast]) := by
  simp [cutStep, hx, hArmed]

theorem cutStep_opens (cut : Nat → Bool) {s : Pending α} {x : α} (i : Nat)
    (hx : x = sep) (hUnarmed : s.armed = false) :
    cutStep sep cut s (x, i) = (⟨s.kept ++ [x], true⟩, []) := by
  simp [cutStep, hx, hUnarmed]

/-- Any other element is kept, whether or not a separator was waiting. -/
theorem cutStep_other (cut : Nat → Bool) (s : Pending α) {x : α} (i : Nat)
    (hx : x ≠ sep) :
    cutStep sep cut s (x, i) = (⟨s.kept ++ [x], false⟩, []) := by
  simp [cutStep, hx]

/-- A whole chunk: only its first element is preceded by a boundary. -/
def feedChunk (s : Pending α) (c : List α) : Pending α × List (List α) :=
  run (cutStep sep fun p => p == 0) s c.zipIdx

/-- From a coherent state the receiver keeps what the framing keeps, and hands
out the messages of the framing up to a final separator. -/
theorem run_cutStep (cut : Nat → Bool) (r : Remainder sep) (i : Nat)
    (xs : List α) :
    run (cutStep sep cut) r.toPending (xs.zipIdx i) =
      ((run (frameStep sep) r xs).1.toPending,
        List.zipWith (delivered sep cut) (run (frameStep sep) r xs).2
          (terminators sep r.armed i xs)) := by
  induction xs generalizing r i with
  | nil => simp
  | cons x xs ih =>
      rw [List.zipIdx_cons, run_cons, run_cons]
      by_cases h : x = sep ∧ r.armed = true
      · have hKept := Message.dropLast_append_of_armed h.2
        have hStep : cutStep sep cut r.toPending (x, i) =
            ((Remainder.empty : Remainder sep).toPending,
              [delivered sep cut (Message.ofArmed r h.2) i]) := by
          rw [cutStep_closes sep cut i h.1 h.2]
          simp [Remainder.toPending, delivered, Message.ofArmed, hKept]
        rw [hStep, ih, terminators_closes sep h, frameStep_closes sep h]
        simp
      · obtain ⟨r', hFrame, hKept, hArmed⟩ := frameStep_keeps sep h
        have hStep : cutStep sep cut r.toPending (x, i) = (r'.toPending, []) := by
          by_cases hx : x = sep
          · have hUnarmed : r.armed = false := by simpa [hx] using h
            rw [cutStep_opens sep cut i hx hUnarmed]
            simp [Remainder.toPending, hKept, hArmed, hx]
          · rw [cutStep_other sep cut _ i hx]
            simp [Remainder.toPending, hKept, hArmed, hx]
        rw [hStep, ih, terminators_keeps sep h, hFrame]
        simp

/-- Only the boundaries inside the stream matter, and only relative to it. -/
theorem run_cutStep_congr {cut cut' : Nat → Bool} {i i' : Nat} (s : Pending α)
    (xs : List α) (h : ∀ j < xs.length, cut (i + j) = cut' (i' + j)) :
    run (cutStep sep cut) s (xs.zipIdx i) =
      run (cutStep sep cut') s (xs.zipIdx i') := by
  induction xs generalizing s i i' with
  | nil => simp
  | cons x xs ih =>
      have hHead : cut i = cut' i' := h 0 (by simp)
      have hStep : cutStep sep cut s (x, i) = cutStep sep cut' s (x, i') := by
        simp [cutStep, hHead]
      have hTail : ∀ j < xs.length, cut (i + 1 + j) = cut' (i' + 1 + j) := by
        intro j hj
        have := h (j + 1) (by simpa using hj)
        simpa [Nat.add_assoc, Nat.add_comm 1 j] using this
      rw [List.zipIdx_cons, List.zipIdx_cons, run_cons, run_cons, hStep,
        ih _ hTail]

/-- Feeding non-empty chunks one after another is one pass over the stream
that knows where the chunks start. -/
theorem run_feedChunk (s : Pending α) (i : Nat) (cs : List (List α))
    (hNonempty : ∀ c ∈ cs, c ≠ []) :
    run (feedChunk sep) s cs =
      run (cutStep sep fun p => decide (p ∈ chunkStarts i cs)) s
        (cs.flatten.zipIdx i) := by
  induction cs generalizing s i with
  | nil => simp
  | cons c cs ih =>
      have hLength : 0 < c.length :=
        List.length_pos_iff.mpr (hNonempty c List.mem_cons_self)
      -- The only boundary inside the first chunk is its own start.
      have hInner : ∀ j < c.length,
          decide (i + j ∈ chunkStarts i (c :: cs)) = (0 + j == 0) := by
        intro j hj
        have hLater : ¬ i + j ∈ chunkStarts (i + c.length) cs := by
          intro hMem
          have := le_of_mem_chunkStarts hMem
          omega
        by_cases hZero : j = 0
        · simp [chunkStarts, hZero]
        · simp [chunkStarts, hZero, hLater]
      have hChunk : feedChunk sep s c =
          run (cutStep sep fun p => decide (p ∈ chunkStarts i (c :: cs))) s
            (c.zipIdx i) :=
        (run_cutStep_congr sep s c hInner).symm
      -- For what follows, the start of the first chunk is out of sight.
      have hRest (s' : Pending α) :
          run (cutStep sep fun p => decide (p ∈ chunkStarts (i + c.length) cs))
              s' (cs.flatten.zipIdx (i + c.length)) =
            run (cutStep sep fun p => decide (p ∈ chunkStarts i (c :: cs)))
              s' (cs.flatten.zipIdx (i + c.length)) := by
        refine run_cutStep_congr sep s' cs.flatten fun j _ => ?_
        have : i + c.length + j ≠ i := by omega
        simp [chunkStarts, this]
      rw [run_cons, ih _ (i + c.length)
        (fun d hd => hNonempty d (List.mem_cons_of_mem c hd)), hChunk, hRest,
        List.flatten_cons, List.zipIdx_append, run_append]

/-- What a receiver keeps and hands out after any chunks, in terms of the
framing of the stream and of the terminators which straddle a boundary. -/
theorem run_feedChunk_eq (r : Remainder sep) (cs : List (List α))
    (hNonempty : ∀ c ∈ cs, c ≠ []) :
    run (feedChunk sep) r.toPending cs =
      ((run (frameStep sep) r cs.flatten).1.toPending,
        List.zipWith (delivered sep fun p => decide (p ∈ chunkStarts 0 cs))
          (run (frameStep sep) r cs.flatten).2
          (terminators sep r.armed 0 cs.flatten)) := by
  rw [run_feedChunk sep r.toPending 0 cs hNonempty, run_cutStep]

/-- A text is handed out for each terminator, whatever is kept. -/
theorem length_run_cutStep_snd (cut : Nat → Bool) (s : Pending α) (i : Nat)
    (xs : List α) :
    (run (cutStep sep cut) s (xs.zipIdx i)).2.length =
      (terminators sep s.armed i xs).length := by
  induction xs generalizing s i with
  | nil => rfl
  | cons x xs ih =>
      rw [List.zipIdx_cons, run_cons, List.length_append, ih]
      by_cases hx : x = sep
      · cases hFlag : s.armed with
        | true =>
            rw [cutStep_closes sep cut i hx hFlag]
            simp [terminators, hx, Nat.add_comm]
        | false =>
            rw [cutStep_opens sep cut i hx hFlag]
            simp [terminators, hx]
      · rw [cutStep_other sep cut s i hx]
        simp [terminators, hx]

/-- Inside a chunk every element is accounted for: it is kept, handed out, or
one of the two separators that follow a text handed out. -/
theorem length_run_cutStep (s : Pending α) (i : Nat) (xs : List α)
    (hArmed : s.armed = true → s.kept ≠ []) :
    (run (cutStep sep fun p => p == 0) s (xs.zipIdx (i + 1))).2.flatten.length +
        2 * (run (cutStep sep fun p => p == 0) s (xs.zipIdx (i + 1))).2.length +
        (run (cutStep sep fun p => p == 0) s (xs.zipIdx (i + 1))).1.kept.length =
      s.kept.length + xs.length := by
  induction xs generalizing s i with
  | nil => simp
  | cons x xs ih =>
      rw [List.zipIdx_cons, run_cons]
      by_cases hx : x = sep
      · cases hFlag : s.armed with
        | true =>
            have hPos := List.length_pos_iff.mpr (hArmed hFlag)
            have hRest := ih ⟨[], false⟩ (i + 1) (by simp)
            have hInside : (i + 1 == 0) = false := rfl
            rw [cutStep_closes sep _ (i + 1) hx hFlag, hInside, if_neg (by simp)]
            simp only [List.singleton_append, List.flatten_cons,
              List.length_append, List.length_dropLast, List.length_cons,
              List.length_nil] at hRest ⊢
            omega
        | false =>
            have hRest := ih ⟨s.kept ++ [x], true⟩ (i + 1) (by simp)
            rw [cutStep_opens sep _ (i + 1) hx hFlag]
            simp only [List.nil_append, List.length_append, List.length_cons,
              List.length_nil] at hRest ⊢
            omega
      · have hRest := ih ⟨s.kept ++ [x], false⟩ (i + 1) (by simp)
        rw [cutStep_other sep _ s (i + 1) hx]
        simp only [List.nil_append, List.length_append, List.length_cons,
          List.length_nil] at hRest ⊢
        omega

/-- A chunk that starts with another element does not look at the flag. -/
theorem feedChunk_flag_congr (kept : List α) {armed armed' : Bool} {c : List α}
    (hNonempty : c ≠ []) (hFlags : c.head? = some sep → armed = armed') :
    feedChunk sep ⟨kept, armed⟩ c = feedChunk sep ⟨kept, armed'⟩ c := by
  obtain ⟨x, xs, rfl⟩ := List.exists_cons_of_ne_nil hNonempty
  by_cases hx : x = sep
  · rw [hFlags (by rw [hx, List.head?_cons])]
  · unfold feedChunk
    rw [List.zipIdx_cons, run_cons, run_cons, cutStep_other sep _ _ 0 hx,
      cutStep_other sep _ _ 0 hx]

/-- The flag a chunk finds matters if and only if the chunk starts with a
separator: if it does, the two flags lead to different texts kept or handed
out. -/
theorem feedChunk_flag_iff (kept : List α) (armed armed' : Bool) {c : List α}
    (hNonempty : c ≠ []) :
    ((feedChunk sep ⟨kept, armed⟩ c).2 = (feedChunk sep ⟨kept, armed'⟩ c).2 ∧
        (feedChunk sep ⟨kept, armed⟩ c).1.kept =
          (feedChunk sep ⟨kept, armed'⟩ c).1.kept) ↔
      (c.head? = some sep → armed = armed') := by
  constructor
  · rintro ⟨hTexts, hKept⟩ hHead
    obtain ⟨x, xs, rfl⟩ := List.exists_cons_of_ne_nil hNonempty
    have hx : x = sep := by simpa using hHead
    -- The chunk closes a text on one side and goes on with it on the other.
    have hSum (armed : Bool) :
        (feedChunk sep ⟨kept, armed⟩ (x :: xs)).2.flatten.length +
            2 * (feedChunk sep ⟨kept, armed⟩ (x :: xs)).2.length +
            (feedChunk sep ⟨kept, armed⟩ (x :: xs)).1.kept.length =
          kept.length + xs.length + if armed then 2 else 1 := by
      unfold feedChunk
      rw [List.zipIdx_cons, run_cons]
      cases armed with
      | true =>
          have hRest := length_run_cutStep sep ⟨[], false⟩ 0 xs (by simp)
          rw [cutStep_closes sep _ 0 hx rfl]
          simp only [beq_self_eq_true, if_true, List.singleton_append,
            List.flatten_cons, List.length_append, List.length_cons,
            List.length_nil, Nat.zero_add] at hRest ⊢
          omega
      | false =>
          have hRest := length_run_cutStep sep ⟨kept ++ [x], true⟩ 0 xs (by simp)
          rw [cutStep_opens sep _ 0 hx rfl]
          simp only [List.nil_append, List.length_append, List.length_singleton,
            Nat.zero_add, Bool.false_eq_true, if_false] at hRest ⊢
          omega
    have hSame := hSum armed
    rw [hTexts, hKept, hSum armed'] at hSame
    cases armed <;> cases armed' <;> simp_all
  · intro hFlags
    rw [feedChunk_flag_congr sep kept hNonempty hFlags]
    exact ⟨rfl, rfl⟩

end Chunked

/-- Two receivers of the same messages hand out the same texts exactly when
they agree on which terminators straddle a boundary. -/
theorem delivered_eq_iff (cut cut' : Nat → Bool) (msgs : List (Message sep))
    (ends : List Nat) (hLength : ends.length = msgs.length) :
    List.zipWith (delivered sep cut) msgs ends =
        List.zipWith (delivered sep cut') msgs ends ↔
      ∀ p ∈ ends, cut p = cut' p := by
  induction msgs generalizing ends with
  | nil =>
      have : ends = [] := List.length_eq_zero_iff.mp hLength
      simp [this]
  | cons m msgs ih =>
      cases ends with
      | nil => simp at hLength
      | cons p ends =>
          have hHead : delivered sep cut m p = delivered sep cut' m p ↔
              cut p = cut' p := by
            cases hc : cut p <;> cases hc' : cut' p <;>
              simp [delivered, hc, hc']
          rw [List.zipWith_cons_cons, List.zipWith_cons_cons, List.cons.injEq]
          simp [hHead, ih ends (by simpa using hLength)]

/-- An observation that a final separator does not change sees only the
messages. -/
theorem map_delivered {γ : Type*} (cut : Nat → Bool) (msgs : List (Message sep))
    (ends : List Nat) (hLength : ends.length = msgs.length)
    (observe : List α → γ) (expected : Message sep → γ)
    (h : ∀ m, ∀ p ∈ ends, observe (delivered sep cut m p) = expected m) :
    (List.zipWith (delivered sep cut) msgs ends).map observe =
      msgs.map expected := by
  induction msgs generalizing ends with
  | nil => simp
  | cons m msgs ih =>
      cases ends with
      | nil => simp at hLength
      | cons p ends =>
          have hHead := h m p List.mem_cons_self
          have hTail := ih ends (by simpa using hLength)
            fun m' q hq => h m' q (List.mem_cons_of_mem p hq)
          rw [List.zipWith_cons_cons, List.map_cons, hHead, hTail, List.map_cons]

/-- Where no terminator straddles a boundary, the messages themselves are
handed out. -/
theorem delivered_of_not_cut (cut : Nat → Bool) (msgs : List (Message sep))
    (ends : List Nat) (hLength : ends.length = msgs.length)
    (hCut : ∀ p ∈ ends, cut p = false) :
    List.zipWith (delivered sep cut) msgs ends = msgs.map Message.text := by
  have hTexts := map_delivered sep cut msgs ends hLength id Message.text
    fun m p hp => by simp [delivered, hCut p hp]
  rwa [List.map_id] at hTexts

end DoubledSeparator
