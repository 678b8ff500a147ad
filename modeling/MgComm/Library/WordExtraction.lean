import Mathlib.Data.List.Basic
import Mathlib.Data.List.TakeWhile

/-!
# Word extraction from a character stream

Formatted extraction of words, with the state bits of an input stream:

* extraction from a stream that is not good fails: `failbit` is set and the
  target keeps its value;
* otherwise leading separators are skipped, and if that reaches the end of the
  text, `eofbit` and `failbit` are set and the target keeps its value;
* otherwise the target becomes the next word, and `eofbit` is set when the word
  ends with the text.

`words` is what extraction is about: the maximal runs of non-separators.  The
alphabet and the separators are parameters.
-/

namespace WordExtraction

universe u

variable {α : Type u} (isSpace : α → Bool)

/-! ## Words of a text -/

/-- The words of a text: its maximal non-empty runs without separators. -/
def words (text : List α) : List (List α) :=
  (text.splitOnP isSpace).filter fun w => !w.isEmpty

@[simp] theorem words_nil : words isSpace ([] : List α) = [] := by
  simp [words]

/-- A separator belongs to no word. -/
theorem words_append_cons {x : α} (hx : isSpace x = true) (xs ys : List α) :
    words isSpace (xs ++ x :: ys) = words isSpace xs ++ words isSpace ys := by
  simp [words, List.splitOnP_append_cons xs ys hx]

/-- A final separator does not change the words. -/
theorem words_concat {x : α} (hx : isSpace x = true) (xs : List α) :
    words isSpace (xs ++ [x]) = words isSpace xs := by
  simp [words_append_cons isSpace hx]

theorem words_dropWhile (text : List α) :
    words isSpace (text.dropWhile isSpace) = words isSpace text := by
  induction text with
  | nil => rfl
  | cons x xs ih =>
      by_cases hx : isSpace x = true
      · have hSkip := words_append_cons isSpace hx [] xs
        rw [List.nil_append, words_nil, List.nil_append] at hSkip
        rw [List.dropWhile_cons_of_pos hx, ih, hSkip]
      · rw [List.dropWhile_cons_of_neg hx]

/-- A non-empty run of non-separators up to a separator or the end of the text
is the first word. -/
theorem words_word_append {word rest : List α} (hNonempty : word ≠ [])
    (hWord : ∀ x ∈ word, isSpace x = false)
    (hRest : ∀ x ∈ rest.head?, isSpace x = true) :
    words isSpace (word ++ rest) = word :: words isSpace rest := by
  have hAlone : words isSpace word = [word] := by
    simp [words, List.splitOnP_eq_singleton hWord, hNonempty]
  cases rest with
  | nil => simp [hAlone]
  | cons x rest =>
      have hx : isSpace x = true := hRest x (by simp)
      have hTail := words_append_cons isSpace hx [] rest
      rw [List.nil_append, words_nil, List.nil_append] at hTail
      rw [words_append_cons isSpace hx, hAlone, hTail]
      rfl

/-- The first word starts after the leading separators and ends before the
next one. -/
theorem words_of_dropWhile_cons {text : List α} {x : α} {xs : List α}
    (hSkip : text.dropWhile isSpace = x :: xs) :
    words isSpace text =
      ((x :: xs).takeWhile fun y => !isSpace y) ::
        words isSpace ((x :: xs).dropWhile fun y => !isSpace y) := by
  have hx : isSpace x = false := by
    have hHead := List.head?_dropWhile_not isSpace text
    simpa [hSkip] using hHead
  have hWord : ∀ y ∈ (x :: xs).takeWhile fun y => !isSpace y,
      isSpace y = false := by
    intro y hy
    simpa using List.mem_takeWhile_imp hy
  have hRest : ∀ y ∈ ((x :: xs).dropWhile fun y => !isSpace y).head?,
      isSpace y = true := by
    intro y hy
    have hHead := List.head?_dropWhile_not (fun y => !isSpace y) (x :: xs)
    rw [Option.mem_def.mp hy] at hHead
    simpa using hHead
  calc
    words isSpace text = words isSpace (x :: xs) := by
      rw [← words_dropWhile, hSkip]
    _ = words isSpace (((x :: xs).takeWhile fun y => !isSpace y) ++
          (x :: xs).dropWhile fun y => !isSpace y) := by
      rw [List.takeWhile_append_dropWhile]
    _ = _ := words_word_append isSpace (by simp [hx]) hWord hRest

/-! ## Streams -/

/-- An input stream: what has not been read, and its state bits. -/
structure InStream (α : Type u) where
  unread : List α
  eofbit : Bool
  failbit : Bool

namespace InStream

/-- The stream with its content replaced and read from the start again; the
state bits stay. -/
def str (s : InStream α) (text : List α) : InStream α :=
  { s with unread := text }

/-- The stream with its state bits reset. -/
def clear (s : InStream α) : InStream α :=
  { s with eofbit := false, failbit := false }

/-- No state bit is set. -/
def good (s : InStream α) : Bool := !s.eofbit && !s.failbit

/-- A stream that has reached the end of its text has nothing left. -/
def Consistent (s : InStream α) : Prop := s.eofbit = true → s.unread = []

/-- How many more extractions can find the stream not failed. -/
def attempts (s : InStream α) : Nat :=
  if s.failbit then 0 else s.unread.length + 1

end InStream

/-- `stream >> target` for a string target.  Returns the stream and the value
of the target. -/
def extract (s : InStream α) (target : List α) : InStream α × List α :=
  if s.good then
    match s.unread.dropWhile isSpace with
    -- The end of the text is reached before a word is: the sentry fails.
    | [] => ({ unread := [], eofbit := true, failbit := true }, target)
    | x :: xs =>
        let word := (x :: xs).takeWhile fun y => !isSpace y
        let rest := (x :: xs).dropWhile fun y => !isSpace y
        ({ unread := rest, eofbit := rest.isEmpty, failbit := false }, word)
  else ({ s with failbit := true }, target)

/-- Extraction takes the next word off a stream, and fails without touching
the target when there is none. -/
theorem extract_spec {s : InStream α} (hConsistent : s.Consistent)
    (hFail : s.failbit = false) (target : List α) :
    (words isSpace s.unread = [] ∧
        (extract isSpace s target).1.failbit = true ∧
        (extract isSpace s target).2 = target) ∨
      (∃ w ws, words isSpace s.unread = w :: ws ∧
        (extract isSpace s target).1.failbit = false ∧
        (extract isSpace s target).1.Consistent ∧
        words isSpace (extract isSpace s target).1.unread = ws ∧
        (extract isSpace s target).2 = w) := by
  by_cases hEof : s.eofbit = true
  · -- The last word ended with the text: `eofbit` alone makes the sentry fail.
    have hGood : s.good = false := by simp [InStream.good, hEof]
    have hUnread := hConsistent hEof
    exact Or.inl (by simp [hUnread, extract, hGood])
  · have hGood : s.good = true := by simp [InStream.good, hEof, hFail]
    cases hSkip : s.unread.dropWhile isSpace with
    | nil =>
        have hWords : words isSpace s.unread = [] := by
          rw [← words_dropWhile, hSkip, words_nil]
        exact Or.inl (by simp [hWords, extract, hGood, hSkip])
    | cons x xs =>
        refine Or.inr ⟨_, _, words_of_dropWhile_cons isSpace hSkip, ?_⟩
        have hEnd : ∀ l : List α, l.isEmpty = true → l = [] := by simp
        simp only [extract, hGood, if_true, hSkip, InStream.Consistent, true_and]
        exact ⟨hEnd _, trivial⟩

/-- Every extraction from a stream that has not failed either fails it or
shortens what it has left. -/
theorem attempts_extract {s : InStream α} (hFail : s.failbit = false)
    (target : List α) :
    (extract isSpace s target).1.attempts < s.attempts := by
  by_cases hGood : s.good = true
  · cases hSkip : s.unread.dropWhile isSpace with
    | nil => simp [extract, hGood, hSkip, InStream.attempts, hFail]
    | cons x xs =>
        have hx : isSpace x = false := by
          have hHead := List.head?_dropWhile_not isSpace s.unread
          simpa [hSkip] using hHead
        have hLength : (xs.dropWhile fun y => !isSpace y).length <
            s.unread.length := by
          have hRest := List.length_dropWhile_le (fun y => !isSpace y) xs
          have hDrop := List.length_dropWhile_le isSpace s.unread
          rw [hSkip, List.length_cons] at hDrop
          omega
        simpa [extract, hGood, hSkip, InStream.attempts, hFail, hx] using hLength
  · simp [extract, hGood, InStream.attempts, hFail]

end WordExtraction
