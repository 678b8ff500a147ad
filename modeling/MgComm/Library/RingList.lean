import Mathlib.Data.List.Chain
import Mathlib.Data.List.Nodup
import Mathlib.Logic.Function.Basic

/-!
# Circular doubly linked lists

Nodes of a type `A` carry a forward and a backward link.  A ring starts at a
head node, goes through its member nodes and comes back to the head; the head
alone is the empty ring.  The two edits such lists are used with are linking a
node in before the head (`insertTail`) and unlinking a node (`unlink`).

* `IsRing m head l`: the nodes of the ring at `head` are `l`, in this order.
* `Family`: rings at several heads which have no node in common; each edit
  changes one ring of a family and leaves the others alone.
* `walk`: the loop that searches a ring.  It comes back to the head, so it ends.

Nothing here refers to a particular program.
-/

namespace RingList

universe u v

variable {A : Type u} [DecidableEq A]

/-- The links of all nodes. -/
structure Links (A : Type u) where
  next : A → A
  prev : A → A

/-- `a->next = b`. -/
def Links.setNext (m : Links A) (a b : A) : Links A :=
  { m with next := Function.update m.next a b }

/-- `a->prev = b`. -/
def Links.setPrev (m : Links A) (a b : A) : Links A :=
  { m with prev := Function.update m.prev a b }

@[simp] theorem setNext_prev (m : Links A) (a b : A) :
    (m.setNext a b).prev = m.prev := rfl

@[simp] theorem setPrev_next (m : Links A) (a b : A) :
    (m.setPrev a b).next = m.next := rfl

@[simp] theorem setNext_next_self (m : Links A) (a b : A) :
    (m.setNext a b).next a = b := by
  simp [Links.setNext]

@[simp] theorem setPrev_prev_self (m : Links A) (a b : A) :
    (m.setPrev a b).prev a = b := by
  simp [Links.setPrev]

theorem setNext_next_of_ne (m : Links A) {a b c : A} (h : c ≠ a) :
    (m.setNext a b).next c = m.next c := by
  simp [Links.setNext, h]

theorem setPrev_prev_of_ne (m : Links A) {a b c : A} (h : c ≠ a) :
    (m.setPrev a b).prev c = m.prev c := by
  simp [Links.setPrev, h]

/-! ## Chains of nodes -/

section Chains

/-- Neighbours in the list are linked both ways. -/
def Linked (m : Links A) (l : List A) : Prop :=
  l.IsChain fun a b => m.next a = b ∧ m.prev b = a

omit [DecidableEq A] in
theorem linked_append (m : Links A) (l₁ : List A) (x : A) (l₂ : List A) :
    Linked m (l₁ ++ x :: l₂) ↔ Linked m (l₁ ++ [x]) ∧ Linked m (x :: l₂) :=
  List.isChain_split

omit [DecidableEq A] in
theorem linked_cons_cons (m : Links A) (x y : A) (l : List A) :
    Linked m (x :: y :: l) ↔ (m.next x = y ∧ m.prev y = x) ∧ Linked m (y :: l) :=
  List.isChain_cons_cons

omit [DecidableEq A] in
/-- A chain reads the forward link of every node but the last, and the backward
link of every node but the first. -/
theorem Linked.transport {m m' : Links A} {l : List A} (h : Linked m l)
    (hNext : ∀ a ∈ l.dropLast, m'.next a = m.next a)
    (hPrev : ∀ b ∈ l.tail, m'.prev b = m.prev b) : Linked m' l := by
  induction l with
  | nil => exact List.isChain_nil
  | cons x l ih =>
      cases l with
      | nil => exact List.isChain_singleton x
      | cons y l =>
          rw [linked_cons_cons] at h ⊢
          obtain ⟨⟨hForward, hBackward⟩, hRest⟩ := h
          refine ⟨⟨?_, ?_⟩, ih hRest ?_ ?_⟩
          · rw [hNext x (by simp), hForward]
          · rw [hPrev y (by simp), hBackward]
          · intro a hMem
            exact hNext a (by simp [hMem])
          · intro b hMem
            exact hPrev b (by simp [List.mem_of_mem_tail hMem])

omit [DecidableEq A] in
/-- The same, from links that agree on all nodes. -/
theorem Linked.congr {m m' : Links A} {l : List A} (h : Linked m l)
    (hAgree : ∀ a ∈ l, m'.next a = m.next a ∧ m'.prev a = m.prev a) :
    Linked m' l :=
  h.transport (fun a hMem => (hAgree a (List.dropLast_subset l hMem)).1)
    (fun b hMem => (hAgree b (List.mem_of_mem_tail hMem)).2)

end Chains

/-! ## Rings -/

/-- The ring at `head` consists of the distinct nodes `l`. -/
structure IsRing (m : Links A) (head : A) (l : List A) : Prop where
  linked : Linked m (head :: (l ++ [head]))
  nodup : (head :: l).Nodup

/-- `head->next = head; head->prev = head;` -/
def initHead (m : Links A) (head : A) : Links A :=
  (m.setNext head head).setPrev head head

/-- Link `a` in before the head. -/
def insertTail (m : Links A) (head a : A) : Links A :=
  let last := m.prev head
  (((m.setPrev head a).setNext a head).setPrev a last).setNext last a

/-- `a->prev->next = a->next; a->next->prev = a->prev;` -/
def unlink (m : Links A) (a : A) : Links A :=
  let m := m.setNext (m.prev a) (m.next a)
  m.setPrev (m.next a) (m.prev a)

omit [DecidableEq A] in
/-- The empty ring. -/
theorem isRing_nil {m : Links A} {head : A} (hNext : m.next head = head)
    (hPrev : m.prev head = head) : IsRing m head [] where
  linked := by
    rw [List.nil_append, linked_cons_cons]
    exact ⟨⟨hNext, hPrev⟩, List.isChain_singleton head⟩
  nodup := List.nodup_singleton head

/-- Initialising a head changes the links of no other node. -/
theorem initHead_links (m : Links A) (head a : A) :
    (initHead m head).next a = (if a = head then head else m.next a) ∧
      (initHead m head).prev a = (if a = head then head else m.prev a) := by
  by_cases hEq : a = head
  · subst hEq
    simp [initHead]
  · simp only [if_neg hEq, initHead, setPrev_next]
    rw [setNext_next_of_ne _ hEq, setPrev_prev_of_ne _ hEq, setNext_prev]
    exact ⟨rfl, rfl⟩

section Edits

variable {m : Links A} {head : A}

omit [DecidableEq A] in
theorem IsRing.congr {m' : Links A} {l : List A} (h : IsRing m head l)
    (hAgree : ∀ a ∈ head :: l, m'.next a = m.next a ∧ m'.prev a = m.prev a) :
    IsRing m' head l where
  linked := h.linked.congr fun a hMem => hAgree a (by
    rcases List.mem_cons.mp hMem with rfl | hMem
    · exact List.mem_cons_self
    · rcases List.mem_append.mp hMem with hMem | hMem
      · exact List.mem_cons_of_mem _ hMem
      · rw [List.mem_singleton.mp hMem]
        exact List.mem_cons_self)
  nodup := h.nodup

omit [DecidableEq A] in
/-- A ring, cut before its last node. -/
theorem IsRing.exists_last {l : List A} (h : IsRing m head l) :
    ∃ init last, head :: l = init ++ [last] ∧ m.prev head = last ∧
      Linked m (init ++ [last]) := by
  obtain ⟨init, last, hSplit⟩ :=
    (List.eq_nil_or_concat' (head :: l)).resolve_left (List.cons_ne_nil _ _)
  have hLinked := h.linked
  rw [← List.cons_append, hSplit, List.append_assoc, List.singleton_append,
    linked_append, linked_cons_cons] at hLinked
  exact ⟨init, last, hSplit, hLinked.2.1.2, hLinked.1⟩

/-- Inserting makes the new node the last one. -/
theorem IsRing.insertTail {l : List A} (h : IsRing m head l) {a : A}
    (hFresh : a ∉ head :: l) : IsRing (insertTail m head a) head (l ++ [a]) := by
  obtain ⟨init, last, hSplit, hLast, hInit⟩ := h.exists_last
  have hNodup : (init ++ [last]).Nodup := hSplit ▸ h.nodup
  have hFreshInit : a ∉ init ++ [last] := hSplit ▸ hFresh
  have hHead : head ≠ a := fun hEq => hFresh (hEq ▸ List.mem_cons_self)
  have hLastNe : last ≠ a := fun hEq => hFreshInit (by simp [hEq])
  have hTail : (init ++ [last]).tail = l := by rw [← hSplit, List.tail_cons]
  refine ⟨?_, ?_⟩
  · have hShape : head :: (l ++ [a] ++ [head]) = init ++ last :: [a, head] := by
      rw [List.append_assoc, ← List.cons_append, hSplit]
      simp
    rw [hShape, linked_append, linked_cons_cons, linked_cons_cons]
    refine ⟨hInit.transport ?_ ?_, ⟨?_, ?_⟩, ⟨?_, ?_⟩, List.isChain_singleton head⟩
    · -- Forward links change at the last node and at the new one only.
      intro b hMem
      rw [List.dropLast_concat] at hMem
      have hNeLast : b ≠ last := fun hEq =>
        (List.nodup_append.mp hNodup).2.2 b hMem last (by simp) hEq
      have hNeNew : b ≠ a := fun hEq => hFreshInit (by simp [← hEq, hMem])
      simp only [RingList.insertTail, hLast]
      rw [setNext_next_of_ne _ hNeLast, setPrev_next, setNext_next_of_ne _ hNeNew,
        setPrev_next]
    · -- Backward links change at the head and at the new node only.
      intro b hMem
      rw [hTail] at hMem
      have hNeHead : b ≠ head := fun hEq =>
        (List.nodup_cons.mp h.nodup).1 (hEq ▸ hMem)
      have hNeNew : b ≠ a := fun hEq => hFresh (by simp [← hEq, hMem])
      simp only [RingList.insertTail, setNext_prev]
      rw [setPrev_prev_of_ne _ hNeNew, setNext_prev, setPrev_prev_of_ne _ hNeHead]
    · simp [RingList.insertTail, hLast]
    · simp [RingList.insertTail, hLast]
    · simp only [RingList.insertTail, hLast]
      rw [setNext_next_of_ne _ hLastNe.symm, setPrev_next, setNext_next_self]
    · simp only [RingList.insertTail, setNext_prev]
      rw [setPrev_prev_of_ne _ hHead, setNext_prev, setPrev_prev_self]
  · rw [← List.cons_append]
    refine h.nodup.append (List.nodup_singleton a) ?_
    intro b hMem hNew
    exact hFresh (List.mem_singleton.mp hNew ▸ hMem)

omit [DecidableEq A] in
/-- A member of a ring with the parts of the ring around it. -/
theorem IsRing.neighbours {l₁ l₂ : List A} {a : A} (h : IsRing m head (l₁ ++ a :: l₂)) :
    Linked m (head :: l₁ ++ [a]) ∧ Linked m (a :: (l₂ ++ [head])) := by
  have hLinked := h.linked
  rw [List.append_assoc, List.cons_append, ← List.cons_append, linked_append] at hLinked
  exact hLinked

/-- Unlinking takes one node out. -/
theorem IsRing.unlink {l₁ l₂ : List A} {a : A} (h : IsRing m head (l₁ ++ a :: l₂)) :
    IsRing (unlink m a) head (l₁ ++ l₂) := by
  obtain ⟨hBefore, hAfter⟩ := h.neighbours
  obtain ⟨init, x, hInit⟩ :=
    (List.eq_nil_or_concat' (head :: l₁)).resolve_left (List.cons_ne_nil _ _)
  obtain ⟨z, post, hPost⟩ := List.exists_cons_of_ne_nil
    (List.append_ne_nil_of_right_ne_nil l₂ (List.cons_ne_nil head []))
  rw [hInit, List.append_assoc, List.singleton_append, linked_append,
    linked_cons_cons] at hBefore
  rw [hPost, linked_cons_cons] at hAfter
  obtain ⟨hPre, ⟨-, hPrev⟩, -⟩ := hBefore
  obtain ⟨⟨hNext, -⟩, hSuf⟩ := hAfter
  have hNodup : (head :: l₁ ++ a :: l₂).Nodup := h.nodup
  obtain ⟨hFirst, hRest, hApart⟩ := List.nodup_append.mp hNodup
  obtain ⟨hNotLater, hLater⟩ := List.nodup_cons.mp hRest
  have hHead : head ∉ l₂ := fun hMem =>
    hApart head List.mem_cons_self head (List.mem_cons_of_mem _ hMem) rfl
  have hx : x ∈ head :: l₁ := by rw [hInit]; simp
  have hz : z ∈ l₂ ++ [head] := by rw [hPost]; simp
  have hza : z ≠ a := by
    rintro rfl
    rcases List.mem_append.mp hz with hMem | hMem
    · exact hNotLater hMem
    · exact hApart head List.mem_cons_self z List.mem_cons_self
        (List.mem_singleton.mp hMem).symm
  have hxa : x ≠ a := fun hEq => hApart x hx a List.mem_cons_self hEq
  -- The edit writes the forward link of `x` and the backward link of `z`.
  have hWrites : RingList.unlink m a = (m.setNext x z).setPrev z x := by
    simp only [RingList.unlink, hPrev, hNext, setNext_prev,
      setNext_next_of_ne m hxa.symm]
  refine ⟨?_, h.nodup.sublist ?_⟩
  · have hShape : head :: (l₁ ++ l₂ ++ [head]) = init ++ x :: z :: post := by
      rw [List.append_assoc, ← List.cons_append, hInit, hPost]
      simp
    rw [hShape, linked_append, linked_cons_cons, hWrites]
    refine ⟨hPre.transport ?_ ?_, ⟨?_, ?_⟩, hSuf.transport ?_ ?_⟩
    · intro b hMem
      rw [List.dropLast_concat] at hMem
      have hNe : b ≠ x := fun hEq =>
        (List.nodup_append.mp (hInit ▸ hFirst)).2.2 b hMem x (by simp) hEq
      rw [setPrev_next, setNext_next_of_ne _ hNe]
    · intro b hMem
      rw [← hInit, List.tail_cons] at hMem
      have hNe : b ≠ z := by
        rintro rfl
        rcases List.mem_append.mp hz with hLate | hHeadEq
        · exact hApart b (List.mem_cons_of_mem _ hMem) b
            (List.mem_cons_of_mem _ hLate) rfl
        · exact (List.nodup_cons.mp hFirst).1 (List.mem_singleton.mp hHeadEq ▸ hMem)
      rw [setPrev_prev_of_ne _ hNe, setNext_prev]
    · rw [setPrev_next, setNext_next_self]
    · rw [setPrev_prev_self]
    · intro b hMem
      rw [← hPost, List.dropLast_concat] at hMem
      have hNe : b ≠ x := fun hEq =>
        hApart x hx b (List.mem_cons_of_mem _ hMem) hEq.symm
      rw [setPrev_next, setNext_next_of_ne _ hNe]
    · intro b hMem
      have hCycle : (l₂ ++ [head]).Nodup :=
        hLater.append (List.nodup_singleton head) (by simpa using hHead)
      have hNe : b ≠ z := by
        rintro rfl
        rw [hPost] at hCycle
        exact (List.nodup_cons.mp hCycle).1 hMem
      rw [setPrev_prev_of_ne _ hNe, setNext_prev]
  · exact List.cons_sublist_cons.mpr
      ((List.Sublist.refl l₁).append (List.sublist_cons_self a l₂))

/-- An edit of one ring leaves a ring without common nodes alone. -/
theorem IsRing.insertTail_other {head' : A} {l l' : List A} (h : IsRing m head l)
    (h' : IsRing m head' l') (hApart : List.Disjoint (head :: l) (head' :: l')) {a : A}
    (hFresh : a ∉ head' :: l') : IsRing (RingList.insertTail m head a) head' l' := by
  obtain ⟨init, last, hSplit, hLast, -⟩ := h.exists_last
  refine h'.congr fun b hMem => ?_
  have hNew : b ≠ a := fun hEq => hFresh (hEq ▸ hMem)
  have hHead : b ≠ head := fun hEq => hApart List.mem_cons_self (hEq ▸ hMem)
  have hNeLast : b ≠ last := fun hEq => hApart (by rw [hSplit]; simp) (hEq ▸ hMem)
  constructor
  · simp only [RingList.insertTail, hLast]
    rw [setNext_next_of_ne _ hNeLast, setPrev_next, setNext_next_of_ne _ hNew,
      setPrev_next]
  · simp only [RingList.insertTail, setNext_prev]
    rw [setPrev_prev_of_ne _ hNew, setNext_prev, setPrev_prev_of_ne _ hHead]

omit [DecidableEq A] in
/-- The neighbours of a member belong to the ring. -/
theorem IsRing.neighbours_mem {l : List A} (h : IsRing m head l) {a : A} (ha : a ∈ l) :
    m.next a ∈ head :: l ∧ m.prev a ∈ head :: l := by
  obtain ⟨l₁, l₂, rfl⟩ := List.append_of_mem ha
  obtain ⟨hBefore, hAfter⟩ := h.neighbours
  constructor
  · cases l₂ with
    | nil =>
        rw [List.nil_append, linked_cons_cons] at hAfter
        rw [hAfter.1.1]
        exact List.mem_cons_self
    | cons b l₂ =>
        rw [List.cons_append, linked_cons_cons] at hAfter
        rw [hAfter.1.1]
        simp
  · obtain ⟨init, x, hInit⟩ :=
      (List.eq_nil_or_concat' (head :: l₁)).resolve_left (List.cons_ne_nil _ _)
    rw [hInit, List.append_assoc, List.singleton_append, linked_append,
      linked_cons_cons] at hBefore
    rw [hBefore.2.1.2, ← List.cons_append, hInit]
    simp

theorem IsRing.unlink_other {head' : A} {l l' : List A} (h : IsRing m head l)
    (h' : IsRing m head' l') (hApart : List.Disjoint (head :: l) (head' :: l')) {a : A}
    (ha : a ∈ l) : IsRing (RingList.unlink m a) head' l' := by
  obtain ⟨hNext, hPrev⟩ := h.neighbours_mem ha
  have hPrevNe : m.prev a ≠ a := by
    obtain ⟨l₁, l₂, rfl⟩ := List.append_of_mem ha
    obtain ⟨init, x, hInit⟩ :=
      (List.eq_nil_or_concat' (head :: l₁)).resolve_left (List.cons_ne_nil _ _)
    have hBefore := h.neighbours.1
    rw [hInit, List.append_assoc, List.singleton_append, linked_append,
      linked_cons_cons] at hBefore
    rw [hBefore.2.1.2]
    have hNodup := h.nodup
    rw [← List.cons_append, hInit] at hNodup
    exact (List.nodup_append.mp hNodup).2.2 x (by simp) a List.mem_cons_self
  refine h'.congr fun b hMem => ⟨?_, ?_⟩
  · have hNe : b ≠ m.prev a := fun hEq => hApart hPrev (hEq ▸ hMem)
    simp only [RingList.unlink, setPrev_next]
    rw [setNext_next_of_ne m hNe]
  · have hNe : b ≠ m.next a := fun hEq => hApart hNext (hEq ▸ hMem)
    simp only [RingList.unlink, setNext_prev, setNext_next_of_ne m hPrevNe.symm]
    rw [setPrev_prev_of_ne _ hNe, setNext_prev]

end Edits

/-! ## Searching -/

/-- `for (walk = head->next; walk != head; walk = walk->next)`, up to the first
node with `p`.  The result is `none` if that takes more steps than given. -/
def walkFrom (m : Links A) (head : A) (p : A → Bool) : Nat → A → Option (Option A)
  | 0, _ => none
  | steps + 1, w =>
      if w = head then some none
      else if p w then some (some w)
      else walkFrom m head p steps (m.next w)

/-- The search from the first node on. -/
def walk (m : Links A) (head : A) (p : A → Bool) (steps : Nat) : Option (Option A) :=
  walkFrom m head p steps (m.next head)

theorem walkFrom_linked {m : Links A} {head : A} (p : A → Bool) {x : A} {l : List A}
    (h : Linked m (x :: (l ++ [head]))) (hHead : head ∉ l) {steps : Nat}
    (hSteps : l.length < steps) :
    walkFrom m head p steps (m.next x) = some (l.find? p) := by
  induction l generalizing x steps with
  | nil =>
      rw [List.nil_append, linked_cons_cons] at h
      cases steps with
      | zero => exact absurd hSteps (Nat.not_lt_zero _)
      | succ steps => simp [walkFrom, h.1.1]
  | cons a l ih =>
      rw [List.cons_append, linked_cons_cons] at h
      cases steps with
      | zero => exact absurd hSteps (Nat.not_lt_zero _)
      | succ steps =>
          have hNe : a ≠ head := fun hEq => hHead (hEq ▸ List.mem_cons_self)
          have hRest : walkFrom m head p steps (m.next a) = some (l.find? p) :=
            ih h.2 (fun hMem => hHead (List.mem_cons_of_mem a hMem))
              (by simpa using hSteps)
          rw [walkFrom, h.1.1, if_neg hNe, hRest]
          cases hp : p a with
          | true => rw [if_pos rfl, List.find?_cons_of_pos hp]
          | false =>
              rw [if_neg Bool.false_ne_true, List.find?_cons_of_neg (by simp [hp])]

/-- The search ends, and finds what it looks for. -/
theorem IsRing.walk {m : Links A} {head : A} {l : List A} (h : IsRing m head l)
    (p : A → Bool) {steps : Nat} (hSteps : l.length < steps) :
    walk m head p steps = some (l.find? p) :=
  walkFrom_linked p h.linked (List.nodup_cons.mp h.nodup).1 hSteps

omit [DecidableEq A] in
/-- The first node of a ring, or its head. -/
theorem IsRing.next_head {m : Links A} {head : A} {l : List A} (h : IsRing m head l) :
    m.next head = l.headD head := by
  have hLinked := h.linked
  cases l with
  | nil =>
      rw [List.nil_append, linked_cons_cons] at hLinked
      exact hLinked.1.1
  | cons a l =>
      rw [List.cons_append, linked_cons_cons] at hLinked
      exact hLinked.1.1

/-! ## Families of rings -/

section Families

variable {ι : Type v} [DecidableEq ι]

/-- Rings at the heads `head i`, no two of which share a node. -/
structure Family (m : Links A) (head : ι → A) (nodes : ι → List A) : Prop where
  ring : ∀ i, IsRing m (head i) (nodes i)
  apart : ∀ i j, i ≠ j → List.Disjoint (head i :: nodes i) (head j :: nodes j)

variable {m : Links A} {head : ι → A} {nodes : ι → List A}

theorem Family.insertTail (h : Family m head nodes) (i : ι) {a : A}
    (hFresh : ∀ j, a ∉ head j :: nodes j) :
    Family (insertTail m (head i) a) head
      (Function.update nodes i (nodes i ++ [a])) where
  ring j := by
    by_cases hEq : j = i
    · subst hEq
      rw [Function.update_self]
      exact (h.ring j).insertTail (hFresh j)
    · rw [Function.update_of_ne hEq]
      exact (h.ring i).insertTail_other (h.ring j) (h.apart i j (Ne.symm hEq)) (hFresh j)
  apart := by
    -- Only the ring at `i` has got a node, and it is a new one.
    have hGrown (j : ι) (hNe : i ≠ j) :
        List.Disjoint (head i :: (nodes i ++ [a])) (head j :: nodes j) := by
      intro b hMem hOther
      rw [← List.cons_append, List.mem_append, List.mem_singleton] at hMem
      rcases hMem with hOld | rfl
      · exact h.apart i j hNe hOld hOther
      · exact hFresh j hOther
    intro j k hNe
    by_cases hj : j = i
    · subst hj
      rw [Function.update_self, Function.update_of_ne hNe.symm]
      exact hGrown k hNe
    · by_cases hk : k = i
      · subst hk
        rw [Function.update_self, Function.update_of_ne hj]
        exact fun b hOther hMem => hGrown j (Ne.symm hj) hMem hOther
      · rw [Function.update_of_ne hj, Function.update_of_ne hk]
        exact h.apart j k hNe

theorem Family.unlink (h : Family m head nodes) {i : ι} {a : A} (ha : a ∈ nodes i) :
    Family (unlink m a) head (Function.update nodes i ((nodes i).erase a)) where
  ring j := by
    by_cases hEq : j = i
    · subst hEq
      rw [Function.update_self]
      obtain ⟨l₁, l₂, hNot, hSplit, hErase⟩ := List.exists_erase_eq ha
      rw [hErase]
      exact IsRing.unlink (hSplit ▸ h.ring j)
    · rw [Function.update_of_ne hEq]
      exact (h.ring i).unlink_other (h.ring j) (h.apart i j (Ne.symm hEq)) ha
  apart := by
    have hSub (j : ι) :
        head j :: Function.update nodes i ((nodes i).erase a) j ⊆ head j :: nodes j := by
      by_cases hj : j = i
      · subst hj
        rw [Function.update_self]
        exact List.cons_subset_cons _ List.erase_subset
      · rw [Function.update_of_ne hj]
        exact List.Subset.refl _
    intro j k hNe b hj hk
    exact h.apart j k hNe (hSub j hj) (hSub k hk)

omit [DecidableEq A] [DecidableEq ι] in
/-- A member belongs to one ring only. -/
theorem Family.unique (h : Family m head nodes) {i j : ι} {a : A} (hi : a ∈ nodes i)
    (hj : a ∈ nodes j) : i = j := by
  by_contra hNe
  exact h.apart i j hNe (List.mem_cons_of_mem _ hi) (List.mem_cons_of_mem _ hj)

end Families

end RingList
