import Bench65.Proofs.ArgumentBlock
import Bench65.Proofs.Call.CStack
import Mathlib.Logic.Function.Iterate

/-!
# The C stack as a list of words

The C stack keeps its pointer in the memory it grows through, and both go around the end of the
address space. As long as the words on it stay clear of the pointer's two cells, it is a list all
the same, the last word pushed first (`words_nest`).

`Carries` ties the memory to such a list. One operation keeps it (`Carries.push`, `Carries.pop`),
and so does a sequence (`performAll_eq`). Words that stay clear of the pointer do not fill the
address space (`Clear.two_mul_lt`), so that the newest never reaches around to the oldest.
-/

namespace Bench65.CStack

/-! ### Operations -/

/-- An operation on the C stack. -/
inductive Operation where
  | push (w : UInt16)
  | pop

namespace Operation

/-- The number of words outstanding after an operation. -/
def after (n : Nat) : Operation → Nat
  | push _ => n + 1
  | pop => n - 1

/-- The number of words outstanding after some operations. -/
def outstanding (n : Nat) (ops : List Operation) : Nat :=
  ops.foldl after n

/-- Operations that start with some words outstanding and never pop one that is not there. -/
def Bracketed : (n : Nat) → List Operation → Prop
  | _, [] => True
  | n, push _ :: ops => Bracketed (n + 1) ops
  | 0, pop :: _ => False
  | n + 1, pop :: ops => Bracketed n ops

/-- Something holds of the number of words outstanding before the first operation and after each. -/
def Throughout (P : Nat → Prop) : (n : Nat) → List Operation → Prop
  | n, [] => P n
  | n, op :: ops => P n ∧ Throughout P (op.after n) ops

instance Throughout.decidable (P : Nat → Prop) [DecidablePred P] :
    ∀ (n : Nat) (ops : List Operation), Decidable (Throughout P n ops)
  | n, [] => inferInstanceAs (Decidable (P n))
  | n, op :: ops =>
    have := Throughout.decidable P (op.after n) ops
    inferInstanceAs (Decidable (_ ∧ _))

/-- The word that an operation pops, if any, and the memory after it. -/
def perform (s : CStack) (m : Memory) : Operation → Option UInt16 × Memory
  | push w => (none, s.push m w)
  | pop =>
    let (w, m) := s.pop m
    (some w, m)

/-- What each of some operations pops, and the memory after the last. -/
def performAll (s : CStack) (m : Memory) : List Operation → List (Option UInt16) × Memory
  | [] => ([], m)
  | op :: ops =>
    let (popped, m) := op.perform s m
    let (others, m) := performAll s m ops
    (popped :: others, m)

/-- The same operation on a list of words, the last one pushed first. -/
def onList (words : List UInt16) : Operation → Option UInt16 × List UInt16
  | push w => (none, w :: words)
  | pop => (words.head?, words.tail)

/-- What each of some operations pops from a list of words, and the words left. -/
def allOnList (words : List UInt16) : List Operation → List (Option UInt16) × List UInt16
  | [] => ([], words)
  | op :: ops =>
    let (popped, words) := op.onList words
    let (others, words) := allOnList words ops
    (popped :: others, words)

variable {P : Nat → Prop} {n : Nat} {op : Operation} {ops : List Operation}

theorem Throughout.head (h : Throughout P n ops) : P n := by
  cases ops with
  | nil => exact h
  | cons op ops => exact h.1

theorem performAll_cons (s : CStack) (m : Memory) (op : Operation) (ops : List Operation) :
    performAll s m (op :: ops) =
      ((op.perform s m).1 :: (performAll s (op.perform s m).2 ops).1,
        (performAll s (op.perform s m).2 ops).2) := rfl

theorem allOnList_cons (words : List UInt16) (op : Operation) (ops : List Operation) :
    allOnList words (op :: ops) =
      ((op.onList words).1 :: (allOnList (op.onList words).2 ops).1,
        (allOnList (op.onList words).2 ops).2) := rfl

theorem allOnList_append (words : List UInt16) (ops ops' : List Operation) :
    allOnList words (ops ++ ops') =
      ((allOnList words ops).1 ++ (allOnList (allOnList words ops).2 ops').1,
        (allOnList (allOnList words ops).2 ops').2) := by
  induction ops generalizing words with
  | nil => rfl
  | cons op ops ih => rw [List.cons_append, allOnList_cons, allOnList_cons, ih, List.cons_append]

theorem length_allOnList_fst (words : List UInt16) (ops : List Operation) :
    (allOnList words ops).1.length = ops.length := by
  induction ops generalizing words with
  | nil => rfl
  | cons op ops ih => rw [allOnList_cons, List.length_cons, List.length_cons, ih]

/-- Operations find the words of their own, and leave those below where they are. -/
theorem allOnList_snd_append {top : List UInt16} (below : List UInt16)
    (h : Bracketed top.length ops) :
    (allOnList (top ++ below) ops).2 = (allOnList top ops).2 ++ below ∧
      (allOnList top ops).2.length = outstanding top.length ops := by
  induction ops generalizing top with
  | nil => exact ⟨rfl, rfl⟩
  | cons op ops ih =>
    cases op with
    | push w =>
      have hpushed : Bracketed (w :: top).length ops := h
      exact ih hpushed
    | pop =>
      cases top with
      | nil => exact h.elim
      | cons w top =>
        have hpopped : Bracketed top.length ops := h
        exact ih hpopped

theorem length_allOnList_snd {words : List UInt16} (h : Bracketed words.length ops) :
    (allOnList words ops).2.length = outstanding words.length ops :=
  (allOnList_snd_append [] h).2

/-- Operations that leave nothing of their own behind leave the words there were. -/
theorem allOnList_snd_of_balanced {words : List UInt16} (h : Bracketed 0 ops)
    (hbalanced : outstanding 0 ops = 0) : (allOnList words ops).2 = words := by
  have hempty : Bracketed ([] : List UInt16).length ops := h
  obtain ⟨happend, hlength⟩ := allOnList_snd_append words hempty
  rw [List.length_nil, hbalanced] at hlength
  rw [List.length_eq_zero_iff.mp hlength] at happend
  exact happend

/-- A pop from a list yields the word of the push that it matches. -/
theorem allOnList_fst_matching (words : List UInt16) (before : List Operation) (w : UInt16)
    {inner : List Operation} (rest : List Operation) (h : Bracketed 0 inner)
    (hbalanced : outstanding 0 inner = 0) :
    (allOnList words (before ++ push w :: (inner ++ pop :: rest))).1[before.length + 1 +
      inner.length]? = some (some w) := by
  have hinner : (allOnList (w :: (allOnList words before).2) inner).2 =
      w :: (allOnList words before).2 := allOnList_snd_of_balanced h hbalanced
  have hindex : before.length + 1 + inner.length - before.length = inner.length + 1 := by omega
  rw [allOnList_append, List.getElem?_append_right (by rw [length_allOnList_fst]; omega),
    length_allOnList_fst, hindex, allOnList_cons, List.getElem?_cons_succ]
  dsimp only [onList]
  rw [allOnList_append, List.getElem?_append_right (by rw [length_allOnList_fst]),
    length_allOnList_fst, Nat.sub_self, hinner]
  rfl

end Operation

/-! ### The words on the stack -/

open ArgumentBlock (wordBytes length_flatMap_wordBytes readWord_of_holds_wordBytes)

/-- The cells of some words below an address, around the end of the address space if need be. -/
def live (top : UInt16) (n : Nat) : Set UInt16 :=
  {a | (a - (top - UInt16.ofNat (2 * n))).toNat < 2 * n}

instance (top : UInt16) (n : Nat) (a : UInt16) : Decidable (a ∈ live top n) :=
  Nat.decLt _ _

/-- The cells of some words below an address are not those of the pointer. -/
def Clear (s : CStack) (top : UInt16) (n : Nat) : Prop :=
  s.pointerCell.toUInt16 ∉ live top n ∧ s.pointerCell.toUInt16 + 1 ∉ live top n

instance (s : CStack) (top : UInt16) (n : Nat) : Decidable (s.Clear top n) :=
  inferInstanceAs (Decidable (_ ∧ _))

/-- Some words stand below an address, the last one pushed at the pointer. -/
structure Carries (s : CStack) (top : UInt16) (m : Memory) (words : List UInt16) : Prop where
  pointer_eq : s.pointer m = top - UInt16.ofNat (2 * words.length)
  holds : m.Holds (top - UInt16.ofNat (2 * words.length)) (words.flatMap wordBytes)

section Steps

variable {s : CStack} {top : UInt16} {m : Memory} {words : List UInt16} {n : Nat} {a : UInt16}

theorem sub_two_mul_succ (top : UInt16) (n : Nat) :
    top - UInt16.ofNat (2 * (n + 1)) = top - UInt16.ofNat (2 * n) - 2 := by
  apply UInt16.toNat_inj.mp
  have htop := top.toNat_lt
  simp only [UInt16.toNat_sub, UInt16.toNat_ofNat', UInt16.reduceToNat]
  omega

theorem Clear.two_mul_lt (h : s.Clear top n) : 2 * n < 0x10000 := by
  have hlt := (s.pointerCell.toUInt16 - (top - UInt16.ofNat (2 * n))).toNat_lt
  have hnot := Nat.le_of_not_lt h.1
  omega

/-- Storing the pointer does not change the words that are clear of it. -/
theorem Clear.read_setPointer (h : s.Clear top n) (ha : a ∈ live top n) (m : Memory) (p : UInt16) :
    (s.setPointer m p).read a = m.read a := by
  refine m.read_writeWord_of_ne p ?_ ?_
  · rintro rfl
    exact h.1 ha
  · rintro rfl
    exact h.2 ha

theorem carries_nil (s : CStack) (m : Memory) : s.Carries (s.pointer m) m [] :=
  ⟨(UInt16.sub_zero _).symm, trivial⟩

/-- A word pushed lies before the others. -/
theorem Carries.push (h : s.Carries top m words) (hclear : s.Clear top (words.length + 1))
    (w : UInt16) : s.Carries top (s.push m w) (w :: words) := by
  have hsmall := hclear.two_mul_lt
  have hlength := length_flatMap_wordBytes words
  have hp : s.pointer m - 2 = top - UInt16.ofNat (2 * (words.length + 1)) := by
    rw [h.pointer_eq, sub_two_mul_succ]
  -- the words that are there begin two bytes above the new word
  have hrest : m.Holds (top - UInt16.ofNat (2 * (words.length + 1)) + 2)
      (words.flatMap wordBytes) := by
    rw [sub_two_mul_succ, UInt16.sub_add_cancel]
    exact h.holds
  have hwritten := hrest.writeWord (by omega) w
  rw [push_eq, hp]
  refine ⟨s.pointer_setPointer _ _, hwritten.congr (fun c hc => ?_) ?_⟩
  · rw [List.length_append, hlength] at hc
    refine hclear.read_setPointer ?_ _ _
    show _ < 2 * (words.length + 1)
    simp only [List.length_cons, List.length_nil] at hc
    omega
  · rw [List.length_append, hlength]
    simp only [List.length_cons, List.length_nil]
    omega

/-- A word popped is the one pushed last, and the others stay. -/
theorem Carries.pop {w : UInt16} (h : s.Carries top m (w :: words))
    (hclear : s.Clear top words.length) :
    (s.pop m).1 = w ∧ s.Carries top (s.pop m).2 words := by
  have hp := h.pointer_eq
  have hholds := h.holds
  -- behind the top word the pointer stands where it stood before that word was pushed
  have hnext : top - UInt16.ofNat (2 * (words.length + 1)) + 2 =
      top - UInt16.ofNat (2 * words.length) := by
    rw [sub_two_mul_succ, UInt16.sub_add_cancel]
  rw [List.length_cons] at hp hholds
  rw [pop_eq, hp, hnext]
  refine ⟨?_, s.pointer_setPointer _ _, ?_⟩
  · exact readWord_of_holds_wordBytes hholds
  · have hsmall := hclear.two_mul_lt
    have hlength := length_flatMap_wordBytes words
    have hrest : m.Holds (top - UInt16.ofNat (2 * words.length)) (words.flatMap wordBytes) := by
      rw [← hnext]
      exact (Memory.holds_append.mp hholds).2
    refine hrest.congr (fun c hc => ?_) (by omega)
    rw [hlength] at hc
    exact hclear.read_setPointer hc _ _

/-- An operation changes nothing but the words and the pointer. -/
theorem Carries.read_perform (h : s.Carries top m words) (hcell : s.pointerCell.toNat < 0xFF)
    (op : Operation) (ha : a.toNat ∉ s.addresses) (hlive : a ∉ live top (op.after words.length)) :
    (op.perform s m).2.read a = m.read a := by
  cases op with
  | pop => exact CStack.read_setPointer hcell m _ ha
  | push w =>
    have hfar : 2 * (words.length + 1) ≤
        (a - (top - UInt16.ofNat (2 * (words.length + 1)))).toNat := Nat.le_of_not_lt hlive
    have hwritten : [lowByte w, highByte w].length ≤ (a - (s.pointer m - 2)).toNat := by
      rw [h.pointer_eq, ← sub_two_mul_succ, List.length_cons, List.length_cons, List.length_nil]
      omega
    show (s.push m w).read a = m.read a
    rw [push_eq, CStack.read_setPointer hcell _ _ ha]
    exact m.read_writeBytes_of_le hwritten

end Steps

/-! ### Sequences -/

namespace Operation

variable {s : CStack} {top : UInt16} {m : Memory} {words : List UInt16} {op : Operation}
  {ops : List Operation}

/-- One operation pops what it pops from the list, and the memory follows the list. -/
theorem perform_eq (h : s.Carries top m words) (hops : Bracketed words.length (op :: ops))
    (hclear : s.Clear top (op.after words.length)) :
    (op.perform s m).1 = (op.onList words).1 ∧
      s.Carries top (op.perform s m).2 (op.onList words).2 ∧
      (op.onList words).2.length = op.after words.length ∧
      Bracketed (op.after words.length) ops := by
  cases op with
  | push w => exact ⟨rfl, h.push hclear w, rfl, hops⟩
  | pop =>
    cases words with
    | nil => exact hops.elim
    | cons w words =>
      obtain ⟨hword, hcarries⟩ := h.pop hclear
      exact ⟨congrArg some hword, hcarries, rfl, hops⟩

/-- A sequence pops what it pops from a list, the memory follows the list, and nothing changes but
the words and the pointer. -/
theorem performAll_eq (h : s.Carries top m words) (hcell : s.pointerCell.toNat < 0xFF)
    (hops : Bracketed words.length ops) (hclear : Throughout (s.Clear top) words.length ops) :
    (performAll s m ops).1 = (allOnList words ops).1 ∧
      s.Carries top (performAll s m ops).2 (allOnList words ops).2 ∧
      ∀ a : UInt16, a.toNat ∉ s.addresses →
        Throughout (fun n => a ∉ live top n) words.length ops →
          (performAll s m ops).2.read a = m.read a := by
  induction ops generalizing m words with
  | nil => exact ⟨rfl, h, fun _ _ _ => rfl⟩
  | cons op ops ih =>
    obtain ⟨hpopped, hcarries, hlength, hrest⟩ := perform_eq h hops hclear.2.head
    rw [← hlength] at hrest
    obtain ⟨hothers, hlater, hframe⟩ := ih hcarries hrest (hlength ▸ hclear.2)
    rw [performAll_cons, allOnList_cons]
    refine ⟨?_, hlater, fun a ha hlive => ?_⟩
    · rw [hpopped, hothers]
    · exact (hframe a ha (hlength ▸ hlive.2)).trans (h.read_perform hcell op ha hlive.2.head)

end Operation

/-! ### Discarding -/

/-- Discarding words is popping them. -/
theorem drop_eq_iterate_pop (s : CStack) (m : Memory) (k : Nat) :
    s.drop m (UInt16.ofNat (2 * k)) = (fun m => (s.pop m).2)^[k] m := by
  induction k generalizing m with
  | zero =>
    show s.setPointer m (s.pointer m + 0) = m
    rw [UInt16.add_zero, setPointer_pointer]
  | succ k ih =>
    rw [Function.iterate_succ_apply, ← ih, pop_eq, drop, drop, pointer_setPointer,
      setPointer_setPointer, UInt16.add_assoc]
    refine congrArg (fun p => s.setPointer m (s.pointer m + p)) ?_
    rw [Nat.mul_succ, Nat.add_comm, UInt16.ofNat_add]
    rfl

open Operation

/-- **The C stack is a stack.** Pushes and pops that never pop what was not pushed, and during which
the words on the stack stay clear of the pointer, pop what they would pop from a list: every pop
yields the word of the push that it matches. The pointer moves with the number of words, so that it
is where it was when none is left, and nothing else changes but the cells that were on the stack at
some time. Discarding some words is popping them. -/
theorem words_nest (s : CStack) (hcell : s.pointerCell ≤ 0xFE) (m : Memory) :
    (∀ ops, Bracketed 0 ops → Throughout (s.Clear (s.pointer m)) 0 ops →
      (performAll s m ops).1 = (allOnList [] ops).1 ∧
      (∀ (before : List Operation) (w : UInt16) (inner rest : List Operation),
        ops = before ++ Operation.push w :: (inner ++ Operation.pop :: rest) →
        Bracketed 0 inner → outstanding 0 inner = 0 →
          (performAll s m ops).1[before.length + 1 + inner.length]? = some (some w)) ∧
      s.pointer (performAll s m ops).2 = s.pointer m - UInt16.ofNat (2 * outstanding 0 ops) ∧
      (outstanding 0 ops = 0 → s.pointer (performAll s m ops).2 = s.pointer m) ∧
      ∀ a : UInt16, a.toNat ∉ s.addresses →
        Throughout (fun n => a ∉ live (s.pointer m) n) 0 ops →
          (performAll s m ops).2.read a = m.read a) ∧
    ∀ k, s.drop m (UInt16.ofNat (2 * k)) = (fun m => (s.pop m).2)^[k] m := by
  have hlow : s.pointerCell.toNat < 0xFF := Nat.lt_succ_of_le (UInt8.le_iff_toNat_le.mp hcell)
  refine ⟨fun ops hops hclear => ?_, s.drop_eq_iterate_pop m⟩
  have hempty : Bracketed ([] : List UInt16).length ops := hops
  obtain ⟨hpopped, hcarries, hframe⟩ := performAll_eq (s.carries_nil m) hlow hempty hclear
  have hpointer := hcarries.pointer_eq
  rw [length_allOnList_snd hempty, List.length_nil] at hpointer
  refine ⟨hpopped, fun before w inner rest heq hinner hbalanced => ?_, hpointer, fun hnone => ?_,
    hframe⟩
  · rw [hpopped, heq]
    exact allOnList_fst_matching [] before w rest hinner hbalanced
  · rw [hpointer, hnone]
    exact UInt16.sub_zero _

/-- Three words pushed and popped around the end of memory, the second one before the third. -/
theorem words_nest_aroundTheEnd :
    let s : CStack := ⟨0x10⟩
    let m := s.setPointer (Memory.filled 0) 1
    let ops : List Operation := [.push 0x1122, .push 0x3344, .pop, .push 0x5566, .pop, .pop]
    (performAll s m ops).1 = [none, none, some 0x3344, none, some 0x5566, some 0x1122] ∧
      s.pointer (performAll s m ops).2 = 1 ∧
      (performAll s m ops).2.read 0xFFFC = 0 ∧
      s.drop m 4 = (s.pop (s.pop m).2).2 := by
  intro s m ops
  have hpointer : s.pointer m = 1 := s.pointer_setPointer _ 1
  have hops : Bracketed 0 ops := trivial
  obtain ⟨hwords, hdrop⟩ := s.words_nest (by decide) m
  have hclear : Throughout (s.Clear (s.pointer m)) 0 ops := by
    rw [hpointer]
    decide
  obtain ⟨hpopped, -, -, hback, hframe⟩ := hwords ops hops hclear
  refine ⟨hpopped, (hback rfl).trans hpointer, ?_, hdrop 2⟩
  -- the words reach around the end of memory, but no further than `$FFFD`
  have hlive : Throughout (fun n => (0xFFFC : UInt16) ∉ live (s.pointer m) n) 0 ops := by
    rw [hpointer]
    decide
  have hbelow := hframe 0xFFFC (not_mem_addresses (by decide) (by decide)) hlive
  rw [hbelow]
  decide +kernel

end Bench65.CStack
