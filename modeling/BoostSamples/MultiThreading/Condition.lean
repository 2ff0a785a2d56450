import BoostSamples.Transition.System
import Mathlib.Data.Int.Notation

/-!
# A hand-over with a condition variable

Two threads share a vector, a mutex and a condition variable. `fill` adds a number, wakes
the other thread and waits once; `print` waits until there is one number more than it has
printed, prints the last one and wakes `fill`. The wait of `print` stands in a loop, that
of `fill` does not, so a spurious wake-up is harmless for `print` only. Each thread makes
`n` rounds.

What has been printed is always a beginning of the numbers. Without a spurious wake-up of
`fill` each number is printed before the next one is added, there is no deadlock, and the
steps of the threads come to an end; once a number was added too early nothing is printed
any more.
-/

namespace MultiThreading

open Transition Transition.System

inductive Thread
  | fill
  | print
  deriving DecidableEq

inductive FillPc
  | lock
  | pushBack
  | notifyAll
  | wait
  /-- In `cond.wait`, and woken up but without the mutex. -/
  | blocked
  | woken
  | unlock
  | done
  deriving DecidableEq

inductive PrintPc
  | lock
  | test
  | blocked
  | woken
  /-- Prints the last number and increments `next_size`. -/
  | out
  | notifyAll
  | unlock
  | done
  deriving DecidableEq

def FillPc.loop (n i : ℕ) : FillPc := if i < n then .lock else .done

def PrintPc.loop (n i : ℕ) : PrintPc := if i < n then .lock else .done

/-- `notify_all` ends a wait. -/
def FillPc.notified : FillPc → FillPc
  | .blocked => .woken
  | pc => pc

def PrintPc.notified : PrintPc → PrintPc
  | .blocked => .woken
  | pc => pc

structure Program where
  mutex : Option Thread := none
  randomNumbers : List ℤ := []
  printed : List ℤ := []
  fill : FillPc
  fillI : ℕ := 0
  print : PrintPc
  printI : ℕ := 0
  nextSize : ℕ := 1
  deriving DecidableEq

/-- A statement of a thread, with the number that `rand` returns, or a spurious wake-up. -/
inductive Event
  | fill (rand : ℤ)
  | print
  | wakeFill
  | wakePrint
  deriving DecidableEq

namespace Program

def fillStep (n : ℕ) (s : Program) (rand : ℤ) : Option Program :=
  match s.fill with
  | .lock =>
      if s.mutex = none then some { s with mutex := some .fill, fill := .pushBack } else none
  | .pushBack =>
      some { s with randomNumbers := s.randomNumbers ++ [rand], fill := .notifyAll }
  | .notifyAll => some { s with print := s.print.notified, fill := .wait }
  | .wait => some { s with mutex := none, fill := .blocked }
  | .blocked => none
  | .woken =>
      if s.mutex = none then some { s with mutex := some .fill, fill := .unlock } else none
  | .unlock =>
      some { s with mutex := none, fillI := s.fillI + 1, fill := .loop n (s.fillI + 1) }
  | .done => none

def printStep (n : ℕ) (s : Program) : Option Program :=
  match s.print with
  | .lock => if s.mutex = none then some { s with mutex := some .print, print := .test } else none
  | .test =>
      if s.randomNumbers.length ≠ s.nextSize then
        some { s with mutex := none, print := .blocked }
      else some { s with print := .out }
  | .blocked => none
  | .woken =>
      if s.mutex = none then some { s with mutex := some .print, print := .test } else none
  | .out =>
      some { s with
        printed := s.printed ++ s.randomNumbers.getLast?.toList
        nextSize := s.nextSize + 1
        print := .notifyAll }
  | .notifyAll => some { s with fill := s.fill.notified, print := .unlock }
  | .unlock =>
      some { s with mutex := none, printI := s.printI + 1, print := .loop n (s.printI + 1) }
  | .done => none

def step (n : ℕ) (s : Program) : Event → Option Program
  | .fill rand => s.fillStep n rand
  | .print => s.printStep n
  | .wakeFill => if s.fill = .blocked then some { s with fill := .woken } else none
  | .wakePrint => if s.print = .blocked then some { s with print := .woken } else none

def Finished (s : Program) : Prop := s.fill = .done ∧ s.print = .done

instance (s : Program) : Decidable s.Finished := inferInstanceAs (Decidable (_ ∧ _))

end Program

def condition (n : ℕ) : System Program Event where
  init s := s = { fill := .loop n 0, print := .loop n 0 }
  step := Program.step n

/-- The wait of `fill` does not end spuriously. -/
def Steady (_ : Program) (e : Event) : Prop := e ≠ .wakeFill

def Event.Statement (e : Event) : Prop := e ≠ .wakeFill ∧ e ≠ .wakePrint

instance (s : Program) (e : Event) : Decidable (Steady s e) := inferInstanceAs (Decidable (_ ≠ _))

instance (e : Event) : Decidable e.Statement := inferInstanceAs (Decidable (_ ∧ _))

def FillPc.holds : FillPc → Bool
  | .pushBack | .notifyAll | .wait | .unlock => true
  | _ => false

def PrintPc.holds : PrintPc → Bool
  | .test | .out | .notifyAll | .unlock => true
  | _ => false

def FillPc.added : FillPc → ℕ
  | .notifyAll | .wait | .blocked | .woken | .unlock => 1
  | _ => 0

def PrintPc.added : PrintPc → ℕ
  | .notifyAll | .unlock => 1
  | _ => 0

/-- How many statements of the round are left. -/
def FillPc.left : FillPc → ℕ
  | .lock => 7
  | .pushBack => 6
  | .notifyAll => 5
  | .wait => 4
  | .blocked => 3
  | .woken => 2
  | .unlock => 1
  | .done => 0

/-- The same for `print` when `new` numbers have not been printed: without one the inner
loop goes round once more. -/
def PrintPc.left (new : ℕ) : PrintPc → ℕ
  | .lock => 7
  | .test => if new = 0 then 6 else 3
  | .blocked => 5
  | .woken => if new = 0 then 7 else 4
  | .out => 2
  | .notifyAll => 1
  | .unlock => 0
  | .done => 0

/-- A thread that does not hold the mutex waits for it, for the other thread, or has ended. -/
theorem FillPc.cases_of_not_holds {pc : FillPc} (h : pc.holds = false) :
    (pc = .lock ∨ pc = .woken) ∨ pc = .blocked ∨ pc = .done := by
  cases pc <;> simp_all [FillPc.holds]

theorem PrintPc.cases_of_not_holds {pc : PrintPc} (h : pc.holds = false) :
    (pc = .lock ∨ pc = .woken) ∨ pc = .blocked ∨ pc = .done := by
  cases pc <;> simp_all [PrintPc.holds]

theorem FillPc.left_notified (pc : FillPc) : pc.notified.left ≤ pc.left := by
  cases pc <;> simp [notified, left]

theorem PrintPc.left_le (new : ℕ) (pc : PrintPc) : pc.left new ≤ pc.left 0 := by
  cases pc with
  | test =>
      simp only [left]
      split <;> simp
  | woken =>
      simp only [left]
      split <;> simp
  | _ => exact Nat.le_refl _

theorem PrintPc.left_notified (pc : PrintPc) : pc.notified.left 1 ≤ pc.left 1 := by
  cases pc <;> simp [notified, left]

theorem PrintPc.left_test_lt (new : ℕ) :
    PrintPc.test.left new < PrintPc.lock.left new ∧
      PrintPc.test.left new < PrintPc.woken.left new := by
  simp only [left]
  split <;> simp

namespace Program

structure Ordered (n : ℕ) (s : Program) : Prop where
  mutex_fill : s.mutex = some .fill ↔ s.fill.holds = true
  mutex_print : s.mutex = some .print ↔ s.print.holds = true
  length_numbers : s.randomNumbers.length = s.fillI + s.fill.added
  fillI_lt : s.fill ≠ .done → s.fillI < n
  fillI_eq : s.fill = .done → s.fillI = n
  length_printed : s.printed.length = s.printI + s.print.added
  printI_lt : s.print ≠ .done → s.printI < n
  printI_eq : s.print = .done → s.printI = n
  nextSize : s.nextSize = s.printed.length + 1
  tested : s.print = .out → s.randomNumbers.length = s.nextSize
  prints : s.printed <+: s.randomNumbers

/-- What holds without a spurious wake-up of `fill`: before a number is added the others
have been printed, and a thread that waits will be notified. -/
structure HandsOver (s : Program) : Prop where
  quiet : s.fill = .lock ∨ s.fill = .pushBack ∨ s.fill = .woken ∨ s.fill = .unlock ∨
    s.fill = .done → s.randomNumbers.length = s.printed.length
  added : s.fill = .notifyAll ∨ s.fill = .wait →
    s.randomNumbers.length = s.printed.length + 1
  blocked : s.fill = .blocked → s.randomNumbers.length = s.printed.length + 1 ∨
    s.randomNumbers.length = s.printed.length ∧ s.print = .notifyAll
  awaited : s.print = .blocked →
    s.randomNumbers.length = s.printed.length ∨ s.fill = .notifyAll
  shown : s.print = .notifyAll ∨ s.print = .unlock →
    s.randomNumbers.length = s.printed.length

section Notified

@[simp] theorem holds_notified_fill (pc : FillPc) : pc.notified.holds = pc.holds := by
  cases pc <;> rfl

@[simp] theorem added_notified_fill (pc : FillPc) : pc.notified.added = pc.added := by
  cases pc <;> rfl

@[simp] theorem notified_eq_done_fill {pc : FillPc} : pc.notified = .done ↔ pc = .done := by
  cases pc <;> simp [FillPc.notified]

@[simp] theorem holds_notified_print (pc : PrintPc) : pc.notified.holds = pc.holds := by
  cases pc <;> rfl

@[simp] theorem added_notified_print (pc : PrintPc) : pc.notified.added = pc.added := by
  cases pc <;> rfl

@[simp] theorem notified_eq_done_print {pc : PrintPc} : pc.notified = .done ↔ pc = .done := by
  cases pc <;> simp [PrintPc.notified]

@[simp] theorem notified_eq_out {pc : PrintPc} : pc.notified = .out ↔ pc = .out := by
  cases pc <;> simp [PrintPc.notified]

theorem notified_ne_blocked (pc : PrintPc) : pc.notified ≠ .blocked := by
  cases pc <;> simp [PrintPc.notified]

theorem notified_ne_blocked_fill (pc : FillPc) : pc.notified ≠ .blocked := by
  cases pc <;> simp [FillPc.notified]

theorem holds_loop_fill (n i : ℕ) : (FillPc.loop n i).holds = false := by
  rw [FillPc.loop]
  split <;> rfl

theorem holds_loop_print (n i : ℕ) : (PrintPc.loop n i).holds = false := by
  rw [PrintPc.loop]
  split <;> rfl

end Notified

theorem ordered_start (n : ℕ) :
    Ordered n { fill := FillPc.loop n 0, print := PrintPc.loop n 0 } := by
  rw [FillPc.loop, PrintPc.loop]
  split
  · next hn =>
      constructor <;> simp [FillPc.holds, PrintPc.holds, FillPc.added, PrintPc.added, hn]
  · next hn =>
      constructor <;> simp [FillPc.holds, PrintPc.holds, FillPc.added, PrintPc.added]
      all_goals omega

section Steps

variable {n : ℕ} {s t : Program} {rand : ℤ}

theorem Ordered.print_not_holds (h : Ordered n s) (hmutex : s.mutex ≠ some .print) :
    s.print.holds = false :=
  Bool.eq_false_iff.2 fun hholds => hmutex (h.mutex_print.2 hholds)

theorem Ordered.fill_not_holds (h : Ordered n s) (hmutex : s.mutex ≠ some .fill) :
    s.fill.holds = false :=
  Bool.eq_false_iff.2 fun hholds => hmutex (h.mutex_fill.2 hholds)

theorem Ordered.print_ne_out (h : Ordered n s) (hfill : s.fill.holds = true) :
    s.print.holds = false ∧ s.print ≠ .out := by
  have hmutex : s.mutex ≠ some .print := by
    rw [h.mutex_fill.2 hfill]
    simp
  have hholds := h.print_not_holds hmutex
  refine ⟨hholds, fun hout => ?_⟩
  rw [hout] at hholds
  cases hholds

theorem Ordered.fillStep (h : Ordered n s) (hs : s.fillStep n rand = some t) : Ordered n t := by
  have hfill := h.mutex_fill
  have hnumbers := h.length_numbers
  have hlt := h.fillI_lt
  have hexcluded := h.print_ne_out
  have hfree := h.print_not_holds
  obtain ⟨-, hprint', -, -, -, hprinted, hlt', heq', hnext, htested, hprints⟩ := h
  cases hpc : s.fill with
  | lock =>
      rw [hpc] at hnumbers hlt
      simp only [Program.fillStep, hpc] at hs
      obtain ⟨hmutex, hs⟩ := Option.ite_none_right_eq_some.1 hs
      cases hs
      have hprint := hfree (by rw [hmutex]; simp)
      exact ⟨by simp [FillPc.holds], by simp [hprint], hnumbers, fun _ => hlt (by simp), by simp,
        hprinted, hlt', heq', hnext, htested, hprints⟩
  | pushBack =>
      rw [hpc] at hfill hnumbers hlt hexcluded
      obtain ⟨hprint, hout⟩ := hexcluded rfl
      simp only [Program.fillStep, hpc, Option.some.injEq] at hs
      cases hs
      refine ⟨hfill, hprint', ?_, fun _ => hlt (by simp), by simp, hprinted, hlt', heq', hnext,
        fun h => absurd h hout, hprints.trans (List.prefix_append _ _)⟩
      simpa [FillPc.added] using hnumbers
  | notifyAll =>
      rw [hpc] at hfill hnumbers hlt hexcluded
      simp only [Program.fillStep, hpc, Option.some.injEq] at hs
      cases hs
      exact ⟨hfill, by simpa using hprint', hnumbers, fun _ => hlt (by simp), by simp,
        by simpa using hprinted, by simpa using hlt', by simpa using heq', hnext,
        by simpa using htested, hprints⟩
  | wait =>
      rw [hpc] at hfill hnumbers hlt hexcluded
      obtain ⟨hprint, hout⟩ := hexcluded rfl
      simp only [Program.fillStep, hpc, Option.some.injEq] at hs
      cases hs
      exact ⟨by simp [FillPc.holds], by simp [hprint], hnumbers, fun _ => hlt (by simp), by simp,
        hprinted, hlt', heq', hnext, htested, hprints⟩
  | blocked => simp [Program.fillStep, hpc] at hs
  | woken =>
      rw [hpc] at hnumbers hlt
      simp only [Program.fillStep, hpc] at hs
      obtain ⟨hmutex, hs⟩ := Option.ite_none_right_eq_some.1 hs
      cases hs
      have hprint := hfree (by rw [hmutex]; simp)
      exact ⟨by simp [FillPc.holds], by simp [hprint], hnumbers, fun _ => hlt (by simp), by simp,
        hprinted, hlt', heq', hnext, htested, hprints⟩
  | unlock =>
      rw [hpc] at hfill hnumbers hlt hexcluded
      obtain ⟨hprint, hout⟩ := hexcluded rfl
      simp only [Program.fillStep, hpc, Option.some.injEq] at hs
      cases hs
      have hi : s.fillI < n := hlt (by simp)
      refine ⟨by simp [holds_loop_fill], by simp [hprint], ?_, ?_, ?_, hprinted, hlt', heq', hnext,
        htested, hprints⟩
      · rw [hnumbers]
        simp only [FillPc.loop]
        split <;> rfl
      · simp only [FillPc.loop]
        split <;> simp_all
      · simp only [FillPc.loop]
        split
        · simp
        · intro _
          omega
  | done => simp [Program.fillStep, hpc] at hs

theorem append_getLast {l numbers : List ℤ} (h : l <+: numbers)
    (hlength : numbers.length = l.length + 1) : l ++ numbers.getLast?.toList = numbers := by
  obtain ⟨rest, rfl⟩ := h
  rw [List.length_append] at hlength
  obtain ⟨x, rfl⟩ := List.length_eq_one_iff.1 (by omega : rest.length = 1)
  simp

theorem Ordered.printStep (h : Ordered n s) (hs : s.printStep n = some t) : Ordered n t := by
  have hfree := h.fill_not_holds
  obtain ⟨hfill, hprint, hnumbers, hlt, heq, hprinted, hlt', heq', hnext, htested, hprints⟩ := h
  have hother (hholds : s.print.holds = true) : s.fill.holds = false :=
    hfree (by rw [hprint.2 hholds]; simp)
  cases hpc : s.print with
  | lock =>
      rw [hpc] at hprinted hlt'
      simp only [Program.printStep, hpc] at hs
      obtain ⟨hmutex, hs⟩ := Option.ite_none_right_eq_some.1 hs
      cases hs
      have hfill' := hfree (by rw [hmutex]; simp)
      exact ⟨by simp [hfill'], by simp [PrintPc.holds], hnumbers, hlt, heq, hprinted,
        fun _ => hlt' (by simp), by simp, hnext, by simp, hprints⟩
  | test =>
      rw [hpc] at hprint hprinted hlt' hother
      have hfill' := hother rfl
      simp only [Program.printStep, hpc] at hs
      split at hs
      · cases hs
        exact ⟨by simp [hfill'], by simp [PrintPc.holds], hnumbers, hlt, heq, hprinted,
          fun _ => hlt' (by simp), by simp, hnext, by simp, hprints⟩
      · next hsize =>
          cases hs
          exact ⟨hfill, hprint, hnumbers, hlt, heq, hprinted, fun _ => hlt' (by simp), by simp,
            hnext, fun _ => not_not.1 hsize, hprints⟩
  | blocked => simp [Program.printStep, hpc] at hs
  | woken =>
      rw [hpc] at hprinted hlt'
      simp only [Program.printStep, hpc] at hs
      obtain ⟨hmutex, hs⟩ := Option.ite_none_right_eq_some.1 hs
      cases hs
      have hfill' := hfree (by rw [hmutex]; simp)
      exact ⟨by simp [hfill'], by simp [PrintPc.holds], hnumbers, hlt, heq, hprinted,
        fun _ => hlt' (by simp), by simp, hnext, by simp, hprints⟩
  | out =>
      have hlength := (htested hpc).trans hnext
      rw [hpc] at hprint hprinted hlt'
      simp only [Program.printStep, hpc, Option.some.injEq] at hs
      cases hs
      have hall := append_getLast hprints hlength
      refine ⟨hfill, hprint, hnumbers, hlt, heq, ?_, fun _ => hlt' (by simp), by simp, ?_, by simp,
        ?_⟩
      · rw [hall, hlength, hprinted]
        rfl
      · rw [hall, hlength, hnext]
      · simp only [hall, List.prefix_rfl]
  | notifyAll =>
      rw [hpc] at hprint hprinted hlt'
      simp only [Program.printStep, hpc, Option.some.injEq] at hs
      cases hs
      exact ⟨by simpa using hfill, hprint, by simpa using hnumbers, by simpa using hlt,
        by simpa using heq, hprinted, fun _ => hlt' (by simp), by simp, hnext, by simp, hprints⟩
  | unlock =>
      rw [hpc] at hprint hprinted hlt' hother
      have hfill' := hother rfl
      simp only [Program.printStep, hpc, Option.some.injEq] at hs
      cases hs
      have hi : s.printI < n := hlt' (by simp)
      refine ⟨by simp [hfill'], by simp [holds_loop_print], hnumbers, hlt, heq, ?_, ?_, ?_, hnext,
        ?_, hprints⟩
      · rw [hprinted]
        simp only [PrintPc.loop]
        split <;> rfl
      · simp only [PrintPc.loop]
        split <;> simp_all
      · simp only [PrintPc.loop]
        split
        · simp
        · intro _
          omega
      · simp only [PrintPc.loop]
        split <;> simp
  | done => simp [Program.printStep, hpc] at hs

theorem Ordered.step {e : Event} (h : Ordered n s) (hs : s.step n e = some t) : Ordered n t := by
  cases e with
  | fill rand => exact h.fillStep hs
  | print => exact h.printStep hs
  | wakeFill =>
      obtain ⟨hpc, hs⟩ := Option.ite_none_right_eq_some.1 hs
      cases hs
      obtain ⟨hfill, hprint, hnumbers, hlt, -, hprinted, hlt', heq', hnext, htested, hprints⟩ := h
      rw [hpc] at hfill hnumbers hlt
      exact ⟨hfill, hprint, hnumbers, fun _ => hlt (by simp), by simp, hprinted, hlt', heq', hnext,
        htested, hprints⟩
  | wakePrint =>
      obtain ⟨hpc, hs⟩ := Option.ite_none_right_eq_some.1 hs
      cases hs
      obtain ⟨hfill, hprint, hnumbers, hlt, heq, hprinted, hlt', heq', hnext, htested, hprints⟩ := h
      rw [hpc] at hprint hprinted hlt'
      exact ⟨hfill, hprint, hnumbers, hlt, heq, hprinted, fun _ => hlt' (by simp), by simp, hnext,
        by simp, hprints⟩

theorem Ordered.fillStep_print (h : Ordered n s) (hs : s.fillStep n rand = some t) :
    t.print.holds = false := by
  have hfree (hmutex : s.mutex = none) : s.print.holds = false :=
    h.print_not_holds (by rw [hmutex]; simp)
  have hexcluded (hfill : s.fill.holds = true) : s.print.holds = false := (h.print_ne_out hfill).1
  cases hpc : s.fill with
  | lock =>
      simp only [Program.fillStep, hpc] at hs
      obtain ⟨hmutex, hs⟩ := Option.ite_none_right_eq_some.1 hs
      cases hs
      exact hfree hmutex
  | woken =>
      simp only [Program.fillStep, hpc] at hs
      obtain ⟨hmutex, hs⟩ := Option.ite_none_right_eq_some.1 hs
      cases hs
      exact hfree hmutex
  | notifyAll =>
      simp only [Program.fillStep, hpc, Option.some.injEq] at hs
      cases hs
      rw [holds_notified_print]
      exact hexcluded (by rw [hpc]; rfl)
  | blocked => simp [Program.fillStep, hpc] at hs
  | done => simp [Program.fillStep, hpc] at hs
  | _ =>
      simp only [Program.fillStep, hpc, Option.some.injEq] at hs
      cases hs
      exact hexcluded (by rw [hpc]; rfl)

/-- A number is added when all others have been printed, and is printed while `fill` waits. -/
theorem HandsOver.fillStep (h : HandsOver s) (ho : Ordered n s) (hs : s.fillStep n rand = some t) :
    HandsOver t := by
  have hfree := ho.fillStep_print hs
  have hshown : t.print = .notifyAll ∨ t.print = .unlock →
      t.randomNumbers.length = t.printed.length := by
    rintro (hprint | hprint)
    · rw [hprint] at hfree
      cases hfree
    · rw [hprint] at hfree
      cases hfree
  obtain ⟨hquiet, hadded, hblocked, hawaited, -⟩ := h
  cases hpc : s.fill with
  | lock =>
      simp only [Program.fillStep, hpc] at hs
      obtain ⟨-, hs⟩ := Option.ite_none_right_eq_some.1 hs
      cases hs
      have heq := hquiet (by simp [hpc])
      exact ⟨fun _ => heq, by simp, by simp, fun _ => .inl heq, hshown⟩
  | pushBack =>
      simp only [Program.fillStep, hpc, Option.some.injEq] at hs
      cases hs
      have heq := hquiet (by simp [hpc])
      exact ⟨by simp, fun _ => by simp [heq], by simp, fun _ => .inr rfl, hshown⟩
  | notifyAll =>
      simp only [Program.fillStep, hpc, Option.some.injEq] at hs
      cases hs
      have heq := hadded (by simp [hpc])
      exact ⟨by simp, fun _ => heq, by simp, fun h => absurd h (notified_ne_blocked _), hshown⟩
  | wait =>
      simp only [Program.fillStep, hpc, Option.some.injEq] at hs
      cases hs
      have heq := hadded (by simp [hpc])
      refine ⟨by simp, by simp, fun _ => .inl heq, fun h => .inl ?_, hshown⟩
      exact (hawaited h).resolve_right (by simp [hpc])
  | blocked => simp [Program.fillStep, hpc] at hs
  | woken =>
      simp only [Program.fillStep, hpc] at hs
      obtain ⟨-, hs⟩ := Option.ite_none_right_eq_some.1 hs
      cases hs
      have heq := hquiet (by simp [hpc])
      exact ⟨fun _ => heq, by simp, by simp, fun _ => .inl heq, hshown⟩
  | unlock =>
      simp only [Program.fillStep, hpc, Option.some.injEq] at hs
      cases hs
      have heq := hquiet (by simp [hpc])
      have hloop : FillPc.loop n (s.fillI + 1) = .lock ∨ FillPc.loop n (s.fillI + 1) = .done := by
        rw [FillPc.loop]
        split <;> simp
      refine ⟨fun _ => heq, fun h => ?_, fun h => ?_, fun _ => .inl heq, hshown⟩
      · rcases hloop with hloop | hloop <;> simp [hloop] at h
      · rcases hloop with hloop | hloop <;> simp [hloop] at h
  | done => simp [Program.fillStep, hpc] at hs

theorem HandsOver.length_of_print_holds (h : HandsOver s) (ho : Ordered n s)
    (hholds : s.print.holds = true) :
    s.randomNumbers.length = s.printed.length ∨
      s.fill = .blocked ∧ s.randomNumbers.length = s.printed.length + 1 := by
  have hfill : s.fill.holds = false := ho.fill_not_holds (by rw [ho.mutex_print.2 hholds]; simp)
  cases hpc : s.fill with
  | blocked =>
      rcases h.blocked hpc with heq | ⟨heq, -⟩
      · exact .inr ⟨rfl, heq⟩
      · exact .inl heq
  | pushBack => rw [hpc] at hfill; cases hfill
  | notifyAll => rw [hpc] at hfill; cases hfill
  | wait => rw [hpc] at hfill; cases hfill
  | _ => exact .inl (h.quiet (by simp [hpc]))

theorem HandsOver.printStep (h : HandsOver s) (ho : Ordered n s) (hs : s.printStep n = some t) :
    HandsOver t := by
  have hlength := h.length_of_print_holds ho
  obtain ⟨hquiet, hadded, hblocked, hawaited, hshown⟩ := h
  cases hpc : s.print with
  | lock =>
      simp only [Program.printStep, hpc] at hs
      obtain ⟨-, hs⟩ := Option.ite_none_right_eq_some.1 hs
      cases hs
      refine ⟨hquiet, hadded, fun h => .inl ?_, by simp, by simp⟩
      exact (hblocked h).resolve_right (by simp [hpc])
  | test =>
      simp only [Program.printStep, hpc] at hs
      have hblocked' (h : s.fill = .blocked) :
          s.randomNumbers.length = s.printed.length + 1 :=
        (hblocked h).resolve_right (by simp [hpc])
      split at hs
      · next hsize =>
          cases hs
          refine ⟨hquiet, hadded, fun h => .inl (hblocked' h), fun _ => .inl ?_, by simp⟩
          have hnext := ho.nextSize
          rcases hlength (by rw [hpc]; rfl) with heq | ⟨-, heq⟩
          · exact heq
          · exact absurd (heq.trans hnext.symm) hsize
      · cases hs
        exact ⟨hquiet, hadded, fun h => .inl (hblocked' h), by simp, by simp⟩
  | blocked => simp [Program.printStep, hpc] at hs
  | woken =>
      simp only [Program.printStep, hpc] at hs
      obtain ⟨-, hs⟩ := Option.ite_none_right_eq_some.1 hs
      cases hs
      refine ⟨hquiet, hadded, fun h => .inl ?_, by simp, by simp⟩
      exact (hblocked h).resolve_right (by simp [hpc])
  | out =>
      have heq : s.randomNumbers.length = s.printed.length + 1 :=
        (ho.tested hpc).trans ho.nextSize
      obtain ⟨hfill, -⟩ := (hlength (by rw [hpc]; rfl)).resolve_left (by omega)
      simp only [Program.printStep, hpc, Option.some.injEq] at hs
      cases hs
      have hall := append_getLast ho.prints heq
      exact ⟨by simp [hfill], by simp [hfill], fun _ => .inr ⟨by rw [hall], rfl⟩, by simp,
        fun _ => by rw [hall]⟩
  | notifyAll =>
      have heq := hshown (.inl hpc)
      have hfill : s.fill.holds = false := ho.fill_not_holds (by
        rw [ho.mutex_print.2 (by rw [hpc]; rfl)]
        simp)
      simp only [Program.printStep, hpc, Option.some.injEq] at hs
      cases hs
      refine ⟨fun _ => heq, fun h => ?_, fun h => absurd h (notified_ne_blocked_fill _), by simp,
        fun _ => heq⟩
      rw [← holds_notified_fill] at hfill
      rcases h with h | h
      · rw [show s.fill.notified = .notifyAll from h] at hfill
        cases hfill
      · rw [show s.fill.notified = .wait from h] at hfill
        cases hfill
  | unlock =>
      have heq := hshown (.inr hpc)
      simp only [Program.printStep, hpc, Option.some.injEq] at hs
      cases hs
      have hloop : PrintPc.loop n (s.printI + 1) = .lock ∨
          PrintPc.loop n (s.printI + 1) = .done := by
        rw [PrintPc.loop]
        split <;> simp
      refine ⟨hquiet, hadded, fun h => .inl ?_, fun _ => .inl heq, fun _ => heq⟩
      exact (hblocked h).resolve_right (by simp [hpc])
  | done => simp [Program.printStep, hpc] at hs

theorem HandsOver.step {e : Event} (h : HandsOver s) (ho : Ordered n s) (he : Steady s e)
    (hs : s.step n e = some t) : HandsOver t := by
  cases e with
  | fill rand => exact h.fillStep ho hs
  | print => exact h.printStep ho hs
  | wakeFill => exact absurd rfl he
  | wakePrint =>
      obtain ⟨hpc, hs⟩ := Option.ite_none_right_eq_some.1 hs
      cases hs
      refine ⟨h.quiet, h.added, fun hb => .inl ?_, by simp, by simp⟩
      exact (h.blocked hb).resolve_right (by simp [hpc])

theorem handsOver_start (n : ℕ) :
    HandsOver { fill := FillPc.loop n 0, print := PrintPc.loop n 0 } := by
  have hfill : FillPc.loop n 0 = .lock ∨ FillPc.loop n 0 = .done := by
    rw [FillPc.loop]
    split <;> simp
  refine ⟨fun _ => rfl, fun h => ?_, fun h => ?_, fun _ => .inl rfl, fun _ => rfl⟩
  · rcases hfill with hfill | hfill <;> simp [hfill] at h
  · rcases hfill with hfill | hfill <;> simp [hfill] at h

def fillRank (n : ℕ) (s : Program) : ℕ := 8 * (n - s.fillI) + s.fill.left

def printRank (n : ℕ) (s : Program) : ℕ :=
  10 * (n - s.printI) + s.print.left (s.randomNumbers.length - s.printed.length)

theorem left_loop_fill {i : ℕ} (hi : i < n) :
    8 * (n - (i + 1)) + (FillPc.loop n (i + 1)).left < 8 * (n - i) + 1 := by
  rw [FillPc.loop]
  split
  · change _ + 7 < _
    omega
  · change _ + 0 < _
    omega

theorem left_loop_print {i new : ℕ} (hi : i < n) :
    10 * (n - (i + 1)) + (PrintPc.loop n (i + 1)).left new < 10 * (n - i) := by
  rw [PrintPc.loop]
  split
  · change _ + 7 < _
    omega
  · change _ + 0 < _
    omega

theorem fillRank_step (ho : Ordered n s) (hs : s.fillStep n rand = some t) :
    fillRank n t < fillRank n s := by
  have hlt := ho.fillI_lt
  cases hpc : s.fill with
  | lock =>
      simp only [Program.fillStep, hpc] at hs
      obtain ⟨-, hs⟩ := Option.ite_none_right_eq_some.1 hs
      cases hs
      simp [fillRank, FillPc.left, hpc]
  | woken =>
      simp only [Program.fillStep, hpc] at hs
      obtain ⟨-, hs⟩ := Option.ite_none_right_eq_some.1 hs
      cases hs
      simp [fillRank, FillPc.left, hpc]
  | blocked => simp [Program.fillStep, hpc] at hs
  | done => simp [Program.fillStep, hpc] at hs
  | unlock =>
      simp only [Program.fillStep, hpc, Option.some.injEq] at hs
      cases hs
      rw [fillRank, fillRank, hpc]
      exact left_loop_fill (hlt (by simp [hpc]))
  | _ =>
      simp only [Program.fillStep, hpc, Option.some.injEq] at hs
      cases hs
      simp [fillRank, FillPc.left, hpc]

theorem printRank_fillStep (h : HandsOver s) (hs : s.fillStep n rand = some t) :
    printRank n t ≤ printRank n s := by
  cases hpc : s.fill with
  | lock =>
      simp only [Program.fillStep, hpc] at hs
      obtain ⟨-, hs⟩ := Option.ite_none_right_eq_some.1 hs
      cases hs
      exact Nat.le_refl _
  | woken =>
      simp only [Program.fillStep, hpc] at hs
      obtain ⟨-, hs⟩ := Option.ite_none_right_eq_some.1 hs
      cases hs
      exact Nat.le_refl _
  | pushBack =>
      simp only [Program.fillStep, hpc, Option.some.injEq] at hs
      cases hs
      have heq := h.quiet (by simp [hpc])
      rw [printRank, printRank, List.length_append, heq, Nat.sub_self]
      exact Nat.add_le_add_left (PrintPc.left_le _ _) _
  | notifyAll =>
      simp only [Program.fillStep, hpc, Option.some.injEq] at hs
      cases hs
      have heq := h.added (by simp [hpc])
      rw [printRank, printRank, heq, Nat.add_sub_cancel_left]
      exact Nat.add_le_add_left (PrintPc.left_notified _) _
  | blocked => simp [Program.fillStep, hpc] at hs
  | done => simp [Program.fillStep, hpc] at hs
  | _ =>
      simp only [Program.fillStep, hpc, Option.some.injEq] at hs
      cases hs
      exact Nat.le_refl _

theorem printRank_step (h : HandsOver s) (ho : Ordered n s) (hs : s.printStep n = some t) :
    printRank n t < printRank n s := by
  have hlength := h.length_of_print_holds ho
  have hlt := ho.printI_lt
  cases hpc : s.print with
  | lock =>
      simp only [Program.printStep, hpc] at hs
      obtain ⟨-, hs⟩ := Option.ite_none_right_eq_some.1 hs
      cases hs
      rw [printRank, printRank, hpc]
      exact Nat.add_lt_add_left (PrintPc.left_test_lt _).1 _
  | woken =>
      simp only [Program.printStep, hpc] at hs
      obtain ⟨-, hs⟩ := Option.ite_none_right_eq_some.1 hs
      cases hs
      rw [printRank, printRank, hpc]
      exact Nat.add_lt_add_left (PrintPc.left_test_lt _).2 _
  | test =>
      simp only [Program.printStep, hpc] at hs
      have hnext := ho.nextSize
      split at hs
      · next hsize =>
          cases hs
          rcases hlength (by rw [hpc]; rfl) with heq | ⟨-, heq⟩
          · simp [printRank, PrintPc.left, hpc, heq]
          · exact absurd (heq.trans hnext.symm) hsize
      · next hsize =>
          cases hs
          rw [not_not, hnext] at hsize
          simp [printRank, PrintPc.left, hpc, hsize]
  | blocked => simp [Program.printStep, hpc] at hs
  | done => simp [Program.printStep, hpc] at hs
  | unlock =>
      simp only [Program.printStep, hpc, Option.some.injEq] at hs
      cases hs
      rw [printRank, printRank, hpc]
      exact left_loop_print (hlt (by simp [hpc]))
  | _ =>
      simp only [Program.printStep, hpc, Option.some.injEq] at hs
      cases hs
      simp [printRank, PrintPc.left, hpc]

theorem fillRank_printStep (hs : s.printStep n = some t) : fillRank n t ≤ fillRank n s := by
  cases hpc : s.print with
  | lock =>
      simp only [Program.printStep, hpc] at hs
      obtain ⟨-, hs⟩ := Option.ite_none_right_eq_some.1 hs
      cases hs
      exact Nat.le_refl _
  | woken =>
      simp only [Program.printStep, hpc] at hs
      obtain ⟨-, hs⟩ := Option.ite_none_right_eq_some.1 hs
      cases hs
      exact Nat.le_refl _
  | test =>
      simp only [Program.printStep, hpc] at hs
      split at hs <;> cases hs <;> exact Nat.le_refl _
  | notifyAll =>
      simp only [Program.printStep, hpc, Option.some.injEq] at hs
      cases hs
      exact Nat.add_le_add_left (FillPc.left_notified _) _
  | blocked => simp [Program.printStep, hpc] at hs
  | done => simp [Program.printStep, hpc] at hs
  | _ =>
      simp only [Program.printStep, hpc, Option.some.injEq] at hs
      cases hs
      exact Nat.le_refl _

def rank (n : ℕ) (s : Program) : ℕ := fillRank n s + printRank n s

theorem rank_statement {e : Event} (h : HandsOver s) (ho : Ordered n s) (he : e.Statement)
    (hs : s.step n e = some t) : rank n t < rank n s := by
  cases e with
  | fill rand => exact Nat.add_lt_add_of_lt_of_le (fillRank_step ho hs) (printRank_fillStep h hs)
  | print => exact Nat.add_lt_add_of_le_of_lt (fillRank_printStep hs) (printRank_step h ho hs)
  | wakeFill => exact absurd rfl he.1
  | wakePrint => exact absurd rfl he.2

/-- A spurious wake-up of `print` costs a turn of its inner loop. -/
theorem rank_wakePrint (hs : s.step n .wakePrint = some t) : rank n t ≤ rank n s + 2 := by
  obtain ⟨hpc, hs⟩ := Option.ite_none_right_eq_some.1 hs
  cases hs
  simp only [rank, fillRank, printRank, PrintPc.left, hpc]
  split <;> omega

theorem isSome_fillStep : (s.fillStep n rand).isSome ↔
    s.fill.holds = true ∨ s.mutex = none ∧ (s.fill = .lock ∨ s.fill = .woken) := by
  cases hpc : s.fill with
  | lock =>
      by_cases hmutex : s.mutex = none <;> simp [Program.fillStep, FillPc.holds, hpc, hmutex]
  | woken =>
      by_cases hmutex : s.mutex = none <;> simp [Program.fillStep, FillPc.holds, hpc, hmutex]
  | _ => simp [Program.fillStep, FillPc.holds, hpc]

theorem isSome_printStep : (s.printStep n).isSome ↔
    s.print.holds = true ∨ s.mutex = none ∧ (s.print = .lock ∨ s.print = .woken) := by
  cases hpc : s.print with
  | lock =>
      by_cases hmutex : s.mutex = none <;> simp [Program.printStep, PrintPc.holds, hpc, hmutex]
  | woken =>
      by_cases hmutex : s.mutex = none <;> simp [Program.printStep, PrintPc.holds, hpc, hmutex]
  | test =>
      by_cases hsize : s.randomNumbers.length = s.nextSize <;>
        simp [Program.printStep, PrintPc.holds, hpc, hsize]
  | _ => simp [Program.printStep, PrintPc.holds, hpc]

theorem Ordered.mutex_none (ho : Ordered n s) (hfill : s.fill.holds = false)
    (hprint : s.print.holds = false) : s.mutex = none := by
  cases hmutex : s.mutex with
  | none => rfl
  | some who =>
      cases who with
      | fill =>
          rw [ho.mutex_fill.1 hmutex] at hfill
          cases hfill
      | print =>
          rw [ho.mutex_print.1 hmutex] at hprint
          cases hprint

theorem HandsOver.not_deadlock (h : HandsOver s) (ho : Ordered n s)
    (hfinished : ¬ s.Finished) (hfill : s.fill = .blocked ∨ s.fill = .done)
    (hprint : s.print = .blocked ∨ s.print = .done) : False := by
  have hnumbers := ho.length_numbers
  have hprinted := ho.length_printed
  rcases hfill with hfill | hfill
  · have hlt := ho.fillI_lt (by simp [hfill])
    rw [hfill] at hnumbers
    rcases hprint with hprint | hprint
    · have hequal := (h.awaited hprint).resolve_right (by simp [hfill])
      have hnew := (h.blocked hfill).resolve_right (by simp [hprint])
      omega
    · have hnew := (h.blocked hfill).resolve_right (by simp [hprint])
      have heq := ho.printI_eq hprint
      rw [hprint] at hprinted
      simp only [FillPc.added, PrintPc.added] at hnumbers hprinted
      omega
  · have hequal := h.quiet (by simp [hfill])
    have heq := ho.fillI_eq hfill
    rw [hfill] at hnumbers
    rcases hprint with hprint | hprint
    · have hlt := ho.printI_lt (by simp [hprint])
      rw [hprint] at hprinted
      simp only [FillPc.added, PrintPc.added] at hnumbers hprinted
      omega
    · exact hfinished ⟨hfill, hprint⟩

/-- There is no deadlock. -/
theorem HandsOver.enabled (h : HandsOver s) (ho : Ordered n s) (hfinished : ¬ s.Finished) :
    ∃ e t, e.Statement ∧ s.step n e = some t := by
  have hfillStep (hsome : (s.fillStep n 0).isSome) : ∃ e t, e.Statement ∧ s.step n e = some t := by
    obtain ⟨t, ht⟩ := Option.isSome_iff_exists.1 hsome
    exact ⟨.fill 0, t, by simp [Event.Statement], ht⟩
  have hprintStep (hsome : (s.printStep n).isSome) : ∃ e t, e.Statement ∧ s.step n e = some t := by
    obtain ⟨t, ht⟩ := Option.isSome_iff_exists.1 hsome
    exact ⟨.print, t, by simp [Event.Statement], ht⟩
  rw [isSome_fillStep] at hfillStep
  rw [isSome_printStep] at hprintStep
  cases hfill : s.fill.holds with
  | true => exact hfillStep (.inl hfill)
  | false =>
      cases hprint : s.print.holds with
      | true => exact hprintStep (.inl hprint)
      | false =>
          have hmutex := ho.mutex_none hfill hprint
          rcases FillPc.cases_of_not_holds hfill with hfill | hfill
          · exact hfillStep (.inr ⟨hmutex, hfill⟩)
          · rcases PrintPc.cases_of_not_holds hprint with hprint | hprint
            · exact hprintStep (.inr ⟨hmutex, hprint⟩)
            · exact absurd (h.not_deadlock ho hfinished hfill hprint) id

end Steps

section Runs

variable {n : ℕ} {s t : Program} {es : List Event}

theorem rank_start (n : ℕ) :
    rank n { fill := FillPc.loop n 0, print := PrintPc.loop n 0 } ≤ 18 * n + 14 := by
  rw [rank, fillRank, printRank, FillPc.loop, PrintPc.loop]
  split
  · simp only [FillPc.left, PrintPc.left]
    omega
  · simp only [FillPc.left, PrintPc.left]
    omega

/-- Every statement of a run reduces the rank. -/
theorem HandsOver.exec (h : HandsOver s) (ho : Ordered n s)
    (hes : (condition n).execWhile Steady s es = some t) :
    (HandsOver t ∧ Ordered n t) ∧
      es.countP (fun e => e.Statement) + rank n t ≤ rank n s + 2 * es.count .wakePrint := by
  induction es generalizing s with
  | nil =>
      cases hes
      exact ⟨⟨h, ho⟩, by simp⟩
  | cons e es ih =>
      obtain ⟨he, hes⟩ := Option.ite_none_right_eq_some.1 hes
      obtain ⟨u, hu, hes⟩ := Option.bind_eq_some_iff.1 hes
      have hu' : s.step n e = some u := hu
      obtain ⟨hinv, hrank⟩ := ih (h.step ho he hu') (ho.step hu') hes
      refine ⟨hinv, ?_⟩
      rw [List.countP_cons, List.count_cons]
      by_cases hstatement : e.Statement
      · have hlt := rank_statement h ho hstatement hu'
        have hne : (e == .wakePrint) = false := by simpa using hstatement.2
        rw [if_pos (by simpa using hstatement), hne, if_neg (by simp)]
        omega
      · obtain rfl : e = .wakePrint := by
          by_contra hne
          exact hstatement ⟨he, hne⟩
        have hle := rank_wakePrint hu'
        rw [if_neg (by simp [Event.Statement]), if_pos (by simp)]
        omega

/-- As long as the wait of `fill` does not end spuriously, each number is printed before
the next one is added, the threads end when all numbers have been printed, until then one
of them can go on, and it does so a bounded number of times. -/
theorem hand_off (hinit : (condition n).init s)
    (hes : (condition n).execWhile Steady s es = some t) :
    t.printed <+: t.randomNumbers ∧ t.randomNumbers.length ≤ t.printed.length + 1 ∧
      (t.Finished → t.printed = t.randomNumbers ∧ t.printed.length = n) ∧
      (¬ t.Finished → ∃ e u, e.Statement ∧ t.step n e = some u) ∧
      es.countP (fun e => e.Statement) ≤ 18 * n + 14 + 2 * es.count .wakePrint := by
  cases hinit
  obtain ⟨⟨h, ho⟩, hcount⟩ := (handsOver_start n).exec (ordered_start n) hes
  have hstart := rank_start n
  refine ⟨ho.prints, ?_, fun hfinished => ?_, h.enabled ho, by omega⟩
  · cases hpc : t.fill with
    | notifyAll => exact Nat.le_of_eq (h.added (.inl hpc))
    | wait => exact Nat.le_of_eq (h.added (.inr hpc))
    | blocked =>
        rcases h.blocked hpc with heq | ⟨heq, -⟩
        · exact Nat.le_of_eq heq
        · omega
    | _ =>
        have heq := h.quiet (by simp [hpc])
        omega
  · obtain ⟨hfill, hprint⟩ := hfinished
    have heq := h.quiet (by simp [hfill])
    refine ⟨ho.prints.eq_of_length heq.symm, ?_⟩
    rw [ho.length_printed, ho.printI_eq hprint, hprint]
    rfl

theorem hand_off_three :
    ∃ t : Program, t.Finished ∧ t.printed = t.randomNumbers ∧ t.printed = [5, 7, 9] := by
  let round (rand : ℤ) : List Event :=
    List.replicate 4 (.fill rand) ++ List.replicate 5 .print ++ List.replicate 2 (.fill rand)
  have hrun : ((condition 3).execWhile Steady { fill := .lock, print := .lock }
      (round 5 ++ round 7 ++ round 9)).isSome := by decide
  obtain ⟨t, ht⟩ := Option.isSome_iff_exists.1 hrun
  have hlast : t.Finished ∧ t.printed = [5, 7, 9] := by
    cases ht
    decide
  exact ⟨t, hlast.1, ((hand_off rfl ht).2.2.1 hlast.1).1, hlast.2⟩

/-- Two numbers that have not been printed: `print` waits for a size that is past. -/
theorem late_step {e : Event} (ho : Ordered n s)
    (hlate : s.printed.length + 2 ≤ s.randomNumbers.length) (hs : s.step n e = some t) :
    t.printed = s.printed ∧ s.randomNumbers.length ≤ t.randomNumbers.length := by
  cases e with
  | fill rand =>
      cases hpc : s.fill with
      | lock =>
          simp only [Program.step, Program.fillStep, hpc] at hs
          obtain ⟨-, hs⟩ := Option.ite_none_right_eq_some.1 hs
          cases hs
          exact ⟨rfl, Nat.le_refl _⟩
      | woken =>
          simp only [Program.step, Program.fillStep, hpc] at hs
          obtain ⟨-, hs⟩ := Option.ite_none_right_eq_some.1 hs
          cases hs
          exact ⟨rfl, Nat.le_refl _⟩
      | pushBack =>
          simp only [Program.step, Program.fillStep, hpc, Option.some.injEq] at hs
          cases hs
          exact ⟨rfl, by simp⟩
      | blocked => simp [Program.step, Program.fillStep, hpc] at hs
      | done => simp [Program.step, Program.fillStep, hpc] at hs
      | _ =>
          simp only [Program.step, Program.fillStep, hpc, Option.some.injEq] at hs
          cases hs
          exact ⟨rfl, Nat.le_refl _⟩
  | print =>
      cases hpc : s.print with
      | lock =>
          simp only [Program.step, Program.printStep, hpc] at hs
          obtain ⟨-, hs⟩ := Option.ite_none_right_eq_some.1 hs
          cases hs
          exact ⟨rfl, Nat.le_refl _⟩
      | woken =>
          simp only [Program.step, Program.printStep, hpc] at hs
          obtain ⟨-, hs⟩ := Option.ite_none_right_eq_some.1 hs
          cases hs
          exact ⟨rfl, Nat.le_refl _⟩
      | test =>
          simp only [Program.step, Program.printStep, hpc] at hs
          split at hs <;> cases hs <;> exact ⟨rfl, Nat.le_refl _⟩
      | out =>
          have hsize := (ho.tested hpc).trans ho.nextSize
          omega
      | blocked => simp [Program.step, Program.printStep, hpc] at hs
      | done => simp [Program.step, Program.printStep, hpc] at hs
      | _ =>
          simp only [Program.step, Program.printStep, hpc, Option.some.injEq] at hs
          cases hs
          exact ⟨rfl, Nat.le_refl _⟩
  | wakeFill =>
      obtain ⟨-, hs⟩ := Option.ite_none_right_eq_some.1 hs
      cases hs
      exact ⟨rfl, Nat.le_refl _⟩
  | wakePrint =>
      obtain ⟨-, hs⟩ := Option.ite_none_right_eq_some.1 hs
      cases hs
      exact ⟨rfl, Nat.le_refl _⟩

theorem ordered_of_reachable (h : (condition n).Reachable s) : Ordered n s := by
  refine h.invariant ?_ fun s e t ih _ hs => ih.step hs
  rintro s rfl
  exact ordered_start n

/-- Once a number was added before the last one had been printed, nothing is printed any
more and the program does not end, whatever happens. -/
theorem printed_of_late (h : (condition n).Reachable s)
    (hlate : s.printed.length + 2 ≤ s.randomNumbers.length)
    (hes : (condition n).exec s es = some t) : t.printed = s.printed ∧ ¬ t.Finished := by
  have hlater : (Ordered n t ∧ t.printed.length + 2 ≤ t.randomNumbers.length) ∧
      t.printed = s.printed := by
    refine exec_invariant (I := fun u => (Ordered n u ∧
      u.printed.length + 2 ≤ u.randomNumbers.length) ∧ u.printed = s.printed) ?_
      ⟨⟨ordered_of_reachable h, hlate⟩, rfl⟩ hes
    rintro u e v ⟨⟨ho, hlate⟩, hprinted⟩ hs
    obtain ⟨hsame, hle⟩ := late_step ho hlate hs
    rw [hsame]
    exact ⟨⟨Ordered.step ho hs, Nat.le_trans hlate hle⟩, hprinted⟩
  obtain ⟨⟨ho, hlate'⟩, hprinted⟩ := hlater
  refine ⟨hprinted, ?_⟩
  rintro ⟨hfill, hprint⟩
  have hnumbers := ho.length_numbers
  have hlength := ho.length_printed
  rw [ho.fillI_eq hfill, hfill] at hnumbers
  rw [ho.printI_eq hprint, hprint] at hlength
  simp only [FillPc.added, PrintPc.added] at hnumbers hlength
  omega

/-- A single spurious wake-up of `fill` is enough. -/
theorem printed_of_late_sample :
    ∃ s : Program, (condition 3).Reachable s ∧ s.randomNumbers = [5, 7] ∧ s.printed = [] ∧
      ∀ es t, (condition 3).exec s es = some t → t.printed = [] ∧ ¬ t.Finished := by
  have hexec : (condition 3).exec { fill := .lock, print := .lock }
      [.fill 0, .fill 5, .fill 0, .fill 0, .wakeFill, .fill 0, .fill 0, .fill 0, .fill 7] =
        some
          { mutex := some .fill, randomNumbers := [5, 7], fill := .notifyAll, fillI := 1,
            print := .lock } := rfl
  have hrun := Reachable.exec (.init rfl) hexec
  exact ⟨_, hrun, rfl, rfl, fun es t hes => printed_of_late hrun (by decide) hes⟩

end Runs

end Program

end MultiThreading
