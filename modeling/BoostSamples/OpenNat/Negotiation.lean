import Mathlib.Logic.Function.Basic
import BoostSamples.Transition.System

/-!
# The negotiation of a direct session

What two clients are doing about one session id, without messages, endpoints and
registries. Exactly one of them has the turn: a request is on its way to it, it
is trying the endpoints of a request one after the other, or it is about to send
a request itself. A client whose endpoints have all failed bans the session and
asks the other one; a client that is asked about a banned session refuses, and
the one refused falls back to a proxy session. The bans are what stops the two
from asking each other for ever.
-/

namespace OpenNat

inductive Party
  | a
  | b
  deriving DecidableEq, Repr

namespace Party

def other : Party → Party
  | a => b
  | b => a

@[simp] theorem other_other (p : Party) : p.other.other = p := by cases p <;> rfl

theorem other_ne (p : Party) : p.other ≠ p := by cases p <;> decide

theorem eq_or_eq_other (p q : Party) : q = p ∨ q = p.other := by
  cases p <;> cases q <;> decide

end Party

/-- Whose turn it is, and for what. -/
inductive Stage
  | idle
  /-- A request is on its way to the client. -/
  | asked (p : Party)
  /-- The client has a number of endpoints left; it is about to try the first of
  them (`posted`), or is trying it. -/
  | trying (p : Party) (posted : Bool) (left : Nat)
  /-- The client is about to send a request back. -/
  | asking (p : Party)
  /-- A refusal is on its way to the client. -/
  | refused (p : Party)
  /-- An attempt of the client has succeeded. -/
  | direct (p : Party)
  /-- The client has fallen back to a proxy session. -/
  | proxied (p : Party)
  deriving DecidableEq, Repr

structure Negotiation where
  stage : Stage := .idle
  banned : Party → Bool := fun _ => false
  requests : Nat := 0
  refusals : Nat := 0
  successes : Nat := 0

namespace Negotiation

def setBan (n : Negotiation) (p : Party) (b : Bool) : Party → Bool :=
  Function.update n.banned p b

/-- What can happen next. A request offers at most two endpoints. -/
inductive Move : Negotiation → Negotiation → Prop
  | start {n : Negotiation} : n.stage = .idle →
      Move n { n with stage := .asked .b, requests := n.requests + 1 }
  | accept {n : Negotiation} {p : Party} {left : Nat} : n.stage = .asked p →
      n.banned p = false → left ≤ 2 → Move n { n with stage := .trying p true left }
  | refuse {n : Negotiation} {p : Party} : n.stage = .asked p → n.banned p = true →
      Move n { n with
        stage := .refused p.other
        banned := n.setBan p false
        refusals := n.refusals + 1 }
  | attempt {n : Negotiation} {p : Party} {left : Nat} :
      n.stage = .trying p true (left + 1) →
      Move n { n with stage := .trying p false (left + 1) }
  | fail {n : Negotiation} {p : Party} {left : Nat} : n.stage = .trying p false (left + 1) →
      Move n { n with stage := .trying p true left }
  | succeed {n : Negotiation} {p : Party} {left : Nat} : n.stage = .trying p false (left + 1) →
      Move n { n with stage := .direct p, successes := n.successes + 1 }
  | exhaust {n : Negotiation} {p : Party} : n.stage = .trying p true 0 →
      Move n { n with stage := .asking p, banned := n.setBan p true }
  | ask {n : Negotiation} {p : Party} : n.stage = .asking p →
      Move n { n with stage := .asked p.other, requests := n.requests + 1 }
  | fallBack {n : Negotiation} {p : Party} : n.stage = .refused p →
      Move n { n with stage := .proxied p, banned := n.setBan p false }

/-- The moves that are left to a client about to send a request, and after it. -/
def askingRank (n : Negotiation) (p : Party) : Nat := if n.banned p.other then 3 else 10

def rank (n : Negotiation) : Nat :=
  match n.stage with
  | .idle => 17
  | .asked p => if n.banned p then 2 else n.askingRank p + 6
  | .trying p posted left => n.askingRank p + 2 * left + if posted then 1 else 0
  | .asking p => n.askingRank p
  | .refused _ => 1
  | .direct _ => 0
  | .proxied _ => 0

def Sound (n : Negotiation) : Prop :=
  match n.stage with
  | .idle => True
  | .asked _ => True
  | .trying p posted left => n.banned p = false ∧ left ≤ 2 ∧ (posted = false → 0 < left)
  | .asking p => n.banned p = true
  | .refused p => n.banned p.other = false
  | .direct p => n.banned p = false
  | .proxied p => n.banned p = false ∧ n.banned p.other = false

variable {n m : Negotiation}

@[simp] theorem setBan_self (n : Negotiation) (p : Party) (b : Bool) : n.setBan p b p = b := by
  simp [setBan]

@[simp] theorem setBan_other (n : Negotiation) (p : Party) (b : Bool) :
    n.setBan p b p.other = n.banned p.other := by
  simp [setBan, p.other_ne]

@[simp] theorem setBan_of_other (n : Negotiation) (p : Party) (b : Bool) :
    n.setBan p.other b p = n.banned p := by
  simp [setBan, Ne.symm p.other_ne]

theorem Move.sound (h : Move n m) (hn : n.Sound) : m.Sound := by
  unfold Sound at hn ⊢
  cases h with
  | start _ => trivial
  | accept hstage hban hleft => exact ⟨hban, hleft, nofun⟩
  | refuse hstage hban => simp
  | attempt hstage =>
      rw [hstage] at hn
      exact ⟨hn.1, hn.2.1, fun _ => Nat.succ_pos _⟩
  | fail hstage =>
      rw [hstage] at hn
      exact ⟨hn.1, Nat.le_of_succ_le hn.2.1, nofun⟩
  | succeed hstage =>
      rw [hstage] at hn
      exact hn.1
  | exhaust hstage => simp
  | ask hstage => trivial
  | fallBack hstage =>
      rw [hstage] at hn
      simp [hn]

theorem Move.rank_lt (h : Move n m) (hn : n.Sound) : m.rank < n.rank := by
  unfold Sound at hn
  cases h with
  | start hstage =>
      simp only [rank, hstage, askingRank]
      repeat' split
      all_goals omega
  | accept hstage hban hleft =>
      simp only [rank, hstage, hban, askingRank, if_true, Bool.false_eq_true, if_false]
      split <;> omega
  | refuse hstage hban => simp [rank, hstage, hban]
  | attempt hstage => simp [rank, hstage, askingRank]
  | fail hstage =>
      simp only [rank, hstage, askingRank, if_true]
      split <;> omega
  | succeed hstage =>
      simp only [rank, hstage, askingRank]
      split <;> omega
  | exhaust hstage => simp [rank, hstage, askingRank]
  | ask hstage =>
      rw [hstage] at hn
      simp only [rank, hstage, askingRank, Party.other_other, hn, if_true]
      split <;> omega
  | fallBack hstage => simp [rank, hstage]

def requestsLeft (n : Negotiation) : Nat :=
  match n.stage with
  | .idle => 3
  | .asked p => if n.banned p then 0 else if n.banned p.other then 1 else 2
  | .trying p _ _ => if n.banned p.other then 1 else 2
  | .asking p => if n.banned p.other then 1 else 2
  | _ => 0

theorem Move.requests_le (h : Move n m) (hn : n.Sound) :
    m.requests + m.requestsLeft ≤ n.requests + n.requestsLeft := by
  unfold Sound at hn
  cases h with
  | start hstage =>
      simp only [requestsLeft, hstage]
      repeat' split
      all_goals omega
  | accept hstage hban _ => simp [requestsLeft, hstage, hban]
  | refuse hstage hban => simp [requestsLeft]
  | attempt hstage => simp [requestsLeft, hstage]
  | fail hstage => simp [requestsLeft, hstage]
  | succeed hstage => simp [requestsLeft]
  | exhaust hstage => simp [requestsLeft, hstage]
  | ask hstage =>
      rw [hstage] at hn
      simp only [requestsLeft, hstage, Party.other_other, hn, if_true]
      split <;> omega
  | fallBack hstage => simp [requestsLeft]

/-- The end of the negotiation is near: a refusal has been sent, or an attempt
has succeeded. -/
def settled (n : Negotiation) : Bool :=
  match n.stage with
  | .refused _ | .direct _ | .proxied _ => true
  | _ => false

def established (n : Negotiation) : Bool :=
  match n.stage with
  | .direct _ => true
  | _ => false

/-- A refusal is sent at most once, and the successes are those of the stage. -/
structure Counted (n : Negotiation) : Prop where
  refusals : n.refusals ≤ if n.settled then 1 else 0
  successes : n.successes = if n.established then 1 else 0

theorem Move.counted (h : Move n m) (hn : n.Counted) : m.Counted := by
  obtain ⟨hrefusals, hsuccesses⟩ := hn
  have hstage : ∀ stage, n.stage = stage → (n.refusals ≤ match stage with
      | .refused _ | .direct _ | .proxied _ => 1
      | _ => 0) ∧ n.successes = match stage with
      | .direct _ => 1
      | _ => 0 := by
    rintro stage rfl
    unfold settled at hrefusals
    unfold established at hsuccesses
    constructor <;> split <;> simp_all
  cases h with
  | start hidle => exact ⟨(hstage _ hidle).1, (hstage _ hidle).2⟩
  | accept hasked _ _ => exact ⟨(hstage _ hasked).1, (hstage _ hasked).2⟩
  | refuse hasked _ => exact ⟨Nat.succ_le_succ (hstage _ hasked).1, (hstage _ hasked).2⟩
  | attempt htrying => exact ⟨(hstage _ htrying).1, (hstage _ htrying).2⟩
  | fail htrying => exact ⟨(hstage _ htrying).1, (hstage _ htrying).2⟩
  | succeed htrying =>
      exact ⟨Nat.le_succ_of_le (hstage _ htrying).1, congrArg (· + 1) (hstage _ htrying).2⟩
  | exhaust htrying => exact ⟨(hstage _ htrying).1, (hstage _ htrying).2⟩
  | ask hasking => exact ⟨(hstage _ hasking).1, (hstage _ hasking).2⟩
  | fallBack hrefused => exact ⟨(hstage _ hrefused).1, (hstage _ hrefused).2⟩

/-- Whose turn it is in a negotiation that the first client has started about a
session that neither has banned. -/
def StartedByA (n : Negotiation) : Prop :=
  match n.stage with
  | .idle => n.banned .a = false ∧ n.banned .b = false
  | .asked .b => n.banned .a = n.banned .b
  | .asked .a => n.banned .a = false ∧ n.banned .b = true
  | .trying .b _ _ | .asking .b | .direct .b => n.banned .a = false
  | .trying .a _ _ | .asking .a | .direct .a => n.banned .b = true
  | .refused p | .proxied p => p = .a

theorem Move.startedByA (h : Move n m) (hsound : n.Sound) (hn : n.StartedByA) :
    m.StartedByA := by
  unfold Sound at hsound
  unfold StartedByA at hn ⊢
  cases h with
  | start hstage =>
      rw [hstage] at hn
      exact hn.1.trans hn.2.symm
  | @accept p left hstage hban hleft =>
      rw [hstage] at hn
      cases p with
      | a => exact hn.2
      | b => exact hn.trans hban
  | @refuse p hstage hban =>
      rw [hstage] at hn
      cases p with
      | a => exact nomatch hn.1.symm.trans hban
      | b => rfl
  | @attempt p left hstage =>
      rw [hstage] at hn
      cases p <;> exact hn
  | @fail p left hstage =>
      rw [hstage] at hn
      cases p <;> exact hn
  | @succeed p left hstage =>
      rw [hstage] at hn
      cases p <;> exact hn
  | @exhaust p hstage =>
      rw [hstage] at hn
      cases p with
      | a => exact (n.setBan_other .a true).trans hn
      | b => exact (n.setBan_other .b true).trans hn
  | @ask p hstage =>
      rw [hstage] at hn hsound
      cases p with
      | a => exact hsound.trans hn.symm
      | b => exact ⟨hn, hsound⟩
  | fallBack hstage =>
      rw [hstage] at hn
      exact hn

end Negotiation

end OpenNat
