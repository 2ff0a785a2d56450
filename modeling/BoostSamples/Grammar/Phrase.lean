import Mathlib.Data.List.Basic
import Mathlib.Data.List.TakeWhile

/-!
# Phrase parsers

Parsers over an arbitrary alphabet whose terminals first skip what a skip parser
accepts. Repetitions are greedy and do not backtrack. A parser that fails gives no
result, and its input is read again from where it began.

What is skipped can stand between any two terminals, so such a parser only sees the
other characters: `Sees skip p q` says that `p` does on every input what `q` does on the
visible part of it. Each combinator keeps this, so a grammar with a skip parser is the
same grammar without one on the visible text.
-/

namespace Grammar

/-- A parser gives an attribute and the input behind it. -/
abbrev Parser (α β : Type*) := List α → Option (β × List α)

section Combinators

variable {α β γ : Type*}

def char (skip test : α → Bool) : Parser α α := fun input =>
  match input.dropWhile skip with
  | [] => none
  | c :: rest => if test c then some (c, rest) else none

/-- `a - b`: what the first parser accepts and the second one does not. -/
def difference (p : Parser α β) (q : Parser α γ) : Parser α β := fun input =>
  if (q input).isSome then none else p input

/-- `a | b`. -/
def alternative (p q : Parser α β) : Parser α β := fun input => (p input).or (q input)

/-- `-a`. -/
def optional (p : Parser α β) : Parser α (Option β) := fun input =>
  match p input with
  | none => some (none, input)
  | some (b, rest) => some (some b, rest)

/-- The rounds of a repetition, up to the first one that fails or reads nothing. -/
def rounds (p : Parser α β) (input : List α) : List β × List α :=
  match p input with
  | none => ([], input)
  | some (b, rest) =>
      if _ : rest.length < input.length then
        (b :: (rounds p rest).1, (rounds p rest).2)
      else ([b], rest)
termination_by input.length

theorem rounds_of_none {p : Parser α β} {input : List α} (h : p input = none) :
    rounds p input = ([], input) := by
  rw [rounds, h]

theorem rounds_of_some {p : Parser α β} {input rest : List α} {b : β}
    (h : p input = some (b, rest)) (hlt : rest.length < input.length) :
    rounds p input = (b :: (rounds p rest).1, (rounds p rest).2) := by
  rw [rounds, h]
  simp only
  rw [dif_pos hlt]

/-- `*a`. -/
def kleene (p : Parser α β) : Parser α (List β) := fun input => some (rounds p input)

/-- `+a`. -/
def plus (p : Parser α β) : Parser α (List β) := fun input =>
  if (p input).isSome then some (rounds p input) else none

/-- `a >> b`. -/
def andThen (p : Parser α β) (q : Parser α γ) : Parser α (β × γ) := fun input =>
  (p input).bind fun x => (q x.2).map fun y => ((x.1, y.1), y.2)

end Combinators

variable {α β γ : Type*} {skip : α → Bool}

def visible (skip : α → Bool) (input : List α) : List α := input.filter fun c => !skip c

@[simp] theorem visible_append (input rest : List α) :
    visible skip (input ++ rest) = visible skip input ++ visible skip rest :=
  List.filter_append ..

theorem visible_cons (c : α) (input : List α) :
    visible skip (c :: input) =
      if skip c then visible skip input else c :: visible skip input := by
  cases h : skip c <;> simp [visible, h]

theorem visible_dropWhile (input : List α) :
    visible skip (input.dropWhile skip) = visible skip input := by
  induction input with
  | nil => rfl
  | cons c input ih =>
      rw [List.dropWhile_cons]
      split
      · next hskip => rw [ih, visible_cons, if_pos hskip]
      · rfl

abbrev noSkip : α → Bool := fun _ => false

/-- A parser reads at least one character. -/
def Consumes (p : Parser α β) : Prop :=
  ∀ input b rest, p input = some (b, rest) → rest.length < input.length

/-- What a parser does on an input, seen through the skip parser, is what another one
does on the visible input. -/
def Sees (skip : α → Bool) (p q : Parser α β) : Prop :=
  ∀ input, (p input).map (Prod.map id (visible skip)) = q (visible skip input)

theorem consumes_char (skip test : α → Bool) : Consumes (char skip test) := by
  intro input b rest h
  have hlength := (List.dropWhile_sublist skip : (input.dropWhile skip).Sublist input).length_le
  unfold char at h
  split at h
  · cases h
  · next hdrop =>
      obtain ⟨-, h⟩ := Option.ite_none_right_eq_some.1 h
      cases h
      rw [hdrop, List.length_cons] at hlength
      exact hlength

theorem Consumes.difference {p : Parser α β} (hp : Consumes p) (q : Parser α γ) :
    Consumes (difference p q) := by
  intro input b rest h
  obtain ⟨-, h⟩ := Option.ite_none_left_eq_some.1 h
  exact hp _ _ _ h

theorem sees_char (skip test : α → Bool) : Sees skip (char skip test) (char noSkip test) := by
  intro input
  have hnone : (visible skip input).dropWhile noSkip = visible skip input := by
    cases visible skip input <;> rfl
  rw [char, char, hnone, ← visible_dropWhile]
  cases hdrop : input.dropWhile skip with
  | nil => rfl
  | cons c rest =>
      have hc : skip c = false := by
        have hhead := List.head?_dropWhile_not skip input
        rw [hdrop] at hhead
        simpa using hhead
      rw [visible_cons, if_neg (by rw [hc]; decide)]
      by_cases htest : test c = true
      · simp [htest]
      · simp [htest]

namespace Sees

variable {p q : Parser α β} {p' q' : Parser α γ}

theorem isSome (h : Sees skip p q) (input : List α) :
    (q (visible skip input)).isSome = (p input).isSome := by
  rw [← h input, Option.isSome_map]

theorem eq_none (h : Sees skip p q) {input : List α} (hp : p input = none) :
    q (visible skip input) = none := by
  rw [← h input, hp]
  rfl

theorem eq_some (h : Sees skip p q) {input rest : List α} {b : β}
    (hp : p input = some (b, rest)) : q (visible skip input) = some (b, visible skip rest) := by
  rw [← h input, hp]
  rfl

theorem difference (h : Sees skip p q) (h' : Sees skip p' q') :
    Sees skip (difference p p') (Grammar.difference q q') := by
  intro input
  rw [Grammar.difference, Grammar.difference, h'.isSome]
  split
  · rfl
  · exact h input

theorem alternative {r s : Parser α β} (h : Sees skip p q) (h' : Sees skip r s) :
    Sees skip (alternative p r) (Grammar.alternative q s) := by
  intro input
  rw [Grammar.alternative, Grammar.alternative, ← h, ← h', Option.map_or]

theorem optional (h : Sees skip p q) : Sees skip (optional p) (Grammar.optional q) := by
  intro input
  rw [Grammar.optional, Grammar.optional]
  cases hp : p input with
  | none =>
      rw [h.eq_none hp]
      rfl
  | some x =>
      obtain ⟨b, rest⟩ := x
      rw [h.eq_some hp]
      rfl

theorem rounds (h : Sees skip p q) (hp : Consumes p) (hq : Consumes q) (input : List α) :
    Prod.map id (visible skip) (Grammar.rounds p input) =
      Grammar.rounds q (visible skip input) := by
  fun_induction Grammar.rounds p input with
  | case1 input hnone => exact (rounds_of_none (h.eq_none hnone)).symm
  | case2 input b rest hsome hlt ih =>
      have hseen := h.eq_some hsome
      rw [rounds_of_some hseen (hq _ _ _ hseen), ← ih]
      rfl
  | case3 input b rest hsome hnot => exact absurd (hp _ _ _ hsome) hnot

theorem kleene (h : Sees skip p q) (hp : Consumes p) (hq : Consumes q) :
    Sees skip (kleene p) (Grammar.kleene q) := fun input =>
  congrArg some (h.rounds hp hq input)

theorem plus (h : Sees skip p q) (hp : Consumes p) (hq : Consumes q) :
    Sees skip (plus p) (Grammar.plus q) := by
  intro input
  rw [Grammar.plus, Grammar.plus, h.isSome]
  split
  · exact congrArg some (h.rounds hp hq input)
  · rfl

theorem andThen (h : Sees skip p q) (h' : Sees skip p' q') :
    Sees skip (andThen p p') (Grammar.andThen q q') := by
  intro input
  rw [Grammar.andThen, Grammar.andThen]
  cases hp : p input with
  | none =>
      rw [h.eq_none hp]
      rfl
  | some x =>
      obtain ⟨b, rest⟩ := x
      rw [h.eq_some hp, Option.bind_some, Option.bind_some]
      cases hp' : p' rest with
      | none =>
          rw [h'.eq_none hp']
          rfl
      | some y =>
          obtain ⟨c, rest'⟩ := y
          rw [h'.eq_some hp']
          rfl

end Sees

theorem dropWhile_append_of_skipped {z rest : List α} (hz : ∀ c ∈ z, skip c = true)
    (hrest : ∀ c ∈ rest.head?, skip c = false) : (z ++ rest).dropWhile skip = rest := by
  rw [List.dropWhile_append_of_pos hz]
  cases rest with
  | nil => rfl
  | cons c rest => rw [List.dropWhile_cons_of_neg (by simpa using hrest c rfl)]

section Literal

variable [DecidableEq α]

/-- A terminal of several characters, among which nothing is skipped. -/
def literal (skip : α → Bool) (text : List α) : Parser α (List α) := fun input =>
  if text <+: input.dropWhile skip then some (text, (input.dropWhile skip).drop text.length)
  else none

/-- `char_ - text`: a character, unless the text is next. -/
def before (skip : α → Bool) (text : List α) : Parser α α :=
  difference (char skip fun _ => true) (literal skip text)

variable {text : List α}

theorem literal_append {z rest : List α} (hz : ∀ c ∈ z, skip c = true)
    (htext : ∀ c ∈ (text ++ rest).head?, skip c = false) :
    literal skip text (z ++ (text ++ rest)) = some (text, rest) := by
  rw [literal, dropWhile_append_of_skipped hz htext, if_pos (List.prefix_append _ _),
    List.drop_left]

theorem consumes_literal (skip : α → Bool) (hne : text ≠ []) : Consumes (literal skip text) := by
  intro input b rest h
  obtain ⟨hstart, h⟩ := Option.ite_none_right_eq_some.1 h
  cases h
  have hdrop := (List.dropWhile_sublist skip : (input.dropWhile skip).Sublist input).length_le
  have hpos := List.length_pos_iff.2 hne
  have hle := hstart.length_le
  rw [List.length_drop]
  omega

theorem consumes_before (skip : α → Bool) (text : List α) : Consumes (before skip text) :=
  (consumes_char skip _).difference _

theorem before_cons_of_skip {c : α} (hc : skip c = true) (input : List α) :
    before skip text (c :: input) = before skip text input := by
  rw [before, difference, difference, literal, literal, char, char,
    List.dropWhile_cons_of_pos hc]

theorem before_stop {z rest : List α} (hz : ∀ c ∈ z, skip c = true)
    (htext : ∀ c ∈ (text ++ rest).head?, skip c = false) :
    before skip text (z ++ (text ++ rest)) = none := by
  rw [before, difference, literal_append hz htext]
  rfl

theorem before_end {z : List α} (hz : ∀ c ∈ z, skip c = true) : before skip text z = none := by
  have hnil : z.dropWhile skip = [] := List.dropWhile_eq_nil_iff.2 hz
  have hchar : char skip (fun _ => true) z = none := by
    rw [char, hnil]
  rw [before, difference, hchar, ite_self]

/-- What stands before the text, up to skipped characters, is read without them. -/
theorem rounds_before (skip : α → Bool) (text input stop : List α)
    (hstop : ∀ z, (∀ c ∈ z, skip c = true) → before skip text (z ++ stop) = none)
    (hinput : ∀ t, t <:+ input → t ≠ [] → ¬ text <+: t ++ stop) :
    ∃ z, (∀ c ∈ z, skip c = true) ∧
      rounds (before skip text) (input ++ stop) = (visible skip input, z ++ stop) := by
  induction input with
  | nil => exact ⟨[], fun _ h => absurd h List.not_mem_nil, rounds_of_none (hstop [] (by simp))⟩
  | cons c input ih =>
      obtain ⟨z, hz, hrounds⟩ := ih fun t ht => hinput t (ht.trans (List.suffix_cons c input))
      by_cases hc : skip c = true
      · have hsame : before skip text (c :: (input ++ stop)) = before skip text (input ++ stop) :=
          before_cons_of_skip hc _
        rw [visible_cons, if_pos hc]
        cases hread : before skip text (input ++ stop) with
        | none =>
            rw [rounds_of_none hread] at hrounds
            obtain ⟨hvisible, hrest⟩ := Prod.mk.inj hrounds
            refine ⟨c :: z, ?_, ?_⟩
            · intro d hd
              rcases List.mem_cons.1 hd with rfl | hd
              · exact hc
              · exact hz d hd
            · rw [List.cons_append, rounds_of_none (hsame.trans hread), ← hvisible, hrest]
              rfl
        | some x =>
            obtain ⟨b, rest⟩ := x
            refine ⟨z, hz, ?_⟩
            have hlt := consumes_before skip text _ _ _ hread
            rw [← hrounds, rounds_of_some hread hlt, List.cons_append,
              rounds_of_some (hsame.trans hread) (Nat.lt_succ_of_lt hlt)]
      · have hdrop : (c :: (input ++ stop)).dropWhile skip = c :: (input ++ stop) :=
          List.dropWhile_cons_of_neg hc
        have hread : before skip text (c :: (input ++ stop)) = some (c, input ++ stop) := by
          have hnot : ¬ text <+: c :: (input ++ stop) :=
            hinput (c :: input) (List.suffix_refl _) (by simp)
          rw [before, difference, literal, hdrop, if_neg hnot, char, hdrop]
          rfl
        refine ⟨z, hz, ?_⟩
        rw [List.cons_append, rounds_of_some hread (by simp), hrounds, visible_cons, if_neg hc]

end Literal

section Consumes

variable {p : Parser α β} {q : Parser α γ}

theorem Consumes.length_rounds_le (hp : Consumes p) (input : List α) :
    (rounds p input).2.length ≤ input.length := by
  fun_induction rounds p input with
  | case1 input hnone => exact Nat.le_refl _
  | case2 input b rest hsome hlt ih => exact Nat.le_of_lt (Nat.lt_of_le_of_lt ih hlt)
  | case3 input b rest hsome hnot => exact absurd (hp _ _ _ hsome) hnot

theorem Consumes.plus (hp : Consumes p) : Consumes (plus p) := by
  intro input bs rest h
  obtain ⟨hsome, h⟩ := Option.ite_none_right_eq_some.1 h
  obtain ⟨⟨b, mid⟩, hread⟩ := Option.isSome_iff_exists.1 hsome
  have hlt := hp _ _ _ hread
  rw [rounds_of_some hread hlt] at h
  cases h
  exact Nat.lt_of_le_of_lt (hp.length_rounds_le mid) hlt

theorem Consumes.andThen (hp : Consumes p) (hq : Consumes q) : Consumes (andThen p q) := by
  intro input bc rest h
  obtain ⟨⟨b, mid⟩, hread, h⟩ := Option.bind_eq_some_iff.1 h
  obtain ⟨⟨c, rest'⟩, hread', heq⟩ := Option.map_eq_some_iff.1 h
  cases heq
  exact Nat.lt_trans (hq _ _ _ hread') (hp _ _ _ hread)

theorem plus_of_rounds {input rest : List α} {bs : List β} (h : rounds p input = (bs, rest))
    (hne : bs ≠ []) : plus p input = some (bs, rest) := by
  rw [plus]
  cases hread : p input with
  | none =>
      rw [rounds_of_none hread] at h
      exact absurd (Prod.mk.inj h).1.symm hne
  | some x => rw [h]; rfl

end Consumes

section NoSkip

theorem char_cons (test : α → Bool) (c : α) (rest : List α) :
    char noSkip test (c :: rest) = if test c then some (c, rest) else none := rfl

theorem difference_char (test test' : α → Bool) :
    difference (char noSkip test) (char noSkip test') =
      char noSkip fun c => test c && !test' c := by
  funext input
  cases input with
  | nil => rfl
  | cons c rest =>
      rw [difference, char_cons, char_cons, char_cons]
      cases test' c <;> simp

theorem rounds_char (test : α → Bool) (input : List α) :
    rounds (char noSkip test) input = (input.takeWhile test, input.dropWhile test) := by
  induction input with
  | nil => exact rounds_of_none rfl
  | cons c rest ih =>
      rw [List.takeWhile_cons, List.dropWhile_cons]
      by_cases htest : test c = true
      · have hread : char noSkip test (c :: rest) = some (c, rest) := if_pos htest
        rw [rounds_of_some hread (by simp), ih, if_pos htest, if_pos htest]
      · have hread : char noSkip test (c :: rest) = none := if_neg htest
        rw [rounds_of_none hread, if_neg htest, if_neg htest]

/-- A repeated terminal reads what passes its test, up to a character that does not. -/
theorem rounds_append {test : α → Bool} {input rest : List α} (h : ∀ c ∈ input, test c = true)
    (hrest : ∀ c ∈ rest.head?, test c = false) :
    rounds (char noSkip test) (input ++ rest) = (input, rest) := by
  have hstop : rest.takeWhile test = [] ∧ rest.dropWhile test = rest := by
    cases rest with
    | nil => exact ⟨rfl, rfl⟩
    | cons c rest =>
        have hc : test c = false := hrest c rfl
        rw [List.takeWhile_cons, List.dropWhile_cons, hc]
        exact ⟨rfl, rfl⟩
  rw [rounds_char, List.takeWhile_append_of_pos h, List.dropWhile_append_of_pos h, hstop.1,
    hstop.2, List.append_nil]

theorem plus_append {test : α → Bool} {input rest : List α} (hne : input ≠ [])
    (h : ∀ c ∈ input, test c = true) (hrest : ∀ c ∈ rest.head?, test c = false) :
    plus (char noSkip test) (input ++ rest) = some (input, rest) := by
  obtain ⟨c, tail, rfl⟩ := List.exists_cons_of_ne_nil hne
  have hfirst : char noSkip test (c :: tail ++ rest) = some (c, tail ++ rest) :=
    if_pos (h c List.mem_cons_self)
  rw [plus, hfirst, rounds_append h hrest]
  rfl

theorem plus_eq_none {test : α → Bool} {input : List α} (h : ∀ c ∈ input.head?, test c = false) :
    plus (char noSkip test) input = none := by
  cases input with
  | nil => rfl
  | cons c rest =>
      have hc : test c = false := h c rfl
      rw [plus, char_cons, hc]
      rfl

theorem kleene_true (input : List α) :
    kleene (char noSkip fun _ => true) input = some (input, []) := by
  have hall : rounds (char noSkip fun _ => true) (input ++ []) = (input, []) :=
    rounds_append (fun _ _ => rfl) (fun _ h => nomatch h)
  rw [List.append_nil] at hall
  exact congrArg some hall

end NoSkip

end Grammar
