import BoostSamples.Numeral.Digits
import Mathlib.Data.List.TakeWhile

/-!
# Formatted input from a sequence of characters

`Input` is a stream of characters with the two flags an extraction sets: the end was
reached, the extraction failed. `word`, `unsigned` and `getline` are the extractions of
a string, of an unsigned number and of a line, and `read` is the one without a format.
The lemmas of each say what it leaves of an input that starts with what it is looking
for, whatever follows.
-/

namespace Text

structure Input (α : Type*) where
  chars : List α
  eof : Bool := false
  fail : Bool := false
  deriving DecidableEq

namespace Input

section Extraction

variable {α : Type*}

def good (i : Input α) : Bool := !i.eof && !i.fail

/-- The first characters, without a format; a stream with fewer fails after them. -/
def read (n : ℕ) (i : Input α) : List α × Input α :=
  if i.good then
    (i.chars.take n, ⟨i.chars.drop n, decide (i.chars.length < n), decide (i.chars.length < n)⟩)
  else ([], { i with fail := true })

/-- What comes before each formatted extraction: white space is skipped, and a stream
that is not good or has nothing else fails. -/
def skip (space : α → Bool) (i : Input α) : Input α :=
  if i.good then
    match i.chars.dropWhile space with
    | [] => ⟨[], true, true⟩
    | c :: cs => ⟨c :: cs, false, false⟩
  else { i with fail := true }

def word (space : α → Bool) (i : Input α) : List α × Input α :=
  let i := i.skip space
  if i.good then
    let rest := i.chars.dropWhile (!space ·)
    (i.chars.takeWhile (!space ·), ⟨rest, rest.isEmpty, false⟩)
  else ([], i)

theorem good_mk (cs : List α) : (⟨cs, false, false⟩ : Input α).good = true := rfl

theorem good_iff {i : Input α} : i.good = true ↔ i = ⟨i.chars, false, false⟩ := by
  cases i with
  | mk cs eof fail => cases eof <;> cases fail <;> simp [good]

theorem read_append (cs rest : List α) :
    read cs.length ⟨cs ++ rest, false, false⟩ = (cs, ⟨rest, false, false⟩) := by
  simp [read, good_mk]

theorem good_read {n : ℕ} {i : Input α} (h : (i.read n).2.good = true) :
    ∃ cs rest, cs.length = n ∧ i = ⟨cs ++ rest, false, false⟩ ∧
      i.read n = (cs, ⟨rest, false, false⟩) := by
  by_cases hi : i.good = true
  · rw [read, if_pos hi] at h ⊢
    have hn : ¬ i.chars.length < n := fun hlt => by simp [good, hlt] at h
    refine ⟨i.chars.take n, i.chars.drop n, ?_, ?_, ?_⟩
    · rw [List.length_take, Nat.min_eq_left (Nat.not_lt.1 hn)]
    · rw [List.take_append_drop]
      exact good_iff.1 hi
    · simp [hn]
  · rw [read, if_neg hi] at h
    simp [good] at h

theorem takeWhile_append_cons {p : α → Bool} {w : List α} {c : α}
    (hw : ∀ x ∈ w, p x = true) (hc : p c = false) (rest : List α) :
    (w ++ c :: rest).takeWhile p = w ∧ (w ++ c :: rest).dropWhile p = c :: rest := by
  rw [List.takeWhile_append_of_pos hw, List.dropWhile_append_of_pos hw]
  simp [hc]

variable {space : α → Bool}

theorem skip_of_not_space {c : α} (hc : space c = false) (cs : List α) :
    skip space ⟨c :: cs, false, false⟩ = ⟨c :: cs, false, false⟩ := by
  simp [skip, good_mk, hc]

theorem skip_space {b c : α} (hb : space b = true) (hc : space c = false) (cs : List α) :
    skip space ⟨b :: c :: cs, false, false⟩ = ⟨c :: cs, false, false⟩ := by
  simp [skip, good_mk, hb, hc]

theorem word_append {w : List α} (hne : w ≠ []) (hw : ∀ x ∈ w, space x = false) {c : α}
    (hc : space c = true) (rest : List α) :
    word space ⟨w ++ c :: rest, false, false⟩ = (w, ⟨c :: rest, false, false⟩) := by
  cases w with
  | nil => exact absurd rfl hne
  | cons x w =>
      have hskip := skip_of_not_space (hw x List.mem_cons_self) (w ++ c :: rest)
      obtain ⟨htake, hdrop⟩ := takeWhile_append_cons (p := (!space ·)) (c := c)
        (fun y hy => by rw [hw y hy]; rfl) (by rw [hc]; rfl) rest
      rw [List.cons_append] at htake hdrop ⊢
      simp only [word, hskip, good_mk, if_true, htake, hdrop, List.isEmpty_cons]

theorem word_chars (cs : List α) :
    (word space ⟨cs, false, false⟩).1 = (cs.dropWhile space).takeWhile (!space ·) := by
  cases hdrop : cs.dropWhile space with
  | nil => simp [word, skip, hdrop, good]
  | cons c rest => simp [word, skip, good_mk, hdrop]

theorem word_of_not_good {i : Input α} (h : ¬ i.good = true) : (word space i).1 = [] := by
  have hskip : i.skip space = { i with fail := true } := by rw [skip, if_neg h]
  have hgood : ¬ ({ i with fail := true } : Input α).good = true := by simp [good]
  rw [word, hskip]
  simp only [if_neg hgood]

theorem word_between {blank w rest : List α} (hblank : ∀ c ∈ blank, space c = true)
    (hw : ∀ c ∈ w, space c = false) (hne : w ≠ []) (hrest : ∀ c ∈ rest.head?, space c = true) :
    (word space ⟨blank ++ (w ++ rest), false, false⟩).1 = w := by
  have hw' : ∀ c ∈ w, (!space c) = true := fun c hc => by rw [hw c hc]; rfl
  have hskip : (w ++ rest).dropWhile space = w ++ rest := by
    cases w with
    | nil => exact absurd rfl hne
    | cons x w => simp [hw x List.mem_cons_self]
  rw [word_chars, List.dropWhile_append_of_pos hblank, hskip,
    List.takeWhile_append_of_pos hw']
  cases rest with
  | nil => rw [List.takeWhile_nil, List.append_nil]
  | cons c rest => simp [hrest c rfl]

theorem exists_between {i : Input α} (h : (word space i).1 ≠ []) :
    ∃ blank rest, i = ⟨blank ++ ((word space i).1 ++ rest), false, false⟩ ∧
      (∀ c ∈ blank, space c = true) ∧ (∀ c ∈ (word space i).1, space c = false) ∧
      ∀ c ∈ rest.head?, space c = true := by
  by_cases hi : i.good = true
  · obtain ⟨cs, rfl⟩ : ∃ cs, i = ⟨cs, false, false⟩ := ⟨i.chars, good_iff.1 hi⟩
    rw [word_chars]
    refine ⟨cs.takeWhile space, (cs.dropWhile space).dropWhile (!space ·), ?_, ?_, ?_, ?_⟩
    · simp only [List.takeWhile_append_dropWhile]
    · exact fun c hc => List.mem_takeWhile_imp hc
    · exact fun c hc => by simpa using List.mem_takeWhile_imp hc
    · intro c hc
      have hhead := List.head?_dropWhile_not (!space ·) (cs.dropWhile space)
      rw [Option.mem_def.1 hc] at hhead
      simpa using hhead
  · exact absurd (word_of_not_good hi) h

end Extraction

def isSpace (c : Char) : Bool := c = ' ' || ('\t' ≤ c && c ≤ '\r')

def decimal (ds : List Char) : ℕ := Numeral.value 10 (ds.map fun c => c.toNat - '0'.toNat)

/-- A number of at most `bound`, with an optional sign; the negative of a number is
taken modulo `bound + 1`. Without digits and above the bound the extraction fails. -/
def unsigned (bound : ℕ) (i : Input Char) : ℕ × Input Char :=
  let i := i.skip isSpace
  if i.good then
    let negative := i.chars.head? == some '-'
    let cs := if i.chars.head? == some '+' || negative then i.chars.drop 1 else i.chars
    let ds := cs.takeWhile Char.isDigit
    let rest := cs.dropWhile Char.isDigit
    if ds = [] then (0, ⟨rest, rest.isEmpty, true⟩)
    else if bound < decimal ds then (bound, ⟨rest, rest.isEmpty, true⟩)
    else
      (if negative then (bound + 1 - decimal ds) % (bound + 1) else decimal ds,
        ⟨rest, rest.isEmpty, false⟩)
  else (0, i)

/-- Extracts a line and the newline behind it, or what there is up to the end; without
any character the extraction fails. -/
def getline (i : Input Char) : List Char × Input Char :=
  if i.good then
    match i.chars.dropWhile (· != '\n') with
    | [] => (i.chars, ⟨[], true, i.chars.isEmpty⟩)
    | _ :: rest => (i.chars.takeWhile (· != '\n'), ⟨rest, false, false⟩)
  else ([], { i with fail := true })

theorem not_space_of_isDigit {c : Char} (h : c.isDigit = true) : isSpace c = false := by
  have hlow : '0'.toNat ≤ c.toNat := by
    simp only [Char.isDigit, Bool.and_eq_true, decide_eq_true_eq] at h
    exact h.1
  simp only [isSpace, Bool.or_eq_false_iff, decide_eq_false_iff_not, Bool.and_eq_false_iff]
  refine ⟨?_, .inr ?_⟩
  · rintro rfl
    exact absurd hlow (by decide)
  · intro hle
    exact absurd (hlow.trans hle) (by decide)

theorem unsigned_append (bound : ℕ) {ds : List Char} (hne : ds ≠ [])
    (hds : ∀ x ∈ ds, x.isDigit = true) {c : Char} (hc : c.isDigit = false) (rest : List Char) :
    unsigned bound ⟨' ' :: (ds ++ c :: rest), false, false⟩ =
      if bound < decimal ds then (bound, ⟨c :: rest, false, true⟩)
      else (decimal ds, ⟨c :: rest, false, false⟩) := by
  obtain ⟨htake, hdrop⟩ := takeWhile_append_cons hds hc rest
  cases ds with
  | nil => exact absurd rfl hne
  | cons d ds =>
      have hd := hds d List.mem_cons_self
      have hplus : d ≠ '+' := by
        rintro rfl
        exact absurd hd (by decide)
      have hminus : d ≠ '-' := by
        rintro rfl
        exact absurd hd (by decide)
      rw [List.cons_append] at htake hdrop ⊢
      simp only [unsigned, skip_space (b := ' ') rfl (not_space_of_isDigit hd), good_mk, if_true,
        List.head?_cons, Option.some.injEq, beq_iff_eq, Bool.or_eq_true, hplus, hminus,
        or_self, if_false, htake, hdrop, List.isEmpty_cons, reduceCtorEq]

theorem getline_append {l : List Char} (hl : '\n' ∉ l) (rest : List Char) :
    getline ⟨l ++ '\n' :: rest, false, false⟩ = (l, ⟨rest, false, false⟩) := by
  obtain ⟨htake, hdrop⟩ := takeWhile_append_cons (p := (· != '\n')) (c := '\n')
    (fun x hx => bne_iff_ne.2 fun h => hl (h ▸ hx)) rfl rest
  simp only [getline, good_mk, if_true, htake, hdrop]

theorem length_getline {i : Input Char} (h : i.getline.2.fail = false) :
    i.getline.2.chars.length < i.chars.length := by
  unfold getline at h ⊢
  split at h
  · next hgood =>
      rw [if_pos hgood]
      split at h
      · exact List.length_pos_iff.2 fun hnil => by rw [hnil] at h; cases h
      · next hdrop =>
          have hle := (List.dropWhile_suffix (l := i.chars) (· != '\n')).length_le
          rw [hdrop] at hle
          exact hle
  · cases h

end Input

end Text
