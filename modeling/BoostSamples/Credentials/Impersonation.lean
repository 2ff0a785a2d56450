import BoostSamples.Grammar.Phrase

/-!
# The login of the credentials sample

`Impersonation` splits a login with a grammar of Spirit Qi: characters up to a
separator, then perhaps a separator, then any characters. It is run by `phrase_parse`
with `space` as the skip parser, so white space is skipped before every character.
-/

namespace Credentials

open Grammar

abbrev Text := List UInt8

/-- `qi::space`, which is `isspace`: a blank, or one of `\\t`, `\\n`, `\\v`, `\\f` and `\\r`. -/
def space (c : UInt8) : Bool := c == 32 || (9 ≤ c && c ≤ 13)

def anyChar : Parser UInt8 UInt8 := char space fun _ => true

/-- One of the characters of `char_("\\/")`. -/
def separator (c : UInt8) : Bool := c == 92 || c == 47

def lit (c : UInt8) : Parser UInt8 UInt8 := char space (· == c)

def grammar : Parser UInt8 ((Text × Option UInt8) × Text) :=
  andThen
    (andThen (plus (difference anyChar (char space separator)))
      (optional (alternative (lit 92) (lit 47))))
    (kleene anyChar)

/-- The pair that `phrase_parse` fills; it stays empty when the parser fails. -/
def split (login : Text) : Text × Text :=
  match grammar login with
  | none => ([], [])
  | some (((first, _), second), _) => (first, second)

/-- What `Impersonation` prints. -/
inductive Logon
  | withoutDomain (user : Text)
  | withDomain (domain user : Text)
  deriving DecidableEq

/-- `Impersonation`; the password is only printed. -/
def impersonation (credentials : Text × Text) : Logon :=
  let out := split credentials.1
  if out.2.isEmpty then .withoutDomain out.1 else .withDomain out.1 out.2

def squeeze (text : Text) : Text := visible space text

def squeezedGrammar : Parser UInt8 ((Text × Option UInt8) × Text) :=
  andThen
    (andThen (plus (char noSkip fun c => !separator c))
      (optional (alternative (char noSkip (· == 92)) (char noSkip (· == 47)))))
    (kleene (char noSkip fun _ => true))

theorem sees_grammar : Sees space grammar squeezedGrammar := by
  have hdomain := (sees_char space fun _ => true).difference (sees_char space separator)
  rw [difference_char] at hdomain
  have hconsumes : Consumes (difference anyChar (char space separator)) :=
    (consumes_char space _).difference _
  apply Sees.andThen
  · apply Sees.andThen
    · exact hdomain.plus hconsumes (consumes_char noSkip _)
    · exact ((sees_char space _).alternative (sees_char space _)).optional
  · exact (sees_char space _).kleene (consumes_char space _) (consumes_char noSkip _)

theorem squeezedGrammar_append {d rest : Text} (hne : d ≠ [])
    (hd : ∀ c ∈ d, separator c = false) (hrest : ∀ c ∈ rest.head?, separator c = true) :
    squeezedGrammar (d ++ rest) = some (((d, rest.head?), rest.tail), []) := by
  have hdomain : plus (char noSkip fun c => !separator c) (d ++ rest) = some (d, rest) := by
    apply plus_append hne
    · intro c hc
      rw [hd c hc]
      rfl
    · intro c hc
      rw [hrest c hc]
      rfl
  have hmark : optional (alternative (char noSkip (· == 92)) (char noSkip (· == 47))) rest =
      some (rest.head?, rest.tail) := by
    cases rest with
    | nil => rfl
    | cons c rest =>
        have hc : separator c = true := hrest c rfl
        rw [Grammar.optional, alternative, char_cons, char_cons]
        rcases Bool.or_eq_true_iff.1 hc with h92 | h47
        · rw [if_pos h92]
          rfl
        · by_cases h92 : (c == 92) = true
          · rw [if_pos h92]
            rfl
          · rw [if_neg h92, if_pos h47]
            rfl
  rw [squeezedGrammar, andThen, andThen, hdomain, Option.bind_some, hmark, Option.map_some,
    Option.bind_some, kleene_true, Option.map_some]

theorem squeezedGrammar_eq_none {login : Text}
    (h : ∀ c ∈ login.head?, separator c = true) : squeezedGrammar login = none := by
  have hdomain : plus (char noSkip fun c => !separator c) login = none := by
    apply plus_eq_none
    intro c hc
    rw [h c hc]
    rfl
  rw [squeezedGrammar, andThen, andThen, hdomain, Option.bind_none, Option.bind_none]

/-- What the grammar makes of a login is what it makes of it without white space. -/
theorem split_eq (login : Text) :
    split login = match squeezedGrammar (squeeze login) with
      | none => ([], [])
      | some (((first, _), second), _) => (first, second) := by
  rw [split, squeeze, ← sees_grammar login]
  cases grammar login with
  | none => rfl
  | some x => rfl

theorem space_of_separator {c : UInt8} (h : separator c = true) : space c = false := by
  rcases Bool.or_eq_true_iff.1 h with h | h
  · rw [eq_of_beq h]
    rfl
  · rw [eq_of_beq h]
    rfl

theorem squeeze_ne_nil {text : Text} (h : ∃ c ∈ text, space c = false) : squeeze text ≠ [] := by
  obtain ⟨c, hc, hspace⟩ := h
  apply List.ne_nil_of_mem (a := c)
  exact List.mem_filter.2 ⟨hc, by rw [hspace]; rfl⟩

theorem separator_of_mem_squeeze {text : Text} (h : ∀ c ∈ text, separator c = false) {c : UInt8}
    (hc : c ∈ squeeze text) : separator c = false :=
  h c (List.mem_filter.1 hc).1

theorem squeeze_cons_separator {c : UInt8} (hc : separator c = true) (u : Text) :
    squeeze (c :: u) = c :: squeeze u := by
  rw [squeeze, visible_cons, space_of_separator hc]
  rfl

theorem split_domain {d : Text} (hd : ∀ x ∈ d, separator x = false)
    (hvisible : ∃ x ∈ d, space x = false) {c : UInt8} (hc : separator c = true) (u : Text) :
    split (d ++ c :: u) = (squeeze d, squeeze u) := by
  have hsqueeze : squeeze (d ++ c :: u) = squeeze d ++ c :: squeeze u := by
    rw [← squeeze_cons_separator hc]
    exact visible_append d (c :: u)
  have hmark : ∀ x ∈ (c :: squeeze u).head?, separator x = true := by
    intro x hx
    rw [← Option.mem_some.1 hx]
    exact hc
  rw [split_eq, hsqueeze, squeezedGrammar_append (squeeze_ne_nil hvisible)
    (fun x hx => separator_of_mem_squeeze hd hx) hmark]
  rfl

theorem split_alone {login : Text} (hlogin : ∀ x ∈ login, separator x = false)
    (hvisible : ∃ x ∈ login, space x = false) : split login = (squeeze login, []) := by
  have halone : squeezedGrammar (squeeze login ++ []) = some (((squeeze login, none), []), []) :=
    squeezedGrammar_append (squeeze_ne_nil hvisible)
      (fun x hx => separator_of_mem_squeeze hlogin hx) fun x hx => nomatch hx
  rw [List.append_nil] at halone
  rw [split_eq, halone]

/-- A domain, a separator and a user name are split into the domain and the user name, each
without its white space, and a login without a separator is the first part alone. -/
theorem split_squeeze :
    (∀ d c u, (∀ x ∈ d, separator x = false) → (∃ x ∈ d, space x = false) →
      separator c = true → split (d ++ c :: u) = (squeeze d, squeeze u)) ∧
    ∀ login, (∀ x ∈ login, separator x = false) → (∃ x ∈ login, space x = false) →
      split login = (squeeze login, []) := by
  constructor
  · intro d c u hd hvisible hc
    exact split_domain hd hvisible hc u
  · intro login hlogin hvisible
    exact split_alone hlogin hvisible

/-- `a b\c d` gives the domain `ab` and the user name `cd`, and `a b` the user name `ab`. -/
theorem split_squeeze_blank :
    split [97, 32, 98, 92, 99, 32, 100] = ([97, 98], [99, 100]) ∧
      split [97, 32, 98] = ([97, 98], []) :=
  have hletters : ∀ x ∈ [97, 32, 98], separator x = false := by simp [separator]
  have hvisible : ∃ x ∈ [97, 32, 98], space x = false := ⟨97, List.mem_cons_self, rfl⟩
  ⟨split_squeeze.1 [97, 32, 98] 92 [99, 32, 100] hletters hvisible rfl,
    split_squeeze.2 [97, 32, 98] hletters hvisible⟩

/-- A user name with a blank is not kept as it is. -/
theorem not_split_exact :
    ¬ ((∀ d c u, d ≠ [] → (∀ x ∈ d, separator x = false) → separator c = true →
        (∀ x ∈ u.head?, separator x = false) → split (d ++ c :: u) = (d, u)) ∧
      ∀ login, login ≠ [] → (∀ x ∈ login, separator x = false) →
        split login = (login, [])) := by
  intro h
  have hdomain : ∀ x ∈ [97], separator x = false := by simp [separator]
  have hexact := h.1 [97] 92 [98, 32, 99] (List.cons_ne_nil _ _) hdomain rfl (by simp [separator])
  have hsplit := split_eq [97, 92, 98, 32, 99]
  have hrun : squeezedGrammar ([97] ++ [92, 98, 99]) = some ((([97], some 92), [98, 99]), []) :=
    squeezedGrammar_append (List.cons_ne_nil _ _) hdomain (by simp [separator])
  have hsqueeze : squeeze [97, 92, 98, 32, 99] = [97] ++ [92, 98, 99] := rfl
  rw [hsqueeze, hrun] at hsplit
  exact absurd (hexact.symm.trans hsplit) (by decide)

theorem split_of_blank {d rest : Text} (hd : ∀ x ∈ d, space x = true)
    (hrest : ∀ x ∈ rest.head?, separator x = true) : split (d ++ rest) = ([], []) := by
  have hblank : squeeze d = [] :=
    List.filter_eq_nil_iff.2 fun x hx => by rw [hd x hx]; decide
  have hsqueeze : squeeze (d ++ rest) = squeeze rest := by
    rw [squeeze, visible_append]
    change squeeze d ++ squeeze rest = squeeze rest
    rw [hblank, List.nil_append]
  rw [split_eq, hsqueeze, squeezedGrammar_eq_none]
  cases rest with
  | nil => exact fun _ hx => nomatch hx
  | cons c rest =>
      have hc : separator c = true := hrest c rfl
      rw [squeeze_cons_separator hc]
      intro x hx
      rw [← Option.mem_some.1 hx]
      exact hc

/-- A login with a domain but no user name is taken for a user name. -/
theorem impersonation_withoutDomain {d password : Text} (hd : ∀ x ∈ d, separator x = false)
    (hvisible : ∃ x ∈ d, space x = false) {c : UInt8} (hc : separator c = true) :
    impersonation (d ++ [c], password) = impersonation (d, password) := by
  rw [impersonation, impersonation, split_domain hd hvisible hc, split_alone hd hvisible]
  rfl

end Credentials
