import BoostSamples.Grammar.Phrase

/-!
# The header lines of the HTTP headers sample

Each line goes through a grammar of Spirit Qi, `+(+(char_ - ": ") >> ": " >> +(char_ - "\r"))`
with `_` as the skip parser, into one map. A name ends at the first `": "` and a value at
the first carriage return, and both lose their underscores. Nothing in the grammar takes the
carriage return, so in a text of several lines it becomes the first character of the next
name.
-/

namespace HttpHeaders

open Grammar

abbrev Text := List UInt8

/-- `char_('_')`, the skip parser. -/
def underscore (c : UInt8) : Bool := c == 95

/-- `": "`. -/
def colon : Text := [58, 32]

/-- `"\\r"`. -/
def carriageReturn : Text := [13]

def header : Parser UInt8 ((Text × Text) × Text) :=
  andThen (andThen (plus (before underscore colon)) (literal underscore colon))
    (plus (before underscore carriageReturn))

def grammar : Parser UInt8 (List ((Text × Text) × Text)) := plus header

abbrev Headers := Text → Option Text

/-- Inserting does not replace what is there. -/
def insert (headers : Headers) (name value : Text) : Headers :=
  if (headers name).isSome then headers else Function.update headers name (some value)

/-- `phrase_parse` on a line. -/
def parse (headers : Headers) (line : Text) : Headers :=
  match grammar line with
  | none => headers
  | some (fields, _) => fields.foldl (fun headers x => insert headers x.1.1 x.2) headers

def parseAll (lines : List Text) : Headers := lines.foldl parse fun _ => none

/-- A name and a value that the grammar can tell apart. -/
structure Field where
  name : Text
  value : Text
  name_ne : visible underscore name ≠ []
  value_ne : visible underscore value ≠ []
  name_colon : ¬ colon <:+: name
  value_return : 13 ∉ value

namespace Field

def line (f : Field) : Text := f.name ++ (colon ++ (f.value ++ carriageReturn))

def stored (f : Field) : Text × Text := (visible underscore f.name, visible underscore f.value)

end Field

section Parsing

variable {name value rest text : Text}

theorem not_colon_isPrefix (hname : ¬ colon <:+: name) {t : Text} (ht : t <:+ name)
    (hne : t ≠ []) : ¬ colon <+: t ++ (colon ++ rest) := by
  intro hstart
  obtain ⟨c, t, rfl⟩ := List.exists_cons_of_ne_nil hne
  obtain ⟨tail, htail⟩ := hstart
  cases t with
  | nil =>
      simp only [colon, List.cons_append, List.nil_append, List.cons.injEq] at htail
      exact absurd htail.2.1 (by decide)
  | cons d t =>
      simp only [colon, List.cons_append, List.nil_append, List.cons.injEq] at htail
      obtain ⟨rfl, rfl, -⟩ := htail
      exact hname (((List.prefix_append [58, 32] t).isInfix).trans ht.isInfix)

theorem not_return_isPrefix (hvalue : 13 ∉ value) {t : Text} (ht : t <:+ value) (hne : t ≠ []) :
    ¬ carriageReturn <+: t ++ rest := by
  intro hstart
  obtain ⟨c, t, rfl⟩ := List.exists_cons_of_ne_nil hne
  obtain ⟨tail, htail⟩ := hstart
  simp only [carriageReturn, List.cons_append, List.nil_append, List.cons.injEq] at htail
  obtain ⟨rfl, -⟩ := htail
  exact hvalue (ht.subset List.mem_cons_self)

theorem not_colon_isInfix (h : 58 ∉ text) : ¬ colon <:+: text :=
  fun hinside => h (hinside.subset List.mem_cons_self)

theorem header_append (rest : Text) (hname : ¬ colon <:+: name)
    (hname' : visible underscore name ≠ []) (hvalue : 13 ∉ value)
    (hvalue' : visible underscore value ≠ []) :
    ∃ z, (∀ c ∈ z, underscore c = true) ∧
      header (name ++ (colon ++ (value ++ (carriageReturn ++ rest)))) =
        some (((visible underscore name, colon), visible underscore value),
          z ++ (carriageReturn ++ rest)) := by
  have hcolon (tail : Text) : ∀ c ∈ (colon ++ tail).head?, underscore c = false := by
    rintro c ⟨⟩
    rfl
  have hreturn : ∀ c ∈ (carriageReturn ++ rest).head?, underscore c = false := by
    rintro c ⟨⟩
    rfl
  obtain ⟨y, hy, hfirst⟩ := rounds_before underscore colon name
    (colon ++ (value ++ (carriageReturn ++ rest))) (fun z hz => before_stop hz (hcolon _))
    fun t ht hne => not_colon_isPrefix hname ht hne
  obtain ⟨z, hz, hsecond⟩ := rounds_before underscore carriageReturn value
    (carriageReturn ++ rest) (fun z hz => before_stop hz hreturn)
    fun t ht hne => not_return_isPrefix hvalue ht hne
  refine ⟨z, hz, ?_⟩
  rw [header, andThen, andThen, plus_of_rounds hfirst hname', Option.bind_some,
    literal_append hy (hcolon _), Option.map_some, Option.bind_some,
    plus_of_rounds hsecond hvalue', Option.map_some]

theorem header_eq_none (h : ¬ colon <:+: text) : header text = none := by
  obtain ⟨z, hz, hrounds⟩ := rounds_before underscore colon text []
    (fun z hz => by rw [List.append_nil]; exact before_end hz) (by
      intro t ht _ hstart
      rw [List.append_nil] at hstart
      exact h (hstart.isInfix.trans ht.isInfix))
  rw [List.append_nil, List.append_nil] at hrounds
  have hliteral : literal underscore colon z = none := by
    rw [literal, List.dropWhile_eq_nil_iff.2 hz]
    rfl
  rw [header, andThen, andThen, plus]
  split
  · rw [hrounds, Option.bind_some, hliteral]
    rfl
  · rfl

end Parsing

section Lines

theorem consumes_header : Consumes header :=
  ((consumes_before underscore colon).plus.andThen
    (consumes_literal underscore (by decide))).andThen
      (consumes_before underscore carriageReturn).plus

theorem not_colon_append {before name : Text} (hbefore : 58 ∉ before)
    (hname : ¬ colon <:+: name) : ¬ colon <:+: before ++ name := by
  induction before with
  | nil => exact hname
  | cons c before ih =>
      rw [List.mem_cons, not_or] at hbefore
      intro hinside
      rcases List.infix_cons_iff.1 hinside with hstart | hinside
      · obtain ⟨tail, htail⟩ := hstart
        simp only [colon, List.cons_append, List.nil_append, List.cons.injEq] at htail
        exact hbefore.1 htail.1
      · exact ih hbefore.2 hinside

/-- The fields of a list of lines as they are read behind a text without a colon: the text is
part of the first name, and the carriage return of a line part of the next one. -/
def readBehind (before : Text) : List Field → List ((Text × Text) × Text)
  | [] => []
  | f :: fields =>
      ((visible underscore (before ++ f.name), colon), f.stored.2) ::
        readBehind carriageReturn fields

theorem rounds_lines (fields : List Field) (before : Text) (hbefore : 58 ∉ before) :
    (rounds header (before ++ fields.flatMap Field.line)).1 = readBehind before fields := by
  induction fields generalizing before with
  | nil =>
      rw [List.flatMap_nil, List.append_nil,
        rounds_of_none (header_eq_none (not_colon_isInfix hbefore))]
      rfl
  | cons f fields ih =>
      have hname : visible underscore (before ++ f.name) ≠ [] := by
        rw [visible_append]
        exact List.append_ne_nil_of_right_ne_nil _ f.name_ne
      obtain ⟨z, hz, hheader⟩ := header_append (fields.flatMap Field.line)
        (not_colon_append hbefore f.name_colon) hname f.value_return f.value_ne
      have htext : before ++ (f :: fields).flatMap Field.line =
          before ++ f.name ++ (colon ++ (f.value ++ (carriageReturn ++
            fields.flatMap Field.line))) := by
        rw [List.flatMap_cons, Field.line]
        simp only [List.append_assoc]
      have hnext : 58 ∉ z ++ carriageReturn := by
        intro hmem
        rcases List.mem_append.1 hmem with hmem | hmem
        · exact absurd (hz _ hmem) (by decide)
        · exact absurd hmem (by decide)
      have hsame : readBehind (z ++ carriageReturn) fields = readBehind carriageReturn fields := by
        cases fields with
        | nil => rfl
        | cons g fields =>
            have hvisible : visible underscore z = [] := by
              rw [visible, List.filter_eq_nil_iff]
              intro c hc
              rw [hz c hc]
              simp
            rw [readBehind, readBehind, List.append_assoc, visible_append, hvisible]
            rfl
      rw [htext, rounds_of_some hheader (consumes_header _ _ _ hheader), readBehind,
        ← List.append_assoc, ih _ hnext, hsame]
      rfl

/-- What a text of several lines is read as. -/
theorem grammar_lines (f : Field) (fields : List Field) :
    (grammar ((f :: fields).flatMap Field.line)).map Prod.fst =
      some (readBehind [] (f :: fields)) := by
  have hrounds : rounds header ((f :: fields).flatMap Field.line) =
      (readBehind [] (f :: fields), (rounds header ((f :: fields).flatMap Field.line)).2) :=
    Prod.ext (rounds_lines (f :: fields) [] List.not_mem_nil) rfl
  rw [grammar, plus_of_rounds hrounds (List.cons_ne_nil _ _)]
  rfl

theorem insert_apply (headers : Headers) (name value key : Text) :
    insert headers name value key = (headers key).or (if name = key then some value else none) := by
  rw [insert]
  by_cases hkey : name = key
  · subst hkey
    cases h : headers name with
    | none => simp
    | some x => rw [if_pos (Option.isSome_some), h, Option.some_or]
  · rw [if_neg hkey, Option.or_none]
    split
    · rfl
    · rw [Function.update_of_ne (Ne.symm hkey)]

theorem foldl_insert (fields : List ((Text × Text) × Text)) (headers : Headers) (key : Text) :
    fields.foldl (fun headers x => insert headers x.1.1 x.2) headers key =
      (headers key).or ((fields.find? fun x => x.1.1 = key).map Prod.snd) := by
  induction fields generalizing headers with
  | nil => rw [List.foldl_nil, List.find?_nil, Option.map_none, Option.or_none]
  | cons x fields ih =>
      rw [List.foldl_cons, ih, insert_apply, Option.or_assoc, List.find?_cons]
      congr 1
      by_cases hkey : x.1.1 = key
      · rw [if_pos hkey, decide_eq_true hkey]
        rfl
      · rw [if_neg hkey, decide_eq_false hkey, Option.none_or]

theorem parse_apply (headers : Headers) {text : Text} {fields : List ((Text × Text) × Text)}
    (h : (grammar text).map Prod.fst = some fields) (key : Text) :
    parse headers text key =
      (headers key).or ((fields.find? fun x => x.1.1 = key).map Prod.snd) := by
  obtain ⟨x, hx, rfl⟩ := Option.map_eq_some_iff.1 h
  rw [parse, hx]
  exact foldl_insert x.1 headers key

theorem find_readBehind (fields : List Field) (key : Text) :
    ((readBehind carriageReturn fields).find? fun x => x.1.1 = key).map Prod.snd =
      (fields.find? fun f => 13 :: f.stored.1 = key).map fun f => f.stored.2 := by
  induction fields with
  | nil => rfl
  | cons f fields ih =>
      have hname : visible underscore (carriageReturn ++ f.name) = 13 :: f.stored.1 := by
        rw [visible_append]
        rfl
      rw [readBehind, List.find?_cons, List.find?_cons, hname]
      by_cases hkey : 13 :: f.stored.1 = key
      · rw [decide_eq_true hkey]
        rfl
      · rw [decide_eq_false hkey]
        exact ih

/-- A line of the input: a field, or a text without `": "`. -/
inductive Line
  | field (f : Field)
  | other (text : Text) (h : ¬ colon <:+: text)

namespace Line

def text : Line → Text
  | .field f => f.line
  | .other text _ => text

def field? : Line → Option Field
  | .field f => some f
  | .other _ _ => none

end Line

/-- Each line adds its field, unless there is one of its name, and is skipped if it has
none. -/
theorem parseAll_apply (lines : List Line) (key : Text) :
    parseAll (lines.map Line.text) key =
      ((lines.filterMap Line.field?).find? fun f => f.stored.1 = key).map fun f => f.stored.2 := by
  have hgeneral (headers : Headers) : (lines.map Line.text).foldl parse headers key =
      (headers key).or (((lines.filterMap Line.field?).find? fun f => f.stored.1 = key).map
        fun f => f.stored.2) := by
    induction lines generalizing headers with
    | nil => exact (Option.or_none).symm
    | cons line lines ih =>
        rw [List.map_cons, List.foldl_cons, ih]
        cases line with
        | field f =>
            have hgrammar := grammar_lines f []
            rw [List.flatMap_cons, List.flatMap_nil, List.append_nil] at hgrammar
            rw [Line.text, parse_apply headers hgrammar, Option.or_assoc]
            congr 1
            have hfields : (Line.field f :: lines).filterMap Line.field? =
                f :: lines.filterMap Line.field? := rfl
            rw [hfields, List.find?_cons, readBehind, List.find?_cons,
              List.nil_append]
            by_cases hkey : f.stored.1 = key
            · rw [decide_eq_true hkey, show visible underscore f.name = key from hkey]
              simp
            · rw [decide_eq_false hkey, show decide (visible underscore f.name = key) = false from
                decide_eq_false hkey]
              rfl
        | other text h =>
            have hgrammar : grammar text = none := by
              rw [grammar, plus, header_eq_none h]
              rfl
            rw [Line.text, parse, hgrammar]
            rfl
  rw [parseAll, hgeneral, Option.none_or]

/-- Of several lines in one text only the first is found under its name, the others under a
name that begins with a carriage return. -/
theorem parse_lines (f : Field) (fields : List Field) (key : Text) :
    parse (fun _ => none) ((f :: fields).flatMap Field.line) key =
      if f.stored.1 = key then some f.stored.2
      else (fields.find? fun g => 13 :: g.stored.1 = key).map fun g => g.stored.2 := by
  rw [parse_apply _ (grammar_lines f fields), Option.none_or, readBehind, List.find?_cons,
    List.nil_append]
  by_cases hkey : f.stored.1 = key
  · rw [if_pos hkey, show decide (visible underscore f.name = key) = true from decide_eq_true hkey]
    rfl
  · rw [if_neg hkey, show decide (visible underscore f.name = key) = false from
      decide_eq_false hkey]
    exact find_readBehind fields key

end Lines

end HttpHeaders
