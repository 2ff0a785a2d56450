import BoostSamples.Framing.Delimiter
import BoostSamples.Text.Input
import BoostSamples.Transition.System

/-!
# The downloader

`Downloader` sends a request and writes what follows the headers of the response to a
file. The response arrives in reads of any size: `async_read_until` goes on reading
until its delimiter is in the stream buffer, which by then may hold a part of what
comes behind it. A run is a list of events, the completions of the pending operations,
and its record is the list of the reads.

A response whose status line has a version, a number and any text is understood in the
same way however it is cut into reads: `file_of_response` gives the contents of the file
at each moment of a run, also of one that is broken off.
-/

namespace PropertyTree

open Framing Transition Text

/-- The error of a completed operation: the end of the stream or any other. -/
inductive Error
  | eof
  | other (code : ℕ)
  deriving DecidableEq

inductive Note
  /-- `Error: ` and the error. -/
  | error (err : Error)
  /-- `Invalid response`. -/
  | invalidResponse
  /-- `Response returned with status code ` and the code. -/
  | statusCode (code : ℕ)
  /-- A header line; the empty line ends them. -/
  | header (line : List Char)
  /-- The dashes and the size of a part of the content. -/
  | content (size : ℕ)
  deriving DecidableEq

inductive Pending
  | resolve
  | connect
  | writeRequest
  | readStatusLine
  | readHeaders
  | readContent
  | nothing
  deriving DecidableEq

/-- The stream buffers of the request and the response, the bytes sent, the destination
file and the console. -/
structure Downloader where
  pending : Pending
  request : List Char
  sent : List Char := []
  response : List Char := []
  destinationFile : List Char := []
  console : List Note := []
  deriving DecidableEq

def lineEnd : List Char := ['\r', '\n']

def headersEnd : List Char := ['\r', '\n', '\r', '\n']

def httpPrefix : List Char := ['H', 'T', 'T', 'P', '/']

def unsignedMax : ℕ := 2 ^ 32 - 1

namespace Downloader

/-- The constructor; the query of the resolver and the opened file are not part of the
state. -/
def create (server path : List Char) : Downloader where
  pending := .resolve
  request := "GET ".toList ++ path ++ " HTTP/1.1".toList ++ lineEnd ++
    "Host: ".toList ++ server ++ lineEnd ++ "Accept: */*".toList ++ lineEnd ++
    "Connection: close".toList ++ headersEnd

def finish (d : Downloader) (note : Note) : Downloader :=
  { d with pending := .nothing, console := d.console ++ [note] }

/-- `async_read_until` completes as soon as the delimiter is in the stream buffer. -/
def readUntil (d : Downloader) (delimiter : List Char) (pending : Pending)
    (handler : Downloader → Downloader) : Downloader :=
  if (firstEnd delimiter d.response).isSome then handler d else { d with pending := pending }

/-- The loop over the header lines: what it prints and the input it leaves. -/
def headerLines (i : Input Char) : List (List Char) × Input Char :=
  if _hfail : i.getline.2.fail = true then ([], i.getline.2)
  else if i.getline.1 = ['\r'] then ([], i.getline.2)
  else (i.getline.1 :: (headerLines i.getline.2).1, (headerLines i.getline.2).2)
termination_by i.chars.length
decreasing_by all_goals exact Input.length_getline (Bool.eq_false_iff.2 _hfail)

/-- The handler of the headers: whatever is behind them in the stream buffer goes to the
file. -/
def handleReadHeaders (d : Downloader) : Downloader :=
  let (lines, input) := headerLines ⟨d.response, false, false⟩
  { d with
    pending := .readContent
    response := []
    destinationFile := d.destinationFile ++ input.chars
    console := d.console ++ lines.map Note.header ++ [Note.header []] }

def handleReadStatusLine (d : Downloader) : Downloader :=
  let (httpVersion, input) := Input.word Input.isSpace ⟨d.response, false, false⟩
  let (statusCode, input) := input.unsigned unsignedMax
  let (_, input) := input.getline
  let d := { d with response := input.chars }
  if input.fail || httpVersion.take 5 ≠ httpPrefix then d.finish .invalidResponse
  else if statusCode ≠ 200 then d.finish (.statusCode statusCode)
  else d.readUntil headersEnd .readHeaders handleReadHeaders

def handleReadContent (d : Downloader) : Downloader :=
  { d with
    destinationFile := d.destinationFile ++ d.response
    console := d.console ++ [.content d.response.length]
    response := [] }

def handleWriteRequest (d : Downloader) : Downloader :=
  d.readUntil lineEnd .readStatusLine handleReadStatusLine

/-- The handler of a failed operation; the end of the content is none. -/
def handleError (d : Downloader) (err : Error) : Downloader :=
  if d.pending = .readContent ∧ err = .eof then { d with pending := .nothing }
  else d.finish (.error err)

end Downloader

/-- The completions of the operations. A read brings in at least one byte. -/
inductive Event
  | resolved
  | connected
  | written
  | read (bytes : List Char)
  | failed (err : Error)
  deriving DecidableEq

namespace Downloader

/-- A read is appended to the stream buffer; then the operation that is pending completes
or goes on. -/
def receive (d : Downloader) (bytes : List Char) : Option Downloader :=
  let d := { d with response := d.response ++ bytes }
  match d.pending with
  | .readStatusLine => some (d.readUntil lineEnd .readStatusLine handleReadStatusLine)
  | .readHeaders => some (d.readUntil headersEnd .readHeaders handleReadHeaders)
  | .readContent => some d.handleReadContent
  | _ => none

def step (d : Downloader) : Event → Option Downloader
  | .resolved => if d.pending = .resolve then some { d with pending := .connect } else none
  | .connected => if d.pending = .connect then some { d with pending := .writeRequest } else none
  | .written =>
      if d.pending = .writeRequest then
        some { d with sent := d.request, request := [] }.handleWriteRequest
      else none
  | .read bytes => if bytes = [] then none else d.receive bytes
  | .failed err => if d.pending = .nothing then none else some (d.handleError err)

end Downloader

def downloading (server path : List Char) : System Downloader Event where
  init d := d = Downloader.create server path
  step := Downloader.step

def received (_ : Downloader) : Event → Option (List Char)
  | .read bytes => some bytes
  | _ => none

/-- A status line: a version, a number and what follows up to the end of the line. -/
structure StatusLine where
  httpVersion : List Char
  statusCode : List Char
  message : List Char
  httpVersion_ne : httpVersion ≠ []
  not_space : ∀ c ∈ httpVersion, Input.isSpace c = false
  statusCode_ne : statusCode ≠ []
  isDigit : ∀ c ∈ statusCode, c.isDigit = true
  head_message : ∀ c ∈ message.head?, c.isDigit = false
  newline_message : '\n' ∉ message

def StatusLine.text (l : StatusLine) : List Char :=
  l.httpVersion ++ ' ' :: (l.statusCode ++ l.message ++ lineEnd)

/-- The line of a response that is saved. -/
def StatusLine.Ok (l : StatusLine) : Prop :=
  l.httpVersion.take 5 = httpPrefix ∧ Input.decimal l.statusCode = 200

instance (l : StatusLine) : Decidable l.Ok := inferInstanceAs (Decidable (_ ∧ _))

/-- The lines in front of the empty line, each without its newline. -/
def Lines (lines : List (List Char)) : Prop := ∀ l ∈ lines, '\n' ∉ l ∧ l ≠ ['\r']

def head (lines : List (List Char)) : List Char := lines.flatMap (· ++ ['\n']) ++ lineEnd

/-- A response: its status line, the lines up to the first empty line and the body. -/
structure Response where
  status : StatusLine
  lines : List (List Char)
  body : List Char
  lines_ok : Lines lines

namespace Response

def text (R : Response) : List Char := R.status.text ++ head R.lines ++ R.body

/-- What is in the file once the bytes `r` have arrived. -/
def saved (R : Response) (r : List Char) : List Char :=
  if R.status.Ok ∧ headersEnd <:+: r.drop R.status.text.length then
    r.drop (R.status.text.length + (head R.lines).length)
  else []

end Response

section Lines

theorem head_cons (l : List Char) (lines : List (List Char)) :
    head (l :: lines) = l ++ '\n' :: head lines := by
  simp [head]

theorem headerLines_head {lines : List (List Char)} (h : Lines lines) (rest : List Char) :
    Downloader.headerLines ⟨head lines ++ rest, false, false⟩ =
      (lines, ⟨rest, false, false⟩) := by
  induction lines with
  | nil =>
      have hline : Input.getline ⟨head [] ++ rest, false, false⟩ =
          (['\r'], ⟨rest, false, false⟩) := Input.getline_append (l := ['\r']) (by decide) rest
      rw [Downloader.headerLines, hline]
      simp
  | cons l lines ih =>
      obtain ⟨hnewline, hne⟩ := h l List.mem_cons_self
      have hline : Input.getline ⟨head (l :: lines) ++ rest, false, false⟩ =
          (l, ⟨head lines ++ rest, false, false⟩) := by
        rw [head_cons, List.append_assoc, List.cons_append]
        exact Input.getline_append hnewline _
      rw [Downloader.headerLines, hline, dif_neg Bool.false_ne_true, if_neg hne]
      rw [ih fun l hl => h l (List.mem_cons_of_mem _ hl)]

/-- The lines of a text are determined by it. -/
theorem head_append_inj {lines lines' : List (List Char)} {rest rest' : List Char}
    (h : Lines lines) (h' : Lines lines') (heq : head lines ++ rest = head lines' ++ rest') :
    lines = lines' ∧ rest = rest' := by
  have hlines := headerLines_head h rest
  rw [heq, headerLines_head h' rest', Prod.mk.injEq, Input.mk.injEq] at hlines
  exact ⟨hlines.1.symm, hlines.2.1.symm⟩

/-- A text is a line and what follows, as soon as it contains a newline. -/
theorem exists_line {x : List Char} (h : '\n' ∈ x) :
    ∃ l rest, '\n' ∉ l ∧ x = l ++ '\n' :: rest := by
  obtain ⟨l, rest, hx, hl⟩ := List.eq_append_cons_of_mem h
  exact ⟨l, rest, hl, hx⟩

theorem newline_mem_headersEnd : '\n' ∈ headersEnd := by decide

/-- An occurrence of the end of the headers in a text lies behind its first line, or is
the end of that line and an empty line. -/
theorem headersEnd_infix_cons {l x : List Char} (hl : '\n' ∉ l)
    (h : headersEnd <:+: l ++ '\n' :: x) : headersEnd <:+: x ∨ lineEnd <+: x := by
  obtain ⟨a, b, hab⟩ := h
  have heq : (a ++ ['\r']) ++ '\n' :: (lineEnd ++ b) = l ++ '\n' :: x := by
    rw [← hab]
    simp [headersEnd, lineEnd]
  rcases List.append_eq_append_iff.1 heq with ⟨c, hc, hx⟩ | ⟨c, hc, hx⟩
  · cases c with
    | nil =>
        rw [List.nil_append, List.cons.injEq] at hx
        exact .inr ⟨b, hx.2⟩
    | cons y c =>
        have hy : '\n' = y := (List.cons.inj hx).1
        exact absurd (by rw [hc, hy]; simp) hl
  · cases c with
    | nil =>
        rw [List.nil_append, List.cons.injEq] at hx
        exact .inr ⟨b, hx.2.symm⟩
    | cons y c =>
        rw [List.cons_append, List.cons.injEq] at hx
        obtain ⟨rfl, rfl⟩ := hx
        -- the line ends in front of the carriage return
        rcases List.eq_nil_or_concat c with rfl | ⟨c, z, rfl⟩
        · simp at hc
        · have hc' : a ++ ['\r'] = (l ++ '\n' :: c) ++ [z] := by
            rw [hc]
            simp
          have hz : '\r' = z := List.singleton_inj.1 (List.append_inj' hc' rfl).2
          exact .inl ⟨c, b, by simp [← hz, headersEnd, lineEnd]⟩

/-- A text with the end of the headers starts with lines up to an empty one. -/
theorem exists_head {x : List Char} (h : headersEnd <:+: x ∨ lineEnd <+: x) :
    ∃ lines rest, Lines lines ∧ x = head lines ++ rest := by
  induction hn : x.length using Nat.strong_induction_on generalizing x with
  | h n ih =>
      subst hn
      by_cases hstart : lineEnd <+: x
      · obtain ⟨rest, rfl⟩ := hstart
        exact ⟨[], rest, fun l hl => absurd hl List.not_mem_nil, rfl⟩
      · have hin := h.resolve_right hstart
        obtain ⟨l, rest, hl, rfl⟩ := exists_line (hin.subset newline_mem_headersEnd)
        have hne : l ≠ ['\r'] := by
          rintro rfl
          exact hstart ⟨rest, rfl⟩
        obtain ⟨lines, rest', hlines, rfl⟩ :=
          ih rest.length (by simp; omega) (headersEnd_infix_cons hl hin) rfl
        refine ⟨l :: lines, rest', ?_, by rw [head_cons]; simp⟩
        intro l' hl'
        rcases List.mem_cons.1 hl' with rfl | hl'
        · exact ⟨hl, hne⟩
        · exact hlines l' hl'

/-- As soon as the end of the headers has arrived, all lines up to the empty one have. -/
theorem head_isPrefix {lines : List (List Char)} (h : Lines lines) {x body : List Char}
    (hx : x <+: head lines ++ body) (hend : headersEnd <:+: x) :
    ∃ rest, x = head lines ++ rest := by
  obtain ⟨lines', rest, hlines', rfl⟩ := exists_head (.inl hend)
  obtain ⟨more, hmore⟩ := hx
  rw [List.append_assoc] at hmore
  obtain ⟨rfl, -⟩ := head_append_inj hlines' h hmore
  exact ⟨rest, rfl⟩

end Lines

section StatusLine

variable {l : StatusLine}

theorem StatusLine.text_eq (l : StatusLine) :
    l.text = l.httpVersion ++ ' ' :: (l.statusCode ++ l.message) ++ lineEnd := by
  simp [StatusLine.text]

theorem StatusLine.newline_notMem (l : StatusLine) :
    '\n' ∉ l.httpVersion ++ ' ' :: (l.statusCode ++ l.message) ++ ['\r'] := by
  have hversion : '\n' ∉ l.httpVersion := fun h => by
    have := l.not_space _ h
    contradiction
  have hcode : '\n' ∉ l.statusCode := fun h => by
    have := l.isDigit _ h
    contradiction
  simp [hversion, hcode, l.newline_message]

/-- The end of the first line has not arrived before the whole line has. -/
theorem StatusLine.text_isPrefix {r rest : List Char} (hr : r <+: l.text ++ rest)
    (hend : lineEnd <:+: r) : ∃ more, r = l.text ++ more ∧ more <+: rest := by
  have hlen : l.text.length ≤ r.length := by
    by_contra hlt
    have hline : l.httpVersion ++ ' ' :: (l.statusCode ++ l.message) ++ ['\r'] <+:
        l.text ++ rest := ⟨'\n' :: rest, by simp [StatusLine.text_eq, lineEnd]⟩
    have hpre : r <+: l.httpVersion ++ ' ' :: (l.statusCode ++ l.message) ++ ['\r'] := by
      refine List.prefix_of_prefix_length_le hr hline ?_
      simp only [StatusLine.text_eq, lineEnd, List.length_append, List.length_cons,
        List.length_nil] at hlt ⊢
      omega
    exact l.newline_notMem (hpre.subset (hend.subset (by decide)))
  obtain ⟨more, rfl⟩ := List.prefix_of_prefix_length_le (List.prefix_append _ _) hr hlen
  exact ⟨more, rfl, (List.prefix_append_right_inj _).1 hr⟩

/-- What the extractions take from the status line: with a code that is a number of the
type the whole line, else at most the line. -/
theorem StatusLine.extract (l : StatusLine) (rest : List Char) :
    ∃ c cs, c.isDigit = false ∧ l.message ++ lineEnd ++ rest = c :: cs ∧
      Input.word Input.isSpace ⟨l.text ++ rest, false, false⟩ =
        (l.httpVersion, ⟨' ' :: (l.statusCode ++ c :: cs), false, false⟩) ∧
      Input.getline ⟨c :: cs, false, false⟩ = (l.message ++ ['\r'], ⟨rest, false, false⟩) := by
  have hne : l.message ++ lineEnd ++ rest ≠ [] := by simp [lineEnd]
  obtain ⟨c, cs, hcs⟩ := List.exists_cons_of_ne_nil hne
  refine ⟨c, cs, ?_, hcs, ?_, ?_⟩
  · cases hmessage : l.message with
    | nil =>
        rw [hmessage] at hcs
        cases hcs
        rfl
    | cons c' message =>
        rw [hmessage] at hcs
        cases hcs
        exact l.head_message _ (by rw [hmessage]; rfl)
  · rw [← hcs, ← Input.word_append l.httpVersion_ne l.not_space (c := ' ') rfl]
    simp [StatusLine.text]
  · rw [← hcs, ← Input.getline_append (l := l.message ++ ['\r']) (by simp [l.newline_message]) rest]
    simp [lineEnd]

theorem readUntil_found {d : Downloader} {delimiter : List Char}
    (h : delimiter <:+: d.response) (pending : Pending) (handler : Downloader → Downloader) :
    d.readUntil delimiter pending handler = handler d := by
  rw [Downloader.readUntil, if_pos ((firstEnd_isSome_iff _ _).2 h)]

theorem readUntil_pending {d : Downloader} {delimiter : List Char}
    (h : ¬ delimiter <:+: d.response) (pending : Pending) (handler : Downloader → Downloader) :
    d.readUntil delimiter pending handler = { d with pending := pending } := by
  rw [Downloader.readUntil, if_neg fun hsome => h ((firstEnd_isSome_iff _ _).1 hsome)]

theorem handleReadStatusLine_ok (hl : l.Ok) {d : Downloader} {rest : List Char}
    (hd : d.response = l.text ++ rest) :
    d.handleReadStatusLine =
      { d with response := rest }.readUntil headersEnd .readHeaders
        Downloader.handleReadHeaders := by
  obtain ⟨c, cs, hc, -, hword, hline⟩ := l.extract rest
  have hcode : ¬ unsignedMax < Input.decimal l.statusCode := by
    rw [hl.2]
    decide
  have hunsigned := Input.unsigned_append unsignedMax l.statusCode_ne l.isDigit hc cs
  rw [if_neg hcode] at hunsigned
  simp [Downloader.handleReadStatusLine, hd, hword, hunsigned, hline, hl.1, hl.2]

theorem handleReadStatusLine_not_ok (hl : ¬ l.Ok) {d : Downloader} {rest : List Char}
    (hd : d.response = l.text ++ rest) :
    d.handleReadStatusLine.pending = .nothing ∧
      d.handleReadStatusLine.destinationFile = d.destinationFile := by
  obtain ⟨c, cs, hc, -, hword, hline⟩ := l.extract rest
  have hunsigned := Input.unsigned_append unsignedMax l.statusCode_ne l.isDigit hc cs
  by_cases hcode : unsignedMax < Input.decimal l.statusCode
  · rw [if_pos hcode] at hunsigned
    have hfail : Input.getline ⟨c :: cs, false, true⟩ = ([], ⟨c :: cs, false, true⟩) := rfl
    simp [Downloader.handleReadStatusLine, hd, hword, hunsigned, hfail, Downloader.finish]
  · rw [if_neg hcode] at hunsigned
    by_cases hversion : l.httpVersion.take 5 = httpPrefix
    · have hne : Input.decimal l.statusCode ≠ 200 := fun h => hl ⟨hversion, h⟩
      simp [Downloader.handleReadStatusLine, hd, hword, hunsigned, hline, hversion, hne,
        Downloader.finish]
    · simp [Downloader.handleReadStatusLine, hd, hword, hunsigned, hline, hversion,
        Downloader.finish]

end StatusLine

/-- What the state says about the bytes that have arrived, for each pending operation. -/
def Agrees (R : Response) (d : Downloader) (r : List Char) : Prop :=
  match d.pending with
  | .resolve | .connect | .writeRequest =>
      r = [] ∧ d.response = [] ∧ d.destinationFile = []
  | .readStatusLine => d.response = r ∧ ¬ lineEnd <:+: r ∧ d.destinationFile = []
  | .readHeaders =>
      R.status.Ok ∧ r = R.status.text ++ d.response ∧ ¬ headersEnd <:+: d.response ∧
        d.destinationFile = []
  | .readContent =>
      R.status.Ok ∧ d.response = [] ∧ ∃ rest,
        r = R.status.text ++ (head R.lines ++ rest) ∧ headersEnd <:+: head R.lines ++ rest ∧
          d.destinationFile = rest
  | .nothing => d.destinationFile = R.saved r

namespace Agrees

variable {R : Response} {d : Downloader} {r : List Char}

theorem saved_of_not_lineEnd (hr : r <+: R.text) (h : ¬ lineEnd <:+: r) : R.saved r = [] := by
  have hlen : r.length ≤ R.status.text.length := by
    by_contra hlt
    have hstatus : R.status.text <+: R.text := by
      rw [Response.text, List.append_assoc]
      exact List.prefix_append _ _
    have hpre : R.status.text <+: r := List.prefix_of_prefix_length_le hstatus hr (by omega)
    exact h (List.IsInfix.trans ⟨_, [], by rw [StatusLine.text_eq, List.append_nil]⟩ hpre.isInfix)
  rw [Response.saved, List.drop_eq_nil_of_le (Nat.le_add_right_of_le hlen), ite_self]

theorem destinationFile (h : Agrees R d r) (hr : r <+: R.text) :
    d.destinationFile = R.saved r := by
  unfold Agrees at h
  split at h
  · obtain ⟨rfl, -, hfile⟩ := h
    rw [hfile, saved_of_not_lineEnd hr (by decide)]
  · obtain ⟨rfl, -, hfile⟩ := h
    rw [hfile, saved_of_not_lineEnd hr (by decide)]
  · obtain ⟨rfl, -, hfile⟩ := h
    rw [hfile, saved_of_not_lineEnd hr (by decide)]
  · rw [h.2.2, saved_of_not_lineEnd hr h.2.1]
  · obtain ⟨-, rfl, hend, hfile⟩ := h
    rw [hfile, Response.saved, List.drop_left, if_neg fun h => hend h.2]
  · obtain ⟨hok, -, rest, rfl, hend, hfile⟩ := h
    rw [hfile, Response.saved, List.drop_left, if_pos ⟨hok, hend⟩, ← List.append_assoc,
      ← List.length_append, List.drop_left]
  · exact h

theorem readHeaders (hr : r <+: R.text) (hok : R.status.Ok)
    (hd : r = R.status.text ++ d.response) (hfile : d.destinationFile = []) :
    Agrees R (d.readUntil headersEnd .readHeaders Downloader.handleReadHeaders) r := by
  by_cases hend : headersEnd <:+: d.response
  · rw [readUntil_found hend]
    have hpre : d.response <+: head R.lines ++ R.body := by
      rw [hd, Response.text, List.append_assoc] at hr
      exact (List.prefix_append_right_inj _).1 hr
    obtain ⟨rest, hrest⟩ := head_isPrefix R.lines_ok hpre hend
    rw [hrest] at hend hd
    simp only [Agrees, Downloader.handleReadHeaders, hrest, headerLines_head R.lines_ok, hfile]
    exact ⟨hok, trivial, rest, hd, hend, rfl⟩
  · rw [readUntil_pending hend]
    exact ⟨hok, hd, hend, hfile⟩

theorem readStatusLine (hr : r <+: R.text) (hd : d.response = r)
    (hfile : d.destinationFile = []) :
    Agrees R (d.readUntil lineEnd .readStatusLine Downloader.handleReadStatusLine) r := by
  by_cases hend : lineEnd <:+: r
  · rw [readUntil_found (by rwa [hd])]
    obtain ⟨more, hmore, -⟩ := StatusLine.text_isPrefix
      (by rw [Response.text, List.append_assoc] at hr; exact hr) hend
    rw [hmore] at hd
    by_cases hok : R.status.Ok
    · rw [handleReadStatusLine_ok hok hd]
      exact readHeaders hr hok hmore hfile
    · obtain ⟨hpending, hsame⟩ := handleReadStatusLine_not_ok hok hd
      simp only [Agrees, hpending, hsame, hfile, Response.saved, if_neg fun h => hok (And.left h)]
  · rw [readUntil_pending (by rwa [hd])]
    exact ⟨hd, hend, hfile⟩

theorem nothing {d' : Downloader} (h : Agrees R d r) (hr : r <+: R.text)
    (hpending : d'.pending = .nothing) (hfile : d'.destinationFile = d.destinationFile) :
    Agrees R d' r := by
  rw [Agrees, hpending]
  exact hfile.trans (h.destinationFile hr)

theorem receive {d' : Downloader} {bytes : List Char} (h : Agrees R d r)
    (hr : r ++ bytes <+: R.text) (hd : d.receive bytes = some d') : Agrees R d' (r ++ bytes) := by
  unfold Agrees at h
  unfold Downloader.receive at hd
  split at h
  · next hpending => simp [hpending] at hd
  · next hpending => simp [hpending] at hd
  · next hpending => simp [hpending] at hd
  · next hpending =>
      obtain ⟨rfl, -, hfile⟩ := h
      simp only [hpending, Option.some.injEq] at hd
      rw [← hd]
      exact readStatusLine hr rfl hfile
  · next hpending =>
      obtain ⟨hok, rfl, -, hfile⟩ := h
      simp only [hpending, Option.some.injEq] at hd
      rw [← hd]
      exact readHeaders hr hok (List.append_assoc _ _ _) hfile
  · next hpending =>
      obtain ⟨hok, hnil, rest, rfl, hend, hfile⟩ := h
      simp only [hpending, Option.some.injEq] at hd
      rw [← hd]
      simp only [Agrees, Downloader.handleReadContent, hnil, hfile, List.nil_append]
      refine ⟨hok, trivial, rest ++ bytes, by simp, ?_, rfl⟩
      rw [← List.append_assoc]
      exact hend.trans (List.prefix_append _ _).isInfix
  · next hpending => simp [hpending] at hd

theorem step {d' : Downloader} {e : Event} (h : Agrees R d r)
    (hr : r ++ ((received d e).toList).flatten <+: R.text) (hd : d.step e = some d') :
    Agrees R d' (r ++ ((received d e).toList).flatten) := by
  cases e with
  | resolved =>
      obtain ⟨hpending, hd⟩ := Option.ite_none_right_eq_some.1 hd
      cases hd
      simpa [Agrees, hpending, received] using h
  | connected =>
      obtain ⟨hpending, hd⟩ := Option.ite_none_right_eq_some.1 hd
      cases hd
      simpa [Agrees, hpending, received] using h
  | written =>
      obtain ⟨hpending, hd⟩ := Option.ite_none_right_eq_some.1 hd
      cases hd
      obtain ⟨rfl, hresponse, hfile⟩ : r = [] ∧ d.response = [] ∧ d.destinationFile = [] := by
        simpa [Agrees, hpending] using h
      exact readStatusLine hr hresponse hfile
  | read bytes =>
      obtain ⟨-, hd⟩ := Option.ite_none_left_eq_some.1 hd
      rw [show ((received d (.read bytes)).toList).flatten = bytes from List.append_nil _] at hr ⊢
      exact h.receive hr hd
  | failed err =>
      obtain ⟨-, hd⟩ := Option.ite_none_left_eq_some.1 hd
      rw [show ((received d (.failed err)).toList).flatten = [] from rfl,
        List.append_nil] at hr ⊢
      cases hd
      unfold Downloader.handleError
      split
      · exact h.nothing hr rfl rfl
      · exact h.nothing hr rfl rfl

end Agrees

section Runs

variable {server path : List Char} {R : Response} {s : Downloader × List (List Char)}

theorem agrees_of_reachable
    (h : ((downloading server path).recording received).Reachable s)
    (hr : s.2.flatten <+: R.text) : Agrees R s.1 s.2.flatten := by
  revert hr
  refine h.recorded (I := fun d reads => reads.flatten <+: R.text → Agrees R d reads.flatten)
    ?_ ?_
  · rintro d rfl -
    exact ⟨rfl, rfl, rfl⟩
  · intro d reads e d' ih hd hr
    rw [List.flatten_append] at hr ⊢
    exact (ih ((List.prefix_append _ _).trans hr)).step hr hd

/-- However the bytes of a response that have arrived are cut into reads, and whether or
not the run is broken off, the file is the part of them behind the empty line, once the
end of the headers is among them. -/
theorem destinationFile_eq_saved
    (h : ((downloading server path).recording received).Reachable s)
    (hr : s.2.flatten <+: R.text) : s.1.destinationFile = R.saved s.2.flatten :=
  (agrees_of_reachable h hr).destinationFile hr

def Reading (d : Downloader) : Prop :=
  d.pending = .readStatusLine ∨ d.pending = .readHeaders ∨ d.pending = .readContent

theorem reading_readHeaders (d : Downloader) :
    Reading (d.readUntil headersEnd .readHeaders Downloader.handleReadHeaders) := by
  by_cases hend : headersEnd <:+: d.response
  · rw [readUntil_found hend]
    exact .inr (.inr rfl)
  · rw [readUntil_pending hend]
    exact .inr (.inl rfl)

theorem reading_readStatusLine {d : Downloader} (hok : R.status.Ok)
    (hr : d.response <+: R.text) :
    Reading (d.readUntil lineEnd .readStatusLine Downloader.handleReadStatusLine) := by
  by_cases hend : lineEnd <:+: d.response
  · rw [Response.text, List.append_assoc] at hr
    obtain ⟨more, hmore, -⟩ := StatusLine.text_isPrefix hr hend
    rw [readUntil_found hend, handleReadStatusLine_ok hok hmore]
    exact reading_readHeaders _
  · rw [readUntil_pending hend]
    exact .inl rfl

/-- While the response is one that is saved, the next read is always awaited. -/
theorem exists_read {d : Downloader} {r bytes : List Char} (hok : R.status.Ok)
    (h : Agrees R d r) (hd : Reading d) (hne : bytes ≠ []) (hr : r ++ bytes <+: R.text) :
    ∃ d', d.step (.read bytes) = some d' ∧ Reading d' := by
  have hstep : d.step (.read bytes) = d.receive bytes := if_neg hne
  rw [hstep]
  rcases hd with hpending | hpending | hpending
  · obtain ⟨rfl, -, -⟩ : d.response = r ∧ ¬ lineEnd <:+: r ∧ d.destinationFile = [] := by
      simpa [Agrees, hpending] using h
    refine ⟨_, ?_, reading_readStatusLine (d := { d with response := d.response ++ bytes }) hok hr⟩
    rw [Downloader.receive, hpending]
  · refine ⟨_, ?_, reading_readHeaders { d with response := d.response ++ bytes }⟩
    rw [Downloader.receive, hpending]
  · refine ⟨{ d with response := d.response ++ bytes }.handleReadContent, ?_, .inr (.inr hpending)⟩
    rw [Downloader.receive, hpending]

/-- However a response that is saved is cut into reads, it can arrive. -/
theorem exists_run (server path : List Char) (hok : R.status.Ok) (reads : List (List Char))
    (hne : ∀ bytes ∈ reads, bytes ≠ []) (hr : reads.flatten <+: R.text) :
    ∃ d, ((downloading server path).recording received).Reachable (d, reads) ∧ Reading d := by
  induction reads using List.reverseRecOn with
  | nil =>
      have hstart : ((downloading server path).recording received).Reachable
          (Downloader.create server path, []) := .init ⟨rfl, rfl⟩
      exact ⟨_, ((hstart.step (e := .resolved) trivial rfl).step (e := .connected) trivial rfl).step
        (e := .written) trivial rfl, .inl rfl⟩
  | append_singleton reads bytes ih =>
      rw [List.flatten_append, List.flatten_singleton] at hr
      obtain ⟨d, hd, hreading⟩ := ih (fun b hb => hne b (List.mem_append_left _ hb))
        ((List.prefix_append _ _).trans hr)
      obtain ⟨d', hd', hreading'⟩ := exists_read hok
        (agrees_of_reachable hd ((List.prefix_append _ _).trans hr)) hreading
        (hne bytes (by simp)) hr
      exact ⟨d', hd.step (e := .read bytes) trivial
        (Option.map_eq_some_iff.2 ⟨d', hd', rfl⟩), hreading'⟩

end Runs

/-- A header field is a nonempty line. -/
def Fields (fields : List (List Char)) : Prop := ∀ f ∈ fields, f ≠ [] ∧ '\n' ∉ f

def fieldLines (fields : List (List Char)) : List (List Char) := fields.map (· ++ ['\r'])

theorem lines_fieldLines {fields : List (List Char)} (h : Fields fields) :
    Lines (fieldLines fields) := by
  intro l hl
  obtain ⟨f, hf, rfl⟩ := List.mem_map.1 hl
  obtain ⟨hne, hnewline⟩ := h f hf
  exact ⟨by simp [hnewline], by simpa using hne⟩

theorem headersEnd_infix_head {fields : List (List Char)} (hne : fields ≠ []) :
    headersEnd <:+: head (fieldLines fields) := by
  rcases List.eq_nil_or_concat fields with rfl | ⟨fields, f, rfl⟩
  · exact absurd rfl hne
  · refine ⟨(fieldLines fields).flatMap (· ++ ['\n']) ++ f, [], ?_⟩
    simp [head, fieldLines, headersEnd, lineEnd]

section Saved

variable {server path body : List Char} {status : StatusLine} {fields : List (List Char)}
  {s : Downloader × List (List Char)}

/-- A response with header fields: in every run, whatever the reads, the file is what has
arrived of the body, or empty for another status line. -/
theorem destinationFile_of_fields (hfields : Fields fields) (hne : fields ≠ [])
    (h : ((downloading server path).recording received).Reachable s)
    (hr : s.2.flatten <+: status.text ++ head (fieldLines fields) ++ body) :
    s.1.destinationFile =
      if status.Ok then
        s.2.flatten.drop (status.text ++ head (fieldLines fields)).length
      else [] := by
  have hsaved : s.1.destinationFile =
      if status.Ok ∧ headersEnd <:+: s.2.flatten.drop status.text.length then
        s.2.flatten.drop (status.text.length + (head (fieldLines fields)).length)
      else [] :=
    destinationFile_eq_saved (R := ⟨status, _, body, lines_fieldLines hfields⟩) h hr
  rw [hsaved, List.length_append]
  by_cases hok : status.Ok
  · rw [if_pos hok]
    split
    · rfl
    · next hend =>
        -- the head is not complete, so nothing lies behind it
        symm
        apply List.drop_eq_nil_of_le
        by_contra hlt
        rw [List.append_assoc] at hr
        have hdrop : s.2.flatten.drop status.text.length <+: head (fieldLines fields) ++ body := by
          simpa using hr.drop status.text.length
        have hpre := List.prefix_of_prefix_length_le (List.prefix_append _ _) hdrop
          (by rw [List.length_drop]; omega)
        exact hend ⟨hok, (headersEnd_infix_head hne).trans hpre.isInfix⟩
  · rw [if_neg hok, if_neg fun hand => hok hand.1]

def statusOk : StatusLine where
  httpVersion := ['H', 'T', 'T', 'P', '/', '1', '.', '1']
  statusCode := ['2', '0', '0']
  message := [' ', 'O', 'K']
  httpVersion_ne := List.cons_ne_nil _ _
  not_space := by
    have hall : ['H', 'T', 'T', 'P', '/', '1', '.', '1'].all (!Input.isSpace ·) = true := rfl
    intro c hc
    simpa using List.all_eq_true.1 hall c hc
  statusCode_ne := List.cons_ne_nil _ _
  isDigit := List.all_eq_true.1 rfl
  head_message := by simp
  newline_message := by simp

/-- A response with a header field in two reads, cut in its status line. -/
def twoReads : List (List Char) :=
  [['H', 'T', 'T', 'P', '/', '1', '.', '1', ' ', '2', '0'],
    ['0', ' ', 'O', 'K', '\r', '\n', 'a', ':', 'b', '\r', '\n', '\r', '\n', 'x', 'y']]

theorem destinationFile_of_two_reads :
    ∃ d, ((downloading [] []).recording received).Reachable (d, twoReads) ∧
      d.destinationFile = ['x', 'y'] := by
  have hfields : Fields [['a', ':', 'b']] := by
    intro f hf
    rw [List.mem_singleton.1 hf]
    decide
  have hok : statusOk.Ok := ⟨rfl, rfl⟩
  obtain ⟨d, hd, -⟩ := exists_run (R := ⟨statusOk, _, ['x', 'y'], lines_fieldLines hfields⟩) [] []
    hok twoReads (by decide) ⟨[], rfl⟩
  have hfile := destinationFile_of_fields hfields (by decide) hd
    (⟨[], rfl⟩ : _ <+: statusOk.text ++ head (fieldLines [['a', ':', 'b']]) ++ ['x', 'y'])
  rw [if_pos hok] at hfile
  exact ⟨d, hd, hfile⟩

theorem headersEnd_infix_lineEnd_append (b : List Char) :
    headersEnd <:+: lineEnd ++ b ↔ lineEnd <+: b ∨ headersEnd <:+: b := by
  constructor
  · intro h
    exact (headersEnd_infix_cons (l := ['\r']) (by decide) h).symm
  · rintro (⟨rest, rfl⟩ | hin)
    · exact ⟨[], rest, rfl⟩
    · exact hin.trans (List.suffix_append _ _).isInfix

/-- A response without header fields: the end of the headers is looked for in the body,
and the file stays empty unless the body starts with an empty line or contains one. -/
theorem destinationFile_of_no_fields
    (h : ((downloading server path).recording received).Reachable s)
    (hr : s.2.flatten <+: status.text ++ lineEnd ++ body) :
    s.1.destinationFile =
      if status.Ok ∧ (lineEnd <+: s.2.flatten.drop (status.text ++ lineEnd).length ∨
          headersEnd <:+: s.2.flatten.drop (status.text ++ lineEnd).length) then
        s.2.flatten.drop (status.text ++ lineEnd).length
      else [] := by
  have hlines : Lines [] := fun l hl => absurd hl List.not_mem_nil
  have hsaved : s.1.destinationFile =
      if status.Ok ∧ headersEnd <:+: s.2.flatten.drop status.text.length then
        s.2.flatten.drop (status.text.length + lineEnd.length)
      else [] := destinationFile_eq_saved (R := ⟨status, [], body, hlines⟩) h hr
  rw [List.append_assoc] at hr
  have hdrop : s.2.flatten.drop status.text.length <+: lineEnd ++ body := by
    simpa using hr.drop status.text.length
  rw [hsaved, List.length_append, ← List.drop_drop]
  generalize s.2.flatten.drop status.text.length = x at hdrop
  by_cases hlen : lineEnd.length ≤ x.length
  · obtain ⟨b, rfl⟩ := List.prefix_of_prefix_length_le (List.prefix_append _ _) hdrop hlen
    rw [List.drop_left]
    simp only [headersEnd_infix_lineEnd_append]
  · rw [List.drop_eq_nil_of_le (by omega), ite_self, ite_self]

def readsWithoutFields : List (List Char) :=
  [['H', 'T', 'T', 'P', '/', '1', '.', '1', ' ', '2', '0', '0', ' ', 'O', 'K'],
    ['\r', '\n', '\r', '\n', 'x']]

theorem destinationFile_of_status_line_alone :
    ∃ d, ((downloading [] []).recording received).Reachable (d, readsWithoutFields) ∧
      d.destinationFile = [] := by
  have hlines : Lines [] := fun l hl => absurd hl List.not_mem_nil
  have hok : statusOk.Ok := ⟨rfl, rfl⟩
  obtain ⟨d, hd, -⟩ := exists_run (R := ⟨statusOk, [], ['x'], hlines⟩) [] []
    hok readsWithoutFields (by decide) ⟨[], rfl⟩
  have hfile := destinationFile_of_no_fields hd
    (⟨[], rfl⟩ : _ <+: statusOk.text ++ lineEnd ++ ['x'])
  exact ⟨d, hd, hfile⟩

end Saved

end PropertyTree
