import Mathlib.Data.List.Infix

/-!
# Delimited frames in a byte stream

A frame is a body followed by the delimiter. `firstEnd d buf` is the end of the
first occurrence of `d` in `buf`, the position a search for the delimiter
reports. The main lemma `firstEnd_append` locates it behind a body that does
not contain `d`, whatever follows: a delimiter none of whose proper prefixes is
also a suffix of it cannot overlap the end of such a body. Conversely a body
cut out at a reported position never contains the delimiter.
-/

namespace Framing

/-- No proper nonempty prefix of `d` is a suffix of `d`. -/
def Unbordered {α : Type*} (d : List α) : Prop :=
  ∀ k, 0 < k → k < d.length → d.take k ≠ d.drop (d.length - k)

instance {α : Type*} [DecidableEq α] (d : List α) : Decidable (Unbordered d) :=
  decidable_of_iff (∀ k < d.length, 0 < k → d.take k ≠ d.drop (d.length - k))
    ⟨fun h k hk hkd => h k hkd hk, fun h k hkd hk => h k hk hkd⟩

/-- The end of the first occurrence of `d` in a buffer. -/
def firstEnd {α : Type*} [DecidableEq α] (d : List α) : List α → Option Nat
  | [] => if d = [] then some 0 else none
  | x :: xs =>
      if d <+: x :: xs then some d.length
      else (firstEnd d xs).map (· + 1)

/-- The frame that carries `body`. -/
def frame {α : Type*} (d body : List α) : List α := body ++ d

/-- The stream that carries a list of bodies. -/
def stream {α : Type*} (d : List α) (bodies : List (List α)) : List α :=
  (bodies.map (frame d)).flatten

@[simp] theorem stream_nil {α : Type*} (d : List α) :
    stream d ([] : List (List α)) = [] := rfl

@[simp] theorem stream_cons {α : Type*} (d b : List α)
    (bs : List (List α)) : stream d (b :: bs) = b ++ d ++ stream d bs := by
  simp [stream, frame]

theorem stream_append {α : Type*} (d : List α) (as bs : List (List α)) :
    stream d (as ++ bs) = stream d as ++ stream d bs := by
  simp [stream]

section FirstEnd

variable {α : Type*} [DecidableEq α]

theorem firstEnd_of_prefix {d buf : List α} (h : d <+: buf) :
    firstEnd d buf = some d.length := by
  cases buf with
  | nil => simp [firstEnd, List.prefix_nil.1 h]
  | cons x xs => simp [firstEnd, h]

/-- The search finds an occurrence exactly when the buffer contains one. -/
theorem firstEnd_isSome_iff (d buf : List α) :
    (firstEnd d buf).isSome ↔ d <:+: buf := by
  induction buf with
  | nil => by_cases hd : d = [] <;> simp [firstEnd, hd]
  | cons x xs ih =>
      rw [List.infix_cons_iff, firstEnd]
      by_cases h : d <+: x :: xs
      · simp [h]
      · simp [h, ih]

theorem firstEnd_eq_none_iff (d buf : List α) :
    firstEnd d buf = none ↔ ¬ d <:+: buf := by
  rw [← firstEnd_isSome_iff, Option.not_isSome_iff_eq_none]

/-- What the search reports: the delimiter stands right before the reported
position, and does not occur in the body before it. -/
theorem firstEnd_eq_some {d : List α} (hd : d ≠ []) :
    ∀ {buf : List α} {n : Nat}, firstEnd d buf = some n →
      ∃ body rest, buf = body ++ d ++ rest ∧ n = body.length + d.length ∧
        ¬ d <:+: body
  | [], n, h => by simp [firstEnd, hd] at h
  | x :: xs, n, h => by
      rw [firstEnd] at h
      by_cases hp : d <+: x :: xs
      · obtain ⟨rest, hrest⟩ := hp
        refine ⟨[], rest, by simpa using hrest.symm, ?_, by simpa using hd⟩
        have hn : d.length = n := by simpa [hrest.symm] using h
        simpa using hn.symm
      · rw [if_neg hp] at h
        obtain ⟨m, hm, rfl⟩ := Option.map_eq_some_iff.1 h
        obtain ⟨body, rest, rfl, rfl, hbody⟩ := firstEnd_eq_some hd hm
        refine ⟨x :: body, rest, by simp, by simp; omega, ?_⟩
        rw [List.infix_cons_iff]
        rintro (hpre | hin)
        · exact hp (hpre.trans (by simp))
        · exact hbody hin

theorem firstEnd_pos {d : List α} (hd : d ≠ []) {buf : List α} {n : Nat}
    (h : firstEnd d buf = some n) : 0 < n := by
  obtain ⟨body, rest, -, rfl, -⟩ := firstEnd_eq_some hd h
  have := List.length_pos_iff.2 hd
  omega

theorem firstEnd_le_length {d : List α} (hd : d ≠ []) {buf : List α} {n : Nat}
    (h : firstEnd d buf = some n) : n ≤ buf.length := by
  obtain ⟨body, rest, rfl, rfl, -⟩ := firstEnd_eq_some hd h
  simp only [List.length_append]
  omega

omit [DecidableEq α] in
/-- A prefix of `body ++ d` that ends in an occurrence of `d` and is not all of
it would exhibit a border of `d`. -/
theorem prefix_of_append_eq_body {d : List α} (hd : Unbordered d)
    {body rest : List α} (hne : body ≠ []) (hp : d <+: body ++ d ++ rest) :
    d <+: body := by
  rcases le_or_gt d.length body.length with hle | hlt
  · rw [List.append_assoc] at hp
    exact List.prefix_of_prefix_length_le hp (List.prefix_append _ _) hle
  · -- `d = body ++ t` with `t` a proper prefix of `d`, hence a border
    have hbd : body <+: d := by
      rw [List.append_assoc] at hp
      exact List.prefix_of_prefix_length_le (List.prefix_append _ _) hp hlt.le
    obtain ⟨t, ht⟩ := hbd
    have hlen : body.length + t.length = d.length := by
      rw [← List.length_append, ht]
    have hpos := List.length_pos_iff.2 hne
    have htd : t <+: d := by
      have h' : body ++ t <+: body ++ (d ++ rest) := by
        rw [ht, ← List.append_assoc]
        exact hp
      have h'' : t <+: d ++ rest := (List.prefix_append_right_inj body).1 h'
      exact List.prefix_of_prefix_length_le h'' (List.prefix_append _ _) (by omega)
    have htake : d.take t.length = t := (List.prefix_iff_eq_take.1 htd).symm
    have hdrop : d.drop (d.length - t.length) = t := by
      rw [show d.length - t.length = body.length by omega, ← ht,
        List.drop_left]
    exact absurd (htake.trans hdrop.symm)
      (hd t.length (by omega) (by omega))

/-- Behind a body without the delimiter the search stops at the end of its
frame, whatever follows. -/
theorem firstEnd_append {d : List α} (hd : Unbordered d) :
    ∀ {body : List α} (rest : List α), ¬ d <:+: body →
      firstEnd d (body ++ d ++ rest) = some (body.length + d.length)
  | [], rest, _ => by
      simpa using firstEnd_of_prefix (List.prefix_append d rest)
  | x :: body, rest, h => by
      have hp : ¬ d <+: x :: body ++ d ++ rest := fun hp =>
        h (prefix_of_append_eq_body hd (by simp) hp).isInfix
      have ih := firstEnd_append hd rest
        (fun hin => h (List.infix_cons hin) : ¬ d <:+: body)
      simp only [List.cons_append, firstEnd] at hp ⊢
      rw [if_neg hp, ih]
      simp
      omega

/-- One round of a receive loop on a stream of frames: as soon as the buffered
bytes contain the delimiter, the body cut out in front of it is the first body
of the stream, and what is left over continues with the others. -/
theorem take_frame {d : List α} (hd : Unbordered d) (hd0 : d ≠ [])
    {buf more : List α} {bodies : List (List α)} {n : Nat}
    (hfree : ∀ b ∈ bodies, ¬ d <:+: b) (h : buf ++ more = stream d bodies)
    (hn : firstEnd d buf = some n) :
    ∃ b bs, bodies = b :: bs ∧ buf.take (n - d.length) = b ∧
      buf.take n = frame d b ∧ buf.drop n ++ more = stream d bs := by
  obtain ⟨body, rest, rfl, rfl, hbody⟩ := firstEnd_eq_some hd0 hn
  cases bodies with
  | nil =>
      simp only [stream_nil, List.append_eq_nil_iff] at h
      exact absurd h.1.1.2 hd0
  | cons b bs =>
      have hleft := firstEnd_append hd (rest ++ more) hbody
      have hright := firstEnd_append hd (stream d bs) (hfree b (by simp))
      have heq : body ++ d ++ (rest ++ more) = b ++ d ++ stream d bs := by
        simpa using h
      rw [heq, hright] at hleft
      have hlen : b.length = body.length := by
        simpa using Option.some.inj hleft
      have hb : body = b := by
        have := congrArg (List.take body.length) heq
        rw [List.append_assoc, List.append_assoc b, List.take_left, ← hlen,
          List.take_left] at this
        exact this
      subst hb
      have htake : (body ++ d ++ rest).take (body.length + d.length) =
          frame d body := by
        rw [← List.length_append, List.take_left, frame]
      refine ⟨body, bs, rfl, by simp, htake, ?_⟩
      have hcancel := List.append_cancel_left heq
      rw [← List.length_append, List.drop_left]
      exact hcancel

/-- Without a delimiter in the buffered bytes and without further bytes the
stream is exhausted. -/
theorem stream_eq_of_firstEnd_none {d : List α} {buf : List α}
    {bodies : List (List α)} (h : buf = stream d bodies)
    (hn : firstEnd d buf = none) : bodies = [] := by
  rw [firstEnd_eq_none_iff] at hn
  cases bodies with
  | nil => rfl
  | cons b bs =>
      exact absurd ⟨b, stream d bs, by rw [h, stream_cons]⟩ hn

theorem not_infix_take {d : List α} (hd0 : d ≠ []) {buf : List α} {n : Nat}
    (hn : firstEnd d buf = some n) : ¬ d <:+: buf.take (n - d.length) := by
  obtain ⟨body, rest, rfl, rfl, hbody⟩ := firstEnd_eq_some hd0 hn
  simpa using hbody

end FirstEnd

end Framing
