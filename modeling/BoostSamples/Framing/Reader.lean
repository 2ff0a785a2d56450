import BoostSamples.Framing.Delimiter

/-!
# A loop that reads frames

The loop searches its buffer for the delimiter, gives the body in front of it to a
handler and, if the handler asks for it, consumes the frame and goes on, possibly in
another mode. A body can be handed on and still end the loop, and a body can be
rejected. What a run hands on of delimiter free bodies is `handed`, however the stream
is cut into reads, so all bodies are recovered exactly if none contains the delimiter
and none ends the loop before the last.
-/

namespace Framing

inductive Outcome (μ : Type*)
  /-- It hands the body on, consumes the frame and reads on. -/
  | posts (mode : μ)
  /-- It hands the body on and consumes the frame, and the next read fails. -/
  | stops
  /-- It hands the body on and throws. -/
  | throws
  /-- It throws before it hands the body on. -/
  | rejects
  deriving DecidableEq

/-- A loop that reads a stream: the reads still to come, the bytes buffered and the
bodies handed on so far. -/
structure Reader (α μ : Type*) where
  mode : μ
  reads : List (List α)
  buffer : List α := []
  bodies : List (List α) := []
  ended : Bool := false
  deriving DecidableEq

namespace Reader

variable {α μ : Type*}

/-- The effect of a handler on a frame of `n` bytes. -/
def handle (r : Reader α μ) (n : ℕ) (body : List α) : Outcome μ → Reader α μ
  | .posts mode =>
      { r with mode := mode, buffer := r.buffer.drop n, bodies := r.bodies ++ [body] }
  | .stops => { r with buffer := r.buffer.drop n, bodies := r.bodies ++ [body], ended := true }
  | .throws => { r with bodies := r.bodies ++ [body], ended := true }
  | .rejects => { r with ended := true }

/-- One step of the loop. The `n`-th frame is given to `handler n`. -/
def next [DecidableEq α] (d : List α) (handler : ℕ → μ → List α → Outcome μ)
    (r : Reader α μ) : Option (Reader α μ) :=
  if r.ended then none
  else
    match firstEnd d r.buffer with
    | some n =>
        let body := r.buffer.take (n - d.length)
        some (r.handle n body (handler r.bodies.length r.mode body))
    | none =>
        match r.reads with
        | [] => none
        | read :: reads => some { r with reads := reads, buffer := r.buffer ++ read }

/-- From `r` the loop runs until it has ended or waits for bytes that never come, and
has then handed on exactly `bodies`. -/
inductive HandsOn [DecidableEq α] (d : List α) (handler : ℕ → μ → List α → Outcome μ) :
    Reader α μ → List (List α) → Prop
  | done {r : Reader α μ} : r.next d handler = none → HandsOn d handler r r.bodies
  | next {r r' : Reader α μ} {bodies : List (List α)} :
      r.next d handler = some r' → HandsOn d handler r' bodies → HandsOn d handler r bodies

/-- What is handed on of some bodies, the first of which is the `n`-th. -/
def handed (handler : ℕ → μ → List α → Outcome μ) : ℕ → μ → List (List α) → List (List α)
  | _, _, [] => []
  | n, mode, body :: bodies =>
      match handler n mode body with
      | .posts mode => body :: handed handler (n + 1) mode bodies
      | .stops => [body]
      | .throws => [body]
      | .rejects => []

/-- No body is rejected, and none ends the loop before the last. -/
def takesAll (handler : ℕ → μ → List α → Outcome μ) : ℕ → μ → List (List α) → Bool
  | _, _, [] => true
  | n, mode, body :: bodies =>
      match handler n mode body with
      | .posts mode => takesAll handler (n + 1) mode bodies
      | .stops => bodies.isEmpty
      | .throws => bodies.isEmpty
      | .rejects => false

theorem handed_eq_self_iff (handler : ℕ → μ → List α → Outcome μ) (n : ℕ) (mode : μ)
    (bodies : List (List α)) :
    handed handler n mode bodies = bodies ↔ takesAll handler n mode bodies = true := by
  induction bodies generalizing n mode with
  | nil => simp [handed, takesAll]
  | cons body bodies ih =>
      rw [handed, takesAll]
      cases handler n mode body with
      | posts mode => simp [ih]
      | stops => cases bodies <;> simp
      | throws => cases bodies <;> simp
      | rejects => simp

variable [DecidableEq α] {d : List α} {handler : ℕ → μ → List α → Outcome μ}
  {r r' : Reader α μ}

theorem next_cases (h : r.next d handler = some r') :
    r.ended = false ∧
      ((∃ n, firstEnd d r.buffer = some n ∧
        r' = r.handle n (r.buffer.take (n - d.length))
          (handler r.bodies.length r.mode (r.buffer.take (n - d.length)))) ∨
      ∃ read reads, firstEnd d r.buffer = none ∧ r.reads = read :: reads ∧
        r' = { r with reads := reads, buffer := r.buffer ++ read }) := by
  rw [next] at h
  split at h
  · cases h
  · next hended =>
      refine ⟨Bool.eq_false_iff.2 hended, ?_⟩
      split at h
      · next n hn => exact .inl ⟨n, hn, (Option.some.inj h).symm⟩
      · next hn =>
          split at h
          · cases h
          · next read reads hr => exact .inr ⟨read, reads, hn, hr, (Option.some.inj h).symm⟩

/-- The loop stops when it has ended, or with every read taken and no delimiter
buffered. -/
theorem next_eq_none_iff (r : Reader α μ) : r.next d handler = none ↔
    r.ended = true ∨ firstEnd d r.buffer = none ∧ r.reads = [] := by
  rw [next]
  cases r.ended with
  | true => simp
  | false =>
      cases hn : firstEnd d r.buffer with
      | some n => simp
      | none => cases hr : r.reads <;> simp

/-- Each step removes a read or bytes of the buffer, or ends the loop. -/
def measure (r : Reader α μ) : ℕ :=
  r.reads.length + 2 * (r.buffer.length + r.reads.flatten.length) + if r.ended then 0 else 1

omit [DecidableEq α] in
theorem measure_handle (hended : r.ended = false) {n : ℕ} (hpos : 0 < n)
    (hle : n ≤ r.buffer.length) (body : List α) (outcome : Outcome μ) :
    (r.handle n body outcome).measure < r.measure := by
  cases outcome <;> simp only [handle, measure, List.length_drop, hended] <;> grind

theorem measure_next (hd0 : d ≠ []) (h : r.next d handler = some r') :
    r'.measure < r.measure := by
  obtain ⟨hended, ⟨n, hn, rfl⟩ | ⟨read, reads, -, hr, rfl⟩⟩ := next_cases h
  · exact measure_handle hended (firstEnd_pos hd0 hn) (firstEnd_le_length hd0 hn) _ _
  · simp only [measure, hr, List.length_cons, List.flatten_cons, List.length_append]
    omega

/-- A run has one result. -/
theorem HandsOn.unique {bodies bodies' : List (List α)} (h : HandsOn d handler r bodies)
    (h' : HandsOn d handler r bodies') : bodies = bodies' := by
  induction h with
  | done hnone =>
      cases h' with
      | done _ => rfl
      | next hnext _ => rw [hnone] at hnext; cases hnext
  | next hnext _ ih =>
      cases h' with
      | done hnone => rw [hnone] at hnext; cases hnext
      | next hnext' h' =>
          rw [hnext] at hnext'
          exact ih (Option.some.inj hnext' ▸ h')

/-- While the bodies still to come are delimiter free, the bytes buffered and to be
read are their stream, and the loop hands on what its handler takes of them. -/
theorem handsOn_of_stream (hd : Unbordered d) (hd0 : d ≠ []) {rest : List (List α)}
    (hfree : ∀ b ∈ rest, ¬ d <:+: b) (hended : r.ended = false)
    (h : r.buffer ++ r.reads.flatten = stream d rest) :
    HandsOn d handler r (r.bodies ++ handed handler r.bodies.length r.mode rest) := by
  induction hm : r.measure using Nat.strong_induction_on generalizing r rest with
  | _ m ih =>
      cases hnext : r.next d handler with
      | none =>
          obtain hend | ⟨hn, hreads⟩ := (next_eq_none_iff r).1 hnext
          · rw [hended] at hend
            cases hend
          have hrest := stream_eq_of_firstEnd_none (by simpa [hreads] using h) hn
          subst hrest
          simpa [handed] using HandsOn.done hnext
      | some r' =>
          have hlt := measure_next hd0 hnext
          obtain ⟨-, ⟨n, hn, rfl⟩ | ⟨read, reads, -, hr, rfl⟩⟩ := next_cases hnext
          · obtain ⟨b, bs, rfl, hbody, -, hdrop⟩ := take_frame hd hd0 hfree h hn
            rw [hbody] at hlt hnext
            refine .next hnext ?_
            rw [handed]
            cases houtcome : handler r.bodies.length r.mode b with
            | posts mode =>
                rw [houtcome] at hlt
                have := ih _ (hm ▸ hlt) (r := r.handle n b (.posts mode))
                  (fun x hx => hfree x (by simp [hx])) hended hdrop rfl
                simpa [handle] using this
            | stops => exact .done ((next_eq_none_iff _).2 (.inl rfl))
            | throws => exact .done ((next_eq_none_iff _).2 (.inl rfl))
            | rejects =>
                rw [List.append_nil]
                exact .done (r := { r with ended := true }) ((next_eq_none_iff _).2 (.inl rfl))
          · exact .next hnext
              (ih _ (hm ▸ hlt) hfree hended (by simpa [hr] using h) rfl)

omit [DecidableEq α] in
theorem mem_bodies_handle {n : ℕ} {body b : List α} {outcome : Outcome μ}
    (hb : b ∈ (r.handle n body outcome).bodies) : b ∈ r.bodies ∨ b = body := by
  cases outcome <;> simp only [handle] at hb <;> simp_all

/-- The loop never hands on a body that contains the delimiter. -/
theorem HandsOn.not_infix (hd0 : d ≠ []) {bodies : List (List α)}
    (h : HandsOn d handler r bodies) (hr : ∀ b ∈ r.bodies, ¬ d <:+: b) :
    ∀ b ∈ bodies, ¬ d <:+: b := by
  induction h with
  | done _ => exact hr
  | next hnext _ ih =>
      apply ih
      obtain ⟨-, ⟨n, hn, rfl⟩ | ⟨read, reads, -, -, rfl⟩⟩ := next_cases hnext
      · intro b hmem
        rcases mem_bodies_handle hmem with hmem | rfl
        · exact hr b hmem
        · exact not_infix_take hd0 hn
      · exact hr

/-- However the stream of some bodies is cut into reads, the loop hands on exactly
these if and only if none contains the delimiter and the handlers take all. -/
theorem handsOn_iff (hd : Unbordered d) (hd0 : d ≠ []) {mode : μ} {reads bodies : List (List α)}
    (hcut : reads.flatten = stream d bodies) :
    HandsOn d handler ⟨mode, reads, [], [], false⟩ bodies ↔
      (∀ b ∈ bodies, ¬ d <:+: b) ∧ takesAll handler 0 mode bodies = true := by
  have hrun (hfree : ∀ b ∈ bodies, ¬ d <:+: b) :
      HandsOn d handler ⟨mode, reads, [], [], false⟩ (handed handler 0 mode bodies) :=
    handsOn_of_stream hd hd0 hfree rfl hcut
  rw [← handed_eq_self_iff]
  constructor
  · intro h
    have hfree := h.not_infix hd0 (by simp)
    exact ⟨hfree, (hrun hfree).unique h⟩
  · rintro ⟨hfree, hhanded⟩
    exact hhanded ▸ hrun hfree

end Reader

end Framing
