import BoostSamples.OpenProxy.Protocol

/-!
# The control frames in a stream

Both sides read until the delimiter, deserialize what is in front of it and
consume the frame. `takeEvents` repeats this on a buffer. On a piece of the
stream of some events it takes the first ones, and what it leaves goes on with
the others; on the whole stream it takes all of them. The accessors of the
events throw where the flag of their field is not set.
-/

namespace OpenProxy

open Framing

/-- An accessor of an optional field; the error is the text of what is thrown. -/
def access {α : Type*} (has : Bool) (name : String) (value : α) : Except String α :=
  if has then .ok value else .error ("There is no " ++ name)

namespace Access

def clientId (login : Login) : Except String Uuid :=
  access login.hasClientId "client id" login.clientId

def sessionId (login : Login) : Except String Uuid :=
  access login.hasSessionId "session id" login.sessionId

def type (login : Login) : Except String StreamType := access login.hasType "type" login.type

def ready (greeting : Greeting) : Except String Bool :=
  access greeting.hasReady "ready" greeting.ready

def login (event : Event) : Except String Login := access event.hasLogin "login" event.login

def greeting (event : Event) : Except String Greeting :=
  access event.hasGreeting "greeting" event.greeting

end Access

theorem access_isOk {α : Type*} (has : Bool) (name : String) (value : α) :
    (access has name value).isOk = has := by
  cases has with
  | false => rfl
  | true => rfl

/-- For each accessor whether it returns, and does not throw. -/
def returns (event : Event) : List Bool :=
  [(Access.login event).isOk, (Access.greeting event).isOk, (Access.clientId event.login).isOk,
    (Access.sessionId event.login).isOk, (Access.type event.login).isOk,
    (Access.ready event.greeting).isOk]

theorem returns_eq (event : Event) :
    returns event = [event.hasLogin, event.hasGreeting, event.login.hasClientId,
      event.login.hasSessionId, event.login.hasType, event.greeting.hasReady] := by
  rw [returns, Access.login, Access.greeting, Access.clientId, Access.sessionId, Access.type,
    Access.ready]
  simp only [access_isOk]

namespace TextArchive

variable (A : TextArchive)

/-- The bytes up to the next delimiter are deserialized and consumed; `none` when there is
no delimiter or the archive throws. -/
def takeEvent (source : Buff) : Option (Event × Buff) :=
  (firstEnd delimiter source).bind fun bytes =>
    (A.deserialize source bytes).map fun event => (event, source.drop bytes)

theorem length_lt_of_takeEvent {source rest : Buff} {event : Event}
    (h : A.takeEvent source = some (event, rest)) : rest.length < source.length := by
  obtain ⟨bytes, hbytes, h⟩ := Option.bind_eq_some_iff.1 h
  obtain ⟨_, -, hrest⟩ := Option.map_eq_some_iff.1 h
  have hdrop : source.drop bytes = rest := congrArg Prod.snd hrest
  have hpos := firstEnd_pos delimiter_ne_nil hbytes
  have hle := firstEnd_le_length delimiter_ne_nil hbytes
  rw [← hdrop, List.length_drop]
  omega

/-- Events are taken as long as there is one; what is left comes second. -/
def takeEvents (source : Buff) : List Event × Buff :=
  match _h : A.takeEvent source with
  | none => ([], source)
  | some (event, rest) => (event :: (takeEvents rest).1, (takeEvents rest).2)
termination_by source.length
decreasing_by all_goals exact A.length_lt_of_takeEvent _h

theorem takeEvents_of_none {source : Buff} (h : A.takeEvent source = none) :
    A.takeEvents source = ([], source) := by
  rw [takeEvents]
  split
  · rfl
  · rename_i hsome
    rw [h] at hsome
    cases hsome

theorem takeEvents_of_some {source rest : Buff} {event : Event}
    (h : A.takeEvent source = some (event, rest)) :
    A.takeEvents source = (event :: (A.takeEvents rest).1, (A.takeEvents rest).2) := by
  rw [takeEvents]
  split
  · rename_i hnone
    rw [h] at hnone
    cases hnone
  · rename_i hsome
    rw [h] at hsome
    cases hsome
    rfl

def serializeAll (events : List Event) : Buff := (events.map A.serialize).flatten

theorem serializeAll_eq_stream (events : List Event) :
    A.serializeAll events = stream delimiter (events.map A.text) := by
  rw [serializeAll, stream, List.map_map]
  rfl

theorem takeEvent_of_append {source more : Buff} {events : List Event} {bytes : ℕ}
    (h : source ++ more = A.serializeAll events) (hbytes : firstEnd delimiter source = some bytes) :
    ∃ event rest, events = event :: rest ∧
      A.takeEvent source = some (event, source.drop bytes) ∧
      source.drop bytes ++ more = A.serializeAll rest := by
  rw [serializeAll_eq_stream] at h
  have hfree : ∀ text ∈ events.map A.text, ¬ delimiter <:+: text := by
    intro text htext
    obtain ⟨event, -, rfl⟩ := List.mem_map.1 htext
    exact A.not_infix_text event
  obtain ⟨text, texts, hsplit, htake, -, hrest⟩ :=
    take_frame delimiter_unbordered delimiter_ne_nil hfree h hbytes
  obtain ⟨event, rest, rfl, rfl, rfl⟩ := List.map_eq_cons_iff.1 hsplit
  refine ⟨event, rest, rfl, ?_, ?_⟩
  · rw [takeEvent, hbytes, Option.bind_some, deserialize, htake, ← Event.kinds_eq event, text,
      A.load_save]
    rfl
  · rw [hrest, serializeAll_eq_stream]

/-- From a piece of the stream the first events are taken, and what is left goes on with the
others. -/
theorem takeEvents_of_append {source more : Buff} {events : List Event}
    (h : source ++ more = A.serializeAll events) :
    ∃ rest, events = (A.takeEvents source).1 ++ rest ∧
      firstEnd delimiter (A.takeEvents source).2 = none ∧
      (A.takeEvents source).2 ++ more = A.serializeAll rest := by
  induction events generalizing source with
  | nil =>
      have hsource : source = [] := (List.append_eq_nil_iff.1 h).1
      have hnone : A.takeEvent source = none := by
        rw [hsource]
        rfl
      rw [A.takeEvents_of_none hnone, hsource]
      exact ⟨[], rfl, rfl, by rw [← h, hsource]⟩
  | cons event events ih =>
      cases hbytes : firstEnd delimiter source with
      | none =>
          have hnone : A.takeEvent source = none := by
            rw [takeEvent, hbytes]
            rfl
          rw [A.takeEvents_of_none hnone]
          exact ⟨event :: events, rfl, hbytes, h⟩
      | some bytes =>
          obtain ⟨first, rest, heq, htake, hrest⟩ := A.takeEvent_of_append h hbytes
          obtain ⟨rfl, rfl⟩ := List.cons.inj heq
          rw [A.takeEvents_of_some htake]
          obtain ⟨others, hothers, hfree, hleft⟩ := ih hrest
          exact ⟨others, congrArg (event :: ·) hothers, hfree, hleft⟩

/-- From the whole stream exactly its events are taken, their accessors throw exactly when
those of the originals do, and nothing is left. -/
theorem takeEvents_serializeAll (events : List Event) :
    A.takeEvents (A.serializeAll events) = (events, []) ∧
      (A.takeEvents (A.serializeAll events)).1.map returns = events.map returns := by
  have htake : A.takeEvents (A.serializeAll events) = (events, []) := by
    have hstream : A.serializeAll events ++ [] = A.serializeAll events := List.append_nil _
    obtain ⟨rest, hevents, hfree, hleft⟩ := A.takeEvents_of_append hstream
    rw [List.append_nil] at hleft
    have hrest : rest = [] := by
      have hstream := hleft.trans (A.serializeAll_eq_stream rest)
      exact List.map_eq_nil_iff.1 (stream_eq_of_firstEnd_none hstream hfree)
    rw [hrest, List.append_nil] at hevents
    rw [hrest] at hleft
    exact Prod.ext hevents.symm hleft
  rw [htake]
  exact ⟨rfl, rfl⟩

/-- Three events with different fields, as they are written by `plainText`. -/
theorem plainText_takeEvents :
    plainText.takeEvents (plainText.serializeAll
        [.ofLogin nilUuid 1 .upstream, .ofReady, .ofLogin 2 3 .downstream]) =
      ([.ofLogin nilUuid 1 .upstream, .ofReady, .ofLogin 2 3 .downstream], []) :=
  (plainText.takeEvents_serializeAll _).1

end TextArchive

end OpenProxy
