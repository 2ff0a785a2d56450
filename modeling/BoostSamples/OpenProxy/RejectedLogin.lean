import BoostSamples.OpenProxy.Proxy

/-!
# Rejected logins

A login writes the requested id into its session before the registry is asked.
When the registry refuses the session, the failure handler removes the pair
under the id of the session, which is the pair that the login was refused for.
-/

namespace OpenProxy

open Registry Transition

namespace Proxy

variable {κ : Type*} [DecidableEq κ]

/-- The read of a connection has completed with a complete login that the
registry refuses. -/
structure RejectedLogin (A : TextArchive) (s : Proxy κ) (c : κ) (bytes : Nat) (event : Event) :
    Prop where
  reader : (s.conns c).reader = .completed .initializing bytes
  decoded : A.deserialize (s.conns c).session.buffWrite bytes = some event
  hasLogin : event.hasLogin = true
  complete : (event.login.hasSessionId && event.login.hasClientId && event.login.hasType) = true
  refused : s.proxyMgr.add event.login.sessionId event.login.type.side c = none

/-- What a step leaves alone if it concerns one connection only: the registered
pairs, whether their sessions are stopped, and the other connections. -/
structure Harmless (s t : Proxy κ) (c : κ) : Prop where
  pairs : ∀ id p, s.proxyMgr.find id = some p → t.proxyMgr.find id = some p
  sessions : ∀ id p c', s.proxyMgr.find id = some p → p.Contains c' →
    (t.conns c').session.isOpen = (s.conns c').session.isOpen
  others : ∀ c', c' ≠ c → t.conns c' = s.conns c'

theorem removeSession_of_none {s : Proxy κ} {id : Uuid} (h : s.proxyMgr.find id = none) :
    s.removeSession id = s := by
  simp [removeSession, h]

theorem find_removeSession (s : Proxy κ) (id : Uuid) :
    (s.removeSession id).proxyMgr.find id = none := by
  unfold removeSession
  split
  · assumption
  · exact (s.proxyMgr.find_remove id id).trans (if_pos rfl)

/-- The failure handler then removes the pair of the requested id. -/
theorem RejectedLogin.step {A : TextArchive} {s t : Proxy κ} {c : κ} {bytes : Nat}
    {event : Event} (h : s.RejectedLogin A c bytes event)
    (hstep : s.step A (.handle c) = some t) :
    t = ((s.setReader c .idle).loggedIn c bytes event.login).removeSession
      event.login.sessionId := by
  obtain ⟨-, hstep⟩ := Option.ite_none_left_eq_some.1 hstep
  have hdecoded : A.deserialize ((s.setReader c .idle).conns c).session.buffWrite bytes =
      some event := by
    rw [conns_setReader_self]
    exact h.decoded
  simp only [perform, h.reader, Option.some.injEq] at hstep
  rw [← hstep]
  simp only [handleRead, handleInitialize_login hdecoded h.hasLogin h.complete,
    proxyMgr_setReader, h.refused]
  simp [readCatch, loggedIn]

theorem RejectedLogin.not_harmless {A : TextArchive} {s t : Proxy κ} {c : κ} {bytes : Nat}
    {event : Event} (h : s.RejectedLogin A c bytes event)
    (hstep : s.step A (.handle c) = some t) {p : Pair κ}
    (hp : s.proxyMgr.find event.login.sessionId = some p) : ¬ s.Harmless t c := by
  intro hharmless
  have hkept := hharmless.pairs _ p hp
  rw [h.step hstep, find_removeSession] at hkept
  cases hkept

theorem RejectedLogin.harmless {A : TextArchive} {s t : Proxy κ} {c : κ} {bytes : Nat}
    {event : Event} (h : s.RejectedLogin A c bytes event)
    (hstep : s.step A (.handle c) = some t)
    (hfind : s.proxyMgr.find event.login.sessionId = none) : s.Harmless t c := by
  rw [h.step hstep, removeSession_of_none (by simpa [loggedIn] using hfind)]
  have hother : ∀ c', c' ≠ c →
      ((s.setReader c .idle).loggedIn c bytes event.login).conns c' = s.conns c' := by
    intro c' hc
    rw [loggedIn, modifySession, conns_modify_of_ne _ _ _ hc, setReader,
      conns_modify_of_ne _ _ _ hc]
  refine ⟨fun _ _ hp => hp, fun id p c' _ _ => ?_, hother⟩
  by_cases hc : c' = c
  · subst hc
    simp [loggedIn]
  · rw [hother c' hc]

/-- A rejected login is harmless exactly if no pair is registered under the
session id it asks for. -/
theorem rejectedLogin_harmless_iff {A : TextArchive} {s t : Proxy κ} {c : κ} {bytes : Nat}
    {event : Event} (h : s.RejectedLogin A c bytes event)
    (hstep : (system A).step s (.handle c) = some t) :
    s.Harmless t c ↔ s.proxyMgr.find event.login.sessionId = none := by
  constructor
  · intro hharmless
    by_contra hfind
    obtain ⟨p, hp⟩ := Option.ne_none_iff_exists'.1 hfind
    exact h.not_harmless hstep hp hharmless
  · exact h.harmless hstep

/-- A connection is accepted and its first frame, an event, read. -/
def frameRun (A : TextArchive) (c : κ) (event : Event) : List (ProxyEvent κ) :=
  [.accept c 0 0, .arrive c (A.serialize event), .start c,
    .read c (A.serialize event).length]

/-- The connection after that, with the handler of its read to run. -/
def frameConn (A : TextArchive) (event : Event) : Conn where
  session := { bytesRead := 0, bytesWrite := 0, buffWrite := A.serialize event }
  accepted := true
  reader := .completed .initializing (A.serialize event).length

theorem exec_frameRun (A : TextArchive) {s : Proxy κ} {c : κ} (event : Event)
    (hfault : s.fault = false) (hnew : (s.conns c).accepted = false) :
    (system A).exec s (frameRun A c event) = some (s.modify c fun _ => frameConn A event) := by
  have hlength : 0 < (A.serialize event).length :=
    List.length_pos_iff.2 (A.serialize_ne_nil event)
  have huntil := Reader.until_serialize A event [] .initializing
  rw [List.append_nil] at huntil
  simp [frameRun, System.exec, system, step, perform, hfault, hnew, modify, setReader,
    Session.buff, Session.append, hlength, frameConn, huntil]

theorem exec_loginRun (A : TextArchive) {s : Proxy κ} {c : κ} {id : Uuid} {type : StreamType}
    {mgr : PairMap Uuid κ} (hfault : s.fault = false) (hnew : (s.conns c).accepted = false)
    (hadd : s.proxyMgr.add id type.side c = some mgr) :
    (system A).exec s (frameRun A c (.ofLogin nilUuid id type) ++ [.handle c]) =
      some { s.modify c fun _ =>
          { session := { id := id, type := type, bytesRead := 0, bytesWrite := 0 }
            accepted := true
            reader := .starting .initializing } with
        proxyMgr := mgr } := by
  have hdecoded := A.deserialize_serialize (.ofLogin nilUuid id type) []
  rw [List.append_nil] at hdecoded
  rw [System.exec_append, exec_frameRun A _ hfault hnew, Option.bind_some, System.exec_cons]
  simp only [system, step, fault_modify, hfault, Bool.false_eq_true, if_false, perform,
    conns_modify_self, frameConn, Option.bind_some, System.exec_nil, handleRead]
  rw [handleInitialize_login (by simpa using hdecoded) rfl rfl]
  simp only [proxyMgr_setReader, proxyMgr_modify]
  rw [show (Event.ofLogin nilUuid id type).login.sessionId = id from rfl,
    show (Event.ofLogin nilUuid id type).login.type = type from rfl, hadd]
  simp [loggedIn, setReader, modifySession, modify, Event.ofLogin, hfault]

theorem rejectedLogin_frame (A : TextArchive) (s : Proxy κ) (c : κ) {id : Uuid}
    {type : StreamType} (hadd : s.proxyMgr.add id type.side c = none) :
    (s.modify c fun _ => frameConn A (.ofLogin nilUuid id type)).RejectedLogin A c
      (A.serialize (.ofLogin nilUuid id type)).length (.ofLogin nilUuid id type) where
  reader := by rw [conns_modify_self]; rfl
  decoded := by
    have hdecoded := A.deserialize_serialize (.ofLogin nilUuid id type) []
    rw [List.append_nil] at hdecoded
    rw [conns_modify_self]
    exact hdecoded
  hasLogin := rfl
  complete := rfl
  refused := hadd

/-- While session 1 is registered, a login of unknown type asks for session 2. -/
theorem unknownLogin_harmless :
    ∃ s t : Proxy Nat, (system plainText).Reachable s ∧
      s.proxyMgr.find 1 = some (.single 0 .up) ∧
      (system plainText).step s (.handle 1) = some t ∧ s.Harmless t 1 := by
  have hfirst : (system plainText).exec (start : Proxy Nat)
      (frameRun plainText 0 (.ofLogin nilUuid 1 .upstream) ++ [.handle 0]) = some _ :=
    exec_loginRun plainText rfl rfl rfl
  have hlogin : (system plainText).Reachable _ := System.Reachable.exec (.init rfl) hfirst
  have hsecond := hlogin.exec
    (exec_frameRun plainText (c := 1) (.ofLogin nilUuid 2 .unknown) rfl rfl)
  refine ⟨_, _, hsecond, rfl, rfl, ?_⟩
  exact (rejectedLogin_harmless_iff (rejectedLogin_frame plainText _ 1 rfl) rfl).2 rfl

/-- Two connections log in to the up end of session 1, and the pair of the first
is removed. -/
theorem secondLogin_not_harmless :
    ∃ s t : Proxy Nat, (system plainText).Reachable s ∧
      s.RejectedLogin plainText 1 (plainText.serialize (.ofLogin nilUuid 1 .upstream)).length
        (.ofLogin nilUuid 1 .upstream) ∧
      (system plainText).step s (.handle 1) = some t ∧ ¬ s.Harmless t 1 := by
  have hfirst : (system plainText).exec (start : Proxy Nat)
      (frameRun plainText 0 (.ofLogin nilUuid 1 .upstream) ++ [.handle 0]) = some _ :=
    exec_loginRun plainText rfl rfl rfl
  have hlogin : (system plainText).Reachable _ := System.Reachable.exec (.init rfl) hfirst
  have hsecond := hlogin.exec
    (exec_frameRun plainText (c := 1) (.ofLogin nilUuid 1 .upstream) rfl rfl)
  refine ⟨_, _, hsecond, rejectedLogin_frame plainText _ 1 rfl, rfl, ?_⟩
  exact (rejectedLogin_frame plainText _ 1 rfl).not_harmless rfl rfl

end Proxy

end OpenProxy
