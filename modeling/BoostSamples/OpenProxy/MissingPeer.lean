import BoostSamples.OpenProxy.PairRegistry

/-!
# The peer of a relayed frame

`Receive` sends a data frame to the opposite session of the pair, and its loop
is started by the greeting of a session, whether or not the opposite session is
there; the check that it is there and ready is commented out. A session becomes
ready when it has been sent the greeting of the opposite one, so the opposite
session is there as long as clients wait until they are ready, log in once, and
their connection is still registered.
-/

namespace OpenProxy

open Registry Transition

namespace Proxy

variable {κ : Type*} [DecidableEq κ]

/-- The event relays a data frame; `dest` is the session pointer that is passed
to `Send`. -/
inductive Relays (s : Proxy κ) : ProxyEvent κ → Option κ → Prop
  | mk {c : κ} {bytes : Nat} {p : Pair κ} {d : Side} :
      (s.conns c).reader = .completed .receiving bytes →
      s.proxyMgr.find (s.conns c).session.id = some p →
      (s.conns c).session.type.side = some d →
      Relays s (.handle c) (p.get d.other)

/-- The session is ready, or a `SendReady` to it is in progress. -/
def Readying (s : Proxy κ) (c : κ) : Prop :=
  (s.conns c).session.isReady = true ∨ ∃ w ∈ s.writes, w.kind = .ready ∧ w.dest = c

/-- The session is in the pair of its id. -/
def Registered (s : Proxy κ) (c : κ) : Prop :=
  ∃ p ∈ s.proxyMgr.find (s.conns c).session.id, p.down = some c ∨ p.up = some c

def received (s : Proxy κ) : ProxyEvent κ → Option κ
  | .handle c =>
      match (s.conns c).reader with
      | .completed .receiving _ => some c
      | _ => none
  | _ => none

/-- A login is handled only on a connection that is not registered, not ready
and not about to be; a data frame only on one that is ready and, if there is a
pair of its id, registered. -/
def Orderly (A : TextArchive) (s : Proxy κ) (e : ProxyEvent κ) : Prop :=
  (∀ x ∈ s.login A e, ¬ s.Readying x.1 ∧ ¬ s.Registered x.1) ∧
  ∀ c ∈ s.received e, (s.conns c).session.isReady = true ∧
    (s.proxyMgr.find (s.conns c).session.id = none ∨ s.Registered c)

instance (s : Proxy κ) (c : κ) : Decidable (s.Readying c) := by
  unfold Readying
  infer_instance

instance (s : Proxy κ) (c : κ) : Decidable (s.Registered c) := by
  unfold Registered
  infer_instance

instance (A : TextArchive) (s : Proxy κ) (e : ProxyEvent κ) : Decidable (s.Orderly A e) := by
  unfold Orderly
  infer_instance

/-- Both halves of a pair are there. -/
def Full (p : Pair κ) : Prop := ∀ d, p.get d ≠ none

/-- A ready session has its opposite one. -/
def Joined (s : Proxy κ) : Prop :=
  ∀ key p c, s.proxyMgr.find key = some p → p.Contains c → s.Readying c → Full p

/-- No session gets ready or is about to. -/
def Calm (s t : Proxy κ) : Prop := ∀ c, t.Readying c → s.Readying c

namespace Calm

variable {s t u : Proxy κ}

omit [DecidableEq κ] in
theorem refl (s : Proxy κ) : s.Calm s := fun _ h => h

omit [DecidableEq κ] in
theorem trans (h : s.Calm t) (h' : t.Calm u) : s.Calm u := fun c hc => h c (h' c hc)

theorem modify (s : Proxy κ) (c : κ) {f : Conn → Conn}
    (h : (f (s.conns c)).session.isReady = true → (s.conns c).session.isReady = true) :
    s.Calm (s.modify c f) := by
  rintro c' (hready | hwrite)
  · by_cases hc : c' = c
    · subst hc
      rw [conns_modify_self] at hready
      exact .inl (h hready)
    · rw [conns_modify_of_ne _ _ _ hc] at hready
      exact .inl hready
  · exact .inr hwrite

theorem modifySession (s : Proxy κ) (c : κ) {g : Session → Session}
    (h : (g (s.conns c).session).isReady = (s.conns c).session.isReady) :
    s.Calm (s.modifySession c g) :=
  modify s c fun hready => h ▸ hready

theorem setReader (s : Proxy κ) (c : κ) (reader : Reader) : s.Calm (s.setReader c reader) :=
  modify s c fun h => h

omit [DecidableEq κ] in
theorem of_conns (hconns : t.conns = s.conns)
    (hwrites : ∀ w ∈ t.writes, w.kind = .ready → ∃ w' ∈ s.writes, w'.kind = .ready ∧
      w'.dest = w.dest) : s.Calm t := by
  rintro c (hready | ⟨w, hw, hkind, rfl⟩)
  · rw [hconns] at hready
    exact .inl hready
  · exact .inr (hwrites w hw hkind)

theorem stopHalf (s : Proxy κ) (half : Option κ) : s.Calm (s.stopHalf half) := by
  cases half with
  | none => exact refl s
  | some c =>
      have hstop : (s.conns c).session.stop.isReady = true →
          (s.conns c).session.isReady = true := by
        unfold Session.stop
        split
        · intro h
          cases h
        · exact fun h => h
      exact modify (f := fun x => { x with session := x.session.stop }) s c hstop

theorem removeSession (s : Proxy κ) (id : Uuid) : s.Calm (s.removeSession id) := by
  unfold Proxy.removeSession
  split
  · exact refl s
  · next p _ =>
      refine ((stopHalf s p.down).trans (stopHalf _ p.up)).trans ?_
      exact of_conns rfl fun w hw hkind => ⟨w, hw, hkind, rfl⟩

omit [DecidableEq κ] in
theorem send (s : Proxy κ) (dest : Option κ) (source : κ) : s.Calm (s.send dest source) := by
  cases dest with
  | none => exact of_conns rfl fun w hw hkind => ⟨w, hw, hkind, rfl⟩
  | some c =>
      refine of_conns rfl fun w hw hkind => ?_
      rcases List.mem_append.1 hw with hold | hnew
      · exact ⟨w, hold, hkind, rfl⟩
      · obtain rfl := List.mem_singleton.1 hnew
        cases hkind

end Calm

section Steps

variable {A : TextArchive} {s t : Proxy κ} {c : κ} {bytes : Nat}

def InFull (s : Proxy κ) (c : κ) : Prop :=
  ∃ key p, s.proxyMgr.find key = some p ∧ p.Contains c ∧ Full p

omit [DecidableEq κ] in
theorem readying_sendReady {dest : Option κ} {source c' : κ}
    (h : (s.sendReady dest source).Readying c') :
    s.Readying c' ∨ dest = some c' := by
  cases dest with
  | none => exact .inl h
  | some target =>
      rcases h with hready | ⟨w, hw, hkind, rfl⟩
      · exact .inl (.inl hready)
      · rcases List.mem_append.1 hw with hold | hnew
        · exact .inl (.inr ⟨w, hold, hkind, rfl⟩)
        · obtain rfl := List.mem_singleton.1 hnew
          exact .inr rfl

omit [DecidableEq κ] in
/-- A greeting makes the two sessions of a full pair ready, or the process
ends. -/
theorem readying_greet {d : Side} {key : Uuid} {p : Pair κ} {c' : κ}
    (hp : s.proxyMgr.find key = some p) (h : (s.greet c d p).Readying c') :
    s.Readying c' ∨ (s.greet c d p).fault = true ∨ s.InFull c' := by
  cases hother : p.get d.other with
  | none =>
      simp only [greet, hother] at h
      exact .inl h
  | some opposite =>
      cases hself : p.get d with
      | none => exact .inr (.inl (by simp [greet, hother, hself, sendReady]))
      | some self =>
          have hfull : Full p := by
            intro e
            rcases d.eq_or_eq_other e with rfl | rfl
            · simp [hself]
            · simp [hother]
          simp only [greet, hother] at h
          rcases readying_sendReady h with h | h
          · rcases readying_sendReady h with h | h
            · exact .inl h
            · cases h
              exact .inr (.inr ⟨key, p, hp, ⟨d.other, hother⟩, hfull⟩)
          · exact .inr (.inr ⟨key, p, hp, ⟨d, h⟩, hfull⟩)

theorem Received.calm (h : s.Received c bytes t) : s.Calm t := by
  cases h with
  | unpaired => exact Calm.refl s
  | sent _ _ => exact (Calm.modifySession s c rfl).trans (Calm.send _ _ _)

theorem Initialized.readying (h : s.Initialized A c bytes t) {c' : κ} (hc : t.Readying c') :
    s.Readying c' ∨ t.fault = true ∨ s.InFull c' := by
  cases h with
  | undecoded => exact .inl hc
  | consumed => exact .inl (Calm.modifySession s c rfl c' hc)
  | refused _ _ _ _ => exact .inl (Calm.modifySession s c rfl c' hc)
  | @registered event mgr _ _ _ _ =>
      have hlogin : s.Calm (s.loggedIn c bytes event.login) := Calm.modifySession s c rfl
      have hmgr : (s.loggedIn c bytes event.login).Calm
          { s.loggedIn c bytes event.login with proxyMgr := mgr } :=
        Calm.of_conns rfl fun w hw hkind => ⟨w, hw, hkind, rfl⟩
      exact .inl (((hlogin.trans hmgr).trans (Calm.setReader _ _ _)) c' hc)
  | unpaired => exact .inl (Calm.modifySession s c rfl c' hc)
  | @greeted p d hp _ =>
      have hsession : s.Calm (s.modifySession c fun x => { x with bytesWrite := bytes }) :=
        Calm.modifySession s c rfl
      rcases readying_greet (s := s.modifySession c fun x => { x with bytesWrite := bytes }) hp
        (Calm.setReader _ _ _ c' hc) with h | h | h
      · exact .inl (hsession c' h)
      · exact .inr (.inl h)
      · exact .inr (.inr h)

theorem fault_removeSession (id : Uuid) : (s.removeSession id).fault = s.fault := by
  unfold removeSession
  split
  · rfl
  · next p _ => cases p.down <;> cases p.up <;> rfl

theorem readying_of_effect {e : ProxyEvent κ} (h : Effect A s e t) {c' : κ}
    (hc : t.Readying c') : s.Readying c' ∨ t.fault = true ∨ s.InFull c' := by
  cases h with
  | accept _ => exact .inl (Calm.modify s _ (fun h => by cases h) c' hc)
  | arrive _ => exact .inl (Calm.modify s _ (fun h => h) c' hc)
  | start _ => exact .inl (Calm.setReader s _ _ c' hc)
  | @read c bytes loop _ _ _ _ =>
      refine .inl (Calm.modify s _ ?_ c' hc)
      cases loop <;> exact fun h => h
  | @handle c loop bytes hreader =>
      have hidle : s.Calm (s.setReader c .idle) := Calm.setReader s _ _
      obtain ⟨u, hu, hcatch⟩ := handleRead_effect A s c loop bytes
      have hreadying : ∀ c', u.Readying c' →
          s.Readying c' ∨ u.fault = true ∨ s.InFull c' := by
        intro c' hc'
        cases loop with
        | receiving => exact .inl (hidle c' ((received_of_ends hu).calm c' hc'))
        | initializing =>
            rcases (initialized_of_ends hu).readying hc' with h | h | h
            · exact .inl (hidle c' h)
            · exact .inr (.inl h)
            · exact .inr (.inr h)
      rcases hcatch with h | h
      · rw [h] at hc ⊢
        exact hreadying c' hc
      · rw [h, readCatch] at hc ⊢
        rw [fault_removeSession]
        exact hreadying c' (Calm.removeSession _ _ c' hc)
  | readFail _ =>
      exact .inl (((Calm.setReader s _ _).trans (Calm.removeSession _ _)) c' hc)
  | @write bytes before after w hwrites _ _ _ =>
      have hmodify : s.Calm (s.modify w.dest fun x =>
          { x with outbound := x.outbound ++ w.rest.take bytes }) :=
        Calm.modify s _ fun h => h
      refine .inl (hmodify c' ?_)
      rcases hc with hready | ⟨w', hw', hkind, rfl⟩
      · exact .inl hready
      · rcases List.mem_append.1 hw' with hold | hold
        · exact .inr ⟨w', by simp [hwrites, hold], hkind, rfl⟩
        · rcases List.mem_cons.1 hold with rfl | hold
          · exact .inr ⟨w, by simp [hwrites], hkind, rfl⟩
          · exact .inr ⟨w', by simp [hwrites, hold], hkind, rfl⟩
  | @writeDone before after w hwrites _ =>
      have hless : s.Calm { s with writes := before ++ after } :=
        Calm.of_conns rfl fun w' hw' hkind => ⟨w', by
          rw [hwrites]
          rcases List.mem_append.1 hw' with hold | hold <;> simp [hold], hkind, rfl⟩
      cases hkind : w.kind with
      | data =>
          rw [conns_writeHandler_data hkind] at hc
          exact .inl (hless c' (Calm.modify _ _ (fun h => h) c' hc))
      | ready =>
          refine .inl ?_
          rcases hc with hready | hwrite
          · rw [conns_writeHandler_ready hkind] at hready
            by_cases hdest : c' = w.dest
            · exact .inr ⟨w, by simp [hwrites], hkind, hdest.symm⟩
            · rw [if_neg hdest] at hready
              exact .inl hready
          · rw [writes_writeHandler] at hwrite
            exact hless c' (.inr hwrite)
  | @writeFail before after w hwrites _ =>
      have hless : s.Calm { s with writes := before ++ after } :=
        Calm.of_conns rfl fun w' hw' hkind => ⟨w', by
          rw [hwrites]
          rcases List.mem_append.1 hw' with hold | hold <;> simp [hold], hkind, rfl⟩
      exact .inl ((hless.trans (Calm.removeSession _ _)) c' hc)

omit [DecidableEq κ] in
theorem registered_of_contains (hs : s.Keyed) {key : Uuid} {p : Pair κ}
    (hp : s.proxyMgr.find key = some p) (hc : p.Contains c) : s.Registered c := by
  obtain ⟨d, hd⟩ := hc
  obtain ⟨hid, -⟩ := hs key p d c hp hd
  refine ⟨p, by rw [hid]; exact hp, ?_⟩
  cases d with
  | down => exact .inl hd
  | up => exact .inr hd

omit [DecidableEq κ] in
theorem full_of_inFull (hs : s.Keyed) {key : Uuid} {p : Pair κ}
    (hp : s.proxyMgr.find key = some p) (hc : p.Contains c) (h : s.InFull c) : Full p := by
  obtain ⟨key', p', hp', ⟨d', hd'⟩, hfull⟩ := h
  obtain ⟨d, hd⟩ := hc
  have hkey : key' = key := (hs key' p' d' c hp' hd').1.symm.trans (hs key p d c hp hd).1
  subst hkey
  obtain rfl := Option.some.inj (hp'.symm.trans hp)
  exact hfull

theorem joined_of_effect {e : ProxyEvent κ} (h : Effect A s e t) (he : s.Orderly A e)
    (hkeyed : s.Keyed) (hs : s.Joined) (hfault : t.fault = false) : t.Joined := by
  intro key p c' hp hc' hready
  have hold : ∀ p₀, s.proxyMgr.find key = some p₀ → p₀.Contains c' → Full p₀ := by
    intro p₀ hp₀ hc₀
    rcases readying_of_effect h hready with hr | hf | hfull
    · exact hs key p₀ c' hp₀ hc₀ hr
    · exact nomatch hf.symm.trans hfault
    · exact full_of_inFull hkeyed hp₀ hc₀ hfull
  cases hlogin : s.login A e with
  | none => exact hold p ((shrunk_of_effect h hlogin).pairs key p hp) hc'
  | some login =>
      obtain ⟨c, l⟩ := login
      obtain ⟨hnot, hunregistered⟩ := he.1 (c, l) hlogin
      rcases (loggedIn_of_effect h hlogin).pairs with hadd | ⟨-, hfind⟩
      · have hne : c' ≠ c := by
          rintro rfl
          rcases readying_of_effect h hready with hr | hf | ⟨key', p', hp', hc'', -⟩
          · exact hnot hr
          · exact nomatch hf.symm.trans hfault
          · exact hunregistered (registered_of_contains hkeyed hp' hc'')
        obtain ⟨d, hd, -⟩ := PairMap.add_eq_some_iff.1 hadd
        rw [hd] at hadd
        obtain ⟨⟨q, hq, hqc, -⟩, hrest⟩ := PairMap.find_of_add hadd
        by_cases hkey : key = l.sessionId
        · -- the login fills the half that was empty
          subst hkey
          obtain rfl := Option.some.inj (hq.symm.trans hp)
          obtain ⟨d', hd'⟩ := hc'
          intro e
          rcases d.eq_or_eq_other e with rfl | rfl
          · simp [hqc]
          · rcases d.eq_or_eq_other d' with rfl | rfl
            · exact absurd (Option.some.inj (hqc.symm.trans hd')).symm hne
            · simp [hd']
        · exact hold p ((hrest key hkey).symm.trans hp) hc'
      · rw [hfind] at hp
        exact hold p (Option.ite_none_left_eq_some.1 hp).2 hc'

end Steps

/-- In a run of orderly steps ready sessions have their opposite ones. -/
theorem joined_of_reachable {A : TextArchive} {s : Proxy κ}
    (h : (system A).ReachableWhile (Orderly A) s) :
    s.Live ∧ s.Keyed ∧ (s.fault = false → s.Joined) := by
  refine h.invariant (I := fun s => s.Live ∧ s.Keyed ∧ (s.fault = false → s.Joined))
    (fun s hs => ?_) fun s e t hs he hstep => ?_
  · obtain rfl : s = start := hs
    refine ⟨?_, by rintro key p d c ⟨⟩, by rintro - key p c ⟨⟩⟩
    rintro c (hreader | ⟨_, hw, -⟩ | ⟨_, _, hp, -⟩)
    · exact absurd rfl hreader
    · cases hw
    · cases hp
  · obtain ⟨hlive, hkeyed, hjoined⟩ := hs
    obtain ⟨hfault, heffect⟩ := effect_of_step hstep
    refine ⟨live_of_effect heffect hlive, ?_,
      joined_of_effect heffect he hkeyed (hjoined hfault)⟩
    cases hlogin : s.login A e with
    | none => exact hkeyed.of_shrunk hlive (shrunk_of_effect heffect hlogin)
    | some login =>
        obtain ⟨c, l⟩ := login
        refine (hkeyed.loggedIn_iff (loggedIn_of_effect heffect hlogin)).2 fun key p hp hc => ?_
        exact absurd (registered_of_contains hkeyed hp hc) (he.1 (c, l) hlogin).2

/-- In a run of orderly steps every data frame that is relayed has a session to
be relayed to. -/
theorem relays_present {A : TextArchive} {s t : Proxy κ} {e : ProxyEvent κ} {dest : Option κ}
    (h : (system A).ReachableWhile (Orderly A) s) (he : s.Orderly A e)
    (hstep : (system A).step s e = some t) (hrelay : s.Relays e dest) : dest ≠ none := by
  obtain ⟨hfault, -⟩ := effect_of_step hstep
  obtain ⟨-, hkeyed, hjoined⟩ := joined_of_reachable h
  cases hrelay with
  | @mk c bytes p d hreader hp hd =>
      have hreceived : s.received (.handle c) = some c := by simp [received, hreader]
      obtain ⟨hready, hregistered⟩ := he.2 c hreceived
      rcases hregistered with hnone | ⟨p', hp', hc⟩
      · exact nomatch hnone.symm.trans hp
      · obtain rfl := Option.some.inj (hp'.symm.trans hp)
        have hcontains : p'.Contains c := by
          rcases hc with hc | hc
          · exact ⟨.down, hc⟩
          · exact ⟨.up, hc⟩
        exact hjoined hfault _ p' c hp hcontains (.inl hready) d.other

/-- A connection logs in. -/
def loginRun (c : Nat) (type : StreamType) : List (ProxyEvent Nat) :=
  frameRun plainText c (.ofLogin nilUuid 1 type) ++ [.handle c]

/-- A logged-in connection greets. -/
def greetRun (c : Nat) : List (ProxyEvent Nat) :=
  let greeting := plainText.serialize .ofReady
  [.start c, .arrive c greeting, .read c greeting.length, .handle c, .start c]

/-- A data frame arrives and is read. -/
def dataRun (c : Nat) : List (ProxyEvent Nat) :=
  let data := 1 :: delimiter
  [.arrive c data, .read c data.length]

structure View where
  fault : Bool
  reader : Reader
  id : Uuid
  side : Option Side
  pair : Option (Pair Nat)
  deriving DecidableEq

def view (s : Proxy Nat) : View :=
  ⟨s.fault, (s.conns 0).reader, (s.conns 0).session.id, (s.conns 0).session.type.side,
    s.proxyMgr.find 1⟩

theorem relays_of_view {s : Proxy Nat} {bytes : Nat} {p : Pair Nat}
    (h : s.view = ⟨false, .completed .receiving bytes, 1, some .up, some p⟩) :
    (∃ t, (system plainText).step s (.handle 0) = some t) ∧ s.Relays (.handle 0) p.down := by
  simp only [view, View.mk.injEq] at h
  obtain ⟨hfault, hreader, hid, htype, hp⟩ := h
  refine ⟨⟨(s.setReader 0 .idle).handleRead plainText 0 .receiving bytes, ?_⟩,
    .mk (d := .up) hreader (by rw [hid, hp]) htype⟩
  simp only [system, step, hfault, Bool.false_eq_true, if_false, perform, hreader]

/-- Both ends log in and greet, the greeting of the down end is written to the up
end, and the up end sends data. -/
def joinedRun : List (ProxyEvent Nat) :=
  loginRun 0 .upstream ++ greetRun 0 ++ loginRun 1 .downstream ++ greetRun 1 ++
    [.write 0 (plainText.serialize .ofReady).length, .writeDone 0] ++ dataRun 0

/-- The data is then relayed to a session that is there. -/
theorem joinedRun_relays :
    ∃ s dest, (system plainText).execWhile (Orderly plainText) start joinedRun = some s ∧
      s.Relays (.handle 0) dest ∧ dest ≠ none := by
  have hrun : ((system plainText).execWhile (Orderly plainText) start joinedRun).map
      (fun s => (s.view, decide (s.Orderly plainText (.handle 0)))) =
      some (⟨false, .completed .receiving 7, 1, some .up, some ⟨some 1, some 0⟩⟩, true) := by
    decide +kernel
  obtain ⟨s, hs, hfinal⟩ := Option.map_eq_some_iff.1 hrun
  obtain ⟨hview, horderly⟩ := Prod.mk.inj hfinal
  obtain ⟨⟨t, ht⟩, hrelay⟩ := relays_of_view hview
  exact ⟨s, some 1, hs, hrelay,
    relays_present (System.ReachableWhile.execWhile (.init rfl) hs) (of_decide_eq_true horderly)
      ht hrelay⟩

/-- The up end logs in, greets and sends data. -/
def aloneRun : List (ProxyEvent Nat) := loginRun 0 .upstream ++ greetRun 0 ++ dataRun 0

/-- The data is then relayed to a null pointer. -/
theorem aloneRun_relays_none :
    ∃ s t, (system plainText).Reachable s ∧
      (system plainText).step s (.handle 0) = some t ∧ s.Relays (.handle 0) none := by
  have hrun : ((system plainText).exec start aloneRun).map view =
      some ⟨false, .completed .receiving 7, 1, some .up, some ⟨none, some 0⟩⟩ := by
    decide +kernel
  obtain ⟨s, hs, hview⟩ := Option.map_eq_some_iff.1 hrun
  obtain ⟨⟨t, ht⟩, hrelay⟩ := relays_of_view hview
  exact ⟨s, t, System.Reachable.exec (.init rfl) hs, ht, hrelay⟩

end Proxy

end OpenProxy
