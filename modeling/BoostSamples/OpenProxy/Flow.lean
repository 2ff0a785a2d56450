import BoostSamples.OpenProxy.Network

/-!
# One direction of a session

The bytes that a client sends on a session pass its socket, the buffers of its
connection at the proxy, the writes to the opposite connection and the buffers of
the opposite client. `Flow` says what this pipeline holds at each stage: read
together, its parts are the control frames and the payloads that have not yet been
handed on. Each step at one of its ends or in its middle keeps it.
-/

namespace OpenProxy

open Framing Registry

section Writes

variable {κ : Type*}

def restOf (kind : WriteKind) (ops : List (WriteOp κ)) : Buff :=
  ops.flatMap fun w => if w.kind = kind then w.rest else []

/-- There is at most one write of data, and at most one greeting with bytes left. -/
def Exclusive (ops : List (WriteOp κ)) : Prop :=
  ops.Pairwise fun v w => v.kind = w.kind → v.kind = .ready ∧ (v.rest = [] ∨ w.rest = [])

def Proxy.writesTo [DecidableEq κ] (s : Proxy κ) (c : κ) : List (WriteOp κ) :=
  s.writes.filter fun w => w.dest = c

variable {before after ops : List (WriteOp κ)} {v w : WriteOp κ} {kind : WriteKind} {n : Nat}

@[simp] theorem restOf_nil : restOf kind ([] : List (WriteOp κ)) = [] := rfl

@[simp] theorem restOf_append (ops' : List (WriteOp κ)) :
    restOf kind (ops ++ ops') = restOf kind ops ++ restOf kind ops' := by
  simp [restOf]

@[simp] theorem restOf_cons :
    restOf kind (w :: ops) = (if w.kind = kind then w.rest else []) ++ restOf kind ops := by
  simp [restOf]

theorem restOf_eq_nil (h : ∀ v ∈ ops, v.kind = kind → v.rest = []) : restOf kind ops = [] := by
  rw [restOf, List.flatMap_eq_nil_iff]
  intro v hv
  split
  · next hkind => exact h v hv hkind
  · rfl

theorem rest_of_restOf_eq_nil (h : restOf kind ops = []) (hw : w ∈ ops) (hkind : w.kind = kind) :
    w.rest = [] := by
  have hrest := List.flatMap_eq_nil_iff.1 h w hw
  rwa [if_pos hkind] at hrest

theorem exclusive_middle : Exclusive (before ++ w :: after) ↔
    (∀ v ∈ before ++ after, w.kind = v.kind → w.kind = .ready ∧ (w.rest = [] ∨ v.rest = [])) ∧
      Exclusive (before ++ after) := by
  have hsymm : ∀ {v w : WriteOp κ},
      (v.kind = w.kind → v.kind = .ready ∧ (v.rest = [] ∨ w.rest = [])) →
        (w.kind = v.kind → w.kind = .ready ∧ (w.rest = [] ∨ v.rest = [])) :=
    fun h hkind => ⟨hkind.trans (h hkind.symm).1, (h hkind.symm).2.symm⟩
  rw [Exclusive, List.pairwise_middle hsymm, List.pairwise_cons, Exclusive]

theorem exclusive_append (h : Exclusive ops)
    (hw : ∀ v ∈ ops, v.kind = w.kind → v.kind = .ready ∧ (v.rest = [] ∨ w.rest = [])) :
    Exclusive (ops ++ [w]) := by
  refine exclusive_middle.2 ⟨fun v hv hkind => ?_, by simpa using h⟩
  obtain ⟨hready, hrest⟩ := hw v (by simpa using hv) hkind.symm
  exact ⟨hkind.trans hready, hrest.symm⟩

theorem restOf_write (h : Exclusive (before ++ w :: after)) (hrest : w.rest ≠ []) :
    restOf kind (before ++ w :: after) =
      (if w.kind = kind then w.rest.take n else []) ++
        restOf kind (before ++ { w with rest := w.rest.drop n } :: after) := by
  obtain ⟨hothers, -⟩ := exclusive_middle.1 h
  by_cases hkind : w.kind = kind
  · have hnil : ∀ ops, (∀ v ∈ ops, v ∈ before ++ after) → restOf kind ops = [] := by
      refine fun ops hops => restOf_eq_nil fun v hv hv' => ?_
      exact (hothers v (hops v hv) (hkind.trans hv'.symm)).2.resolve_left hrest
    simp [hkind, hnil before fun v hv => List.mem_append_left _ hv,
      hnil after fun v hv => List.mem_append_right _ hv]
  · simp [hkind]

theorem exclusive_write (h : Exclusive (before ++ w :: after)) :
    Exclusive (before ++ { w with rest := w.rest.drop n } :: after) := by
  obtain ⟨hothers, hexclusive⟩ := exclusive_middle.1 h
  refine exclusive_middle.2 ⟨fun v hv hkind => ?_, hexclusive⟩
  obtain ⟨hready, hrest⟩ := hothers v hv hkind
  exact ⟨hready, hrest.imp_left fun hrest => by simp [hrest]⟩

theorem restOf_remove (hrest : w.rest = []) :
    restOf kind (before ++ w :: after) = restOf kind (before ++ after) := by
  simp [hrest]

theorem mem_remove (h : v ∈ before ++ after) : v ∈ before ++ w :: after :=
  List.mem_append.2 ((List.mem_append.1 h).imp_right (List.mem_cons_of_mem w))

end Writes

namespace Net

/-- How far the connection of a client has come at the proxy. Its greeting is held
while there is no opposite session to send it to. -/
inductive Stage
  | new
  | connected
  | loggedIn
  | held
  | flowing
  deriving DecidableEq

/-- Nothing has been sent to the opposite client `k`. -/
structure Still (ops : List (WriteOp Side)) (k : Conn) (phase : Client.Phase) : Prop where
  data : ∀ w ∈ ops, w.kind = .ready
  rest : restOf .ready ops = []
  unready : phase ≠ .ready
  awaits : Client.Awaits k [] [] phase

/-- The bytes are whole frames whose payloads are free of the delimiter. -/
def Framed (bytes : Buff) : Prop :=
  ∃ cs, bytes = stream delimiter cs ∧ ∀ b ∈ cs, ¬ delimiter <:+: b

/-- What the proxy has still to write of the data of a connection, and what is then
to come: the data is being read, or a frame of it is being written. -/
inductive Relays (x : Conn) (ops : List (WriteOp Side)) (pending rest : Buff) : Prop
  | reading : (∀ w ∈ ops, w.kind = .ready) → x.Collects .receiving pending rest →
      Framed rest → Relays x ops pending rest
  | writing {w : WriteOp Side} {more : Buff} : w ∈ ops → w.kind = .data → x.reader = .idle →
      x.accepted = true → x.session.isOpen = true →
      x.session.buffRead.drop w.total ++ x.inbound ++ pending = more → Framed more →
      w.rest ++ more = rest → Relays x ops pending rest

def due (greet : Buff) (bs : List Buff) (phase : Client.Phase) : Buff :=
  if phase = .ready then stream delimiter bs else greet ++ stream delimiter bs

/-- The pipeline from a client to the opposite client `k`, over the connection `x`
and the writes `ops` to the opposite connection. The payloads `bs` have not been
handed on. -/
def Flow (A : TextArchive) (P : Peers) (d : Side) (x : Conn) (ops : List (WriteOp Side))
    (pending : Buff) (k : Conn) (phase : Client.Phase) (bs : List Buff) : Stage → Prop
  | .new => Still ops k phase ∧ x.accepted = false ∧ x.reader = .idle ∧ x.inbound = [] ∧
      pending = P.login A d ++ (P.greet A d ++ stream delimiter bs)
  | .connected => Still ops k phase ∧
      x.Collects .initializing pending (P.login A d ++ (P.greet A d ++ stream delimiter bs))
  | .loggedIn => Still ops k phase ∧ Named P d x.session ∧
      x.Collects .initializing pending (P.greet A d ++ stream delimiter bs)
  | .held => Still ops k phase ∧ Named P d x.session ∧ ops = [] ∧ bs = [] ∧
      x.session.buffWrite.take x.session.bytesWrite = P.greet A d ∧
      x.Collects .receiving pending []
  | .flowing => Named P d x.session ∧
      (x.session.buffWrite = [] ∨ ∃ w ∈ ops, w.kind = .ready) ∧
      ∃ rest, Relays x ops pending rest ∧
        Client.Awaits k (restOf .ready ops ++ rest) (due (P.greet A d) bs phase) phase

namespace Flow

variable {A : TextArchive} {P : Peers} {d : Side} {x y : Conn} {ops : List (WriteOp Side)}
  {pending pending' : Buff} {k k' : Conn} {phase phase' : Client.Phase} {bs : List Buff}
  {stage : Stage}

theorem progress (h : Flow A P d x ops pending k phase bs stage)
    (hprogress : x.Progress pending y pending') : Flow A P d y ops pending' k phase bs stage := by
  obtain ⟨-, -, hid, htype, hbytes, hopen, haccepted⟩ := hprogress.frame
  have hnamed : Named P d x.session → Named P d y.session := fun hx =>
    ⟨hid.trans hx.1, htype.trans hx.2⟩
  cases stage with
  | new =>
      obtain ⟨-, hnew, hreader, -, -⟩ := h
      cases hprogress with
      | arrive hx => exact absurd (hnew.symm.trans hx) (by decide)
      | start hx => cases hreader.symm.trans hx
      | read hx => cases hreader.symm.trans hx
  | connected => exact ⟨h.1, hprogress.collects h.2⟩
  | loggedIn => exact ⟨h.1, hnamed h.2.1, hprogress.collects h.2.2⟩
  | held =>
      obtain ⟨hstill, hx, hops, hbs, hkept, hcollects⟩ := h
      refine ⟨hstill, hnamed hx, hops, hbs, ?_, hprogress.collects hcollects⟩
      rw [hprogress.buffWrite hcollects.reads, hbytes, hkept]
  | flowing =>
      obtain ⟨hx, hbuff, rest, hrelays, hawaits⟩ := h
      cases hrelays with
      | reading hready hcollects hframed =>
          refine ⟨hnamed hx, ?_, rest, .reading hready (hprogress.collects hcollects) hframed,
            hawaits⟩
          rwa [hprogress.buffWrite hcollects.reads]
      | writing hw hkind hidle hx' hx'' hmore hframed heq =>
          cases hprogress with
          | arrive _ =>
              refine ⟨hx, hbuff, rest, .writing hw hkind hidle hx' hx'' ?_ hframed heq, hawaits⟩
              simpa using hmore
          | start hreader => cases hidle.symm.trans hreader
          | read hreader => cases hidle.symm.trans hreader

theorem awaits (h : Flow A P d x ops pending k phase bs stage)
    (hready : phase' = .ready ↔ phase = .ready)
    (hk : ∀ more total, Client.Awaits k more total phase → Client.Awaits k' more total phase') :
    Flow A P d x ops pending k' phase' bs stage := by
  have hstill : Still ops k phase → Still ops k' phase' := fun h =>
    ⟨h.data, h.rest, fun hphase => h.unready (hready.1 hphase), hk _ _ h.awaits⟩
  cases stage with
  | new => exact ⟨hstill h.1, h.2⟩
  | connected => exact ⟨hstill h.1, h.2⟩
  | loggedIn => exact ⟨hstill h.1, h.2⟩
  | held => exact ⟨hstill h.1, h.2⟩
  | flowing =>
      obtain ⟨hx, hbuff, rest, hrelays, hawaits⟩ := h
      refine ⟨hx, hbuff, rest, hrelays, ?_⟩
      have hdue : due (P.greet A d) bs phase' = due (P.greet A d) bs phase := by
        simp only [due, hready]
      rw [hdue]
      exact hk _ _ hawaits

/-- A ready client is one that the greeting of the opposite client flows to. -/
theorem eq_flowing (h : Flow A P d x ops pending k phase bs stage) (hphase : phase = .ready) :
    stage = .flowing := by
  cases stage with
  | new => exact absurd hphase h.1.unready
  | connected => exact absurd hphase h.1.unready
  | loggedIn => exact absurd hphase h.1.unready
  | held => exact absurd hphase h.1.unready
  | flowing => rfl

theorem collects_append {loop : Loop} {total : Buff} (h : x.Collects loop pending total)
    (bytes : Buff) : x.Collects loop (pending ++ bytes) (total ++ bytes) :=
  ⟨h.accepted, h.isOpen, h.reads, by simp only [← h.bytes, List.append_assoc], h.unused⟩

theorem awaits_append {more total : Buff} (h : Client.Awaits k more total phase) (bytes : Buff) :
    Client.Awaits k (more ++ bytes) (total ++ bytes) phase := by
  cases phase with
  | early =>
      rw [Client.Awaits] at h ⊢
      rw [← h, List.append_assoc]
  | waiting => exact collects_append h bytes
  | ready => exact collects_append h bytes

theorem framed_append {bytes payload : Buff} (h : Framed bytes) (hfree : ¬ delimiter <:+: payload) :
    Framed (bytes ++ frame delimiter payload) := by
  obtain ⟨cs, rfl, hcs⟩ := h
  refine ⟨cs ++ [payload], by rw [stream_append, stream_cons, stream_nil, List.append_nil, frame],
    ?_⟩
  simpa [or_imp, forall_and, hfree] using hcs

theorem send (h : Flow A P d x ops pending k phase bs stage) (hstage : stage ≠ .held)
    {payload : Buff} (hfree : ¬ delimiter <:+: payload) :
    Flow A P d x ops (pending ++ frame delimiter payload) k phase (bs ++ [payload]) stage := by
  have hstream : stream delimiter (bs ++ [payload]) =
      stream delimiter bs ++ frame delimiter payload := by
    rw [stream_append, stream_cons, stream_nil, List.append_nil, frame]
  cases stage with
  | new =>
      obtain ⟨hstill, hnew, hreader, hinbound, hpending⟩ := h
      refine ⟨hstill, hnew, hreader, hinbound, ?_⟩
      simp only [hpending, hstream, List.append_assoc]
  | connected =>
      refine ⟨h.1, ?_⟩
      have hcollects := collects_append h.2 (frame delimiter payload)
      simpa only [hstream, List.append_assoc] using hcollects
  | loggedIn =>
      refine ⟨h.1, h.2.1, ?_⟩
      have hcollects := collects_append h.2.2 (frame delimiter payload)
      simpa only [hstream, List.append_assoc] using hcollects
  | held => exact absurd rfl hstage
  | flowing =>
      obtain ⟨hx, hbuff, rest, hrelays, hawaits⟩ := h
      refine ⟨hx, hbuff, rest ++ frame delimiter payload, ?_, ?_⟩
      · cases hrelays with
        | reading hready hcollects hframed =>
            exact .reading hready (collects_append hcollects _) (framed_append hframed hfree)
        | writing hw hkind hidle hx' hx'' hmore hframed heq =>
            refine .writing hw hkind hidle hx' hx'' ?_ (framed_append hframed hfree) ?_
            · rw [← hmore, ← List.append_assoc]
            · rw [← heq, ← List.append_assoc]
      · have hmore := awaits_append hawaits (frame delimiter payload)
        have hdue : due (P.greet A d) (bs ++ [payload]) phase =
            due (P.greet A d) bs phase ++ frame delimiter payload := by
          unfold due
          split
          · exact hstream
          · rw [hstream, List.append_assoc]
        rwa [hdue, ← List.append_assoc]

/-- The handshake buffer and the flags of the session do not matter once its data is
being read, nor do they before if the buffer stays the same. -/
theorem congr (h : Flow A P d x ops pending k phase bs stage) {y : Conn}
    (hbuff : y.session.buffWrite = x.session.buffWrite)
    (hread : y.session.buffRead = x.session.buffRead)
    (hbytes : y.session.bytesWrite = x.session.bytesWrite)
    (hid : y.session.id = x.session.id) (htype : y.session.type = x.session.type)
    (hopen : y.session.isOpen = x.session.isOpen) (haccepted : y.accepted = x.accepted)
    (hreader : y.reader = x.reader) (hinbound : y.inbound = x.inbound) :
    Flow A P d y ops pending k phase bs stage := by
  have hnamed : Named P d x.session → Named P d y.session := fun hx =>
    ⟨hid.trans hx.1, htype.trans hx.2⟩
  have hloop : ∀ loop, y.session.buff loop = x.session.buff loop := by
    intro loop
    cases loop
    · exact hbuff
    · exact hread
  have hcollects : ∀ {loop total}, x.Collects loop pending total →
      y.Collects loop pending total := by
    intro loop total hx
    refine ⟨haccepted.trans hx.accepted, hopen.trans hx.isOpen, ?_, ?_, fun hloop => ?_⟩
    · have hreads := hx.reads
      rwa [Conn.Reads, ← hreader, ← hloop] at hreads
    · rw [hloop, hinbound]
      exact hx.bytes
    · exact hread.trans (hx.unused hloop)
  cases stage with
  | new =>
      obtain ⟨hstill, hnew, hidle, hempty, hpending⟩ := h
      exact ⟨hstill, haccepted.trans hnew, hreader.trans hidle, hinbound.trans hempty, hpending⟩
  | connected => exact ⟨h.1, hcollects h.2⟩
  | loggedIn => exact ⟨h.1, hnamed h.2.1, hcollects h.2.2⟩
  | held =>
      obtain ⟨hstill, hx, hops, hbs, hkept, hcollects'⟩ := h
      refine ⟨hstill, hnamed hx, hops, hbs, ?_, hcollects hcollects'⟩
      rw [hbuff, hbytes, hkept]
  | flowing =>
      obtain ⟨hx, hempty, rest, hrelays, hawaits⟩ := h
      refine ⟨hnamed hx, by rwa [hbuff], rest, ?_, hawaits⟩
      cases hrelays with
      | reading hready hcollects' hframed => exact .reading hready (hcollects hcollects') hframed
      | writing hw hkind hidle hx' hx'' hmore hframed heq =>
          refine .writing hw hkind (hreader.trans hidle) (haccepted.trans hx')
            (hopen.trans hx'') ?_ hframed heq
          rw [hread, hinbound, hmore]

theorem awaits_deliver {bytes more total : Buff}
    (h : Client.Awaits k (bytes ++ more) total phase) :
    Client.Awaits { k with inbound := k.inbound ++ bytes } more total phase := by
  cases phase with
  | early =>
      rw [Client.Awaits] at h ⊢
      simpa using h
  | waiting => exact ⟨h.accepted, h.isOpen, h.reads, by simpa using h.bytes, h.unused⟩
  | ready => exact ⟨h.accepted, h.isOpen, h.reads, by simpa using h.bytes, h.unused⟩

/-- A write to the opposite client goes on; data is written behind the greeting. -/
theorem write {before after : List (WriteOp Side)} {w : WriteOp Side} {n : Nat}
    (h : Flow A P d x (before ++ w :: after) pending k phase bs stage)
    (hexclusive : Exclusive (before ++ w :: after)) (hrest : w.rest ≠ [])
    (hbehind : w.kind = .data → restOf .ready (before ++ w :: after) = []) :
    Flow A P d x (before ++ { w with rest := w.rest.drop n } :: after) pending
      { k with inbound := k.inbound ++ w.rest.take n } phase bs stage := by
  have hstill : ¬ Still (before ++ w :: after) k phase := by
    intro hstill
    have hmem : w ∈ before ++ w :: after := by simp
    exact hrest (rest_of_restOf_eq_nil hstill.rest hmem (hstill.data w hmem))
  cases stage with
  | new => exact absurd h.1 hstill
  | connected => exact absurd h.1 hstill
  | loggedIn => exact absurd h.1 hstill
  | held => exact absurd h.1 hstill
  | flowing =>
      obtain ⟨hx, hbuff, rest, hrelays, hawaits⟩ := h
      have hkinds : ∀ v ∈ before ++ { w with rest := w.rest.drop n } :: after,
          ∃ v' ∈ before ++ w :: after, v'.kind = v.kind := by
        intro v hv
        rcases List.mem_cons.1 (List.perm_middle.mem_iff.1 hv) with rfl | hv
        · exact ⟨w, by simp, rfl⟩
        · exact ⟨v, mem_remove hv, rfl⟩
      have hbuff' : x.session.buffWrite = [] ∨
          ∃ v ∈ before ++ { w with rest := w.rest.drop n } :: after, v.kind = .ready := by
        refine hbuff.imp_right ?_
        rintro ⟨v, hv, hready⟩
        rcases List.mem_cons.1 (List.perm_middle.mem_iff.1 hv) with rfl | hv
        · exact ⟨{ v with rest := v.rest.drop n }, by simp, hready⟩
        · exact ⟨v, mem_remove hv, hready⟩
      have hwrite : restOf .ready (before ++ w :: after) = _ :=
        restOf_write (n := n) hexclusive hrest
      rcases (by cases w.kind <;> simp : w.kind = .ready ∨ w.kind = .data) with hkind | hkind
      · rw [if_pos hkind] at hwrite
        refine ⟨hx, hbuff', rest, ?_, ?_⟩
        · cases hrelays with
          | reading hready hcollects hframed =>
              refine .reading (fun v hv => ?_) hcollects hframed
              obtain ⟨v', hv', heq⟩ := hkinds v hv
              exact heq.symm.trans (hready v' hv')
          | @writing v more hv hdata hidle hx' hx'' hmore hframed heq =>
              have hne : v ≠ w := by
                rintro rfl
                cases hkind.symm.trans hdata
              have hmem := (List.mem_cons.1 (List.perm_middle.mem_iff.1 hv)).resolve_left hne
              exact .writing (mem_remove hmem) hdata hidle hx' hx'' hmore hframed heq
        · rw [hwrite, List.append_assoc] at hawaits
          exact awaits_deliver hawaits
      · rw [if_neg (by simp [hkind]), List.nil_append, hbehind hkind] at hwrite
        cases hrelays with
        | reading hready _ _ => cases hkind.symm.trans (hready w (by simp))
        | @writing v more hv hdata hidle hx' hx'' hmore hframed heq =>
            obtain rfl : v = w := by
              by_contra hne
              have hmem := (List.mem_cons.1 (List.perm_middle.mem_iff.1 hv)).resolve_left hne
              have hboth := (exclusive_middle.1 hexclusive).1 v hmem (hkind.trans hdata.symm)
              cases hkind.symm.trans hboth.1
            refine ⟨hx, hbuff', _, .writing (w := { v with rest := v.rest.drop n }) (by simp) hdata
              hidle hx' hx'' hmore hframed rfl, ?_⟩
            rw [← hwrite, List.nil_append]
            rw [hbehind hkind, List.nil_append, ← heq] at hawaits
            refine awaits_deliver ?_
            rwa [← List.append_assoc, List.take_append_drop]

theorem still_remove {before after : List (WriteOp Side)} {w : WriteOp Side}
    (h : Still (before ++ w :: after) k phase) : Still (before ++ after) k phase := by
  have hmem : w ∈ before ++ w :: after := by simp
  refine ⟨fun v hv => h.data v (mem_remove hv), ?_, h.unready, h.awaits⟩
  rw [← restOf_remove (rest_of_restOf_eq_nil h.rest hmem (h.data w hmem))]
  exact h.rest

/-- A greeting has been written. The handshake buffer of the connection is emptied,
which is to be empty already while it is read. -/
theorem readyDone {before after : List (WriteOp Side)} {w : WriteOp Side}
    (h : Flow A P d x (before ++ w :: after) pending k phase bs stage) (hrest : w.rest = [])
    (hkind : w.kind = .ready)
    (hunread : x.session.buffWrite = [] ∨ x.reader.isInitializing = false) :
    Flow A P d { x with session := { x.session with buffWrite := [] } } (before ++ after)
      pending k phase bs stage := by
  have hearly : ∀ {total}, x.Collects .initializing pending total →
      Conn.Collects { x with session := { x.session with buffWrite := [] } } .initializing
        pending total := by
    intro total hcollects
    have hempty : x.session.buffWrite = [] := by
      refine hunread.resolve_right ?_
      rw [hcollects.reads.isInitializing]
      decide
    have hreads := hcollects.reads
    have hbytes := hcollects.bytes
    simp only [Conn.Reads, Session.buff, hempty] at hreads hbytes
    exact ⟨hcollects.accepted, hcollects.isOpen, hreads, hbytes, hcollects.unused⟩
  cases stage with
  | new => exact ⟨still_remove h.1, h.2⟩
  | connected => exact ⟨still_remove h.1, hearly h.2⟩
  | loggedIn => exact ⟨still_remove h.1, h.2.1, hearly h.2.2⟩
  | held =>
      have hops := h.2.2.1
      simp at hops
  | flowing =>
      obtain ⟨hx, -, rest, hrelays, hawaits⟩ := h
      rw [restOf_remove hrest] at hawaits
      refine ⟨hx, .inl rfl, rest, ?_, hawaits⟩
      cases hrelays with
      | reading hready hcollects hframed =>
          exact .reading (fun v hv => hready v (mem_remove hv)) ⟨hcollects.accepted,
            hcollects.isOpen, hcollects.reads, hcollects.bytes, fun h => by cases h⟩ hframed
      | @writing v more hv hdata hidle hx' hx'' hmore hframed heq =>
          have hne : v ≠ w := by
            rintro rfl
            cases hkind.symm.trans hdata
          have hmem := (List.mem_cons.1 (List.perm_middle.mem_iff.1 hv)).resolve_left hne
          exact .writing hmem hdata hidle hx' hx'' hmore hframed heq

theorem dataDone {before after : List (WriteOp Side)} {w : WriteOp Side}
    (h : Flow A P d x (before ++ w :: after) pending k phase bs stage)
    (hexclusive : Exclusive (before ++ w :: after)) (hrest : w.rest = []) (hkind : w.kind = .data) :
    Flow A P d
      { x with
        session := { x.session with buffRead := x.session.buffRead.drop w.total }
        reader := .until .receiving (x.session.buffRead.drop w.total) }
      (before ++ after) pending k phase bs stage := by
  have hmem : w ∈ before ++ w :: after := by simp
  have hstill : ¬ Still (before ++ w :: after) k phase := fun hstill =>
    nomatch hkind.symm.trans (hstill.data w hmem)
  cases stage with
  | new => exact absurd h.1 hstill
  | connected => exact absurd h.1 hstill
  | loggedIn => exact absurd h.1 hstill
  | held => exact absurd h.1 hstill
  | flowing =>
      obtain ⟨hx, hbuff, rest, hrelays, hawaits⟩ := h
      rw [restOf_remove hrest] at hawaits
      obtain ⟨hothers, -⟩ := exclusive_middle.1 hexclusive
      have hready : ∀ v ∈ before ++ after, v.kind = .ready := by
        intro v hv
        by_contra hne
        have hdata : v.kind = .data := by cases hv' : v.kind <;> simp_all
        cases hkind.symm.trans (hothers v hv (hkind.trans hdata.symm)).1
      cases hrelays with
      | reading hready' _ _ => cases hkind.symm.trans (hready' w hmem)
      | @writing v more hv hdata hidle hx' hx'' hmore hframed heq =>
          obtain rfl : v = w := by
            by_contra hne
            have hv' := (List.mem_cons.1 (List.perm_middle.mem_iff.1 hv)).resolve_left hne
            cases hdata.symm.trans (hready v hv')
          rw [hrest, List.nil_append] at heq
          rw [← heq] at hawaits
          refine ⟨hx, hbuff.imp_right ?_, more,
            .reading hready ⟨hx', hx'', .inr rfl, hmore, nofun⟩ hframed, hawaits⟩
          rintro ⟨v', hv', hready'⟩
          rcases List.mem_cons.1 (List.perm_middle.mem_iff.1 hv') with rfl | hv'
          · cases hkind.symm.trans hready'
          · exact ⟨v', hv', hready'⟩

theorem accept (h : Flow A P d x ops pending k phase bs .new) {bytesRead bytesWrite : Nat} :
    Flow A P d
      { session := { bytesRead := bytesRead, bytesWrite := bytesWrite }
        accepted := true
        reader := .starting .initializing }
      ops pending k phase bs .connected :=
  ⟨h.1, rfl, rfl, .inl rfl, h.2.2.2.2, fun _ => rfl⟩

theorem eq_new (h : Flow A P d x ops pending k phase bs stage) (hx : x.accepted = false) :
    stage = .new := by
  cases stage with
  | new => rfl
  | connected => exact absurd (hx.symm.trans h.2.accepted) (by decide)
  | loggedIn => exact absurd (hx.symm.trans h.2.2.accepted) (by decide)
  | held => exact absurd (hx.symm.trans h.2.2.2.2.2.accepted) (by decide)
  | flowing =>
      obtain ⟨-, -, rest, hrelays, -⟩ := h
      cases hrelays with
      | reading _ hcollects _ => exact absurd (hx.symm.trans hcollects.accepted) (by decide)
      | writing _ _ _ hx' _ _ _ _ => exact absurd (hx.symm.trans hx') (by decide)

theorem open_of_ne_new (h : Flow A P d x ops pending k phase bs stage) (hstage : stage ≠ .new) :
    x.accepted = true ∧ x.session.isOpen = true := by
  cases stage with
  | new => exact absurd rfl hstage
  | connected => exact ⟨h.2.accepted, h.2.isOpen⟩
  | loggedIn => exact ⟨h.2.2.accepted, h.2.2.isOpen⟩
  | held => exact ⟨h.2.2.2.2.2.accepted, h.2.2.2.2.2.isOpen⟩
  | flowing =>
      obtain ⟨-, -, rest, hrelays, -⟩ := h
      cases hrelays with
      | reading _ hcollects _ => exact ⟨hcollects.accepted, hcollects.isOpen⟩
      | writing _ _ _ hx' hx'' _ _ _ => exact ⟨hx', hx''⟩

theorem completed {loop : Loop} {n : Nat} (h : Flow A P d x ops pending k phase bs stage)
    (hreader : x.reader = .completed loop n) :
    (∃ left, stage = .connected ∧ loop = .initializing ∧ n = (P.login A d).length ∧
      x.session.buffWrite = P.login A d ++ left ∧
      left ++ x.inbound ++ pending = P.greet A d ++ stream delimiter bs) ∨
    (∃ left, stage = .loggedIn ∧ loop = .initializing ∧ n = (P.greet A d).length ∧
      x.session.buffWrite = P.greet A d ++ left ∧
      left ++ x.inbound ++ pending = stream delimiter bs) ∨
    (stage = .flowing ∧ loop = .receiving ∧ firstEnd delimiter x.session.buffRead = some n) := by
  cases stage with
  | new => cases h.2.2.1.symm.trans hreader
  | connected =>
      obtain ⟨rfl, hfound⟩ := h.2.reads.completed hreader
      have hbytes := h.2.bytes
      rw [List.append_assoc] at hbytes
      obtain ⟨rfl, left, hbuff, hleft⟩ := A.serialize_of_firstEnd hbytes hfound
      exact .inl ⟨left, rfl, rfl, rfl, hbuff, by rw [List.append_assoc, hleft]⟩
  | loggedIn =>
      obtain ⟨rfl, hfound⟩ := h.2.2.reads.completed hreader
      have hbytes := h.2.2.bytes
      rw [List.append_assoc] at hbytes
      obtain ⟨rfl, left, hbuff, hleft⟩ := A.serialize_of_firstEnd hbytes hfound
      exact .inr (.inl ⟨left, rfl, rfl, rfl, hbuff, by rw [List.append_assoc, hleft]⟩)
  | held =>
      obtain ⟨rfl, hfound⟩ := h.2.2.2.2.2.reads.completed hreader
      have hbuff := List.append_eq_nil_iff.1 (List.append_eq_nil_iff.1 h.2.2.2.2.2.bytes).1
      rw [hbuff.1] at hfound
      cases hfound
  | flowing =>
      obtain ⟨-, -, rest, hrelays, -⟩ := h
      cases hrelays with
      | reading _ hcollects _ =>
          obtain ⟨rfl, hfound⟩ := hcollects.reads.completed hreader
          exact .inr (.inr ⟨rfl, rfl, hfound⟩)
      | writing _ _ hidle _ _ _ _ _ => cases hidle.symm.trans hreader

theorem login (h : Flow A P d x ops pending k phase bs .connected) {left : Buff}
    (hleft : left ++ x.inbound ++ pending = P.greet A d ++ stream delimiter bs) {clientId : Uuid} :
    Flow A P d
      { x with
        reader := .starting .initializing
        session := { x.session with
          buffWrite := left
          clientId := clientId
          id := P.sessionId
          type := streamType d } }
      ops pending k phase bs .loggedIn :=
  ⟨h.1, ⟨rfl, rfl⟩, h.2.accepted, h.2.isOpen, .inl rfl, hleft, h.2.unused⟩

theorem hold (h : Flow A P d x ops pending k phase [] .loggedIn) (hops : ops = [])
    (hbuff : x.session.buffWrite = P.greet A d) (hleft : x.inbound ++ pending = []) :
    Flow A P d
      { x with
        reader := .starting .receiving
        session := { x.session with bytesWrite := (P.greet A d).length } }
      ops pending k phase [] .held := by
  refine ⟨h.1, h.2.1, hops, rfl, by simp [hbuff], h.2.2.accepted, h.2.2.isOpen, .inl rfl, ?_, nofun⟩
  rw [Session.buff, h.2.2.unused rfl, List.nil_append, hleft]

theorem release (h : Flow A P d x ops pending k phase bs .held) {w : WriteOp Side}
    (hkind : w.kind = .ready) (hrest : w.rest = P.greet A d) :
    Flow A P d x (ops ++ [w]) pending k phase bs .flowing := by
  obtain ⟨hstill, hx, rfl, rfl, -, hcollects⟩ := h
  have hready : ∀ v ∈ [w], v.kind = .ready := by simpa using hkind
  refine ⟨hx, .inr ⟨w, by simp, hkind⟩, [], .reading hready hcollects ⟨[], rfl, nofun⟩, ?_⟩
  have hmore := awaits_append hstill.awaits (P.greet A d)
  simpa [due, hstill.unready, hkind, hrest] using hmore

theorem greeting (h : Flow A P d x ops pending k phase bs .loggedIn)
    (hleft : x.inbound ++ pending = stream delimiter bs) (hfree : ∀ b ∈ bs, ¬ delimiter <:+: b)
    {w : WriteOp Side} (hkind : w.kind = .ready) (hrest : w.rest = P.greet A d) :
    Flow A P d
      { x with
        reader := .starting .receiving
        session := { x.session with bytesWrite := (P.greet A d).length } }
      (ops ++ [w]) pending k phase bs .flowing := by
  obtain ⟨hstill, hx, hcollects⟩ := h
  have hready : ∀ v ∈ ops ++ [w], v.kind = .ready := by
    simpa [or_imp, forall_and, hkind] using hstill.data
  refine ⟨hx, .inr ⟨w, by simp, hkind⟩, stream delimiter bs,
    .reading hready ⟨hcollects.accepted, hcollects.isOpen, .inl rfl, ?_, nofun⟩
      ⟨bs, rfl, hfree⟩, ?_⟩
  · rw [Session.buff, hcollects.unused rfl, List.nil_append, hleft]
  · have hmore := awaits_append hstill.awaits (P.greet A d ++ stream delimiter bs)
    simpa [due, hstill.unready, hstill.rest, hkind, hrest] using hmore

theorem empty (h : Flow A P d x ops pending k phase bs stage) (hstage : stage ≠ .held)
    {w : WriteOp Side} (hkind : w.kind = .ready) (hrest : w.rest = []) :
    Flow A P d x (ops ++ [w]) pending k phase bs stage := by
  have hstill : Still ops k phase → Still (ops ++ [w]) k phase := fun h =>
    ⟨by simpa [or_imp, forall_and, hkind] using h.data, by simp [h.rest, hrest], h.unready,
      h.awaits⟩
  cases stage with
  | new => exact ⟨hstill h.1, h.2⟩
  | connected => exact ⟨hstill h.1, h.2⟩
  | loggedIn => exact ⟨hstill h.1, h.2⟩
  | held => exact absurd rfl hstage
  | flowing =>
      obtain ⟨hx, hbuff, rest, hrelays, hawaits⟩ := h
      refine ⟨hx, .inr ⟨w, by simp, hkind⟩, rest, ?_, by simpa [hrest] using hawaits⟩
      cases hrelays with
      | reading hready hcollects hframed =>
          exact .reading (by simpa [or_imp, forall_and, hkind] using hready) hcollects hframed
      | writing hv hdata hidle hx' hx'' hmore hframed heq =>
          exact .writing (List.mem_append_left _ hv) hdata hidle hx' hx'' hmore hframed heq

theorem data {n : Nat} (h : Flow A P d x ops pending k phase bs .flowing)
    (hreader : x.reader = .completed .receiving n)
    (hfound : firstEnd delimiter x.session.buffRead = some n) {w : WriteOp Side}
    (hkind : w.kind = .data) (hrest : w.rest = x.session.buffRead.take n)
    (htotal : w.total = (x.session.buffRead.take n).length) :
    Flow A P d { x with reader := .idle, session := { x.session with bytesRead := n } }
      (ops ++ [w]) pending k phase bs .flowing := by
  obtain ⟨hx, hbuff, rest, hrelays, hawaits⟩ := h
  cases hrelays with
  | reading hready hcollects hframed =>
      obtain ⟨cs, rfl, hfree⟩ := hframed
      have hle := firstEnd_le_length delimiter_ne_nil hfound
      have hbytes := hcollects.bytes
      rw [List.append_assoc] at hbytes
      obtain ⟨b, cs', rfl, -, htake, hdrop⟩ :=
        take_frame delimiter_unbordered delimiter_ne_nil hfree hbytes hfound
      refine ⟨hx, hbuff.imp_right ?_, stream delimiter (b :: cs'),
        .writing (w := w) (by simp) hkind rfl hcollects.accepted hcollects.isOpen ?_
          ⟨cs', rfl, fun c hc => hfree c (List.mem_cons_of_mem b hc)⟩ ?_,
        by simpa [hkind] using hawaits⟩
      · rintro ⟨v, hv, hv'⟩
        exact ⟨v, List.mem_append_left _ hv, hv'⟩
      · rw [htotal, List.length_take, Nat.min_eq_left hle, List.append_assoc]
        exact hdrop
      · rw [hrest, stream_cons]
        exact congrArg (· ++ stream delimiter cs') htake
  | writing _ _ hidle _ _ _ _ _ => cases hidle.symm.trans hreader

end Flow

end Net

end OpenProxy
