import PiDaemon.Server.Registration

/-!
# The registration protocol

A connection is silent until its first frame is handled. That frame registers it and
is answered with `DMSG_REGISTER_OK`, or it is refused with one `DMSG_ERROR` and the
connection is given up before another frame is handled. Other clients can send to the
connection only once it is registered, so nothing is queued to it before the answer.
-/

namespace PiDaemon.Server

open Base Proto Store

def paddedName (text : List UInt8) : List UInt8 :=
  text ++ List.replicate (nameMax - text.length) 0

/-- A name that is not empty, ends in a NUL within the field and is zero from there on. -/
def WellNamed (e : Endpoint) : Prop :=
  ∃ text : List UInt8, text ≠ [] ∧ (0 : UInt8) ∉ text ∧ text.length < nameMax ∧
    e.conn.name = paddedName text

inductive Conversation (e : Endpoint) : Prop
  | silent : e.conn.registered = false → e.peer.queued = [] → e.peer.handled = [] → Conversation e
  | refused (err : DaemonErr) (f : Frame) : e.conn.registered = false →
      e.conn.shouldClose = true → e.peer.queued = [errorFrame err] → e.peer.handled = [f] →
      Conversation e
  | registered (more later : List Frame) (f : Frame) : e.conn.registered = true → WellNamed e →
      e.peer.queued = ⟨MsgType.registerOk.code, []⟩ :: more → e.peer.handled = f :: later →
      e.conn.name = strncpy (nameMax - 1) (World.nameField f.payload) ++ [0] → Conversation e

theorem conversation_fresh : Conversation {} := .silent rfl rfl rfl

/-- What `strncpy` makes of a name field that does not begin with a NUL. -/
theorem wellNamed_setName {e : Endpoint} (h : NameField e) {payload : List UInt8}
    (hhead : (World.nameField payload).head? ≠ some 0) :
    WellNamed (e.setName (World.nameField payload)) := by
  let text := (cString (World.nameField payload)).take (nameMax - 1)
  have hlen : text.length ≤ nameMax - 1 := List.length_take_le _ _
  refine ⟨text, ?_, fun h0 => zero_notMem_cString _ (List.mem_of_mem_take h0), ?_, ?_⟩
  · have hfield : World.nameField payload ≠ [] := by simp [World.nameField]
    obtain ⟨c, rest, hc⟩ := List.exists_cons_of_ne_nil hfield
    have hc0 : c ≠ 0 := by
      rintro rfl
      simp [hc] at hhead
    simp [text, hc, cString, hc0, nameMax]
  · exact hlen.trans_lt (by decide)
  · rw [h.setName, paddedName, strncpy]
    have hcount := length_cString_nameField payload
    have htext : text.length = (cString (World.nameField payload)).length := by
      simp [text, hcount]
    rw [List.append_assoc, ← List.replicate_succ', htext]
    congr 2
    have : nameMax = 32 := rfl
    omega

namespace Conversation

variable {e e' : Endpoint}

theorem same (h : Conversation e) (hsame : Same e e') : Conversation e' := by
  have hclose : e.conn.shouldClose = true → e'.conn.shouldClose = true := by
    intro hc
    by_contra hopen
    simp [hsame.opened (by simpa using hopen)] at hc
  cases h with
  | silent hr hq hh =>
    exact .silent (hsame.registered.trans hr) (hsame.queued.trans hq) (hsame.handled.trans hh)
  | refused err f hr hc hq hh =>
    exact .refused err f (hsame.registered.trans hr) (hclose hc) (hsame.queued.trans hq)
      (hsame.handled.trans hh)
  | registered more later f hr hname hq hh hn =>
    obtain ⟨text, h1, h2, h3, h4⟩ := hname
    exact .registered more later f (hsame.registered.trans hr)
      ⟨text, h1, h2, h3, hsame.name.trans h4⟩ (hsame.queued.trans hq) (hsame.handled.trans hh)
      (hsame.name.trans hn)

theorem queueSend (h : Conversation e) (hreg : e.conn.registered = true) (f : Frame)
    (p : UInt16) (r : SendResult) (ok : Bool) : Conversation (e.queueSend f p r ok) := by
  cases h with
  | silent hr | refused _ _ hr => simp [hreg] at hr
  | registered more later g _ hname hq hh hn =>
    obtain ⟨text, h1, h2, h3, h4⟩ := hname
    have hkeep := (e.queueSend_conn f p r ok).name
    refine .registered (more ++ [f]) later g (by simpa using hreg)
      ⟨text, h1, h2, h3, hkeep.trans h4⟩ ?_ hh (hkeep.trans hn)
    change e.peer.queued ++ [f] = _
    rw [hq, List.cons_append]

theorem silent_of_open (h : Conversation e) (hreg : e.conn.registered = false)
    (hopen : e.conn.shouldClose = false) : e.peer.queued = [] ∧ e.peer.handled = [] := by
  cases h with
  | silent _ hq hh => exact ⟨hq, hh⟩
  | refused _ _ _ hc => simp [hopen] at hc
  | registered _ _ _ hr => simp [hreg] at hr

end Conversation

/-! ## Over whole runs -/

namespace World

theorem Effect.conversation {w w' : World} {i : Slot} {f : Frame} (h : Effect w i f w')
    (hname : NameField (w.clients i))
    (hown : (w.conn i).registered = false → (w.peer i).queued = [] ∧ (w.peer i).handled = [f])
    (hreg : (w.conn i).registered = true → Conversation (w.clients i)) :
    Conversation (w'.clients i) := by
  have hanswer {v : World} (hv : v.clients = w.clients) (g : Frame)
      (hr : (w.conn i).registered = true) : Conversation ((v.queueSend i g).clients i) := by
    rw [queueSend_clients, if_pos rfl, hv]
    exact (hreg hr).queueSend hr _ _ _ _
  cases h with
  | refused e hr =>
    obtain ⟨hq, hh⟩ := hown hr
    refine .refused e f ?_ ?_ ?_ ?_
    · simpa [refuse, World.condemn] using hr
    · simp [refuse, World.condemn]
    · simp [refuse, World.condemn, Endpoint.queueSend, hq]
    · simp [refuse, World.condemn, Endpoint.queueSend, hh]
  | registered hr _ _ hhead =>
    obtain ⟨hq, hh⟩ := hown hr
    have hset : (w.setName i (nameField f.payload)).clients i =
        (w.clients i).setName (nameField f.payload) := by simp [setName]
    obtain ⟨text, h1, h2, h3, h4⟩ := wellNamed_setName hname hhead
    rw [queueSend_clients, if_pos rfl, hset]
    refine .registered [] [] f ?_ ⟨text, h1, h2, h3, ?_⟩ ?_ ?_ ?_
    · rw [Endpoint.queueSend_registered]
      rfl
    · exact (Endpoint.queueSend_conn _ _ _ _ _).name.trans h4
    · simp [Endpoint.queueSend, hq]
    · exact hh
    · exact (Endpoint.queueSend_conn _ _ _ _ _).name.trans (hname.setName _)
  | stored hr => exact hanswer rfl _ hr
  | delivered j hr =>
    rw [queueSend_clients]
    split_ifs with hj
    · subst hj
      exact (hreg hr).queueSend hr _ _ _ _
    · exact hreg hr
  | value hr | unknown hr | pong hr | malformed hr => exact hanswer rfl _ hr

theorem dispatch_keeps_name (w : World) (i : Slot) (f : Frame) (rest : List UInt8) (k : Slot)
    (hk : (w.conn k).registered = true) : ((w.dispatch i f rest).conn k).registered = true ∧
      ((w.dispatch i f rest).conn k).name = (w.conn k).name := by
  refine dispatch_pointwise (P := fun k e => (w.conn k).registered = true →
    e.conn.registered = true ∧ e.conn.name = (w.conn k).name) ?_ ?_ ?_ ?_ ?_ k hk
  · intro j e g p r ok h hj
    exact ⟨(e.queueSend_registered g p r ok).trans (h hj).1,
      (e.queueSend_conn g p r ok).name.trans (h hj).2⟩
  · exact fun _ _ h => h
  · intro name hno hyes
    simp [hno] at hyes
  · exact fun h => ⟨h, rfl⟩
  · exact fun _ _ h => ⟨h, rfl⟩

end World

theorem Step.closed {w w' : World} (h : Step w w') {e : Endpoint} (he : e ∈ w'.closed) :
    e ∈ w.closed ∨ ∃ i, e = w.clients i := by
  cases h with
  | handle i =>
    rw [World.dispatch_closed] at he
    exact .inl he
  | close i =>
    rcases List.mem_append.mp he with he | he
    · exact .inl he
    · exact .inr ⟨i, List.mem_singleton.mp he⟩
  | collect | accept | markPoll | condemn | receive | flush => exact .inl he

theorem conversation_dispatch {w : World} (hregistry : Registry w)
    (hname : ∀ k, NameField (w.clients k)) (h : ∀ k, Conversation (w.clients k)) {i : Slot}
    (hopen : (w.conn i).shouldClose = false) (f : Frame) (rest : List UInt8) (k : Slot) :
    Conversation ((w.dispatch i f rest).clients k) := by
  by_cases hk : k = i
  · subst hk
    have hconsume : (w.consume k f rest).clients k = ((w.clients k).note f).setRx rest := by
      rw [World.consume_clients, if_pos rfl]
    refine (w.dispatch_effect k f rest).conversation ?_ ?_ ?_
    · rw [hconsume]
      exact hname k
    · intro hno
      rw [World.conn, hconsume] at hno
      obtain ⟨hq, hh⟩ := (h k).silent_of_open hno hopen
      rw [World.peer, hconsume]
      exact ⟨hq, by simp [Endpoint.note, hh]⟩
    · intro hyes
      rw [World.conn, hconsume] at hyes
      rw [hconsume]
      cases h k with
      | silent hr => exact absurd hyes (by simpa using hr)
      | refused _ _ hr => exact absurd hyes (by simpa using hr)
      | registered more later g hr hwell hq hh hn =>
        exact .registered more (later ++ [f]) g hr hwell hq (by simp [Endpoint.note, hh]) hn
  · rcases hregistry.dispatch_other hk f rest with ⟨-, hsame⟩ | ⟨hroute, p, r, ok, hrelay⟩
    · rw [hsame]
      exact h k
    · rw [hrelay]
      exact (h k).queueSend hroute.1.2 _ p r ok

theorem conversation_of_reachable {b : Boot} {w : World} (h : Reachable b w) :
    Everywhere Conversation w := by
  have hinv : Reachable b w ∧ Everywhere Conversation w := by
    refine steps_invariant (I := fun w => Reachable b w ∧ Everywhere Conversation w) ?_ h
      ⟨.refl, fun _ => conversation_fresh, fun he => by cases he⟩
    rintro s t ⟨hreach, hs⟩ hst
    refine ⟨hreach.tail hst, fun k => ?_, fun he => ?_⟩
    · cases hst.turn with
      | calm hsame => exact (hs.live k).same (hsame k)
      | accept i fd stream =>
        rw [World.accept_clients]
        split_ifs
        · exact .silent rfl rfl rfl
        · exact hs.live k
      | close i =>
        rw [World.closeClient_clients]
        split_ifs
        · exact conversation_fresh
        · exact hs.live k
      | dispatch i f rest huse hopen =>
        exact conversation_dispatch (registry_of_reachable hreach)
          (nameField_local.reachable hreach).live hs.live hopen f rest k
    · rcases hst.closed he with he | ⟨i, rfl⟩
      · exact hs.closed he
      · exact hs.live i
  exact hinv.2

def KnownAs (serial : ℕ) (name : List UInt8) (w : World) : Prop :=
  serial < w.accepted ∧ ∀ k, (w.conn k).inUse = true → (w.peer k).serial = serial →
    (w.conn k).registered = true ∧ (w.conn k).name = name

theorem KnownAs.step {serial : ℕ} {name : List UInt8} {w w' : World} (h : KnownAs serial name w)
    (hstep : Step w w') : KnownAs serial name w' := by
  obtain ⟨hlt, hk⟩ := h
  cases hstep.turn with
  | calm hsame _ hacc =>
    refine ⟨hacc ▸ hlt, fun k huse hserial => ?_⟩
    obtain ⟨hr, hn⟩ := hk k ((hsame k).inUse ▸ huse) ((hsame k).serial ▸ hserial)
    exact ⟨(hsame k).registered.trans hr, (hsame k).name.trans hn⟩
  | accept i fd stream =>
    refine ⟨hlt.trans (Nat.lt_succ_self _), fun k huse hserial => ?_⟩
    rw [World.conn, World.accept_clients] at huse ⊢
    rw [World.peer, World.accept_clients] at hserial
    split_ifs at huse hserial ⊢
    · exact absurd hserial hlt.ne'
    · exact hk k huse hserial
  | close i =>
    refine ⟨hlt, fun k huse hserial => ?_⟩
    rw [World.conn, World.closeClient_clients] at huse ⊢
    rw [World.peer, World.closeClient_clients] at hserial
    split_ifs at huse hserial ⊢
    exact hk k huse hserial
  | dispatch i f rest =>
    have hacc : (w.dispatch i f rest).accepted = w.accepted := (w.dispatch_effect i f rest).accepted
    refine ⟨hacc ▸ hlt, fun k huse hserial => ?_⟩
    rw [World.dispatch_inUse] at huse
    rw [World.dispatch_serial] at hserial
    obtain ⟨hr, hn⟩ := hk k huse hserial
    obtain ⟨hr', hn'⟩ := w.dispatch_keeps_name i f rest k hr
    exact ⟨hr', hn'.trans hn⟩

/-- At every point of every run the names of registered connections are pairwise distinct,
not empty, and NUL-terminated and zero-padded within their field; a registered
connection keeps its name; and to a connection nothing has been queued, or one
`DMSG_ERROR` for the only frame of it that is ever handled, or `DMSG_REGISTER_OK` first. -/
theorem registration_protocol {b : Boot} {w : World} (h : Reachable b w) :
    (∀ i j, w.Routable i → w.Routable j → cString (w.conn i).name = cString (w.conn j).name →
      i = j) ∧
    (∀ i, w.Routable i → WellNamed (w.clients i)) ∧
    (∀ w' i j, Steps w w' → w.Routable i → (w'.conn j).inUse = true →
      (w'.peer j).serial = (w.peer i).serial →
        (w'.conn j).registered = true ∧ (w'.conn j).name = (w.conn i).name) ∧
    ∀ e, (∃ i, e = w.clients i) ∨ e ∈ w.closed →
      e.peer.queued = [] ∨
      (∃ err f, e.peer.queued = [errorFrame err] ∧ e.peer.handled = [f]) ∨
      ∃ more, e.peer.queued = ⟨MsgType.registerOk.code, []⟩ :: more := by
  have hregistry := registry_of_reachable h
  have hlen (i : Slot) := ((nameField_local.reachable h).live i).length
  have hconv := conversation_of_reachable h
  refine ⟨fun i j hi hj heq => hregistry.names i j hi hj ?_, fun i hi => ?_, ?_, fun e he => ?_⟩
  · rwa [List.take_of_length_le (hlen i).le, List.take_of_length_le (hlen j).le]
  · cases hconv.live i with
    | silent hr | refused _ _ hr => exact absurd hi.2 (by simpa using hr)
    | registered _ _ _ _ hname => exact hname
  · intro w' i j hsteps hi huse hserial
    have hknown : KnownAs (w.peer i).serial (w.conn i).name w := by
      refine ⟨hregistry.serial_lt i hi.1, fun k hk heq => ?_⟩
      obtain rfl := hregistry.serial_inj k i hk hi.1 heq
      exact ⟨hi.2, rfl⟩
    exact (steps_invariant (fun _ _ hs hst => hs.step hst) hsteps hknown).2 j huse hserial
  · have hsaid : Conversation e := by
      rcases he with ⟨i, rfl⟩ | he
      · exact hconv.live i
      · exact hconv.closed he
    cases hsaid with
    | silent _ hq => exact .inl hq
    | refused err f _ _ hq hh => exact .inr (.inl ⟨err, f, hq, hh⟩)
    | registered more _ _ _ _ hq => exact .inr (.inr ⟨more, hq⟩)

def sameNameTwice : World :=
  let readable : World.Ready := { revents := { pollin := true }, recvs := [.bytes 40, .again] }
  ((Boot.fresh [.sent 8, .sent 12] []).world.round [readable]
    [.conn 5 ((registerAs 97).encode 0), .conn 6 ((registerAs 97).encode 0)]).round
      [{}, readable, readable] []

theorem sameNameTwice_run : Run (Boot.fresh [.sent 8, .sent 12] []) sameNameTwice := by
  unfold sameNameTwice
  exact .round _ _ (.round _ _ .boot)

theorem registration_protocol_sameNameTwice :
    sameNameTwice.Routable 0 ∧ (sameNameTwice.closed.headD {}).peer.queued = [errorFrame .nameTaken] ∧
      WellNamed (sameNameTwice.clients 0) := by
  have hroute : sameNameTwice.Routable 0 := by
    unfold World.Routable
    decide +kernel
  exact ⟨hroute, by decide +kernel, (registration_protocol sameNameTwice_run.reachable).2.1 0 hroute⟩

end PiDaemon.Server
