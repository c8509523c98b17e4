import PiDaemon.Server.Steps

/-!
# Connections, names and routes

Serial numbers tell the connections of a run apart, and names tell the registered
ones apart that are in use. So a `DMSG_SEND` has at most one destination, and
which one can be read off the log and the names.
-/

namespace PiDaemon.Server

open Base Proto Store

/-! ## Steps by what they do to a connection's record -/

/-- What only accepting, closing and handling a frame change is the same in `e'` as in `e`. -/
structure Same (e e' : Endpoint) : Prop where
  inUse : e'.conn.inUse = e.conn.inUse
  registered : e'.conn.registered = e.conn.registered
  name : e'.conn.name = e.conn.name
  serial : e'.peer.serial = e.peer.serial
  queued : e'.peer.queued = e.peer.queued
  handled : e'.peer.handled = e.peer.handled
  opened : e'.conn.shouldClose = false → e.conn.shouldClose = false

theorem Same.refl (e : Endpoint) : Same e e := ⟨rfl, rfl, rfl, rfl, rfl, rfl, id⟩

theorem Same.flush (e : Endpoint) (rs : List SendResult) : Same e (e.flush rs) where
  inUse := (e.flush_conn rs).inUse
  registered := (e.flush_conn rs).registered
  name := (e.flush_conn rs).name
  serial := rfl
  queued := rfl
  handled := rfl
  opened := (e.flush_conn rs).opened

inductive Turn (w : World) : World → Prop
  | calm {w' : World} : (∀ j, Same (w.clients j) (w'.clients j)) → w'.log = w.log →
      w'.accepted = w.accepted → Turn w w'
  | accept (i : Slot) (fd : ℤ) (stream : List UInt8) : (w.conn i).inUse = false →
      Turn w (w.accept i fd stream)
  | close (i : Slot) : Turn w (w.closeClient i)
  | dispatch (i : Slot) (f : Frame) (rest : List UInt8) : (w.conn i).inUse = true →
      (w.conn i).shouldClose = false → f.payload.length ≤ maxMsgPayload →
        Turn w (w.dispatch i f rest)

theorem Step.turn {w w' : World} (h : Step w w') : Turn w w' := by
  have hmod {i : Slot} {g : Endpoint → Endpoint} (hg : Same (w.clients i) (g (w.clients i))) :
      ∀ j, Same (w.clients j) ((w.modify i g).clients j) := by
    intro j
    rw [World.modify_clients]
    split_ifs with hj
    · subst hj
      exact hg
    · exact .refl _
  cases h with
  | collect => exact .calm (fun j => .refl _) rfl rfl
  | accept i fd stream hfree => exact .accept i fd stream hfree
  | markPoll i => exact .calm (hmod ⟨rfl, rfl, rfl, rfl, rfl, rfl, id⟩) rfl rfl
  | condemn i => exact .calm (hmod ⟨rfl, rfl, rfl, rfl, rfl, rfl, by simp⟩) rfl rfl
  | receive i n => exact .calm (hmod ⟨rfl, rfl, rfl, rfl, rfl, rfl, id⟩) rfl rfl
  | handle i huse hopen hhead =>
    obtain ⟨-, -, hbody, hlimit⟩ := (frameFormat.head_frame_iff).mp hhead
    exact .dispatch i _ _ huse hopen (hbody.trans_le hlimit)
  | flush i => exact .calm (hmod (g := fun e => e.flush w.sends) (.flush _ _)) rfl rfl
  | close i => exact .close i

/-! ## Names -/

/-- The name buffer is what `strncpy` makes of a zeroed field. -/
def NameField (e : Endpoint) : Prop := ∃ src, e.conn.name = strncpy (nameMax - 1) src ++ [0]

theorem NameField.length {e : Endpoint} (h : NameField e) : e.conn.name.length = nameMax := by
  obtain ⟨src, hsrc⟩ := h
  rw [hsrc, List.length_append, length_strncpy]
  rfl

theorem NameField.setName {e : Endpoint} (h : NameField e) (name : List UInt8) :
    (e.setName name).conn.name = strncpy (nameMax - 1) name ++ [0] := by
  obtain ⟨src, hsrc⟩ := h
  change strncpy (nameMax - 1) name ++ e.conn.name.drop (nameMax - 1) = _
  rw [hsrc, List.drop_left' (length_strncpy _ _)]

theorem nameField_local : Local NameField where
  fresh := ⟨[], rfl⟩
  accepted _ _ _ := ⟨[], rfl⟩
  markPoll h := h
  condemn h := h
  receive _ _ _ h := h
  consume _ _ h := h
  setName name _ h := ⟨name, h.setName name⟩
  queueSend f p r ok := fun ⟨src, h⟩ => ⟨src, (Endpoint.queueSend_conn _ f p r ok).name.trans h⟩
  flush rs _ := fun ⟨src, h⟩ => ⟨src, (Endpoint.flush_conn _ rs).name.trans h⟩

theorem length_cString_nameField (payload : List UInt8) :
    (cString (World.nameField payload)).length ≤ nameMax - 1 := by
  rw [World.nameField, cString, List.takeWhile_append]
  split_ifs <;> simp
  exact (List.takeWhile_sublist _).length_le.trans (by simp)

theorem cString_take_stored (payload : List UInt8) :
    cString ((strncpy (nameMax - 1) (World.nameField payload) ++ [0]).take nameMax) =
      cString ((World.nameField payload).take nameMax) := by
  rw [List.take_of_length_le (by simp [nameMax]), cString_strncpy (length_cString_nameField payload),
    List.take_of_length_le (by simp [World.nameField, nameMax])]

namespace World

/-- Slot `k` can be the destination of a `DMSG_SEND`. -/
def Routable (w : World) (k : Slot) : Prop :=
  (w.conn k).inUse = true ∧ (w.conn k).registered = true

theorem findClientByName_some {w : World} {name : List UInt8} {exclude : Option Slot} {k : Slot}
    (h : w.findClientByName name exclude = some k) :
    w.Routable k ∧ cString ((w.conn k).name.take nameMax) = cString (name.take nameMax) := by
  have hk := List.find?_some h
  simp only [Bool.and_eq_true, decide_eq_true_eq, strncmpEq] at hk
  exact ⟨hk.1.1, hk.2⟩

theorem findClientByName_none {w : World} {name : List UInt8} {exclude : Option Slot} {k : Slot}
    (h : w.findClientByName name exclude = none) (hk : w.Routable k) (hne : some k ≠ exclude) :
    cString ((w.conn k).name.take nameMax) ≠ cString (name.take nameMax) := by
  have := List.find?_eq_none.mp h k (List.mem_finRange k)
  simpa [hk.1, hk.2, hne, strncmpEq] using this

/-! ## Handling a frame -/

theorem queueSend_outputOnly (w : World) (j : Slot) (g : Frame) (k : Slot) :
    OutputOnly (w.conn k) ((w.queueSend j g).conn k) := by
  rw [conn, conn, queueSend_clients]
  split_ifs with hk
  · subst hk
    exact Endpoint.queueSend_conn _ _ _ _ _
  · exact .tx _ _

/-- Who is registered, and as what, changes at most by registering the slot whose
frame is handled, under a name that no other slot has. -/
theorem Effect.names {w w' : World} {i : Slot} {f : Frame} (h : Effect w i f w') :
    (∀ k, (w'.conn k).registered = (w.conn k).registered ∧ (w'.conn k).name = (w.conn k).name) ∨
      (w.findClientByName (nameField f.payload) (some i) = none ∧
        (w'.conn i).name = ((w.clients i).setName (nameField f.payload)).conn.name ∧
        ∀ k, k ≠ i → (w'.conn k).registered = (w.conn k).registered ∧
          (w'.conn k).name = (w.conn k).name) := by
  have hqueue (v : World) (j : Slot) (g : Frame) (k : Slot) :
      ((v.queueSend j g).conn k).registered = (v.conn k).registered ∧
        ((v.queueSend j g).conn k).name = (v.conn k).name :=
    ⟨(queueSend_outputOnly v j g k).registered, (queueSend_outputOnly v j g k).name⟩
  cases h with
  | refused e =>
    left
    intro k
    rw [← (hqueue w i (errorFrame e) k).1, ← (hqueue w i (errorFrame e) k).2]
    by_cases hk : k = i
    · subst hk
      simp [refuse, World.condemn, conn]
    · simp [refuse, World.condemn, conn, hk]
  | registered _ _ _ _ hfind =>
    refine .inr ⟨hfind, ?_, fun k hk => ?_⟩
    · rw [(hqueue _ i _ i).2]
      simp [setName, conn]
    · rw [(hqueue _ i _ k).1, (hqueue _ i _ k).2]
      simp [setName, conn, hk]
  | stored => exact .inl (hqueue _ i _)
  | delivered j => exact .inl (hqueue _ j _)
  | value | unknown | pong | malformed => exact .inl (hqueue _ i _)

theorem Effect.accepted {w w' : World} {i : Slot} {f : Frame} (h : Effect w i f w') :
    w'.accepted = w.accepted := by
  cases h <;> rfl

theorem dispatch_serial (w : World) (i : Slot) (f : Frame) (rest : List UInt8) (k : Slot) :
    ((w.dispatch i f rest).peer k).serial = (w.peer k).serial :=
  dispatch_pointwise (P := fun k e => e.peer.serial = (w.peer k).serial)
    (fun _ _ _ _ _ _ h => h) (fun _ _ h => h) (fun _ _ => rfl) rfl (fun _ _ => rfl) k

end World

/-! ## The registry invariant -/

/-- Serial numbers are given out once, and no two routable slots have the same name. -/
structure Registry (w : World) : Prop where
  serial_lt (i : Slot) : (w.conn i).inUse = true → (w.peer i).serial < w.accepted
  serial_inj (i j : Slot) : (w.conn i).inUse = true → (w.conn j).inUse = true →
    (w.peer i).serial = (w.peer j).serial → i = j
  log_lt (h : Handled) : h ∈ w.log → h.serial < w.accepted
  names (i j : Slot) : w.Routable i → w.Routable j →
    cString ((w.conn i).name.take nameMax) = cString ((w.conn j).name.take nameMax) → i = j

/-- The invariant passes to a world in which every slot in use was in use before,
under the same name and number. -/
theorem Registry.inherit {w w' : World} (h : Registry w) (hlog : w'.log = w.log)
    (hacc : w'.accepted = w.accepted)
    (hkeep : ∀ k, (w'.conn k).inUse = true → (w.conn k).inUse = true ∧
      (w'.conn k).registered = (w.conn k).registered ∧ (w'.conn k).name = (w.conn k).name ∧
        (w'.peer k).serial = (w.peer k).serial) : Registry w' := by
  have hroute {k : Slot} (hk : w'.Routable k) : w.Routable k := by
    obtain ⟨huse, hreg, -, -⟩ := hkeep k hk.1
    exact ⟨huse, hreg ▸ hk.2⟩
  constructor
  · intro i huse
    obtain ⟨huse', -, -, hserial⟩ := hkeep i huse
    rw [hacc, hserial]
    exact h.serial_lt i huse'
  · intro i j hi hj heq
    obtain ⟨hi', -, -, hsi⟩ := hkeep i hi
    obtain ⟨hj', -, -, hsj⟩ := hkeep j hj
    rw [hsi, hsj] at heq
    exact h.serial_inj i j hi' hj' heq
  · intro e he
    rw [hacc]
    exact h.log_lt e (hlog ▸ he)
  · intro i j hi hj heq
    rw [(hkeep i hi.1).2.2.1, (hkeep j hj.1).2.2.1] at heq
    exact h.names i j (hroute hi) (hroute hj) heq

theorem Registry.accept {w : World} (h : Registry w) (i : Slot) (fd : ℤ) (stream : List UInt8) :
    Registry (w.accept i fd stream) := by
  have hclients := w.accept_clients i fd stream
  constructor
  · intro k huse
    rw [World.conn, hclients] at huse
    rw [World.peer, hclients]
    split_ifs at huse ⊢
    · exact Nat.lt_succ_self _
    · exact (h.serial_lt k huse).trans (Nat.lt_succ_self _)
  · intro k l hk hl heq
    rw [World.conn, hclients] at hk hl
    rw [World.peer, World.peer, hclients, hclients] at heq
    split_ifs at hk hl heq with h1 h2 h2
    · exact h1.trans h2.symm
    · exact absurd heq.symm (h.serial_lt l hl).ne
    · exact absurd heq (h.serial_lt k hk).ne
    · exact h.serial_inj k l hk hl heq
  · intro e he
    exact (h.log_lt e he).trans (Nat.lt_succ_self _)
  · intro k l hk hl heq
    unfold World.Routable World.conn at hk hl
    rw [hclients] at hk hl
    rw [World.conn, World.conn, hclients, hclients] at heq
    -- the new connection is not registered yet
    split_ifs at hk hl heq with h1 h2 h2
    · exact h1.trans h2.symm
    · simp [Endpoint.accepted] at hk
    · simp [Endpoint.accepted] at hl
    · exact h.names k l hk hl heq

theorem Registry.close {w : World} (h : Registry w) (i : Slot) : Registry (w.closeClient i) := by
  refine h.inherit rfl rfl fun k huse => ?_
  have hclients := w.closeClient_clients i k
  by_cases hk : k = i
  · rw [World.conn, hclients, if_pos hk] at huse
    cases huse
  · rw [if_neg hk] at hclients
    simpa [World.conn, World.peer, hclients] using huse

theorem Registry.dispatch {w : World} (h : Registry w) (hname : ∀ k, NameField (w.clients k))
    {i : Slot} (huse : (w.conn i).inUse = true) (f : Frame) (rest : List UInt8) :
    Registry (w.dispatch i f rest) := by
  have heff := w.dispatch_effect i f rest
  have hacc : (w.dispatch i f rest).accepted = w.accepted := heff.accepted
  have huse' := w.dispatch_inUse i f rest
  constructor
  · intro k hk
    rw [hacc, World.dispatch_serial]
    exact h.serial_lt k (huse' k ▸ hk)
  · intro k l hk hl heq
    rw [World.dispatch_serial, World.dispatch_serial] at heq
    exact h.serial_inj k l (huse' k ▸ hk) (huse' l ▸ hl) heq
  · intro e he
    rw [World.dispatch_log, List.mem_append, List.mem_singleton] at he
    rw [hacc]
    rcases he with he | rfl
    · exact h.log_lt e he
    · exact h.serial_lt i huse
  · intro k l hk hl heq
    have hreg (k : Slot) : ((w.consume i f rest).conn k).registered = (w.conn k).registered := by
      rw [World.consume_conn]
    have hnm (k : Slot) : ((w.consume i f rest).conn k).name = (w.conn k).name := by
      rw [World.consume_conn]
    rcases heff.names with hsame | ⟨hfind, hnew, hsame⟩
    · simp only [hreg, hnm] at hsame
      rw [(hsame k).2, (hsame l).2] at heq
      exact h.names k l ⟨huse' k ▸ hk.1, (hsame k).1 ▸ hk.2⟩ ⟨huse' l ▸ hl.1, (hsame l).1 ▸ hl.2⟩ heq
    · -- the name just registered belongs to no other slot
      simp only [hreg, hnm] at hsame
      have hnew' : cString (((w.dispatch i f rest).conn i).name.take nameMax) =
          cString ((World.nameField f.payload).take nameMax) := by
        have hfield : NameField ((w.consume i f rest).clients i) := by
          rw [World.consume_clients, if_pos rfl]
          exact hname i
        rw [hnew, hfield.setName, cString_take_stored]
      rw [World.consume_findClientByName] at hfind
      have hother {k : Slot} (hk : (w.dispatch i f rest).Routable k) (hki : k ≠ i) :
          cString (((w.dispatch i f rest).conn k).name.take nameMax) ≠
            cString (((w.dispatch i f rest).conn i).name.take nameMax) := by
        rw [hnew', (hsame k hki).2]
        exact World.findClientByName_none hfind
          ⟨huse' k ▸ hk.1, (hsame k hki).1 ▸ hk.2⟩ (by simpa using hki)
      by_cases hki : k = i
      · subst hki
        by_contra hne
        exact hother hl (Ne.symm hne) heq.symm
      · by_cases hli : l = i
        · subst hli
          exact absurd heq (hother hk hki)
        · rw [(hsame k hki).2, (hsame l hli).2] at heq
          exact h.names k l ⟨huse' k ▸ hk.1, (hsame k hki).1 ▸ hk.2⟩
            ⟨huse' l ▸ hl.1, (hsame l hli).1 ▸ hl.2⟩ heq

theorem registry_of_reachable {b : Boot} {w : World} (h : Reachable b w) : Registry w := by
  have hinv : Registry w ∧ Everywhere NameField w := by
    refine steps_invariant (I := fun w => Registry w ∧ Everywhere NameField w)
      (fun s t ⟨hs, hn⟩ hst => ⟨?_, nameField_local.step hn hst⟩) h
      ⟨⟨?_, ?_, ?_, ?_⟩, nameField_local.reachable .refl⟩
    · cases hst.turn with
      | calm hsame hlog hacc =>
        exact hs.inherit hlog hacc fun k huse =>
          ⟨(hsame k).inUse ▸ huse, (hsame k).registered, (hsame k).name, (hsame k).serial⟩
      | accept i fd stream => exact hs.accept i fd stream
      | close i => exact hs.close i
      | dispatch i f rest huse => exact hs.dispatch hn.live huse f rest
    · exact fun i huse => by cases huse
    · exact fun i j hi => by cases hi
    · exact fun e he => by cases he
    · exact fun i j hi => by cases hi.1
  exact hinv.1

/-! ## Routes -/

/-- The entry is a `DMSG_SEND` that the server will try to relay to a client of this name. -/
def Handled.addressed (name : List UInt8) (h : Handled) : Bool :=
  h.registered && decide (MsgType.ofCode? h.frame.type = some .send) &&
    decide (nameMax ≤ h.frame.payload.length) &&
      strncmpEq nameMax name (World.nameField h.frame.payload)

theorem Registry.find_iff {w : World} (h : Registry w) {name : List UInt8} {k : Slot} :
    w.findClientByName name none = some k ↔
      w.Routable k ∧ cString ((w.conn k).name.take nameMax) = cString (name.take nameMax) := by
  constructor
  · exact World.findClientByName_some
  · rintro ⟨hk, hname⟩
    cases hfind : w.findClientByName name none with
    | none => exact absurd hname (World.findClientByName_none hfind hk (by simp))
    | some j =>
      obtain ⟨hj, hname'⟩ := World.findClientByName_some hfind
      rw [h.names j k hj hk (hname'.trans hname.symm)]

/-- What a handled frame does to a connection other than its own: if it is a
`DMSG_SEND` that names the connection, it is relayed to it, and else nothing. -/
theorem Registry.dispatch_other {w : World} (h : Registry w) {i k : Slot} (hk : k ≠ i) (f : Frame)
    (rest : List UInt8) :
    (¬(w.Routable k ∧ (w.entry i f).addressed (w.conn k).name = true) ∧
      (w.dispatch i f rest).clients k = w.clients k) ∨
    ((w.Routable k ∧ (w.entry i f).addressed (w.conn k).name = true) ∧
      ∃ p r ok, (w.dispatch i f rest).clients k =
        (w.clients k).queueSend (World.deliverFrame (w.conn i).name f) p r ok) := by
  have hconsume : (w.consume i f rest).clients k = w.clients k := by
    rw [World.consume_clients, if_neg hk]
  have hreg : ((w.consume i f rest).conn i).registered = (w.conn i).registered := by
    rw [World.consume_conn]
  have hquiet (v : World) (g : Frame) : (v.queueSend i g).clients k = v.clients k := by
    rw [World.queueSend_clients, if_neg hk]
  have hkind {t : MsgType} (ht : MsgType.ofCode? f.type = some t) (hne : t ≠ .send) :
      ¬(w.Routable k ∧ (w.entry i f).addressed (w.conn k).name = true) := by
    simp [Handled.addressed, World.entry, ht, hne]
  have heff := w.dispatch_effect i f rest
  generalize w.dispatch i f rest = w' at heff
  cases heff with
  | refused e hno =>
    rw [hreg] at hno
    refine .inl ⟨by simp [Handled.addressed, World.entry, hno], ?_⟩
    rw [World.refuse, World.condemn, World.modify_clients, if_neg hk, hquiet, hconsume]
  | registered _ ht =>
    refine .inl ⟨hkind ht (by decide), ?_⟩
    rw [hquiet, World.setName, World.modify_clients, if_neg hk, hconsume]
  | value _ ht => exact .inl ⟨hkind ht (by decide), (hquiet _ _).trans hconsume⟩
  | stored _ ht => exact .inl ⟨hkind ht (by decide), (hquiet _ _).trans hconsume⟩
  | pong _ ht => exact .inl ⟨hkind ht (by decide), (hquiet _ _).trans hconsume⟩
  | malformed _ _ _ _ hlen =>
    refine .inl ⟨?_, (hquiet _ _).trans hconsume⟩
    rintro ⟨-, haddr⟩
    simp only [Handled.addressed, Bool.and_eq_true, decide_eq_true_eq] at haddr
    exact absurd haddr.1.2 (by have := hlen haddr.1.1.2; simp only [World.entry]; omega)
  | unknown _ ht hlen hfind =>
    rw [World.consume_findClientByName] at hfind
    refine .inl ⟨?_, (hquiet _ _).trans hconsume⟩
    rintro ⟨hroute, haddr⟩
    simp only [Handled.addressed, Bool.and_eq_true, strncmpEq, decide_eq_true_eq] at haddr
    exact World.findClientByName_none hfind hroute (by simp) haddr.2
  | delivered j hon ht hlen hfind =>
    rw [World.consume_findClientByName] at hfind
    by_cases hj : k = j
    · subst hj
      obtain ⟨hroute, hname⟩ := h.find_iff.mp hfind
      refine .inr ⟨⟨hroute, ?_⟩, w.paddings.headD 0, w.sends.headD .again, w.reallocs.headD true, ?_⟩
      · rw [hreg] at hon
        simp [Handled.addressed, World.entry, hon, ht, hlen, strncmpEq, hname]
      · rw [World.queueSend_clients, if_pos rfl, hconsume, World.consume_conn]
        rfl
    · refine .inl ⟨?_, ?_⟩
      · rintro ⟨hroute, haddr⟩
        simp only [Handled.addressed, Bool.and_eq_true, strncmpEq, decide_eq_true_eq] at haddr
        have := h.find_iff.mpr ⟨hroute, haddr.2⟩
        exact hj (Option.some.inj (this.symm.trans hfind))
      · rw [World.queueSend_clients, if_neg hj, hconsume]

end PiDaemon.Server
