import PiDaemon.Client.Ipc

/-!
# A stream of blocking messages

`daemon_send` and `daemon_recv` over one connection. The reader stays at a frame
boundary: each call consumes one frame, whether it hands it out or finds it too
long for its buffer and drains it.
-/

namespace PiDaemon.Client

open Base Proto

/-- The messages are sent one after another; the flag is true if every call returned 0. -/
def daemonSendAll (s : Socket) : List Frame → Socket × Bool
  | [] => (s, true)
  | f :: fs =>
    let sent := daemonSend s f
    let rest := daemonSendAll sent.1 fs
    (rest.1, sent.2 && rest.2)

/-- The socket after `i` calls of `daemon_recv`, where call `j` has a buffer of `sizes j`. -/
def afterRecvs (s : Socket) (sizes : ℕ → ℕ) : ℕ → Socket
  | 0 => s
  | i + 1 => (daemonRecv (afterRecvs s sizes i) (sizes i)).1

theorem daemonSendAll_spec (fs : List Frame) : ∀ {s : Socket}, s.Sound →
    Extends s.outgoing fs (daemonSendAll s fs).1.outgoing ∧ (daemonSendAll s fs).2 = true := by
  induction fs with
  | nil => exact fun {s} _ => ⟨.refl s.outgoing, rfl⟩
  | cons f fs ih =>
    intro s h
    obtain ⟨s', padding, hs', -, hout, hsend⟩ := daemonSend_spec h f
    obtain ⟨hrest, hok⟩ := ih hs'
    simp only [daemonSendAll, hsend, hok]
    exact ⟨(Extends.single hout).trans hrest, rfl⟩

theorem afterRecvs_spec {s : Socket} (h : s.Sound) {fs : List Frame} {later : List UInt8}
    (hin : Begins fs later s.incoming) (hlen : ∀ f ∈ fs, f.payload.length < 2 ^ 32)
    (sizes : ℕ → ℕ) : ∀ i ≤ fs.length, (afterRecvs s sizes i).Sound ∧
      Begins (fs.drop i) later (afterRecvs s sizes i).incoming := by
  intro i
  induction i with
  | zero => exact fun _ => ⟨h, hin⟩
  | succ i ih =>
    intro hi
    obtain ⟨hsound, hfront⟩ := ih (by omega)
    rw [List.drop_eq_getElem_cons hi] at hfront
    obtain ⟨padding, rest, hat, hrest⟩ := hfront.uncons
    obtain ⟨rs, hrs, hrecv⟩ := daemonRecv_spec hsound hat (hlen _ (List.getElem_mem hi)) (sizes i)
    simp only [afterRecvs, hrecv]
    exact ⟨⟨hrs, hsound.writes⟩, hrest⟩

/-- Messages of any type and length, sent over a connection that may cut and interrupt
transfers as it likes, and received with buffers of any sizes: every send succeeds, call
`i` finds the stream at frame `i` and leaves it at frame `i + 1`, and it returns that frame
or, if the payload is longer than the buffer, -2. -/
theorem recv_stays_aligned {fs : List Frame} (hlen : ∀ f ∈ fs, f.payload.length < 2 ^ 32)
    {w : Socket} (hw : w.Sound) (hnew : w.outgoing = []) {r : Socket} (hr : r.Sound)
    {later : List UInt8} (hin : r.incoming = (daemonSendAll w fs).1.outgoing ++ later)
    (sizes : ℕ → ℕ) :
    (daemonSendAll w fs).2 = true ∧ ∀ (i : ℕ) (hi : i < fs.length), ∃ padding rest,
      (afterRecvs r sizes i).incoming = fs[i].encode padding ++ rest ∧
      (daemonRecv (afterRecvs r sizes i) (sizes i)).2 =
        (if fs[i].payload.length ≤ sizes i then .frame fs[i] else .tooBig) ∧
      (daemonRecv (afterRecvs r sizes i) (sizes i)).1.incoming = rest ∧
      Begins (fs.drop (i + 1)) later rest := by
  obtain ⟨⟨bs, hbs, hout⟩, hok⟩ := daemonSendAll_spec fs hw
  rw [hout, hnew, List.nil_append] at hin
  refine ⟨hok, fun i hi => ?_⟩
  obtain ⟨hsound, hfront⟩ := afterRecvs_spec hr ⟨bs, hbs, hin⟩ hlen sizes i hi.le
  rw [List.drop_eq_getElem_cons hi] at hfront
  obtain ⟨padding, rest, hat, hrest⟩ := hfront.uncons
  obtain ⟨rs, -, hrecv⟩ := daemonRecv_spec hsound hat (hlen _ (List.getElem_mem hi)) (sizes i)
  exact ⟨padding, rest, hat, by rw [hrecv], by rw [hrecv], hrest⟩

/-- Two messages, the first of them too long for the reader's buffer, over a connection
that moves a few bytes at a time and is interrupted. -/
theorem recv_stays_aligned_drained :
    let fs : List Frame := [⟨MsgType.deliver.code, [1, 2, 3, 4, 5]⟩, ⟨MsgType.pong.code, []⟩]
    let w : Socket :=
      { incoming := [], writes := [.bytes 3, .intr, .bytes 5, .bytes 100], paddings := [0xABCD] }
    let r : Socket := { incoming := (daemonSendAll w fs).1.outgoing
                        reads := [.intr, .bytes 2, .bytes 6, .intr, .bytes 9] }
    (daemonRecv r 4).2 = .tooBig ∧
      (daemonRecv (daemonRecv r 4).1 4).2 = .frame ⟨MsgType.pong.code, []⟩ := by
  intro fs w r
  have hw : w.Sound := ⟨by simp [w], by simp [w, Writable]⟩
  have hr : r.Sound := ⟨by simp [r], by simp [r, Writable]⟩
  have hin : r.incoming = (daemonSendAll w fs).1.outgoing ++ [] := (List.append_nil _).symm
  obtain ⟨-, h⟩ := recv_stays_aligned (by simp [fs]) hw rfl hr hin fun _ => 4
  obtain ⟨_, _, -, hfirst, -⟩ := h 0 (by simp [fs])
  obtain ⟨_, _, -, hsecond, -⟩ := h 1 (by simp [fs])
  exact ⟨hfirst, hsecond⟩

end PiDaemon.Client
