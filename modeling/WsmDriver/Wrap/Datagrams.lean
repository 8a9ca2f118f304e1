import WsmDriver.Effect.Execution
import WsmDriver.Toe.Ownership
import WsmDriver.Wrap.Api

/-!
# Connected UDP sockets

`connect` on a UDP socket stores a destination. What is sent without one is to go there; but the
functions that take no destination go to `wiztoe_send` and `wiztoe_recv`, which refuse a UDP socket.
-/

namespace WsmDriver

open Effect

variable {cfg : ToeConfig} {t t' : Tables} {fd : ℤ}

/-! ## A UDP socket holds a hardware socket -/

/-- Every live UDP descriptor holds a hardware socket. -/
def Held (cfg : ToeConfig) (t : Tables) : Prop :=
  ∀ x, toeFdValid cfg t x → (t.desc x).isUdp = true → 0 ≤ (t.desc x).sn

theorem Held.of_desc (h : Held cfg t) (hd : t'.desc = t.desc) : Held cfg t' := by
  intro x hv
  rw [hd]
  exact h x (by simpa only [toeFdValid, hd] using hv)

theorem Held.setOwner (h : Held cfg t) (sn v : ℤ) : Held cfg (t.setOwner sn v) := h.of_desc rfl

theorem Held.upd (h : Held cfg t) {f : Desc → Desc}
    (hf : (f (t.desc fd)).used = true → (f (t.desc fd)).isUdp = true → 0 ≤ (f (t.desc fd)).sn) :
    Held cfg (t.upd fd f) := by
  intro x hv hudp
  have hu := hv.2.2
  rw [Tables.upd_desc] at hu hudp ⊢
  split
  next hx =>
    rw [if_pos hx] at hu hudp
    exact hf hu hudp
  next hx =>
    rw [if_neg hx] at hu hudp
    exact h x ⟨hv.1, hv.2.1, hu⟩ hudp

theorem Held.move (h : Held cfg t) (hs : Shaped cfg t) {k : Kind} (hm : Move cfg k t t') :
    Held cfg t' := by
  have hstream : ∀ {x}, toeFdValid cfg t x → (t.desc x).listening = true → (t.desc x).isUdp =
      false :=
    fun hv ↦ (hs.desc hv).listening
  have hclear : ∀ {t : Tables} (fd : ℤ), Held cfg t → Held cfg (toeDescClear fd t) :=
    fun fd h ↦ h.upd fun hu ↦ absurd hu (by simp)
  -- Only a listener ever lets go of its hardware socket while it is in use, and a listener is no
  -- UDP socket.
  cases hm with
  | init =>
    cases hi : t.tablesInit with
    | true => rwa [toeTablesInit_of_init hi]
    | false =>
      intro x hv
      have hu := hv.2.2
      rw [toeTablesInit_desc hi hv.1 hv.2.1] at hu
      exact absurd (hs.init ⟨hv.1, hv.2.1, hu⟩) (by simp [hi])
  | @tune _ fd f hv hf =>
    refine h.upd fun _ hudp ↦ ?_
    rw [hf.isUdp] at hudp
    rw [hf.sn]
    exact h fd hv hudp
  | listening b hr => exact h.upd fun _ _ ↦ hr.2
  | socket udp hi hc hfree =>
    refine (h.setOwner _ _).upd fun _ _ ↦ ?_
    exact hfree.1
  | scrub => exact hclear _ h
  | reserve => exact h.setOwner _ _
  | release => exact h.setOwner _ _
  | arm hv hl hn hfree =>
    refine (h.setOwner _ _).upd fun _ _ ↦ ?_
    exact hfree.1
  | opened b hr => exact h.upd fun _ _ ↦ hr.2
  | @disarm _ fd hr hl =>
    rw [toeListenerDisarm, if_pos hr.2]
    refine (h.of_desc (toeSnRelease_desc _ t)).upd fun _ hudp ↦ ?_
    rw [toeSnRelease_desc] at hudp
    exact absurd ((hstream hr.1 hl).symm.trans hudp) (by decide)
  | @handover _ fd c hr hl hc =>
    refine Held.upd (Held.setOwner (h.upd fun _ hudp ↦ ?_) _ _) fun _ hudp ↦ ?_
    · exact absurd hudp (by simp)
    · rw [Tables.setOwner_desc, Tables.upd_desc_ne _ _ (hr.ne_unused hc).symm] at hudp
      exact absurd ((hstream hr.1 hl).symm.trans hudp) (by decide)
  | @close _ fd hv =>
    rw [Tables.closed]
    split
    · exact hclear fd (h.of_desc (toeSnRelease_desc _ t))
    · exact hclear fd h

theorem Held.tablesInv (cfg : ToeConfig) : TablesInv cfg fun t ↦ Shaped cfg t ∧ Held cfg t :=
  (Shaped.tablesInv cfg).and fun hs h hm ↦ h.move hs hm

theorem Held.history {E : Type} {V : Call → Env Tables E ChipOp.Ans} {e₀ e : E} (hfit : cfg.Fits)
    (h : AnyHistory cfg V e₀ t e) : Held cfg t := by
  have hcall : ∀ (c : Call) (t : Tables) (e : E), (Shaped cfg t ∧ Held cfg t) → True →
      wlp (V c) (c.Guard cfg (fun t _ ↦ Shaped cfg t ∧ Held cfg t) (fun _ t _ ↦ Shaped cfg t ∧
        Held cfg t)
        (fun _ ↦ True) t) (c.prog cfg) (fun _ t _ ↦ Shaped cfg t ∧ Held cfg t) t e :=
          fun c t e h _ ↦
    ((Held.tablesInv cfg).maintains (fun _ {_ _} hi hs hT ↦ ⟨hT.1.move (.reserve hi hs),
      hT.2.setOwner _ _⟩)
      fun sn _ _ hT ↦ ⟨hT.1.release sn, hT.2.of_desc (toeSnRelease_desc sn _)⟩).prog hfit h
  have hzero : Shaped cfg .zero ∧ Held cfg .zero :=
    ⟨.zero cfg, fun x hv ↦ absurd hv.2.2 (by simp [Tables.zero])⟩
  exact (h.invariant (I := fun t _ ↦ Shaped cfg t ∧ Held cfg t) hzero (fun _ _ _ _ h _ ↦ h)
    hcall).2

/-! ## With and without a destination -/

/-- Nobody can tell the two programs apart when they are run with the tables `t`: whatever surrounds
them, they return the same and leave the same behind. -/
def Alike {α : Type} (p q : Toe α) (t : Tables) : Prop :=
  ∀ {E : Type} (V : Env Tables E ChipOp.Ans) (e : E) (r : α) (t' : Tables) (e' : E),
    Returns V p t e r t' e' ↔ Returns V q t e r t' e'

/-- A UDP socket after a `connect` to `name`. -/
structure ConnectedUdp (w : WrapConfig) (t : Tables) (s : ℤ) (name : SockaddrIn) : Prop where
  valid : toeFdValid w.toToeConfig t (w.toeFd s)
  isUdp : (t.desc (w.toeFd s)).isUdp = true
  connected : (t.desc (w.toeFd s)).connected = true
  dst : (t.desc (w.toeFd s)).dstIp = name.ip ∧ (t.desc (w.toeFd s)).dstPort = name.port

/-- `__wrap_lwip_recvfrom` for a caller that does not ask for the sender. -/
def recvfromNull (w : WrapConfig) (s : ℤ) (len : ℕ) : Toe (Except Errno (ℤ × List UInt8)) := do
  let r ← wrapLwipRecvfrom w s len none
  return r.map fun x ↦ (x.1, x.2.1)

variable {w : WrapConfig} {s : ℤ} {name : SockaddrIn} {data : List UInt8} {len : ℕ} {E : Type}
  {V : Env Tables E ChipOp.Ans} {e : E}

theorem wiztoeSend_udp (hudp : (t.desc fd).isUdp = true) : (wiztoeSend cfg fd data).exec? t =
    some (-1, t) := by
  rw [wiztoeSend, Program.exec?_get_bind, if_pos (.inr hudp)]
  rfl

theorem wiztoeRecv_udp (hudp : (t.desc fd).isUdp = true) : (wiztoeRecv cfg fd len).exec? t =
    some ((-1, []), t) := by
  rw [wiztoeRecv, Program.exec?_get_bind, if_pos (.inr hudp)]
  rfl

theorem wiztoeIsUdp_udp (hv : toeFdValid cfg t fd) (hudp : (t.desc fd).isUdp = true) :
    (wiztoeIsUdp cfg fd).exec? t = some (true, t) := by
  rw [wiztoeIsUdp, Program.exec?_get_bind, decide_eq_true hv, hudp]
  rfl

theorem wrapLwipSend_udp (hudp : (t.desc (w.toeFd s)).isUdp = true) :
    (wrapLwipSend w s data).exec? t = some (.error .eio, t) := by
  rw [wrapLwipSend, Program.exec?_bind (wiztoeSend_udp hudp)]
  rfl

theorem wrapLwipSendto_null_udp (hv : toeFdValid w.toToeConfig t (w.toeFd s))
    (hudp : (t.desc (w.toeFd s)).isUdp = true) :
    (wrapLwipSendto w s data none).exec? t = some (.error .eio, t) := by
  have hsend : (toeSendEither w (w.toeFd s) data none true).exec? t = some (-1, t) :=
    wiztoeSend_udp hudp
  rw [wrapLwipSendto, Program.exec?_bind (wiztoeIsUdp_udp hv hudp), Program.exec?_bind hsend]
  rfl

theorem wrapLwipRecv_udp (hudp : (t.desc (w.toeFd s)).isUdp = true) :
    (wrapLwipRecv w s len).exec? t = some (.error .eio, t) := by
  rw [wrapLwipRecv, Program.exec?_bind (wiztoeRecv_udp hudp)]
  rfl

/-- Before anything has been sent there is nothing to receive from, and `wiztoe_recvfrom` refuses as
well. -/
theorem recvfromNull_unopened (hv : toeFdValid w.toToeConfig t (w.toeFd s))
    (hudp : (t.desc (w.toeFd s)).isUdp = true) (hopen : (t.desc (w.toeFd s)).opened = false) :
    (recvfromNull w s len).exec? t = some (.error .eio, t) := by
  have hrecv : (toeRecvfromEither w (w.toeFd s) len true).exec? t =
      some ((-1, [], Ip4.zero, 0), t) := by
    have hback : (wiztoeRecvfrom w.toToeConfig (w.toeFd s) len).exec? t =
        some ((-1, [], none), t) := by
      rw [wiztoeRecvfrom, Program.exec?_get_bind, if_pos (.inr (.inr hopen))]
      rfl
    rw [toeRecvfromEither, Program.exec?_bind hback]
    rfl
  have hfull : (wrapLwipRecvfrom w s len none).exec? t = some (.error .eio, t) := by
    rw [wrapLwipRecvfrom, Program.exec?_bind (wiztoeIsUdp_udp hv hudp), Program.exec?_bind hrecv]
    rfl
  rw [recvfromNull, Program.exec?_bind hfull]
  rfl

/-! ## What the datagram functions can do -/

theorem toeSendtoOpen_returns (t : Tables) (fd : ℤ) :
    ∃ t', Returns .oracle (toeSendtoOpen fd) t () true t' () := by
  unfold toeSendtoOpen
  cases hopen : (t.desc fd).opened with
  | true =>
    refine ⟨t, .get_bind ?_⟩
    rw [if_pos hopen]
    exact .pure _ _ _
  | false =>
    refine ⟨t.upd fd fun d ↦ { d with opened := true }, .get_bind ?_⟩
    rw [if_neg (by simp [hopen])]
    refine .oracle_bind (toeSn t fd) ?_
    rw [if_neg (not_not.mpr rfl)]
    exact .modify_bind (.pure _ _ _)

theorem wiztoeSendto_returns (data : List UInt8) (ip : Ip4) (port : UInt16)
    (hr : toeFdReady cfg t fd) (hudp : (t.desc fd).isUdp = true) :
    ∃ t', Returns .oracle (wiztoeSendto cfg fd data ip port) t () 0 t' () := by
  obtain ⟨t', hopen⟩ := toeSendtoOpen_returns t fd
  refine ⟨t', .get_bind ?_⟩
  rw [if_neg (by simp [hr, hudp])]
  refine hopen.seq ?_
  rw [if_neg (by decide)]
  exact .oracle_bind (0 : ℤ) (.pure _ _ _)

/-- With a destination a datagram can be sent. -/
theorem wrapLwipSendto_returns (data : List UInt8) (dst : SockaddrIn)
    (hr : toeFdReady w.toToeConfig t (w.toeFd s)) (hudp : (t.desc (w.toeFd s)).isUdp = true) :
    ∃ t', Returns .oracle (wrapLwipSendto w s data (some dst)) t () (.ok 0) t' () := by
  obtain ⟨t', hsend⟩ := wiztoeSendto_returns data dst.ip dst.port hr hudp
  refine ⟨t', (returns_of_exec? (wiztoeIsUdp_udp hr.1 hudp)).seq ?_⟩
  exact Returns.seq hsend (.pure _ _ _)

/-- A datagram can be received. -/
theorem recvfromNull_returns (hr : toeFdReady w.toToeConfig t (w.toeFd s))
    (hudp : (t.desc (w.toeFd s)).isUdp = true) (hopen : (t.desc (w.toeFd s)).opened = true) :
    Returns .oracle (recvfromNull w s len) t () (.ok (0, [])) t () := by
  have hback : Returns .oracle (wiztoeRecvfrom w.toToeConfig (w.toeFd s) len) t ()
      (0, [], some (Ip4.zero, 0)) t () := by
    refine .get_bind ?_
    rw [if_neg (by simp [hr, hudp, hopen])]
    refine .oracle_bind (0 : UInt32) ?_
    refine Returns.seq (.forever_some (b := none) ?_) (.oracle_bind ((0 : ℤ), [], Ip4.zero, 0)
      (.pure _ _ _))
    exact .oracle_bind (1 : ℕ) (.pure _ _ _)
  refine Returns.seq (a := .ok (0, [], none)) ?_ (.pure _ _ _)
  refine (returns_of_exec? (wiztoeIsUdp_udp hr.1 hudp)).seq ?_
  exact Returns.seq (Returns.seq hback (.pure _ _ _)) (.pure _ _ _)

/-! ## A destination that is stored is not used -/

theorem alike_of_exec? {α : Type} {p q : Toe α} {r : α} (hp : p.exec? t = some (r, t'))
    (hq : q.exec? t = some (r, t')) : Alike p q t := fun _ _ _ _ _ ↦
  (Returns.iff_of_exec? hp).trans (Returns.iff_of_exec? hq).symm

/-- A program that asks nothing of its surroundings is not like one that can return something
else. -/
theorem not_alike_of_exec? {α : Type} {p q : Toe α} {r r' : α} {t₁ t₂ : Tables}
    (hp : p.exec? t = some (r, t₁)) (hq : Returns .oracle q t () r' t₂ ()) (hne : r' ≠ r) :
    ¬Alike p q t := fun h ↦
  hne ((Returns.iff_of_exec? hp).mp ((h _ _ _ _ _).mpr hq)).1

/-- A UDP socket connected to port 5000 of 192.168.0.9, from which nothing has been sent. -/
def connectedUdpSocket : Tables :=
  afterCall w5500 .closed (.connect 0 #v[192, 168, 0, 9] 5000)
    (afterCall w5500 .closed (.socket 2 2 0) .zero)

theorem connectedUdpSocket_history :
    AnyHistory w5500 (fun _ ↦ Env.any (E := Unit)) () connectedUdpSocket () := by
  have hsocket : Returns Env.any ((Call.socket 2 2 0).prog w5500) .zero () ()
      (afterCall w5500 .closed (.socket 2 2 0) .zero) () :=
    afterCall_returns (fun _ _ _ ↦ trivial) (by decide)
  have hconnect : Returns Env.any ((Call.connect 0 #v[192, 168, 0, 9] 5000).prog w5500)
      (afterCall w5500 .closed (.socket 2 2 0) .zero) () () connectedUdpSocket () :=
    afterCall_returns (fun _ _ _ ↦ trivial) (by decide)
  exact (History.start.call (.socket 2 2 0) trivial hsocket).call
    (.connect 0 #v[192, 168, 0, 9] 5000) trivial hconnect

theorem connectedUdpSocket_connected :
    ConnectedUdp wrapW5500 connectedUdpSocket 54 { ip := #v[192, 168, 0, 9], port := 5000 } where
  valid := by decide
  isUdp := by decide
  connected := by decide
  dst := by decide

/-- **The stored destination is never used.** On a UDP socket that is connected, in any state, the
functions that take no destination are not like those that do, but for the reads of a socket that
nothing was sent from. -/
theorem connected_datagrams (hfit : w.Fits) {V : Call → Env Tables E ChipOp.Ans} {e₀ e : E}
    (h : AnyHistory w.toToeConfig V e₀ t e) (hc : ConnectedUdp w t s name) :
    ¬Alike (wrapLwipSend w s data) (wrapLwipSendto w s data (some name)) t ∧
      ¬Alike (wrapLwipWrite w s data) (wrapLwipSendto w s data (some name)) t ∧
      ¬Alike (wrapLwipSendto w s data none) (wrapLwipSendto w s data (some name)) t ∧
      (Alike (wrapLwipRecv w s len) (recvfromNull w s len) t ↔ (t.desc (w.toeFd s)).opened =
        false) ∧
      (Alike (wrapLwipRead w s len) (recvfromNull w s len) t ↔ (t.desc (w.toeFd s)).opened =
        false) := by
  have hr : toeFdReady w.toToeConfig t (w.toeFd s) :=
    ⟨hc.valid, Held.history hfit h _ hc.valid hc.isUdp⟩
  -- With the name the datagram goes out; without it every one of the other calls is refused.
  obtain ⟨t', hto⟩ := wrapLwipSendto_returns data name hr hc.isUdp
  have hsend : ¬Alike (wrapLwipSend w s data) (wrapLwipSendto w s data (some name)) t :=
    not_alike_of_exec? (wrapLwipSend_udp hc.isUdp) hto (by simp)
  have hrecv : Alike (wrapLwipRecv w s len) (recvfromNull w s len) t ↔ (t.desc (w.toeFd s)).opened =
      false := by
    refine ⟨fun halike ↦ ?_, fun hopen ↦ ?_⟩
    · refine Bool.eq_false_iff.mpr fun hopen ↦ ?_
      exact not_alike_of_exec? (wrapLwipRecv_udp hc.isUdp) (recvfromNull_returns hr hc.isUdp hopen)
        (by simp) halike
    · exact alike_of_exec? (wrapLwipRecv_udp hc.isUdp)
        (recvfromNull_unopened hc.valid hc.isUdp hopen)
  exact ⟨hsend, hsend, not_alike_of_exec? (wrapLwipSendto_null_udp hc.valid hc.isUdp) hto (by simp),
    hrecv, hrecv⟩

theorem connected_datagrams_port5000 :
    ¬Alike (wrapLwipSend wrapW5500 54 [1])
    (wrapLwipSendto wrapW5500 54 [1] (some ⟨#v[192, 168, 0, 9], 5000⟩))
        connectedUdpSocket ∧
      ¬Alike (wrapLwipWrite wrapW5500 54 [1])
      (wrapLwipSendto wrapW5500 54 [1] (some ⟨#v[192, 168, 0, 9], 5000⟩))
        connectedUdpSocket ∧
      ¬Alike (wrapLwipSendto wrapW5500 54 [1] none)
        (wrapLwipSendto wrapW5500 54 [1] (some ⟨#v[192, 168, 0, 9], 5000⟩)) connectedUdpSocket ∧
      (Alike (wrapLwipRecv wrapW5500 54 16) (recvfromNull wrapW5500 54 16) connectedUdpSocket ↔
        (connectedUdpSocket.desc 0).opened = false) ∧
      (Alike (wrapLwipRead wrapW5500 54 16) (recvfromNull wrapW5500 54 16) connectedUdpSocket ↔
        (connectedUdpSocket.desc 0).opened = false) :=
  connected_datagrams w5500_fits connectedUdpSocket_history connectedUdpSocket_connected

/-- **A datagram sent to the stored destination is refused.** Sent with that destination it goes
out. -/
theorem connected_send_refused :
    ¬∀ (t : Tables) (e : Unit) (s : ℤ) (name : SockaddrIn) (data : List UInt8),
    AnyHistory w5500 (fun _ ↦ Env.any (E := Unit)) () t e → ConnectedUdp wrapW5500 t s name →
    Alike (wrapLwipSend wrapW5500 s data) (wrapLwipSendto wrapW5500 s data (some name)) t := by
  intro h
  have hsent := returns_runWith (V := .script (placidChip .closed)) (h := placidChip .closed)
    (n := 60) (s := connectedUdpSocket) (a := .ok 1)
    (p := wrapLwipSendto wrapW5500 54 [1] (some ⟨#v[192, 168, 0, 9], 5000⟩))
      (.always fun _ _ _ ↦ ⟨rfl, rfl⟩) (e := ())
    trivial (by decide +kernel)
  have halike : Alike (wrapLwipSend wrapW5500 54 [1])
      (wrapLwipSendto wrapW5500 54 [1] (some ⟨#v[192, 168, 0, 9], 5000⟩)) connectedUdpSocket :=
    h _ _ 54 _ [1] connectedUdpSocket_history connectedUdpSocket_connected
  have hrefused : (wrapLwipSend wrapW5500 54 [1]).exec? connectedUdpSocket =
      some (.error .eio, connectedUdpSocket) :=
    wrapLwipSend_udp (by decide)
  have heq := ((Returns.iff_of_exec? hrefused).mp ((halike _ _ _ _ _).mpr hsent)).1
  exact absurd heq (by simp)

end WsmDriver
