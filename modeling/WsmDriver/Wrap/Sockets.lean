import WsmDriver.Wrap.Datagrams

/-!
# The socket interface is a client of the backend

Every function of `wiztoe_wrap.c` makes calls of `wiznet_toe.h`, one after the other, and touches
the tables in no other way. What holds in every history of the backend holds for an application that
only uses the socket interface. Such an application keeps the discipline of raw sockets too: no
function it has gives a hardware socket back.
-/

namespace WsmDriver

open Effect

/-- The functions of `wiztoe_wrap.c` with their arguments. -/
inductive WrapCall
  | socket (domain type protocol : ℤ)
  | bind (s : ℤ) (name : SockaddrIn)
  | listen (s backlog : ℤ)
  | accept (s : ℤ) (room : Option ℕ)
  | connect (s : ℤ) (name : SockaddrIn)
  | close (s : ℤ)
  | getsockname (s : ℤ) (room : Option ℕ)
  | getpeername (s : ℤ) (room : Option ℕ)
  | getfl (s : ℤ)
  | setfl (s : ℤ) (nonblock : Bool)
  | shutdown (s : ℤ) (how : ShutHow)
  | send (s : ℤ) (data : List UInt8)
  | write (s : ℤ) (data : List UInt8)
  | recv (s : ℤ) (len : ℕ)
  | read (s : ℤ) (len : ℕ)
  | recvfrom (s : ℤ) (len : ℕ) (room : Option ℕ)
  | sendto (s : ℤ) (data : List UInt8) (dst : Option SockaddrIn)
  | writev (s : ℤ) (iov : Option (List (List UInt8)))
  | readv (s : ℤ) (iov : Option (List ℕ))
  | setsockopt (s : ℤ) (opt : SockOptName) (optval : Option (List UInt8))
  | getsockopt (s : ℤ) (opt : SockOptName) (room : Option ℕ)

/-- The program a function runs. -/
def WrapCall.prog (w : WrapConfig) : WrapCall → Toe Unit
  | .socket domain type protocol => discard <| wrapLwipSocket w domain type protocol
  | .bind s name => discard <| wrapLwipBind w s name
  | .listen s backlog => discard <| wrapLwipListen w s backlog
  | .accept s room => discard <| wrapLwipAccept w s room
  | .connect s name => discard <| wrapLwipConnect w s name
  | .close s => discard <| wrapLwipClose w s
  | .getsockname s room => discard <| wrapLwipGetsockname w s room
  | .getpeername s room => discard <| wrapLwipGetpeername w s room
  | .getfl s => discard <| wrapLwipGetfl w s
  | .setfl s nonblock => discard <| wrapLwipSetfl w s nonblock
  | .shutdown s how => discard <| wrapLwipShutdown w s how
  | .send s data => discard <| wrapLwipSend w s data
  | .write s data => discard <| wrapLwipWrite w s data
  | .recv s len => discard <| wrapLwipRecv w s len
  | .read s len => discard <| wrapLwipRead w s len
  | .recvfrom s len room => discard <| wrapLwipRecvfrom w s len room
  | .sendto s data dst => discard <| wrapLwipSendto w s data dst
  | .writev s iov => discard <| wrapLwipWritev w s iov
  | .readv s iov => discard <| wrapLwipReadv w s iov
  | .setsockopt s opt optval => discard <| wrapLwipSetsockopt w s opt optval
  | .getsockopt s opt room => discard <| wrapLwipGetsockopt w s opt room

variable {w : WrapConfig} {cfg : ToeConfig} {E α β : Type} {V : Env Tables E ChipOp.Ans}
    {e₀ e e' : E} {t t' : Tables} {s fd : ℤ}

/-- Histories of an application that uses the socket interface only. -/
abbrev SocketHistory (w : WrapConfig) (V : Env Tables E ChipOp.Ans) : E → Tables → E → Prop :=
  History (fun _ ↦ V) (fun _ _ _ ↦ True) (WrapCall.prog w) .zero

/-- The operation is performed during a call of a history of the backend. -/
def MadeByCall (w : WrapConfig) (V : Env Tables E ChipOp.Ans) (e₀ : E) (o : ChipOp) (t : Tables)
    (e : E) : Prop :=
  ∃ c t₁, During (fun _ ↦ V) (fun c t _ ↦ c.Disciplined w.toToeConfig t)
    (Call.prog w.toToeConfig) .zero e₀ c t₁ o t e

/-- The program makes calls of the backend, and nothing else. -/
def Calls (w : WrapConfig) (V : Env Tables E ChipOp.Ans) (e₀ : E) (p : Toe α) : Prop :=
  ∀ t e, ToeHistory w.toToeConfig (fun _ ↦ V) e₀ t e →
    wlp V (MadeByCall w V e₀) p (fun _ ↦ ToeHistory w.toToeConfig (fun _ ↦ V) e₀) t e

/-! ## Programs of calls -/

namespace Calls

theorem ret (a : α) : Calls w V e₀ (pure a) := fun _ _ h _ hd ↦
  hd.induct (fun _ _ hd h ↦ h.drift .localIp hd) h

theorem seq {p : Toe α} {f : α → Toe β} (hp : Calls w V e₀ p)
    (hf : ∀ a, Calls w V e₀ (f a)) :
    Calls w V e₀ (p >>= f) := fun t e h ↦ (hp t e h).seq fun a t e h ↦ hf a t e h

theorem ite {c : Prop} [Decidable c] {p q : Toe α} (hp : Calls w V e₀ p) (hq : Calls w V e₀ q) :
    Calls w V e₀ (if c then p else q) := by
  split
  · exact hp
  · exact hq

/-- A call of the backend, unless it gives a raw socket back. -/
theorem call (c : Call) (hc : ∀ sn, c ≠ .socketRelease sn) {p : Toe α}
    (hp : discard p = c.prog w.toToeConfig) : Calls w V e₀ p := fun _ _ h ↦
  (h.wlp_call (c := c) (fun sn hsn ↦ absurd hsn (hc sn)) hp).guard fun _ _ _ ho ↦ ⟨c, _, ho⟩

end Calls

/-! ## The functions -/

theorem wiztoeSend_calls (fd : ℤ) (buf : List UInt8) :
    Calls w V e₀ (wiztoeSend w.toToeConfig fd buf) :=
  .call (.send fd buf) (by simp) rfl

theorem wiztoeRecv_calls (fd : ℤ) (len : ℕ) : Calls w V e₀ (wiztoeRecv w.toToeConfig fd len) :=
  .call (.recv fd len) (by simp) rfl

theorem wiztoePeer_calls (fd : ℤ) : Calls w V e₀ (wiztoePeer w.toToeConfig fd) :=
  .call (.peer fd) (by simp) rfl

theorem wiztoeIsUdp_calls (fd : ℤ) : Calls w V e₀ (wiztoeIsUdp w.toToeConfig fd) :=
  .call (.isUdp fd) (by simp) rfl

theorem writevLoop_calls (fd : ℤ) (iov : List (List UInt8)) :
    ∀ total, Calls w V e₀ (writevLoop w fd iov total) := by
  induction iov with
  | nil => exact fun total ↦ .ret _
  | cons buf iov ih =>
    intro total
    unfold writevLoop
    refine .ite (ih total) ((wiztoeSend_calls fd buf).seq fun n ↦ ?_)
    exact .ite (.ret _) (.ite (.ret _) (.ite (.ret _) (ih _)))

theorem toeMayRead_calls (fd total : ℤ) : Calls w V e₀ (toeMayRead w fd total) :=
  .ite (.ret _) (.seq (.call (.available fd) (by simp) rfl) fun _ ↦ .ret _)

theorem readvLoop_calls (fd : ℤ) (iov : List ℕ) :
    ∀ total stored, Calls w V e₀ (readvLoop w fd iov total stored) := by
  induction iov with
  | nil => exact fun total stored ↦ .ret _
  | cons len iov ih =>
    intro total stored
    unfold readvLoop
    refine .ite (ih total _) ((toeMayRead_calls fd total).seq fun may ↦ .ite (.ret _) ?_)
    refine (wiztoeRecv_calls fd len).seq fun ⟨n, bytes⟩ ↦ ?_
    exact .ite (.ret _) (.ite (.ret _) (.ite (.ret _) (ih _ _)))

theorem toeSetOpt_calls (fd : ℤ) (o : WiztoeOpt) (val : List UInt8) :
    Calls w V e₀ (toeSetOpt w fd o val) :=
  .seq (.call (.setsockopt fd o (some val)) (by simp) rfl) fun _ ↦ .ret _

theorem toeSetTimeo_calls (fd : ℤ) (o : WiztoeOpt) (val : List UInt8) :
    Calls w V e₀ (toeSetTimeo w fd o val) :=
  .ite (.ret _) (toeSetOpt_calls fd o _)

theorem toeGetOpt_calls (fd : ℤ) (o : WiztoeOpt) (room : ℕ) :
    Calls w V e₀ (toeGetOpt w fd o room) :=
  .ite (.ret _) (.seq (.call (.getsockopt fd o (some room)) (by simp) rfl) fun _ ↦ .ret _)

theorem toeGetTimeo_calls (fd : ℤ) (o : WiztoeOpt) (room : ℕ) :
    Calls w V e₀ (toeGetTimeo w fd o room) :=
  .ite (.ret _) (.seq (.call (.getsockopt fd o (some 4)) (by simp) rfl) fun _ ↦ .ret _)

theorem wrapLwipSend_calls (s : ℤ) (data : List UInt8) : Calls w V e₀ (wrapLwipSend w s data) :=
  (wiztoeSend_calls _ _).seq fun _ ↦ .ret _

theorem wrapLwipRecv_calls (s : ℤ) (len : ℕ) : Calls w V e₀ (wrapLwipRecv w s len) :=
  (wiztoeRecv_calls _ _).seq fun _ ↦ .ret _

theorem wrapLwipRecvfrom_calls (s : ℤ) (len : ℕ) (room : Option ℕ) :
    Calls w V e₀ (wrapLwipRecvfrom w s len room) := by
  refine (wiztoeIsUdp_calls _).seq fun isUdp ↦ .seq ?_ fun _ ↦ .ret _
  cases isUdp with
  | true => exact .seq (.call (.recvfrom _ len) (by simp) rfl) fun _ ↦ .ret _
  | false => exact (wiztoeRecv_calls _ _).seq fun _ ↦ (wiztoePeer_calls _).seq fun _ ↦ .ret _

theorem wrapLwipSendto_calls (s : ℤ) (data : List UInt8) (dst : Option SockaddrIn) :
    Calls w V e₀ (wrapLwipSendto w s data dst) := by
  refine (wiztoeIsUdp_calls _).seq fun isUdp ↦ .seq ?_ fun _ ↦ .ret _
  rcases dst with _ | dst
  · exact wiztoeSend_calls _ _
  cases isUdp with
  | true => exact .call (.sendto _ data dst.ip dst.port) (by simp) rfl
  | false => exact wiztoeSend_calls _ _

theorem wrapLwipWritev_calls (s : ℤ) (iov : Option (List (List UInt8))) :
    Calls w V e₀ (wrapLwipWritev w s iov) := by
  rcases iov with _ | _ | ⟨buf, iov⟩
  · exact .ret _
  · exact .ret _
  · exact writevLoop_calls _ _ _

theorem wrapLwipReadv_calls (s : ℤ) (iov : Option (List ℕ)) :
    Calls w V e₀ (wrapLwipReadv w s iov) := by
  rcases iov with _ | _ | ⟨len, iov⟩
  · exact .ret _
  · exact .ret _
  · exact readvLoop_calls _ _ _ _

theorem wrapLwipSetsockopt_calls (s : ℤ) (opt : SockOptName) (optval : Option (List UInt8)) :
    Calls w V e₀ (wrapLwipSetsockopt w s opt optval) := by
  cases optval with
  | none => exact .ret _
  | some val =>
    cases opt with
    | soRcvtimeo => exact toeSetTimeo_calls _ _ _
    | soSndtimeo => exact toeSetTimeo_calls _ _ _
    | soKeepalive => exact toeSetOpt_calls _ _ _
    | tcpNodelay => exact toeSetOpt_calls _ _ _
    | tcpKeepidle => exact toeSetOpt_calls _ _ _
    | ipTtl => exact toeSetOpt_calls _ _ _
    | ipTos => exact toeSetOpt_calls _ _ _
    | _ => exact .ret _

theorem wrapLwipGetsockopt_calls (s : ℤ) (opt : SockOptName) (room : Option ℕ) :
    Calls w V e₀ (wrapLwipGetsockopt w s opt room) := by
  cases room with
  | none => exact .ret _
  | some room =>
    cases opt with
    | soRcvtimeo => exact toeGetTimeo_calls _ _ _
    | soSndtimeo => exact toeGetTimeo_calls _ _ _
    | soError => exact toeGetOpt_calls _ _ _
    | soType => exact toeGetOpt_calls _ _ _
    | soRcvbuf => exact toeGetOpt_calls _ _ _
    | soSndbuf => exact toeGetOpt_calls _ _ _
    | ipTtl => exact toeGetOpt_calls _ _ _
    | ipTos => exact toeGetOpt_calls _ _ _
    | _ => exact .ret _

theorem WrapCall.prog_calls (c : WrapCall) : Calls w V e₀ (c.prog w) := by
  have hdiscard {α : Type} {p : Toe α} (hp : Calls w V e₀ p) : Calls w V e₀ (discard p) :=
    hp.seq fun _ ↦ .ret _
  refine match c with
    | .socket domain type protocol =>
      hdiscard (.seq (.call (.socket domain type protocol) (by simp) rfl) fun _ ↦ ?_)
    | .bind _ name => hdiscard (.seq (.call (.bind _ name.port) (by simp) rfl) fun _ ↦ .ret _)
    | .listen _ backlog => hdiscard (.seq (.call (.listen _ backlog) (by simp) rfl) fun _ ↦ .ret _)
    | .accept s room => hdiscard (.seq (.call (.accept _) (by simp) rfl) fun _ ↦ ?_)
    | .connect _ name => hdiscard (.seq (.call (.connect _ name.ip name.port) (by simp) rfl) fun _ ↦
        .ret _)
    | .close _ => hdiscard (.seq (.call (.close _) (by simp) rfl) fun _ ↦ .ret _)
    | .getsockname _ _ => hdiscard (.seq (.call (.getsockname _) (by simp) rfl) fun _ ↦ .ret _)
    | .getpeername _ _ => hdiscard ((wiztoePeer_calls _).seq fun _ ↦ .ret _)
    | .getfl _ => hdiscard (.seq (.call (.getNonblocking _) (by simp) rfl) fun _ ↦ ?_)
    | .setfl _ nonblock => hdiscard (.seq (.call (.setNonblocking _ nonblock) (by simp) rfl) fun _ ↦
        .ret _)
    | .shutdown _ how =>
      hdiscard (.ite (.ret _) (.seq (.call (.shutdown _ _ _) (by simp) rfl) fun _ ↦ .ret _))
    | .send s data | .write s data => hdiscard (wrapLwipSend_calls s data)
    | .recv s len | .read s len => hdiscard (wrapLwipRecv_calls s len)
    | .recvfrom s len room => hdiscard (wrapLwipRecvfrom_calls s len room)
    | .sendto s data dst => hdiscard (wrapLwipSendto_calls s data dst)
    | .writev s iov => hdiscard (wrapLwipWritev_calls s iov)
    | .readv s iov => hdiscard (wrapLwipReadv_calls s iov)
    | .setsockopt s opt optval => hdiscard (wrapLwipSetsockopt_calls s opt optval)
    | .getsockopt s opt room => hdiscard (wrapLwipGetsockopt_calls s opt room)
  · exact .ite (.ret _) (.ret _)
  · exact .ite (.ret _) (.ite (.ret _) ((wiztoePeer_calls _).seq fun _ ↦ .ret _))
  · exact .ite (.ret _) (.ret _)

/-! ## Applications -/

/-- **The socket interface adds nothing to the backend.** Wherever an application gets with it, a
disciplined user of the backend gets, and what it has the chip do on the way is done during one of
the backend's calls. -/
theorem SocketHistory.toe (h : SocketHistory w V e₀ t e) :
    ToeHistory w.toToeConfig (fun _ ↦ V) e₀ t e :=
  h.invariant (G := fun _ _ ↦ MadeByCall w V e₀) .start (fun _ _ _ _ h hd ↦ h.drift .localIp hd)
    fun c t e h _ ↦ c.prog_calls t e h

theorem SocketHistory.backed {c : WrapCall} {t₁ : Tables} {o : ChipOp}
    (h : During (fun _ ↦ V) (fun _ _ _ ↦ True) (WrapCall.prog w) .zero e₀ c t₁ o t e) :
    MadeByCall w V e₀ o t e := by
  obtain ⟨e₁, hh, -, hp⟩ := h
  exact (c.prog_calls _ _ (SocketHistory.toe hh)).performs hp

/-- What is known of the tables of the backend is known of those an application leaves. -/
theorem SocketHistory.tables (hfit : w.Fits) (h : SocketHistory w V e₀ t e) :
    WellOwned w.toToeConfig t ∧ Shaped w.toToeConfig t ∧ Held w.toToeConfig t := by
  have hany : AnyHistory w.toToeConfig (fun _ ↦ V) e₀ t e :=
    h.toe.mono (fun _ _ _ h ↦ h) (fun _ _ _ _ ↦ trivial) fun _ _ _ _ _ h ↦ h
  exact ⟨.history hfit h.toe, .history hfit hany, .history hfit hany⟩

theorem wiztoeConnect_udp (hr : toeFdReady cfg t fd) (hudp : (t.desc fd).isUdp = true) (ip : Ip4)
    (port : UInt16) : (wiztoeConnect cfg fd ip port).exec? t =
      some (0, t.upd fd fun d ↦ { d with dstIp := ip, dstPort := port, connected := true }) := by
  rw [wiztoeConnect, Program.exec?_get_bind, if_neg (not_not.mpr hr), if_pos hudp]
  rfl

/-- After a `connect` that has succeeded a UDP socket is connected to the name. -/
theorem wrapLwipConnect_connected {name : SockaddrIn} (hudp : (t.desc (w.toeFd s)).isUdp = true)
    (hr : Returns V (wrapLwipConnect w s name) t e (.ok ()) t' e') : ConnectedUdp w t' s name := by
  by_cases hready : toeFdReady w.toToeConfig t (w.toeFd s)
  · have hconnect : (wrapLwipConnect w s name).exec? t = some (.ok (), t.upd (w.toeFd s) fun d ↦
        { d with dstIp := name.ip, dstPort := name.port, connected := true }) := by
      rw [wrapLwipConnect, Program.exec?_bind (wiztoeConnect_udp hready hudp name.ip name.port)]
      rfl
    obtain ⟨-, rfl, -⟩ := (Returns.iff_of_exec? hconnect).mp hr
    refine ⟨⟨hready.1.1, hready.1.2.1, ?_⟩, ?_, ?_, ?_⟩
    all_goals rw [Tables.upd_desc_self]
    · exact hready.1.2.2
    · exact hudp
    · exact ⟨rfl, rfl⟩
  · have hrefused : (wrapLwipConnect w s name).exec? t = some (.error .econnrefused, t) := by
      have hback : (wiztoeConnect w.toToeConfig (w.toeFd s) name.ip name.port).exec? t =
          some (-1, t) := by
        rw [wiztoeConnect, Program.exec?_get_bind, if_pos hready]
        rfl
      rw [wrapLwipConnect, Program.exec?_bind hback]
      rfl
    exact absurd ((Returns.iff_of_exec? hrefused).mp hr).1 (by simp)

end WsmDriver
