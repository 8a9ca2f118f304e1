import WsmDriver.Effect.Past
import WsmDriver.Pppoe.Client

/-!
# The handshake of the PPPoE client

The client looks at every frame that comes, whatever phase it is in, and one frame may be taken for
another: the destination is checked by the sum of its bytes, and a flag that was raised too early
stays. Still a session is not written to the chip before the frames that make it have come, and in
their order: the PADS, the acknowledgements of LCP and of the login, and that of IPCP.

What is claimed is about the frames as they lie in the buffer when they are looked at; behind the
end of a short frame the buffer holds what was there before.
-/

namespace WsmDriver.Pppoe

open Effect Program
open Format (Block)
open W6300 (be16 word)

/-! ## Frames -/

/-- The buffer after a frame was read into it, and the address of the chip at that time. -/
structure Frame where
  mac : Block 6
  bytes : Block pppoeDataBufSize
  deriving DecidableEq

namespace Frame

/-- A frame of discovery with this code. -/
def IsDiscovery (code : UInt8) (f : Frame) : Prop :=
  tmp8 f.mac f.bytes = 0 ∧ word (f.bytes.1.drop 12) = pppoeDiscovery ∧ f.bytes.1.getD 15 0 = code

/-- A frame of a session, of this protocol and with this code. -/
def IsSession (protocol : UInt16) (code : UInt8) (f : Frame) : Prop :=
  tmp8 f.mac f.bytes = 0 ∧ word (f.bytes.1.drop 12) = pppoeSession ∧ word (f.bytes.1.drop 20) =
    protocol ∧
    f.bytes.1.getD 22 0 = code

instance (code : UInt8) : DecidablePred (IsDiscovery code) :=
  fun _ ↦ inferInstanceAs (Decidable (_ ∧ _ ∧ _))

instance (protocol : UInt16) (code : UInt8) : DecidablePred (IsSession protocol code) :=
  fun _ ↦ inferInstanceAs (Decidable (_ ∧ _ ∧ _ ∧ _))

abbrev IsPado : Frame → Prop := IsDiscovery pppoePado

abbrev IsPads : Frame → Prop := IsDiscovery pppoePads

/-- The login is accepted: by an acknowledgement of PAP, or a success of CHAP. -/
def IsWelcome (f : Frame) : Prop := f.IsSession pppoePap pppConfigAck ∨ f.IsSession pppoeChap 0x03

end Frame

/-! ## What has been heard -/

/-- There has been a PADS. -/
def Discovered : List Frame → Prop := Once Frame.IsPads

/-- After it, and after a request of the other side, the request of the client has been
acknowledged. -/
def Agreed : List Frame → Prop :=
  Past (Frame.IsSession pppoeLcp pppConfigAck) fun l ↦
    Discovered l ∧ Once (Frame.IsSession pppoeLcp pppConfigReq) l

/-- After that the login has been accepted. -/
def LoggedIn : List Frame → Prop := Past Frame.IsWelcome Agreed

/-- After that, and after a request of the other side and a Configure-Nak, the address has been
acknowledged. -/
def Assigned : List Frame → Prop :=
  Past (Frame.IsSession pppoeIpcp pppConfigAck) fun l ↦
    LoggedIn l ∧ Once (Frame.IsSession pppoeIpcp pppConfigReq) l ∧
      Once (Frame.IsSession pppoeIpcp pppConfigNak) l

/-- The session is that of the last PADS. -/
def sessionOf : List Frame → UInt16
  | [] => 0
  | f :: l => if f.IsPads then word (f.bytes.1.drop 16) else sessionOf l

theorem source_le : 6 + 6 ≤ pppoeDataBufSize := by decide

/-- The concentrator is the sender of the last PADO. -/
def concentratorOf : List Frame → Block 6
  | [] => .zeros 6
  | f :: l => if f.IsPado then f.bytes.part 6 6 source_le else concentratorOf l

/-- The address of the chip, as far as known, and the frames, the latest first. -/
structure Heard where
  mac : Block 6 := .zeros 6
  frames : List Frame := []
  deriving DecidableEq

def Heard.note (o : PppOp) (s : Globals) (a : o.Ans) (w : Heard) : Heard :=
  match o, a with
  | .getShar, mac => { w with mac }
  | .recvData n, bytes => { w with frames := ⟨w.mac, s.buf.fill (bytes.take n)⟩ :: w.frames }
  | _, _ => w

/-- **What is written to the chip, and when.** -/
def Permitted (o : PppOp) (_ : Globals) (w : Heard) : Prop :=
  match o with
  | .enablePppoe | .setSipr _ | .setPtimer _ => Assigned w.frames
  | .setShar mac => Assigned w.frames ∧ mac = concentratorOf w.frames
  | .setPsid sid => Assigned w.frames ∧ sid = sessionOf w.frames
  | _ => True

/-! ## What a frame can do -/

/-- The frames that raise a flag. -/
def Flag.RaisedBy : Flag → Frame → Prop
  | .discoveryRcvPado => Frame.IsPado
  | .discoveryRcvPads => Frame.IsPads
  | .lcpCrRcv => Frame.IsSession pppoeLcp pppConfigReq
  | .lcpCrSnt => Frame.IsSession pppoeLcp pppConfigAck
  | .terminationAckRcv => Frame.IsSession pppoeLcp pppTermAck
  | .papAckRcv => Frame.IsSession pppoePap pppConfigAck
  | .chapSucRcv => Frame.IsSession pppoeChap 0x03
  | .ipcpCrRcv => Frame.IsSession pppoeIpcp pppConfigReq
  | .ipcpNakRcv => Frame.IsSession pppoeIpcp pppConfigNak
  | .ipcpCrSnt => Frame.IsSession pppoeIpcp pppConfigAck
  | .padoServicename => fun _ ↦ True

/-- What reading options and sending a message leave alone. -/
structure Keeps (s s' : Globals) : Prop where
  state : s'.pppoeState = s.pppoeState
  nasMac : s'.nasMac = s.nasMac
  nasSessionid : s'.nasSessionid = s.nasSessionid
  flags : ∀ flag ∈ s'.controlFlag, flag ∈ s.controlFlag ∨ flag = .padoServicename

/-- What has become of the store with a frame. -/
structure Learns (f : Frame) (s s' : Globals) : Prop where
  state : s'.pppoeState = s.pppoeState
  nasMac : s'.nasMac = if f.IsPado then f.bytes.part 6 6 source_le else s.nasMac
  nasSessionid : s'.nasSessionid = if f.IsPads then word (f.bytes.1.drop 16) else s.nasSessionid
  flags : ∀ flag ∈ s'.controlFlag, flag ∈ s.controlFlag ∨ flag.RaisedBy f
  nak : .ipcpCrSnt ∈ s'.controlFlag → .ipcpCrSnt ∈ s.controlFlag ∨
    .ipcpNakRcv ∈ s.controlFlag

variable {s s₁ s₂ s₃ s' : Globals} {f : Frame} {l : List Frame}

theorem Keeps.refl (s : Globals) : Keeps s s := ⟨rfl, rfl, rfl, fun _ ↦ .inl⟩

theorem Keeps.trans (h₁ : Keeps s₁ s₂) (h₂ : Keeps s₂ s₃) : Keeps s₁ s₃ where
  state := h₂.state.trans h₁.state
  nasMac := h₂.nasMac.trans h₁.nasMac
  nasSessionid := h₂.nasSessionid.trans h₁.nasSessionid
  flags flag h := (h₂.flags flag h).elim (h₁.flags flag) .inr

/-- Where the variables that count are the same. -/
theorem Keeps.of_eq (hstate : s'.pppoeState = s.pppoeState) (hmac : s'.nasMac = s.nasMac)
    (hsid : s'.nasSessionid = s.nasSessionid) (hflags : s'.controlFlag = s.controlFlag) :
    Keeps s s' :=
  ⟨hstate, hmac, hsid, fun _ h ↦ .inl (hflags ▸ h)⟩

theorem Keeps.learns (h : Keeps s s') (hpado : ¬f.IsPado) (hpads : ¬f.IsPads) : Learns f s s' where
  state := h.state
  nasMac := h.nasMac.trans (if_neg hpado).symm
  nasSessionid := h.nasSessionid.trans (if_neg hpads).symm
  flags flag hflag := (h.flags flag hflag).imp_right fun hf ↦ by rw [hf]; trivial
  nak hflag := .inl ((h.flags _ hflag).resolve_right (by decide))

/-- A PADO says who the concentrator is. -/
theorem Keeps.learns_pado (h : Keeps { s with nasMac := f.bytes.part 6 6 source_le } s')
    (hf : f.IsPado) : Learns f s s' where
  state := h.state
  nasMac := h.nasMac.trans (if_pos hf).symm
  nasSessionid :=
    h.nasSessionid.trans (if_neg fun hpads ↦ absurd (hf.2.2.symm.trans hpads.2.2) (by decide)).symm
  flags flag hflag := (h.flags flag hflag).imp_right fun hf ↦ by rw [hf]; trivial
  nak hflag := .inl ((h.flags _ hflag).resolve_right (by decide))

/-- A PADS says which session it is. -/
theorem Keeps.learns_pads (h : Keeps { s with nasSessionid := word (f.bytes.1.drop 16) } s')
    (hf : f.IsPads) : Learns f s s' where
  state := h.state
  nasMac :=
    h.nasMac.trans (if_neg fun hpado ↦ absurd (hf.2.2.symm.trans hpado.2.2) (by decide)).symm
  nasSessionid := h.nasSessionid.trans (if_pos hf).symm
  flags flag hflag := (h.flags flag hflag).imp_right fun hf ↦ by rw [hf]; trivial
  nak hflag := .inl ((h.flags _ hflag).resolve_right (by decide))

theorem Learns.raise {flag : Flag} (h : Learns f s s') (hflag : flag.RaisedBy f)
    (hnak : flag = .ipcpCrSnt → .ipcpNakRcv ∈ s.controlFlag) :
    Learns f s { s' with controlFlag := insert flag s'.controlFlag } where
  state := h.state
  nasMac := h.nasMac
  nasSessionid := h.nasSessionid
  flags flag' h' := (Finset.mem_insert.mp h').elim (fun heq ↦ .inr (heq ▸ hflag)) (h.flags flag')
  nak h' := (Finset.mem_insert.mp h').elim (fun heq ↦ .inr (hnak heq.symm)) h.nak

/-! ## A message -/

section

variable {E : Type} {V : Env Globals E PppOp.Ans} {w : Heard} {α β : Type}

/-- The precondition of a program, for these rules. -/
abbrev Follows (V : Env Globals E PppOp.Ans) (p : Ppp α) (Q : α → Globals → Heard → Prop)
    (s : Globals) (w : Heard) : Prop :=
  Recorded V Heard.note Permitted p Q s w

/-- The program does what a message does, and no frame is received. -/
abbrev Quiet (V : Env Globals E PppOp.Ans) (p : Ppp α) (s : Globals) (w : Heard) : Prop :=
  Follows V p (fun _ s' w' ↦ Keeps s s' ∧ w'.frames = w.frames) s w

theorem Quiet.after {p : Ppp α} (hkeeps : Keeps s s₁) (h : Quiet V p s₁ w) :
    Follows V p (fun _ s' w' ↦ Keeps s s' ∧ w'.frames = w.frames) s₁ w :=
  h.imp fun _ _ _ h ↦ ⟨hkeeps.trans h.1, h.2⟩

theorem follows_defined_bind {x : Option β} {k : β → Ppp α}
    {Q : α → Globals → Heard → Prop} (h : ∀ a, x = some a → Follows V (k a) Q s w) :
    Follows V (defined x >>= k) Q s w := by
  cases x with
  | some a => exact h a rfl
  | none =>
    refine .seq (M := fun _ _ _ ↦ False) (.perform_bind trivial fun _ ↦ ?_) fun _ _ _ h ↦ h.elim
    exact .forever (fun _ _ ↦ True) trivial fun _ _ _ ↦ .pure trivial

theorem follows_modify_bind {g : Globals → Globals} (hg : ∀ s, Keeps s (g s))
    (hkeeps : Keeps s s₁) {k : PUnit → Ppp α} {Q : α → Globals → Heard → Prop}
    (hk : ∀ s₂, Keeps s s₂ → Follows V (k ⟨⟩) Q s₂ w) :
    Follows V (modify g >>= k) Q s₁ w := .modify_bind (hk _ (hkeeps.trans (hg s₁)))

theorem follows_nextId_bind (hkeeps : Keeps s s₁) {k : UInt8 → Ppp α}
    {Q : α → Globals → Heard → Prop}
    (hk : ∀ id s₂, Keeps s s₂ → Follows V (k id) Q s₂ w) :
    Follows V (nextId >>= k) Q s₁ w :=
  .modifyGet_bind (hk _ _ (hkeeps.trans (.of_eq rfl rfl rfl rfl)))

theorem keeps_inSession (s : Globals) : Keeps s s.inSession := .of_eq rfl rfl rfl rfl

theorem follows_command (c : SockCommand) :
    Follows V (command c) (fun _ s' w' ↦ s' = s ∧ w' = w) s w := by
  refine .perform_bind trivial fun _ ↦
    .forever (fun s' w' ↦ s' = s ∧ w' = w) ⟨rfl, rfl⟩ fun s' w' h ↦ ?_
  exact .perform_bind trivial fun _ ↦ .ite (fun _ ↦ .pure h) fun _ ↦ .pure h

theorem follows_command_bind {c : SockCommand} {k : Unit → Ppp α}
    {Q : α → Globals → Heard → Prop} (h : Follows V (k ()) Q s w) :
    Follows V (command c >>= k) Q s w := by
  refine .seq (follows_command c) ?_
  rintro _ _ _ ⟨rfl, rfl⟩
  exact h

theorem quiet_pppSend : Quiet V pppSend s w := by
  refine .get_bind (follows_defined_bind fun _ _ ↦ .set_bind (.perform_bind trivial fun _ ↦ ?_))
  refine (follows_command .send).imp ?_
  rintro _ _ _ ⟨rfl, rfl⟩
  exact ⟨.of_eq rfl rfl rfl rfl, rfl⟩

theorem quiet_sendProtocol {protocol : UInt16} {pcode id : UInt8} {msg : List UInt8} :
    Quiet V (sendProtocol protocol pcode id msg) s w :=
  .get_bind (follows_defined_bind fun _ _ ↦ .set_bind
    (quiet_pppSend.after (.of_eq rfl rfl rfl rfl)))

theorem quiet_doDiscovery : Quiet V doDiscovery s w := by
  refine .perform_bind trivial fun mac ↦ .get_bind (follows_defined_bind fun _ _ ↦ .set_bind ?_)
  exact Quiet.after (s := s) (w := { w with mac }) (.of_eq rfl rfl rfl rfl) quiet_pppSend

theorem quiet_doLcp : Quiet V doLcp s w :=
  follows_modify_bind keeps_inSession (.refl s) fun _ h ↦ follows_nextId_bind h fun _ _ h ↦
    Quiet.after h quiet_sendProtocol

theorem quiet_doLcpEcho : Quiet V doLcpEcho s w :=
  follows_modify_bind keeps_inSession (.refl s) fun _ h ↦ follows_nextId_bind h fun _ _ h ↦
    Quiet.after h quiet_sendProtocol

theorem quiet_doPap {login : Login} : Quiet V (doPap login) s w :=
  follows_nextId_bind (.refl s) fun _ _ h ↦ Quiet.after h quiet_sendProtocol

theorem quiet_doIpcp : Quiet V doIpcp s w :=
  follows_nextId_bind (.refl s) fun _ _ h ↦ Quiet.after h quiet_sendProtocol

/-! ## The loops over tags and options -/

theorem quiet_scanLoop {turn : Globals → Option (Option Globals)}
    (hturn : ∀ s s', turn s = some (some s') → Keeps s s') : Quiet V (scanLoop turn) s w := by
  refine .forever (fun s' w' ↦ Keeps s s' ∧ w'.frames = w.frames) ⟨.refl s, rfl⟩
    fun s' w' h ↦ ?_
  refine .get_bind (follows_defined_bind fun next hnext ↦ ?_)
  cases next with
  | none => exact .pure h
  | some s₁ => exact .set_bind (.pure ⟨h.1.trans (hturn s' s₁ hnext), h.2⟩)

theorem keeps_padoTurn (h : padoTurn s = some (some s')) : Keeps s s' := by
  simp only [padoTurn, Option.bind_eq_bind, Option.pure_def] at h
  split at h
  · cases h
  obtain ⟨head, -, h⟩ := Option.bind_eq_some_iff.mp h
  split at h
  · cases h
  split at h
  · split at h
    · cases h
      exact .of_eq rfl rfl rfl rfl
    · obtain ⟨tag, -, h⟩ := Option.bind_eq_some_iff.mp h
      cases h
      exact ⟨rfl, rfl, rfl, fun _ hflag ↦ (Finset.mem_insert.mp hflag).symm⟩
  split at h
  · obtain ⟨tag, -, h⟩ := Option.bind_eq_some_iff.mp h
    cases h
    exact .of_eq rfl rfl rfl rfl
  · cases h
    exact .of_eq rfl rfl rfl rfl

/-- What an option is good for is all that it changes. -/
theorem keeps_optionTurn {option : UInt8 → ℕ → ℕ → Globals → Option (Bool × Globals)}
    (hoption : ∀ code len t s b s', option code len t s = some (b, s') → Keeps s s')
    (h : optionTurn option s = some (some s')) : Keeps s s' := by
  simp only [optionTurn, Option.bind_eq_bind, Option.pure_def] at h
  split at h
  · cases h
  obtain ⟨head, -, h⟩ := Option.bind_eq_some_iff.mp h
  split at h
  · cases h
  obtain ⟨opt, -, h⟩ := Option.bind_eq_some_iff.mp h
  obtain ⟨⟨known, s₁⟩, hknown, h⟩ := Option.bind_eq_some_iff.mp h
  cases h
  exact (hoption _ _ _ _ _ _ hknown).trans (.of_eq rfl rfl rfl rfl)

theorem keeps_lcpOption (code : UInt8) (len t : ℕ) (s : Globals) (b : Bool) (s' : Globals)
    (h : lcpOption code len t s = some (b, s')) : Keeps s s' := by
  simp only [lcpOption, Option.bind_eq_bind, Option.pure_def] at h
  split at h
  · obtain ⟨v, -, h⟩ := Option.bind_eq_some_iff.mp h
    cases h
    exact .of_eq rfl rfl rfl rfl
  · cases h
    exact .refl s

theorem keeps_ipcpOption (code : UInt8) (len t : ℕ) (s : Globals) (b : Bool) (s' : Globals)
    (h : ipcpOption code len t s = some (b, s')) : Keeps s s' := by
  simp only [ipcpOption, Option.bind_eq_bind, Option.pure_def] at h
  split at h
  · split at h
    · cases h
    · obtain ⟨v, -, h⟩ := Option.bind_eq_some_iff.mp h
      obtain ⟨ip, -, h⟩ := Option.bind_eq_some_iff.mp h
      cases h
      exact .of_eq rfl rfl rfl rfl
  · cases h
    exact .refl s

theorem follows_scanOptions_bind
    {option : UInt8 → ℕ → ℕ → Globals → Option (Bool × Globals)}
    (hoption : ∀ code len t s b s', option code len t s = some (b, s') → Keeps s s')
    (hkeeps : Keeps s s₁) {k : Scan → Ppp α} {Q : α → Globals → Heard → Prop}
    (hk : ∀ c s₂ w₂, Keeps s s₂ → w₂.frames = w.frames → Follows V (k c) Q s₂ w₂) :
    Follows V (scanOptions option >>= k) Q s₁ w := by
  refine .bind
    (.modify_bind (.seq ((quiet_scanLoop fun _ _ ↦ keeps_optionTurn hoption).after (s := s) ?_) ?_))
  · exact ⟨hkeeps.state, hkeeps.nasMac, hkeeps.nasSessionid, hkeeps.flags⟩
  · exact fun _ s₂ w₂ h ↦ .get_bind (.pure (hk _ s₂ w₂ h.1 h.2))

/-! ## A frame -/

/-- What is made of the frame, in a program that receives no other. -/
abbrev Handles (V : Env Globals E PppOp.Ans) (f : Frame) (s : Globals) (l : List Frame)
    (p : Ppp Unit) (s₁ : Globals) (w : Heard) : Prop :=
  Follows V p (fun _ s' w' ↦ Learns f s s' ∧ w'.frames = l) s₁ w

theorem handles_raise {flag : Flag} (h : Learns f s s₁) (hflag : flag.RaisedBy f)
    (hnak : flag = .ipcpCrSnt → .ipcpNakRcv ∈ s.controlFlag) (hl : w.frames = l) :
    Handles V f s l (raise flag) s₁ w :=
  .update ⟨h.raise hflag hnak, hl⟩

theorem not_isDiscovery_of_session {protocol : UInt16} {code code' : UInt8}
    (h : f.IsSession protocol code) : ¬f.IsDiscovery code' :=
  fun hf ↦ absurd (h.2.1.symm.trans hf.2.1) (by decide)

section

variable {protocol : UInt16} {pppCode pcode id : UInt8} {msg : List UInt8}

/-- An answer in the session, -/
theorem handles_sendProtocol (hf : f.IsSession protocol pppCode) (hkeeps : Keeps s s₁) {p : UInt16}
    (hl : w.frames = l) : Handles V f s l (sendProtocol p pcode id msg) s₁ w :=
  (quiet_sendProtocol.after hkeeps).imp fun _ _ _ h ↦
    ⟨h.1.learns (not_isDiscovery_of_session hf) (not_isDiscovery_of_session hf), h.2.trans hl⟩

/-- and with a flag. -/
theorem handles_sendProtocol_raise (flag : Flag) (hf : f.IsSession protocol pppCode)
    (hkeeps : Keeps s s₁) {p : UInt16} (hflag : flag.RaisedBy f) (hnak : flag ≠ .ipcpCrSnt)
    (hl : w.frames = l) :
    Handles V f s l (sendProtocol p pcode id msg >>= fun _ ↦ raise flag) s₁ w :=
  (handles_sendProtocol hf hkeeps hl).seq fun _ _ _ h ↦
    handles_raise h.1 hflag (fun heq ↦ absurd heq hnak) h.2

theorem handles_handleLcp (hf : f.IsSession pppoeLcp pppCode) (hkeeps : Keeps s s₁)
    (hl : w.frames = l) : Handles V f s l (handleLcp pppCode) s₁ w := by
  have hlearns {s₂ : Globals} (h : Keeps s s₂) : Learns f s s₂ :=
    h.learns (not_isDiscovery_of_session hf) (not_isDiscovery_of_session hf)
  refine follows_modify_bind (fun _ ↦ ?_) hkeeps fun s₂ h ↦ ?_
  · exact .of_eq rfl rfl rfl rfl
  refine .ite (fun hcode ↦ ?_) fun _ ↦ .ite (fun hcode ↦ ?_) fun _ ↦
    .ite (fun hcode ↦ ?_) fun _ ↦ .ite (fun _ ↦ ?_) fun _ ↦ .pure ⟨hlearns h, hl⟩
  · subst hcode
    refine .get_bind (follows_scanOptions_bind keeps_lcpOption h fun c s₃ w₃ h hw ↦
      .ite (fun _ ↦ ?_) fun _ ↦ ?_)
    · exact handles_sendProtocol hf h (hw.trans hl)
    · exact handles_sendProtocol_raise .lcpCrRcv hf h hf nofun (hw.trans hl)
  · subst hcode
    exact handles_raise (hlearns h) hf nofun hl
  · subst hcode
    exact handles_raise (hlearns h) hf nofun hl
  · refine follows_modify_bind keeps_inSession h fun _ h ↦ follows_nextId_bind h fun _ _ h ↦ ?_
    exact handles_sendProtocol hf h hl

theorem handles_handlePap (hf : f.IsSession pppoePap pppCode) (hkeeps : Keeps s s₁)
    (hl : w.frames = l) : Handles V f s l (handlePap pppCode) s₁ w := by
  have hlearns : Learns f s s₁ :=
    hkeeps.learns (not_isDiscovery_of_session hf) (not_isDiscovery_of_session hf)
  refine .when (fun hcode ↦ ?_) fun _ ↦ ⟨hlearns, hl⟩
  subst hcode
  exact handles_raise hlearns hf nofun hl

theorem handles_handleChap {login : Login} (hf : f.IsSession pppoeChap pppCode)
    (hkeeps : Keeps s s₁) (hl : w.frames = l) :
    Handles V f s l (handleChap login pppCode) s₁ w := by
  have hlearns : Learns f s s₁ :=
    hkeeps.learns (not_isDiscovery_of_session hf) (not_isDiscovery_of_session hf)
  refine .get_bind (.ite (fun _ ↦ .ite (fun _ ↦ ?_) fun _ ↦ .when (fun hcode ↦ ?_) fun _ ↦
    ⟨hlearns, hl⟩) fun _ ↦ .pure ⟨hlearns, hl⟩)
  · refine follows_defined_bind fun _ _ ↦ .set_bind ?_
    refine handles_sendProtocol hf (hkeeps.trans ?_) hl
    exact .of_eq rfl rfl rfl rfl
  · subst hcode
    exact handles_raise hlearns hf nofun hl

theorem handles_handleIpcp (hf : f.IsSession pppoeIpcp pppCode) (hkeeps : Keeps s s₁)
    (hl : w.frames = l) : Handles V f s l (handleIpcp pppCode) s₁ w := by
  have hlearns : Learns f s s₁ :=
    hkeeps.learns (not_isDiscovery_of_session hf) (not_isDiscovery_of_session hf)
  refine .ite (fun hcode ↦ ?_) fun _ ↦ ?_
  · refine .get_bind (follows_scanOptions_bind keeps_ipcpOption hkeeps fun c s₂ w₂ h hw ↦
      .ite (fun _ ↦ ?_) fun _ ↦ .ite (fun hreq ↦ ?_) fun hreq ↦ ?_)
    · exact handles_sendProtocol hf h (hw.trans hl)
    · subst hreq
      exact handles_sendProtocol_raise .ipcpCrRcv hf h hf nofun (hw.trans hl)
    · obtain rfl := hcode.resolve_left hreq
      exact handles_sendProtocol_raise .ipcpNakRcv hf h hf nofun (hw.trans hl)
  · refine .get_bind (.ite (fun h ↦ ?_) fun _ ↦ .pure ⟨hlearns, hl⟩)
    obtain ⟨rfl, hnak⟩ := h
    exact handles_raise hlearns hf (fun _ ↦ (hkeeps.flags _ hnak).resolve_right (by decide)) hl

end

theorem handles_handlePado (hf : f.IsPado) (hkeeps : Keeps s s₁) (hbuf : s₁.buf = f.bytes)
    (hl : w.frames = l) : Handles V f s l handlePado s₁ w := by
  have hstart : Keeps { s with nasMac := f.bytes.part 6 6 source_le }
      { s₁ with
        nasMac := s₁.buf.part 6 6 source_le
        scan := ⟨20, word (s₁.buf.1.drop 18), [], []⟩ } :=
    ⟨hkeeps.state, by rw [hbuf], hkeeps.nasSessionid, hkeeps.flags⟩
  refine .modify_bind (.seq (Quiet.after hstart (quiet_scanLoop fun _ _ ↦ keeps_padoTurn))
    fun _ s₂ w₂ h ↦ ?_)
  refine .get_bind (follows_defined_bind fun opt _ ↦ .set_bind ?_)
  refine .seq (Quiet.after (h.1.trans (.of_eq rfl rfl rfl rfl)) quiet_pppSend)
    fun _ s₃ w₃ h' ↦ ?_
  exact handles_raise (h'.1.learns_pado hf) hf nofun (h'.2.trans (h.2.trans hl))

/-- **A frame.** -/
theorem handles_handleFrame {login : Login} (hkeeps : Keeps s s₁) (hbuf : s₁.buf = f.bytes)
    (hl : w.frames = l) : Handles V f s l (handleFrame login f.mac) s₁ w := by
  have hnot (h : ¬f.IsPado) (h' : ¬f.IsPads) {p : Ppp Unit} (hp : p = pure ()) :
      Handles V f s l p s₁ w := by
    subst hp
    exact .pure ⟨hkeeps.learns h h', hl⟩
  refine .get_bind ?_
  rw [hbuf]
  refine .ite (fun htmp ↦ .ite (fun htype ↦ .ite (fun hcode ↦ ?_) fun hpado ↦
    .ite (fun hcode ↦ ?_) fun hpads ↦ ?_)
    fun htype ↦ .ite (fun htype' ↦ ?_) fun _ ↦ ?_) fun htmp ↦ ?_
  · exact handles_handlePado ⟨htmp, htype, hcode⟩ hkeeps hbuf hl
  · have hpads : f.IsPads := ⟨htmp, htype, hcode⟩
    have hsid : Keeps { s with nasSessionid := word (f.bytes.1.drop 16) }
        { s₁ with nasSessionid := word (s₁.buf.1.drop 16) } :=
      ⟨hkeeps.state, hkeeps.nasMac, by rw [hbuf], hkeeps.flags⟩
    exact .modify_bind (.update ⟨(hsid.learns_pads hpads).raise hpads nofun, hl⟩)
  · exact hnot (fun h ↦ hpado h.2.2) (fun h ↦ hpads h.2.2) rfl
  · refine .ite (fun hp ↦ ?_) fun _ ↦ .ite (fun hp ↦ ?_) fun _ ↦
      .ite (fun hp ↦ ?_) fun _ ↦ .when (fun hp ↦ ?_) fun _ ↦ ?_
    · exact handles_handleLcp ⟨htmp, htype', hp, rfl⟩ hkeeps hl
    · exact handles_handlePap ⟨htmp, htype', hp, rfl⟩ hkeeps hl
    · exact handles_handleChap ⟨htmp, htype', hp, rfl⟩ hkeeps hl
    · exact handles_handleIpcp ⟨htmp, htype', hp, rfl⟩ hkeeps hl
    · exact ⟨hkeeps.learns (fun h ↦ htype h.2.1) (fun h ↦ htype h.2.1), hl⟩
  · exact hnot (fun h ↦ htype h.2.1) (fun h ↦ htype h.2.1) rfl
  · exact hnot (fun h ↦ htmp h.1) (fun h ↦ htmp h.1) rfl

theorem follows_pppRecv (login : Login) :
    Follows V (pppRecv login) (fun _ s' w' ↦ ∃ f, w'.frames = f :: w.frames ∧ Learns f s s')
      s w := by
  refine follows_modify_bind (fun s ↦ ?_) (.refl s) fun s₁ h ↦ .perform_bind trivial fun mac ↦
    .perform_bind trivial fun head ↦
      follows_command_bind (follows_defined_bind fun _ _ ↦ .perform_bind trivial fun bytes ↦ ?_)
  · exact ⟨rfl, rfl, rfl, fun _ hflag ↦ .inl (Finset.mem_of_mem_erase hflag)⟩
  generalize ((head.1.toUInt16 <<< 8 ||| head.2.toUInt16) - 2).toNat = n
  refine .modify_bind (follows_command_bind ?_)
  refine Recorded.imp (handles_handleFrame (f := ⟨mac, s₁.buf.fill (bytes.take n)⟩)
    (s := s) ?_ rfl rfl) ?_
  · exact h.trans (by exact .of_eq rfl rfl rfl rfl)
  · exact fun _ _ _ h ↦ ⟨_, h.2, h.1⟩

/-! ## The phases -/

/-- What has happened by the time a phase is reached. -/
def Reached : PppoeState → List Frame → Prop
  | .discovery | .failed => fun _ ↦ True
  | .lcp => Discovered
  | .pap | .chap => Agreed
  | .ipcp => LoggedIn

/-- **The invariant.** The store knows of nothing that has not been heard. -/
structure Tracks (s : Globals) (l : List Frame) : Prop where
  nasMac : s.nasMac = concentratorOf l
  nasSessionid : s.nasSessionid = sessionOf l
  flags : ∀ flag ∈ s.controlFlag, flag = .padoServicename ∨ Once flag.RaisedBy l
  phase : Reached s.pppoeState l

theorem Reached.before {state : PppoeState} (f : Frame) (h : Reached state l) :
    Reached state (f :: l) := by
  cases state with
  | discovery | failed => trivial
  | lcp | pap | chap | ipcp => exact Past.before f h

theorem Learns.tracks (h : Learns f s s') (ht : Tracks s l) : Tracks s' (f :: l) where
  nasMac := by rw [h.nasMac, ht.nasMac, concentratorOf]
  nasSessionid := by rw [h.nasSessionid, ht.nasSessionid, sessionOf]
  flags flag hflag :=
    (h.flags flag hflag).elim (fun hold ↦ (ht.flags flag hold).imp_right (.before f)) fun hf ↦
      .inr (.now hf trivial)
  phase := by
    rw [h.state]
    exact ht.phase.before f

theorem Keeps.tracks (h : Keeps s s') (ht : Tracks s l) : Tracks s' l where
  nasMac := h.nasMac.trans ht.nasMac
  nasSessionid := h.nasSessionid.trans ht.nasSessionid
  flags flag hflag := (h.flags flag hflag).elim (ht.flags flag) .inl
  phase := h.state ▸ ht.phase

/-- Another phase, when it is reached. -/
theorem Tracks.go (h : Tracks s l) {s' : Globals} (hp : Reached s'.pppoeState l)
    (hmac : s'.nasMac = s.nasMac) (hsid : s'.nasSessionid = s.nasSessionid)
    (hflags : s'.controlFlag = s.controlFlag) : Tracks s' l :=
  ⟨hmac.trans h.nasMac, hsid.trans h.nasSessionid, fun flag hflag ↦ h.flags flag
    (hflags ▸ hflag), hp⟩

theorem Tracks.once {flag : Flag} (h : Tracks s l) (hflag : flag ∈ s.controlFlag)
    (hne : flag ≠ .padoServicename) : Once flag.RaisedBy l := (h.flags flag hflag).resolve_left hne

/-- A loop that receives. It is entered in the phase `state`, and as long as the flag is not there
that is the phase. A frame that raises it is heard after `P`; what is done then keeps the invariant,
and leaves a phase for which `R`. -/
theorem follows_receiveLoop {login : Login} {flag : Flag} {onFlag : Ppp Unit} {state : PppoeState}
    {P : List Frame → Prop} {R : PppoeState → Prop} (h : Tracks s w.frames)
    (hstate : s.pppoeState = state) (hP : P w.frames) (hPf : ∀ f l, P l → P (f :: l))
    (hR : R state) (hne : flag ≠ .padoServicename)
    (hon : ∀ s' w' f l, w'.frames = f :: l → Tracks s' (f :: l) → s'.pppoeState = state →
      flag ∈ s'.controlFlag →
      flag.RaisedBy f → P l →
      (flag = .ipcpCrSnt → Once (Frame.IsSession pppoeIpcp pppConfigNak) l) →
      Follows V onFlag (fun _ s'' w'' ↦ Tracks s'' w''.frames ∧ w''.frames = f :: l ∧
        flag ∈ s''.controlFlag ∧
        R s''.pppoeState) s' w') :
    Follows V (receiveLoop login flag onFlag) (fun _ s' w' ↦ Tracks s' w'.frames ∧ R s'.pppoeState)
      s w := by
  refine follows_modify_bind (fun s ↦ ?_) (.refl s) fun s₁ h₁ ↦
    .forever (fun s w ↦ Tracks s w.frames ∧ P w.frames ∧
    (flag ∉ s.controlFlag → s.pppoeState = state) ∧ R s.pppoeState) ?_ ?_
  · exact .of_eq rfl rfl rfl rfl
  · rw [h₁.state, hstate]
    exact ⟨h₁.tracks h, hP, fun _ ↦ rfl, hR⟩
  rintro s w ⟨ht, hP, hst, hr⟩
  refine .get_bind (.ite (fun hcond ↦ .perform_bind trivial fun _ ↦ ?_) fun _ ↦
    .pure ⟨ht, hr⟩)
  obtain rfl := (hst hcond.1).symm
  refine follows_modify_bind (fun s ↦ ?_) (.refl s) fun s₂ h₂ ↦
    .perform_bind trivial fun len ↦ .ite (fun _ ↦ ?_) fun _ ↦ ?_
  · exact .of_eq rfl rfl rfl rfl
  · refine .seq (follows_pppRecv login) fun _ s₃ w₃ ⟨f, hf, h₃⟩ ↦ .get_bind ?_
    have ht₃ : Tracks s₃ (f :: w.frames) := h₃.tracks (h₂.tracks ht)
    have hold : flag ∉ s₂.controlFlag := fun hmem ↦ (h₂.flags flag hmem).elim hcond.1 hne
    refine .ite (fun hflag ↦ ?_) fun hflag ↦ .pure ?_
    · refine .seq (hon s₃ w₃ f w.frames hf ht₃ (h₃.state.trans h₂.state) hflag
        ((h₃.flags flag hflag).resolve_left hold) hP ?_)
          fun _ s₄ w₄ ⟨ht₄, hw₄, hflag₄, hr₄⟩ ↦ .pure ?_
      · rintro rfl
        refine (ht.once ?_ (by decide) : Once (Flag.RaisedBy .ipcpNakRcv) w.frames)
        exact (h₂.flags _ ((h₃.nak hflag).resolve_left hold)).resolve_right (by decide)
      · rw [hw₄] at ht₄ ⊢
        exact ⟨ht₄, hPf f _ hP, fun hno ↦ absurd hflag₄ hno, hr₄⟩
    · rw [h₃.state, h₂.state, hf]
      exact ⟨ht₃, hPf f _ hP, fun _ ↦ rfl, hr⟩
  · refine .pure ?_
    rw [h₂.state]
    exact ⟨h₂.tracks ht, hP, fun _ ↦ rfl, hr⟩

/-- What is done in a phase, from where the invariant holds. -/
abbrev Advances (V : Env Globals E PppOp.Ans) (p : Ppp Unit) (s : Globals) (w : Heard) : Prop :=
  Follows V p (fun _ s' w' ↦ Tracks s' w'.frames) s w

variable {login : Login}

/-- A message that is sent as long as a flag is not there. -/
theorem follows_unless_bind {flag : Flag} {p : Ppp Unit} {k : Unit → Ppp α}
    {Q : α → Globals → Heard → Prop} (hp : ∀ s w, Quiet V p s w)
    (hk : ∀ s₁ w₁, Keeps s s₁ → w₁.frames = w.frames →
      Follows V (k ()) Q s₁ w₁) :
    Follows V (get >>= fun s ↦ if flag ∉ s.controlFlag then p >>= fun _ ↦ modify countRetry >>=
      k else k ()) Q s w := by
  refine .get_bind (.ite (fun _ ↦ .seq (hp s w) fun _ s₁ w₁ h ↦ ?_) fun _ ↦ hk s w
    (.refl s) rfl)
  refine follows_modify_bind (fun s ↦ ?_) h.1 fun s₂ h₂ ↦ hk s₂ w₁ h₂ h.2
  exact .of_eq rfl rfl rfl rfl

theorem advances_discoveryPhase (h : Tracks s w.frames) (hstate : s.pppoeState = .discovery) :
    Advances V (discoveryPhase login) s w := by
  refine follows_unless_bind (fun _ _ ↦ quiet_doDiscovery) fun s₁ w₁ h₁ hw ↦ ?_
  refine (follows_receiveLoop (P := fun _ ↦ True) (R := fun _ ↦ True) (hw ▸ h₁.tracks h)
    (h₁.state.trans hstate) trivial
    (fun _ _ ↦ id) trivial (by decide) ?_).imp fun _ _ _ ↦ And.left
  intro s' w' f l hw' ht _ hflag hf _ _
  have hpads : Discovered (f :: l) := Past.now (Q := fun _ ↦ True) hf trivial
  exact .update ⟨hw' ▸ ht.go hpads rfl rfl rfl, hw', hflag, trivial⟩

theorem advances_lcpPhase (h : Tracks s w.frames) (hstate : s.pppoeState = .lcp) :
    Advances V (lcpPhase login) s w := by
  refine follows_unless_bind (fun _ _ ↦ quiet_doLcpEcho) fun s₁ w₁ h₁ hw ↦ ?_
  refine .seq (follows_receiveLoop (P := fun _ ↦ True) (R := (· = .lcp)) (hw ▸ h₁.tracks h)
    (h₁.state.trans hstate)
    trivial (fun _ _ ↦ id) rfl (by decide) ?_) fun _ s₂ w₂ ⟨h₂, hstate₂⟩ ↦ ?_
  · intro s' w' f l hw' ht hs' hflag _ _ _
    exact .update ⟨hw' ▸ ht.go ht.phase rfl rfl rfl, hw', hflag, hs'⟩
  refine .get_bind (.ite (fun hflag ↦ ?_) fun _ ↦ .pure h₂)
  have hreq : Once (Frame.IsSession pppoeLcp pppConfigReq) w₂.frames := h₂.once hflag (by decide)
  have hpads : Discovered w₂.frames := by
    have := h₂.phase
    rwa [hstate₂] at this
  refine .seq quiet_doLcp fun _ s₃ w₃ h₃ ↦
    follows_modify_bind (fun s ↦ ?_) h₃.1 fun s₄ h₄ ↦ ?_
  · exact .of_eq rfl rfl rfl rfl
  rw [← h₃.2] at h₂ hreq hpads
  refine (follows_receiveLoop (P := fun l ↦ Discovered l ∧
    Once (Frame.IsSession pppoeLcp pppConfigReq) l)
    (R := fun _ ↦ True) (h₄.tracks h₂) (h₄.state.trans hstate₂) ⟨hpads, hreq⟩
    (fun f l h ↦ ⟨h.1.before f, h.2.before f⟩) trivial (by decide) ?_).imp fun _ _ _ ↦ And.left
  intro s' w' f l hw' ht _ hflag hf hP _
  have hagreed : Agreed (f :: l) := .now hf hP
  refine .update ?_
  split
  · exact ⟨hw' ▸ ht.go hagreed rfl rfl rfl, hw', hflag, trivial⟩
  · split
    · exact ⟨hw' ▸ ht.go hagreed rfl rfl rfl, hw', hflag, trivial⟩
    · exact ⟨hw' ▸ ht.go trivial rfl rfl rfl, hw', hflag, trivial⟩

theorem advances_papPhase (h : Tracks s w.frames) (hstate : s.pppoeState = .pap) :
    Advances V (papPhase login) s w := by
  refine follows_unless_bind (fun _ _ ↦ quiet_doPap) fun s₁ w₁ h₁ hw ↦ ?_
  have h₁' : Tracks s₁ w₁.frames := hw ▸ h₁.tracks h
  have hagreed : Agreed w₁.frames := by
    have := h₁'.phase
    rwa [h₁.state, hstate] at this
  refine (follows_receiveLoop (P := Agreed) (R := fun _ ↦ True) h₁' (h₁.state.trans hstate)
    hagreed (fun f _ ↦ Past.before f) trivial (by decide) ?_).imp fun _ _ _ ↦ And.left
  intro s' w' f l hw' ht _ hflag hf hP _
  have hin : LoggedIn (f :: l) := .now (.inl hf) hP
  exact .update ⟨hw' ▸ ht.go hin rfl rfl rfl, hw', hflag, trivial⟩

theorem advances_chapPhase (h : Tracks s w.frames) (hstate : s.pppoeState = .chap) :
    Advances V (chapPhase login) s w := by
  have hagreed : Agreed w.frames := by
    have := h.phase
    rwa [hstate] at this
  refine (follows_receiveLoop (P := Agreed) (R := fun _ ↦ True) h hstate hagreed
    (fun f _ ↦ Past.before f) trivial (by decide) ?_).imp fun _ _ _ ↦ And.left
  intro s' w' f l hw' ht _ hflag hf hP _
  have hin : LoggedIn (f :: l) := .now (.inr hf) hP
  exact .update ⟨hw' ▸ ht.go hin rfl rfl rfl, hw', hflag, trivial⟩

/-- The chip is told. -/
theorem follows_setPppinfo (h : Assigned w.frames) (ht : Tracks s w.frames) :
    Follows V (setPppinfo s.nasMac s.ip s.nasSessionid) (fun _ s' w' ↦ s' = s ∧ w' = w) s w :=
  .perform_bind h fun _ ↦ .perform_bind ⟨h, ht.nasMac⟩ fun _ ↦ .perform_bind h fun _ ↦
    .perform_bind ⟨h, ht.nasSessionid⟩ fun _ ↦ .perform h fun _ ↦ ⟨rfl, rfl⟩

theorem advances_ipcpPhase (h : Tracks s w.frames) (hstate : s.pppoeState = .ipcp) :
    Advances V (ipcpPhase login) s w := by
  refine .seq (follows_receiveLoop (P := fun _ ↦ True) (R := (· = .ipcp)) h hstate trivial
    (fun _ _ ↦ id) rfl (by decide) ?_) fun _ s₂ w₂ ⟨h₂, hstate₂⟩ ↦ ?_
  · intro s' w' f l hw' ht hs' hflag _ _ _
    exact .update ⟨hw' ▸ ht.go ht.phase rfl rfl rfl, hw', hflag, hs'⟩
  refine .get_bind (.ite (fun hflag ↦ ?_) fun _ ↦ .pure h₂)
  have hreq : Once (Frame.IsSession pppoeIpcp pppConfigReq) w₂.frames := h₂.once hflag (by decide)
  have hin : LoggedIn w₂.frames := by
    have := h₂.phase
    rwa [hstate₂] at this
  refine .seq quiet_doIpcp fun _ s₃ w₃ h₃ ↦
    follows_modify_bind (fun s ↦ ?_) h₃.1 fun s₄ h₄ ↦ ?_
  · exact .of_eq rfl rfl rfl rfl
  rw [← h₃.2] at h₂ hreq hin
  refine (follows_receiveLoop (P := fun l ↦ LoggedIn l ∧
    Once (Frame.IsSession pppoeIpcp pppConfigReq) l)
    (R := fun _ ↦ True) (h₄.tracks h₂) (h₄.state.trans hstate₂) ⟨hin, hreq⟩
    (fun f l h ↦ ⟨h.1.before f, h.2.before f⟩) trivial (by decide) ?_).imp fun _ _ _ ↦ And.left
  intro s' w' f l hw' ht hs' hflag hf hP hnak
  have hassigned : Assigned w'.frames := by
    rw [hw']
    exact .now hf ⟨hP.1, hP.2, hnak rfl⟩
  have ht' : Tracks (resetRetry s') w'.frames := hw' ▸ ht.go ht.phase rfl rfl rfl
  refine .modify_bind (.get_bind (.seq (follows_setPppinfo hassigned ht') ?_))
  rintro _ s₅ w₅ ⟨rfl, rfl⟩
  exact .update ⟨ht'.go ht'.phase rfl rfl rfl, hw', hflag, trivial⟩

theorem advances_failedPhase (h : Tracks s w.frames) : Advances V failedPhase s w :=
  .update ⟨h.nasMac, h.nasSessionid, fun _ hflag ↦ absurd hflag (Finset.notMem_empty _), trivial⟩

/-- A call of `ppp_start` keeps the invariant. -/
theorem follows_pppStart (login : Login) (h : Tracks s w.frames) :
    Follows V (pppStart login) (fun _ s' w' ↦ Tracks s' w'.frames) s w := by
  have hfailed {c : Prop} [Decidable c] {s : Globals} {l : List Frame} (h : Tracks s l) :
      Tracks (if c then { s with pppoeState := .failed } else s) l := by
    split
    · exact h.go trivial rfl rfl rfl
    · exact h
  have hret {s : Globals} {w : Heard} (h : Tracks s w.frames) :
      Follows V (get >>= fun s ↦ pure s.ret) (fun _ s' w' ↦ Tracks s' w'.frames) s w :=
        .get_bind (.pure h)
  refine .modify_bind (.perform_bind trivial fun sr ↦ ?_)
  have h₁ : Tracks { s with ret := 2 } w.frames := h.go h.phase rfl rfl rfl
  cases sr with
  | closed => exact .perform_bind trivial fun _ ↦ .perform_bind trivial fun _ ↦ hret h₁
  | other => exact hret h₁
  | macraw =>
    refine .modify_bind (.get_bind ?_)
    have h₂ := hfailed (c := pppMaxRetrysendCount < s.retrySendCount) h₁
    generalize (if pppMaxRetrysendCount < s.retrySendCount then _ else _) = s₂ at h₂
    cases hstate : s₂.pppoeState with
    | discovery =>
      exact .seq (advances_discoveryPhase h₂ hstate) fun _ _ _ h ↦ .modify_bind (hret (hfailed h))
    | lcp => exact .seq (advances_lcpPhase h₂ hstate) fun _ _ _ h ↦ .modify_bind (hret (hfailed h))
    | pap => exact .seq (advances_papPhase h₂ hstate) fun _ _ _ h ↦ .modify_bind (hret (hfailed h))
    | chap =>
      exact .seq (advances_chapPhase h₂ hstate) fun _ _ _ h ↦ .modify_bind (hret (hfailed h))
    | ipcp =>
      exact .seq (advances_ipcpPhase h₂ hstate) fun _ _ _ h ↦ .modify_bind (hret (hfailed h))
    | failed => exact .seq (advances_failedPhase h₂) fun _ _ _ h ↦ .modify_bind (hret (hfailed h))

theorem follows_pppoeTask (login : Login) (h : Tracks s w.frames) :
    Follows V (pppoeTask login) (fun _ s' w' ↦ Tracks s' w'.frames) s w := by
  refine .seq (M := fun _ s' w' ↦ Tracks s' w'.frames)
    (.forever (fun s' w' ↦ Tracks s' w'.frames) h ?_) ?_
  · intro s' w' h
    exact .perform_bind trivial fun _ ↦ .ite (fun _ ↦ .pure h) fun _ ↦
      .perform_bind trivial fun _ ↦ .pure h
  · refine fun _ s w h ↦ .forever (fun s' w' ↦ Tracks s' w'.frames) h fun s' w' h ↦ ?_
    refine .seq (follows_pppStart login h) fun ret s₁ w₁ h₁ ↦
      .get_bind (.ite (fun _ ↦ .pure h₁) fun _ ↦ ?_)
    exact .perform_bind trivial fun _ ↦ .pure h₁

end

theorem tracks_start : Tracks {} [] :=
  ⟨rfl, rfl, fun _ h ↦ absurd h (Finset.notMem_empty _), trivial⟩

/-! ## A session -/

/-- A frame for the chip, from the concentrator. -/
def fromConcentrator (etherType : UInt16) (code : UInt8) (payload : List UInt8) : List UInt8 :=
  [0x00, 0x08, 0xDC, 0x12, 0x34, 0x56] ++ [0x02, 0x00, 0x00, 0x00, 0x00, 0x01] ++ be16 etherType ++
    [0x11, code] ++ be16 0x1234 ++ be16 (.ofNat payload.length) ++ payload

/-- A message of the session. -/
def inTheSession (protocol : UInt16) (code id : UInt8) (msg : List UInt8) : List UInt8 :=
  fromConcentrator pppoeSession 0 (be16 protocol ++ [code, id] ++
    be16 (.ofNat (msg.length + 4)) ++ msg)

/-- What a concentrator sends that wants PAP, and gives out 10.0.0.5. -/
def concentrator : List (List UInt8) :=
  [fromConcentrator pppoeDiscovery pppoePado [0x01, 0x01, 0x00, 0x00],
    fromConcentrator pppoeDiscovery pppoePads [],
    inTheSession pppoeLcp pppConfigReq 1 [lcpAuth, 4, 0xC0, 0x23],
    inTheSession pppoeLcp pppConfigAck 1 [],
    inTheSession pppoePap pppConfigAck 2 [], inTheSession pppoeIpcp pppConfigReq 2 [0x03, 6, 10, 0,
      0, 1],
    inTheSession pppoeIpcp pppConfigNak 4 [0x03, 6, 10, 0, 0, 5],
    inTheSession pppoeIpcp pppConfigAck 4 [0x03, 6, 10, 0, 0, 5]]

/-- It is heard whenever the client listens. -/
def oneConcentrator (o : PppOp) (todo : List (List UInt8)) : o.Ans × List (List UInt8) :=
  match o with
  | .getSr => (.macraw, todo)
  | .getShar => (⟨[0x00, 0x08, 0xDC, 0x12, 0x34, 0x56], rfl⟩, todo)
  | .getRxRsr => (if todo = [] then 0 else 1, todo)
  | .recvHead => ((0, .ofNat ((todo.headD []).length + 2)), todo)
  | .recvData _ => (todo.headD [], todo.tail)
  | .getCr => (0, todo)
  | .isUp => (true, todo)
  | .undefined | .close | .socket | .sendData _ | .setCr _ | .sleepMs _ | .enablePppoe | .setShar
      _ | .setSipr _
  | .setPsid _ | .setPtimer _ => ((), todo)

def someLogin : Login := ⟨[0x57, 0x35], [0x57, 0x49], by decide, by decide⟩

/-- The client and this concentrator after so many steps. -/
def briefSession (n : ℕ) : Config Globals (List (List UInt8) × Heard) PppOp.Ans Unit :=
  runNoted oneConcentrator Heard.note n ⟨pppoeTask someLogin, {}, concentrator, {}⟩

theorem performs_briefSession {n : ℕ} {o : PppOp} (h : (briefSession n).prog.asks? = some o) :
    Performs ((Env.script oneConcentrator).noted Heard.note) (pppoeTask someLogin) {}
    (concentrator, {}) o
      (briefSession n).store (briefSession n).env :=
  performs_runNoted (V := Env.script oneConcentrator) (fun _ _ _ ↦ ⟨rfl, rfl⟩) h

/-- **No session without its handshake.** Whatever is on the wire, when the session is written to
the chip the client has looked at the frames that make it, in their order, and it is the session of
the last PADS, with the concentrator of the last PADO. The frames are those that lay in the buffer:
a short one is followed there by what earlier ones have left. -/
theorem pppoeTask_permitted {E : Type} {V : Env Globals E PppOp.Ans} {login : Login} {s' : Globals}
    {e : E} {e' : E × Heard} {o : PppOp}
    (h : Performs (V.noted Heard.note) (pppoeTask login) {} (e, {}) o s' e') :
    Permitted o s' e'.2 :=
  (follows_pppoeTask login tracks_start).performs h

theorem pppoeTask_permitted_briefSession :
    Permitted (.setPsid 0x1234) (briefSession 408).store (briefSession 408).env.2 :=
  pppoeTask_permitted (performs_briefSession (by decide +kernel))

end WsmDriver.Pppoe
