import WsmDriver.Mqtt.Framing

/-!
# The packets the client sends

A packet is built from a remaining length that is computed beforehand, and from fields that are
written after it one by one. That the two agree is seen from the other end: `read_packet` reads what
was built as one packet, and its body falls into the fields of the configuration again.

## Room

A sender asks whether the body fits together with the longest fixed header there is,
`MQTT_FIXED_HDR_MAX`, and not with the one this body needs. A packet that would just fit may be
refused.
-/

namespace WsmDriver.Mqtt

open Effect Program
open W6300 (be16 word word_be16)

/-! ## The remaining length -/

theorem low_bits_last : ∀ n < 128, UInt8.ofNat n &&& 0x80 = 0 ∧ (UInt8.ofNat n &&& 0x7F).toNat =
    n := by decide

theorem low_bits_more : ∀ n < 128,
    (UInt8.ofNat n ||| 0x80) &&& 0x80 ≠ 0 ∧ ((UInt8.ofNat n ||| 0x80) &&& 0x7F).toNat = n := by
  decide

/-- What `enc_remaining_len` writes is an encoding of the length. -/
theorem encRemainingLen_sized : ∀ {n len : ℕ}, len < 128 ^ (n + 1) →
    Sized (n + 1) (encRemainingLen len) len := by
  intro n
  induction n with
  | zero =>
    intro len hlen
    rw [encRemainingLen, if_pos (by omega)]
    have hlast := Sized.last (n := 0) (low_bits_last len (by omega)).1
    rwa [(low_bits_last len (by omega)).2] at hlast
  | succ n ih =>
    intro len hlen
    rw [encRemainingLen]
    split
    · rename_i hsmall
      have hlast := Sized.last (n := n + 1) (low_bits_last len hsmall).1
      rwa [(low_bits_last len hsmall).2] at hlast
    · -- The byte has its top bit set, and what is left is one power of 128 smaller.
      have hdiv : len / 128 < 128 ^ (n + 1) := by
        rw [Nat.div_lt_iff_lt_mul (by decide)]
        rwa [pow_succ] at hlen
      have hbits := low_bits_more (len % 128) (Nat.mod_lt _ (by decide))
      have hmore := (ih hdiv).more hbits.1
      rwa [hbits.2, Nat.mod_add_div] at hmore

theorem Sized.length_le {n len : ℕ} {size : List UInt8} (h : Sized n size len) :
    size.length ≤ n := by
  induction h with
  | last h => simp
  | more h hs ih => simpa using ih

/-- A body of no more than so many bytes, with a header. -/
def packetOf (first : UInt8) (body : List UInt8) (h : body.length < 128 ^ 4) : Packet :=
  ⟨first, encRemainingLen body.length, body, encRemainingLen_sized h⟩

/-! ## Fields -/

/-- The string at the start of some bytes, and what follows it. -/
def readStr : List UInt8 → Option (List UInt8 × List UInt8)
  | hi :: lo :: r =>
    let n := (word [hi, lo]).toNat
    if n ≤ r.length then some (r.take n, r.drop n) else none
  | _ => none

@[simp] theorem readStr_encStr {s r : List UInt8} (h : s.length < 65536) : readStr (encStr s ++ r) =
    some (s, r) := by
  have hword : (word (be16 (UInt16.ofNat s.length))).toNat = s.length := by
    rw [word_be16, UInt16.toNat_ofNat', Nat.mod_eq_of_lt h]
  simp only [encStr, be16, List.cons_append, List.nil_append, readStr] at hword ⊢
  rw [hword, if_pos (by simp), List.take_left, List.drop_left]

/-- A string that is there only if its flag is set. -/
def readStrIf (present : Bool) (r : List UInt8) : Option (Option (List UInt8) × List UInt8) :=
  if present then (readStr r).map fun x ↦ (some x.1, x.2) else some (none, r)

/-- The contents of a CONNECT. -/
structure Connect where
  protocolName : List UInt8
  protocolLevel : UInt8
  cleanSession : Bool
  /-- The will and its flags, and the reserved bit. -/
  others : UInt8
  keepAlive : UInt16
  clientId : List UInt8
  username : Option (List UInt8)
  password : Option (List UInt8)
  deriving DecidableEq

/-- The body of a CONNECT without a will, field by field. A string is there where its bit of the
flags says so. -/
def readConnect (body : List UInt8) : Option Connect := do
  let (protocolName, r) ← readStr body
  match r with
  | protocolLevel :: flags :: hi :: lo :: r => do
    let (clientId, r) ← readStr r
    let (username, r) ← readStrIf (flags &&& connectUsername ≠ 0) r
    let (password, r) ← readStrIf (flags &&& connectPassword ≠ 0) r
    if r = [] then
      some { protocolName, protocolLevel, cleanSession := flags &&& connectCleanSession ≠
             0, others := flags &&& 0x3d, keepAlive := word [hi, lo], clientId, username, password }
    else none
  | _ => none

/-- What a CONNECT has to say for a configuration. A password goes with a user name. -/
def MqttConfig.connect (cfg : MqttConfig) : Connect where
  protocolName := mqttName
  protocolLevel := mqttProtocolLevel
  cleanSession := true
  others := 0
  keepAlive := cfg.keepaliveS
  clientId := cfg.clientId
  username := if cfg.hasUser = true then cfg.username else none
  password := if cfg.hasPass = true then cfg.password else none

/-- The body of a SUBSCRIBE for one topic: packet identifier, topic filter and requested QoS. -/
def readSubscribe : List UInt8 → Option (UInt16 × List UInt8 × UInt8)
  | hi :: lo :: r => do
    let (topic, r) ← readStr r
    match r with
    | [qos] => some (word [hi, lo], topic, qos)
    | _ => none
  | _ => none

/-- The body of a PUBLISH with QoS 0: topic name and payload. -/
def readPublish (body : List UInt8) : Option (List UInt8 × List UInt8) := readStr body

/-! ## Bodies -/

def connectBody (cfg : MqttConfig) : List UInt8 :=
  encStr mqttName ++
      ([mqttProtocolLevel, connectCleanSession ||| (if cfg.hasUser = true then connectUsername else
      0) |||
      (if cfg.hasPass = true then connectPassword else 0)] ++
        (be16 cfg.keepaliveS ++ (encStr cfg.clientId ++
    ((if cfg.hasUser = true then encStr (cfg.username.getD []) else []) ++
      (if cfg.hasPass = true then encStr (cfg.password.getD []) else [])))))

def subscribeBody (cfg : MqttConfig) (pktId : UInt16) : List UInt8 :=
  be16 pktId ++ (encStr cfg.subTopic ++ [0])

def publishBody (cfg : MqttConfig) : List UInt8 := encStr cfg.pubTopic ++ cfg.pubPayload

/-- A packet as it is built, if there is room for its body and the longest header. -/
def build (cap : ℕ) (first : UInt8) (body : List UInt8) : Option (List UInt8) :=
  if cap < mqttFixedHdrMax + body.length then none else
    some (first :: (encRemainingLen body.length ++ body))

@[simp] theorem encStr_length (s : List UInt8) : (encStr s).length = strFieldLen s := by
  simp [encStr, be16, strFieldLen]
  omega

/-- The remaining length of a CONNECT is the length of what is written after it. -/
theorem connectPacket_eq (cap : ℕ) (cfg : MqttConfig) : connectPacket cap cfg =
    build cap 0x10 (connectBody cfg) := by
  have hlength : (connectBody cfg).length = 10 + strFieldLen cfg.clientId +
      (if cfg.hasUser = true then strFieldLen (cfg.username.getD []) else 0) +
      (if cfg.hasPass = true then strFieldLen (cfg.password.getD []) else 0) := by
    simp only [connectBody, List.length_append, encStr_length, apply_ite List.length,
      List.length_nil]
    simp only [strFieldLen, mqttName, be16, List.length_cons, List.length_nil]
    omega
  rw [build, hlength]
  rfl

theorem subscribePacket_eq (cap : ℕ) (cfg : MqttConfig) (pktId : UInt16) :
    subscribePacket cap cfg pktId = build cap 0x82 (subscribeBody cfg pktId) := by
  have hlength : (subscribeBody cfg pktId).length = 2 + strFieldLen cfg.subTopic + 1 := by
    simp only [subscribeBody, List.length_append, encStr_length, be16, List.length_cons,
      List.length_nil]
    omega
  rw [build, hlength]
  rfl

theorem publishPacket_eq (cap : ℕ) (cfg : MqttConfig) : publishPacket cap cfg =
    build cap 0x30 (publishBody cfg) := by
  have hlength : (publishBody cfg).length = strFieldLen cfg.pubTopic + cfg.pubPayload.length := by
    simp only [publishBody, List.length_append, encStr_length]
  rw [build, hlength]
  rfl

/-! ## Bodies fall into fields -/

/-- A string that is sent only if it is there is read only if it is there. -/
theorem readStrIf_encStr {present : Bool} {field : Option (List UInt8)} {r : List UInt8}
    (hpresent : present = true → field.getD [] ≠ [])
    (hlen : (if present = true then strFieldLen (field.getD []) else 0) < 65536) :
    readStrIf present ((if present = true then encStr (field.getD []) else []) ++ r) =
      some (if present = true then field else none, r) := by
  cases present with
  | false => rfl
  | true =>
    cases field with
    | none => exact absurd rfl (hpresent rfl)
    | some s =>
      have hs : s.length < 65536 := by
        simp only [if_true, Option.getD_some, strFieldLen] at hlen
        omega
      simp only [readStrIf, if_true, Option.getD_some, readStr_encStr hs, Option.map_some]

/-- The flags of a CONNECT. -/
def connectFlags (user pass : Bool) : UInt8 :=
  connectCleanSession ||| (if user = true then connectUsername else 0) |||
    (if pass = true then connectPassword else 0)

theorem connectFlags_bits : ∀ user pass : Bool,
    decide (connectFlags user pass &&& connectUsername ≠ 0) = user ∧
      decide (connectFlags user pass &&& connectPassword ≠ 0) = pass ∧
      decide (connectFlags user pass &&& connectCleanSession ≠ 0) = true ∧
      connectFlags user pass &&& 0x3d = 0 := by decide

/-- Room for a body is room for each of its strings. -/
theorem readConnect_connectBody {cfg : MqttConfig} (h : (connectBody cfg).length < 65536) :
    readConnect (connectBody cfg) = some cfg.connect := by
  simp only [connectBody, List.length_append, encStr_length, apply_ite List.length,
    List.length_nil] at h
  have hclient : cfg.clientId.length < 65536 := by
    simp only [strFieldLen] at h
    omega
  have huser : cfg.hasUser = true → cfg.username.getD [] ≠ [] := fun h ↦ of_decide_eq_true h
  have hpass : cfg.hasPass = true → cfg.password.getD [] ≠ [] :=
    fun h ↦ of_decide_eq_true ((Bool.and_eq_true _ _).mp h).2
  obtain ⟨hu, hp, hclean, hothers⟩ := connectFlags_bits cfg.hasUser cfg.hasPass
  have husername :=
    readStrIf_encStr (r := (if cfg.hasPass = true then encStr (cfg.password.getD []) else []) ++ [])
    huser (by omega)
  have hpassword := readStrIf_encStr (r := []) hpass (by omega)
  have hbody : connectBody cfg = encStr mqttName ++
      (mqttProtocolLevel :: connectFlags cfg.hasUser cfg.hasPass ::
      (cfg.keepaliveS >>> 8).toUInt8 :: cfg.keepaliveS.toUInt8 :: (encStr cfg.clientId ++
        ((if cfg.hasUser = true then encStr (cfg.username.getD []) else []) ++
          ((if cfg.hasPass = true then encStr (cfg.password.getD []) else []) ++ [])))) := by
    rw [List.append_nil]
    rfl
  have hkeep : word [(cfg.keepaliveS >>> 8).toUInt8, cfg.keepaliveS.toUInt8] = cfg.keepaliveS :=
    word_be16 _
  rw [hbody, readConnect, readStr_encStr (by decide)]
  simp only [Option.bind_eq_bind, Option.bind_some, readStr_encStr hclient, hu, hp, husername,
    hpassword, hclean, hothers, hkeep, if_true, MqttConfig.connect]

theorem readSubscribe_subscribeBody {cfg : MqttConfig} {pktId : UInt16}
    (h : (subscribeBody cfg pktId).length < 65536) :
    readSubscribe (subscribeBody cfg pktId) = some (pktId, cfg.subTopic, 0) := by
  have htopic : cfg.subTopic.length < 65536 := by
    simp only [subscribeBody, List.length_append, encStr_length, strFieldLen] at h
    omega
  have hbody : subscribeBody cfg pktId = (pktId >>> 8).toUInt8 :: pktId.toUInt8 ::
    (encStr cfg.subTopic ++ [0]) := rfl
  have hid : word [(pktId >>> 8).toUInt8, pktId.toUInt8] = pktId := word_be16 _
  rw [hbody, readSubscribe, readStr_encStr htopic]
  simp only [Option.bind_eq_bind, Option.bind_some, hid]

theorem readPublish_publishBody {cfg : MqttConfig} (h : (publishBody cfg).length < 65536) :
    readPublish (publishBody cfg) = some (cfg.pubTopic, cfg.pubPayload) := by
  refine readStr_encStr ?_
  simp only [publishBody, List.length_append, encStr_length, strFieldLen] at h
  omega

/-! ## What is sent, and how it is read -/

/-- Between the first byte of some bytes and what follows them. -/
def Midway (data r : List UInt8) (rest : List UInt8) : Prop :=
  r.length < rest.length ∧ rest.length < (data ++ r).length

/-- A client with a buffer of `cap` bytes in front of these bytes reads one packet, or waits. -/
def ReadsBack (cap : ℕ) (data : List UInt8) (type flags : UInt8) (body : List UInt8) : Prop :=
  ∀ (E : Type) (V : Env MqttCtx E MqttOp.Ans) (rest : E → List UInt8) (time : E → ℕ),
    Connection V rest time →
    ∀ (r : List UInt8) (c : MqttCtx) (e : E), c.Fits cap → rest e = data ++ r →
      Halts (timely V rest time (Midway data r) Watch.began).bundled received c (e, {}) ∧
        ∀ x c' e', Returns (timely V rest time (Midway data r) Watch.began) received c (e,
          {}) x c' e' →
          x.1 = .nothing ∧ rest e'.1 = data ++ r ∨
            x.1 = .packet type flags body.length ∧ x.2.take body.length = body ∧ rest e'.1 = r

/-- The program goes on as `send_all` with this data, before anything is sent. -/
def HandsOver (sender : Client Bool) (c : MqttCtx) (data : List UInt8) : Prop :=
  ∀ (E : Type) (V : Env MqttCtx E MqttOp.Ans) (e : E), Reaches V ⟨sender, c, e⟩
    ⟨sendAll data, c, e⟩

/-- The program sends a packet with this body, or nothing where it does not fit together with the
longest header. A reader of the body finds `fields`. -/
structure Sends {α : Type} (sender : Client Bool) (c : MqttCtx) (type flags : UInt8)
    (body : List UInt8) (read : List UInt8 → Option α) (fields : α) : Prop where
  refuses : c.cap < mqttFixedHdrMax + body.length → sender.exec? c = some (false, c)
  sends : mqttFixedHdrMax + body.length ≤ c.cap →
    (∃ data, data.length ≤ c.cap ∧ HandsOver sender c data ∧
      ReadsBack c.cap data type flags body) ∧
      read body = some fields

theorem within_midway (p : Packet) (r : List UInt8) :
    Within (Midway p.encode r) (p.size ++ p.body) r := by
  intro k hk
  simp only [Midway, Packet.encode, List.length_append, List.length_drop, List.length_cons] at hk ⊢
  omega

theorem readsBack {cap : ℕ} {p : Packet} (hcap : 0 < cap) (hbody : p.body.length ≤ cap) :
    ReadsBack cap p.encode (p.first >>> 4) (p.first &&& 0x0F) p.body := by
  intro E V rest time hV r c e hfits hrest
  have hread : wp (timely V rest time (Midway p.encode r) Watch.began) (Guarded cap) received
      (fun x _ e' ↦ x.1 = .nothing ∧ rest e'.1 = p.encode ++ r ∨
        x.1 = .packet (p.first >>> 4) (p.first &&& 0x0F) p.body.length ∧ x.2.take p.body.length =
          p.body ∧
          rest e'.1 = r) c (e, {}) := by
    refine (readPacket_takes hV hcap hfits rfl hrest (within_midway p r)).seq
      fun x c₁ e₁ htakes ↦ ?_
    refine pre_get_bind.mpr fun e₂ hd ↦ ?_
    obtain ⟨-, -, htakes | ⟨rfl, htake, hrest₂⟩⟩ := takes_drifts hV htakes hd
    · exact .inl htakes
    · exact .inr ⟨if_pos hbody, htake hbody, hrest₂⟩
  exact ⟨wp_halts_bundled hread, fun x c' e' hr ↦ hread.returns hr⟩

/-- A sender that looks at its context and sends what it builds. -/
theorem sends_build {α : Type} (built : MqttCtx → Option (List UInt8)) {c : MqttCtx}
    {first type flags : UInt8} {body : List UInt8} {read : List UInt8 → Option α} {fields : α}
    (hbuilt : built c = build c.cap first body)
    (hfirst : first >>> 4 = type ∧ first &&& 0x0F = flags) (hcap : c.cap ≤ 65535)
    (hread : body.length < 65536 → read body = some fields) :
    Sends (get >>= fun c ↦ sendBuilt (built c)) c type flags body read fields where
  refuses h := by
    rw [Program.exec?_get_bind, hbuilt, build, if_pos h]
    rfl
  sends h := by
    simp only [mqttFixedHdrMax] at h
    have hlen : body.length < 128 ^ 4 := by omega
    have hsize : (encRemainingLen body.length).length ≤ 4 := (encRemainingLen_sized hlen).length_le
    refine ⟨⟨(packetOf first body hlen).encode, ?_, fun E V e ↦ ?_, ?_⟩, hread (by omega)⟩
    · simp only [Packet.encode, packetOf, List.length_cons, List.length_append]
      omega
    · have hsend : sendBuilt (built c) = sendAll (packetOf first body hlen).encode := by
        rw [hbuilt, build, if_neg (by simp only [mqttFixedHdrMax]; omega)]
        rfl
      exact hsend ▸ .step (.read (fun c ↦ sendBuilt (built c)) c e)
    · have hle : body.length ≤ c.cap := by omega
      obtain ⟨rfl, rfl⟩ := hfirst
      exact readsBack (p := packetOf first body hlen) (by omega) hle

/-- `read_remaining_len` reads what `enc_remaining_len` writes. -/
def LengthReadsBack (len : ℕ) : Prop :=
  ∀ (E : Type) (V : Env MqttCtx E MqttOp.Ans) (rest : E → List UInt8) (time : E → ℕ),
    Connection V rest time →
    ∀ (r : List UInt8) (c : MqttCtx) (e : E), c.rxbuf.length = c.cap → rest e =
      encRemainingLen len ++ r →
      Halts (timely V rest time (r.length < ·.length) Watch.began).bundled readRemainingLen c
        (e, {}) ∧
        ∀ x c' e', Returns (timely V rest time (r.length < ·.length) Watch.began) readRemainingLen c
          (e, {}) x c' e' →
          x = some len ∧ rest e'.1 = r

theorem lengthReadsBack {len : ℕ} (h : len < 128 ^ 4) : LengthReadsBack len := by
  intro E V rest time hV r c e hbuf hrest
  have hin : Within (r.length < ·.length) (encRemainingLen len) r := by
    intro k hk
    simp only [List.length_append, List.length_drop]
    omega
  have hread : wp (timely V rest time (r.length < ·.length) Watch.began) (Guarded c.cap)
      readRemainingLen
      (fun x c' e' ↦ x = some (0 + len * 1) ∧ c.Same c' ∧ e'.2.polled = .no ∧ rest e'.1 = r) c
        (e, {}) :=
    readLengthBytes_all hV (encRemainingLen_sized h) ⟨hbuf, rfl⟩ rfl hrest hin
  refine ⟨wp_halts_bundled hread, fun x c' e' hr ↦ ?_⟩
  obtain ⟨rfl, -, -, hrest'⟩ := hread.returns hr
  exact ⟨congrArg some (by omega), hrest'⟩

/-- **What is sent is what is read.** Each of the senders sends nothing where its packet does not
fit together with the longest fixed header. Otherwise it hands `send_all` a packet that fits,
`read_packet` reads one packet of its type there and leaves what follows, and the body falls into
the fields of the configuration. -/
theorem senders_read_back {c : MqttCtx} (hcap : c.cap ≤ 65535) (pktId : UInt16) :
    Sends sendConnect c mqttPktConnect 0 (connectBody c.cfg) readConnect c.cfg.connect ∧
      Sends (sendSubscribe pktId) c mqttPktSubscribe 2 (subscribeBody c.cfg pktId) readSubscribe
        (pktId, c.cfg.subTopic, 0) ∧
      Sends sendPublish c mqttPktPublish 0 (publishBody c.cfg) readPublish
      (c.cfg.pubTopic, c.cfg.pubPayload) ∧
      ∀ len < 128 ^ 4, LengthReadsBack len :=
  ⟨sends_build (fun c ↦ connectPacket c.cap c.cfg) (connectPacket_eq _ _) (by decide) hcap
    readConnect_connectBody,
    sends_build (fun c ↦ subscribePacket c.cap c.cfg pktId) (subscribePacket_eq _ _ pktId)
      (by decide) hcap readSubscribe_subscribeBody,
    sends_build (fun c ↦ publishPacket c.cap c.cfg) (publishPacket_eq _ _) (by decide) hcap
      readPublish_publishBody,
    fun _ ↦ lengthReadsBack⟩

/-- A client that has only a client identifier. -/
def barely : MqttCtx :=
  { cfg := { clientId := [0x61], keepaliveS := 60 }, rxbuf := List.replicate 18 0, cap := 18 }

theorem senders_read_back_barely :
    Sends sendConnect barely mqttPktConnect 0
    (connectBody barely.cfg) readConnect barely.cfg.connect ∧
      Sends (sendSubscribe 1) barely mqttPktSubscribe 2 (subscribeBody barely.cfg 1) readSubscribe
      (1, [], 0) ∧
      Sends sendPublish barely mqttPktPublish 0 (publishBody barely.cfg) readPublish ([], []) ∧
      ∀ len < 128 ^ 4, LengthReadsBack len :=
  senders_read_back (by decide) 1

/-! ## Room for the longest header -/

/-- The program sends nothing where the packet does not fit, and a packet otherwise. -/
def SendsIfFits {α : Type} (sender : Client Bool) (c : MqttCtx) (type flags : UInt8)
    (body : List UInt8) (read : List UInt8 → Option α) (fields : α) : Prop :=
  sender.exec? c = some (false, c) ∧ c.cap < 1 + (encRemainingLen body.length).length +
    body.length ∨
    (∃ data, data.length ≤ c.cap ∧ HandsOver sender c data ∧
      ReadsBack c.cap data type flags body) ∧
      read body = some fields

/-- A program that returns without doing anything hands nothing over. -/
theorem not_handsOver {sender : Client Bool} {c c' : MqttCtx} {data : List UInt8} {b : Bool}
    (h : sender.exec? c = some (b, c')) : ¬HandsOver sender c data := by
  intro hover
  have hpre : wlp (Env.oracle : Env MqttCtx Unit MqttOp.Ans) (fun _ _ _ ↦ False) sender
      (fun _ _ _ ↦ True) c () :=
    pre_of_exec? h fun _ _ ↦ trivial
  -- Whatever `send_all` is given, it at least looks at the clock.
  obtain ⟨J, ⟨n, hJ⟩, hstep⟩ := pre_reaches (hover Unit Env.oracle ()) hpre
  have hturn := hstep n _ _ hJ
  unfold sendAllTurn at hturn
  rw [pre_get_bind] at hturn
  split at hturn
  · exact (hturn () (.refl _ _)).1
  · exact (hturn () (.refl _ _)).1

/-- A packet of four bytes is refused although there is room for five. -/
theorem not_sendPublish_sendsIfFits :
    ¬∀ c : MqttCtx, c.cap ≤ 65535 →
    SendsIfFits sendPublish c mqttPktPublish 0 (publishBody c.cfg) readPublish
      (c.cfg.pubTopic, c.cfg.pubPayload) := by
  intro h
  rcases h { rxbuf := List.replicate 5 0, cap := 5 } (by decide) with
    ⟨-, hroom⟩ | ⟨⟨data, -, hover, -⟩, -⟩
  · have hsize : encRemainingLen 2 = [2] := by
      rw [encRemainingLen]
      rfl
    change 5 < 1 + (encRemainingLen 2).length + 2 at hroom
    rw [hsize] at hroom
    exact absurd hroom (by decide)
  · exact not_handsOver (b := false) (show sendPublish.exec? _ = some (false, _) from rfl) hover

end WsmDriver.Mqtt
