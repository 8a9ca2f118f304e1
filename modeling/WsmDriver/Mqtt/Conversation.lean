import WsmDriver.Mqtt.Publish
import WsmDriver.Mqtt.Wire

/-!
# The conversation with the broker

A session of MQTT is a conversation with rules. The client opens it with CONNECT and says nothing
else before the broker has accepted it, then subscribes and waits for that to be granted, and only
then publishes and pings. Whatever the phase, a message that arrives is shown, and acknowledged if
it asks for that, before anything else is said or read.

The rules are stated here as an automaton over what is heard and done, `Talk.Step`. It knows packets
and no bytes. The client is shown to keep to them: at every moment of every run of `mqtt_task` the
bytes that have gone over the connection are those of a conversation the automaton accepts, whatever
the broker sends, wherever the stream is cut, and however the calls fail. The one way to leave the
rules is a `send` that fails in the middle of a packet.

## The invariant

`On` says that the connection is open, the configuration is the one the task was started with, and
the wire carries a conversation that has come to a given point. Every function of the session is
described by the points it moves between.
-/

namespace WsmDriver.Mqtt

open Effect Program
open W6300 (be16 word)

/-! ## The rules -/

/-- What one task is given. -/
structure Terms where
  cfg : MqttConfig
  broker : MqttBroker
  cap : ℕ

/-- What the client does in a conversation. -/
inductive Act
  | connect
  | subscribe (id : UInt16)
  | publish
  | pingreq
  | puback (id : UInt16)
  | log (topic payload : List UInt8)
  deriving DecidableEq

/-- What happens in a conversation. -/
inductive Msg
  | got (p : Packet)
  | did (a : Act)

def frame (first : UInt8) (body : List UInt8) : List UInt8 :=
  first :: (encRemainingLen body.length ++ body)

/-- The bytes sent for it. -/
def Act.bytes (cfg : MqttConfig) : Act → List UInt8
  | .connect => frame 0x10 (connectBody cfg)
  | .subscribe id => frame 0x82 (subscribeBody cfg id)
  | .publish => frame 0x30 (publishBody cfg)
  | .pingreq => [0xC0, 0]
  | .puback id => 0x40 :: 2 :: be16 id
  | .log _ _ => []

/-- The message shown by it. -/
def Act.shows : Act → List (List UInt8 × List UInt8)
  | .log topic payload => [(topic, payload)]
  | _ => []

/-- A message is shown, and one of QoS 1 is acknowledged. -/
def Publication.owes (m : Publication) : List Act :=
  .log m.topic m.payload :: match m.qos with
    | .atLeastOnce id => [.puback id]
    | _ => []

/-- What is owed for a packet. One that does not fit the buffer goes unseen, and a PUBLISH whose
body is too short for what it should have in it has no message. -/
inductive Owed (cap : ℕ) (p : Packet) : List Act → Prop
  | message {m : Publication} (hfits : p.body.length ≤ cap) (h : p.Publishes m) : Owed cap p m.owes
  | nothing (h : p.body.length ≤ cap → ∀ m, ¬p.Publishes m) : Owed cap p []

inductive Phase
  | fresh
  /-- CONNECT has been sent. -/
  | greeted
  /-- The broker has accepted, and there is something to subscribe to. -/
  | accepted
  /-- SUBSCRIBE has been sent. -/
  | subscribed
  | running
  | refused
  deriving DecidableEq

namespace Phase

/-- A CONNACK that accepts has return code 0, a SUBACK that grants has not the failure code. Packets
that do not fit the buffer go unseen. -/
def hears (T : Terms) (p : Packet) : Phase → Phase
  | .greeted =>
    if p.body.length ≤ T.cap ∧ p.type = mqttPktConnack then
      if 2 ≤ p.body.length ∧ p.body.getD 1 0 = 0 then
        (if T.broker.subscribes = true then .accepted else .running)
      else .refused
    else .greeted
  | .subscribed =>
    if p.body.length ≤ T.cap ∧ p.type = mqttPktSuback then
      if 3 ≤ p.body.length ∧ p.body.getD 2 0 ≠ subackFailure then .running else .refused
    else .subscribed
  | phase => phase

/-- What may be done when nothing is owed. -/
def may (T : Terms) : Phase → Act → Option Phase
  | .fresh, .connect => some .greeted
  | .accepted, .subscribe id => if id ≠ 0 then some .subscribed else none
  | .running, .publish => if T.broker.publishes = true then some .running else none
  | .running, .pingreq => if 0 < T.cfg.keepaliveMs then some .running else none
  | _, _ => none

/-- Is there anything to wait for? -/
def Listens (phase : Phase) : Prop := phase = .greeted ∨ phase = .subscribed ∨ phase = .running

instance (phase : Phase) : Decidable phase.Listens := inferInstanceAs (Decidable (_ ∨ _ ∨ _))

end Phase

/-- How far a conversation has come. -/
structure Talk where
  phase : Phase := .fresh
  owes : List Act := []
  deriving DecidableEq

/-- What is owed comes first, in order. -/
inductive Talk.Step (T : Terms) : Talk → Msg → Talk → Prop
  | pay {phase : Phase} {a : Act} {owes : List Act} :
      Talk.Step T ⟨phase, a :: owes⟩ (.did a) ⟨phase, owes⟩
  | act {phase phase' : Phase} {a : Act} (h : phase.may T a = some phase') :
      Talk.Step T ⟨phase, []⟩ (.did a) ⟨phase', []⟩
  | got {phase : Phase} {p : Packet} {owes : List Act} (h : phase.Listens)
      (howed : Owed T.cap p owes) :
    Talk.Step T ⟨phase, []⟩ (.got p) ⟨phase.hears T p, owes⟩

/-- The conversations that keep to the rules, and where they have come to. -/
inductive Conversation (T : Terms) : List Msg → Talk → Prop
  | start : Conversation T [] {}
  | step {ms : List Msg} {m : Msg} {talk talk' : Talk} (h : Conversation T ms talk)
      (hm : talk.Step T m talk') : Conversation T (ms ++ [m]) talk'

/-! ## Conversations on the wire -/

def Msg.heard : Msg → List UInt8
  | .got p => p.encode
  | .did _ => []

def Msg.said (cfg : MqttConfig) : Msg → List UInt8
  | .got _ => []
  | .did a => a.bytes cfg

def Msg.shown : Msg → List (List UInt8 × List UInt8)
  | .got _ => []
  | .did a => a.shows

/-- What has gone over the connection is a conversation that has come this far. -/
def Talked (T : Terms) (talk : Talk) (w : Wire) : Prop :=
  ∃ ms, Conversation T ms talk ∧ w.inn = ms.flatMap Msg.heard ∧ w.out =
    ms.flatMap (Msg.said T.cfg) ∧
    w.shown = ms.flatMap Msg.shown

def Wire.tell (topic payload : List UInt8) (w : Wire) : Wire :=
  { w with shown := w.shown ++ [(topic, payload)] }

/-- The wire after an operation of the task. A socket is a new wire. -/
def Wire.note (o : TaskOp) (t : MqttTask) (a : o.Ans) (w : Wire) : Wire :=
  match o, a with
  | .io o, a => w.noteIo o t.ctx a
  | .socket, fd => if fd < 0 then w else { fd := some fd }
  | .connect _ _ _, ok => { w with linked := ok }
  | .close _, _ => { w with fd := none, linked := false }
  | .log topic payload, _ => w.tell topic payload
  | _, _ => w

/-- **The rules, at an operation.** Nothing is read before all packets there are have been dealt
with, and what is sent is the rest of something that may be said. -/
def Polite (T : Terms) (o : TaskOp) (_ : MqttTask) (w : Wire) : Prop :=
  w.broken = false → match o with
    | .io (.recv _ _) => ∃ talk w₀ part, Talked T talk w₀ ∧ talk.owes = [] ∧
        talk.phase.Listens ∧ Partway part ∧
        w = w₀.hear part
    | .io (.send _ data) => ∃ talk a talk' w₀ done, Talked T talk w₀ ∧
        talk.Step T (.did a) talk' ∧
        a.bytes T.cfg = done ++ data ∧ w = w₀.say done
    | .log topic payload => ∃ talk talk', Talked T talk w ∧
        talk.Step T (.did (.log topic payload)) talk'
    | _ => True

/-- The socket calls, one connection after the other. -/
def Orderly (o : TaskOp) (_ : MqttTask) (w : Wire) : Prop :=
  match o with
  | .io (.recv fd _) => w.fd = some fd ∧ w.linked = true
  | .io (.send fd data) => w.fd = some fd ∧ w.linked = true ∧ data ≠ []
  | .setRcvtimeo fd _ | .setNodelay fd | .connect fd _ _ => w.fd = some fd ∧ w.linked = false
  | .close fd => w.fd = some fd
  | .socket | .isUp | .delayMs _ => w.fd = none
  | _ => True

def Lawful (T : Terms) (o : TaskOp) (t : MqttTask) (w : Wire) : Prop :=
  Polite T o t w ∧ Orderly o t w

/-- The answers a task may rely on. -/
def TaskOp.Fair : (o : TaskOp) → o.Ans → Prop
  | .io o, a => o.Fair a
  | .malloc size, a => ∀ mem, a = some mem → mem.length = size
  | _, _ => True

section

variable {T : Terms} {talk talk' : Talk} {w : Wire}

theorem Talked.got (h : Talked T talk w) {p : Packet} (hp : talk.Step T (.got p) talk') :
    Talked T talk' (w.hear p.encode) := by
  obtain ⟨ms, hms, hinn, hout, hshown⟩ := h
  exact ⟨_, hms.step hp, by simp [Wire.hear, hinn, Msg.heard], by simp [Wire.hear, hout, Msg.said],
    by simp [Wire.hear, hshown, Msg.shown]⟩

/-- Something that is sent is not shown. -/
theorem Talked.sent (h : Talked T talk w) {a : Act} (ha : talk.Step T (.did a) talk')
    (hshows : a.shows = []) : Talked T talk' (w.say (a.bytes T.cfg)) := by
  obtain ⟨ms, hms, hinn, hout, hshown⟩ := h
  exact ⟨_, hms.step ha, by simp [Wire.say, hinn, Msg.heard], by simp [Wire.say, hout, Msg.said],
    by simp [Wire.say, hshown, Msg.shown, hshows]⟩

theorem Talked.logged (h : Talked T talk w) {topic payload : List UInt8}
    (hlog : talk.Step T (.did (.log topic payload)) talk') :
    Talked T talk' (w.tell topic payload) := by
  obtain ⟨ms, hms, hinn, hout, hshown⟩ := h
  exact ⟨_, hms.step hlog, by simp [Wire.tell, hinn, Msg.heard],
    by simp [Wire.tell, hout, Msg.said, Act.bytes],
    by simp [Wire.tell, hshown, Msg.shown, Act.shows]⟩

end

/-! ## What is owed for a packet -/

/-- What the client does for a packet. -/
def answers (cap : ℕ) (p : Packet) : List Act :=
  if p.body.length ≤ cap ∧ p.type = mqttPktPublish then
    match messageIn p.flags p.body p.body.length with
    | none => []
    | some m => .log m.topic m.payload :: if qosOf p.flags = 1 then [.puback m.pktId] else []
  else []

theorem answers_of_publishes {cap : ℕ} {p : Packet} {m : Publication} (hfits : p.body.length ≤ cap)
    (h : p.Publishes m) : answers cap p = m.owes := by
  rw [answers, if_pos ⟨hfits, h.type⟩, messageIn_of_publishes h, h.qos, Publication.owes]
  cases m.qos with
  | atMostOnce => rfl
  | atLeastOnce id => rfl
  | exactlyOnce id => rfl
  | reserved id => rfl

theorem answers_of_not_publishes {cap : ℕ} {p : Packet}
    (h : p.body.length ≤ cap → ∀ m, ¬p.Publishes m) : answers cap p = [] := by
  unfold answers
  split
  next hp =>
    cases hm : messageIn p.flags p.body p.body.length with
    | none => rfl
    | some x =>
      obtain ⟨m, hpublishes, -⟩ := publishes_of_messageIn hp.2 hm
      exact absurd hpublishes (h hp.1 m)
  next => rfl

/-- It does what is owed. -/
theorem owed_answers (cap : ℕ) (p : Packet) : Owed cap p (answers cap p) := by
  by_cases h : p.body.length ≤ cap ∧ ∃ m, p.Publishes m
  · obtain ⟨hfits, m, hm⟩ := h
    exact answers_of_publishes hfits hm ▸ .message hfits hm
  · have hnone : p.body.length ≤ cap → ∀ m, ¬p.Publishes m := fun hfits m hm ↦
      h ⟨hfits, m, hm⟩
    exact answers_of_not_publishes hnone ▸ .nothing hnone

theorem word_take {p : List UInt8} {n : ℕ} (h : 2 ≤ n) : word (p.take n) = word p := by
  rw [word, word, List.getD_eq_getElem?_getD, List.getD_eq_getElem?_getD, List.getElem?_take_of_lt
    (by omega), List.getElem?_take_of_lt (by omega)]
  rfl

/-- `handle_publish` looks at the body only. -/
theorem messageIn_take (flags : UInt8) (p : List UInt8) (len : ℕ) :
    messageIn flags (p.take len) len = messageIn flags p len := by
  unfold messageIn
  split
  · rfl
  rename_i hlen
  rw [word_take (by omega)]
  dsimp only
  split
  · rfl
  have htopic : ((p.take len).drop 2).take (word p).toNat = (p.drop 2).take (word p).toNat := by
    rw [List.drop_take, List.take_take, min_eq_left (by omega)]
  have hrest : ∀ k, ((p.take len).drop k).take (len - k) = (p.drop k).take (len - k) := by
    intro k
    rw [List.drop_take, List.take_take, min_self]
  rw [htopic, hrest, hrest]
  split
  · split
    · rfl
    · rw [List.drop_take, word_take (by omega)]
  · rfl

theorem hears_of_big {T : Terms} {p : Packet} (phase : Phase) (h : T.cap < p.body.length) :
    phase.hears T p = phase := by
  cases phase with
  | greeted => exact if_neg fun hp ↦ absurd h (not_lt.mpr hp.1)
  | subscribed => exact if_neg fun hp ↦ absurd h (not_lt.mpr hp.1)
  | fresh => rfl
  | accepted => rfl
  | running => rfl
  | refused => rfl

theorem answers_of_big {cap : ℕ} {p : Packet} (h : cap < p.body.length) : answers cap p = [] :=
  if_neg fun hp ↦ absurd h (not_lt.mpr hp.1)

theorem answers_of_ne {cap : ℕ} {p : Packet} (h : p.type ≠ mqttPktPublish) : answers cap p = [] :=
  if_neg fun hp ↦ h hp.2

/-! ## The invariant -/

/-- The connection is open, and the task is the one it was. -/
structure Bound (T : Terms) (fd : ℤ) (t : MqttTask) (w : Wire) : Prop where
  sock : t.ctx.fd = fd
  cfg : t.ctx.cfg = T.cfg
  cap : t.ctx.cap = T.cap
  broker : t.broker = T.broker
  id : t.nextPktId ≠ 0
  wire : w.fd = some fd
  linked : w.linked = true

/-- And the conversation has come this far. -/
def On (T : Terms) (talk : Talk) (fd : ℤ) (t : MqttTask) (w : Wire) : Prop :=
  Bound T fd t w ∧ (w.broken = false → Talked T talk w)

theorem Bound.steady {T : Terms} {fd : ℤ} {t : MqttTask} {c : MqttCtx} {w w' : Wire}
    (h : Bound T fd t w) (hc : t.ctx.Steady c) (hfd : w'.fd = w.fd)
    (hlinked : w'.linked = w.linked) :
    Bound T fd { t with ctx := c } w' :=
  ⟨hc.fd.trans h.sock, hc.cfg.trans h.cfg, hc.cap.trans h.cap, h.broker, h.id, hfd.trans h.wire,
    hlinked.trans h.linked⟩

section

variable {E : Type} {V : Env MqttTask E TaskOp.Ans} {T : Terms} {fd : ℤ} {t : MqttTask} {w : Wire}
    {α : Type}

/-- A function of the client, described as such. -/
theorem recorded_client {p : Client α} {G : MqttOp → MqttCtx → Wire → Prop}
    {P : α → MqttCtx → Wire → Prop} {Q : α → MqttTask → Wire → Prop}
    (h : Recorded (V.behind clientWindow t) Wire.noteIo G p P t.ctx w)
    (hG : ∀ o c w', G o c w' → Lawful T (.io o) { t with ctx := c } w')
    (hQ : ∀ a c w', P a c w' → Q a { t with ctx := c } w') :
    Recorded V Wire.note (Lawful T) (client p) Q t w :=
  .through (fun _ _ _ _ ↦ rfl) ((h.guard hG).imp hQ)

/-- Between two sessions. -/
structure Idle (T : Terms) (t : MqttTask) (w : Wire) : Prop where
  cfg : t.ctx.cfg = T.cfg
  cap : t.ctx.cap = T.cap
  broker : t.broker = T.broker
  id : t.nextPktId ≠ 0
  wire : w.fd = none

/-- A connection starts with nothing said. -/
theorem lawful_tcpConnect (h : Idle T t w) :
    Recorded V Wire.note (Lawful T) tcpConnect
      (fun b t' w' ↦ (b = true → ∃ fd, On T {} fd t' w') ∧ (b = false → Idle T t' w'))
        t w := by
  refine .perform_bind ⟨fun _ ↦ trivial, h.wire⟩ fun fd ↦
    .modify_bind (.ite (fun hfail ↦ ?_) fun hfd ↦ ?_)
  · have hwire : Wire.note .socket t fd w = w := if_pos hfail
    rw [hwire]
    exact .pure ⟨by simp, fun _ ↦ { h with }⟩
  have hwire : Wire.note .socket t fd w = { fd := some fd } := if_neg hfd
  rw [hwire]
  refine .perform_bind ⟨fun _ ↦ trivial, rfl, rfl⟩ fun _ ↦
    .perform_bind ⟨fun _ ↦ trivial, rfl, rfl⟩ fun _ ↦ ?_
  refine .get_bind (.perform_bind ⟨fun _ ↦ trivial, rfl, rfl⟩ fun ok ↦ .ite (fun hok ↦ ?_)
    fun _ ↦ ?_)
  · obtain rfl : ok = true := hok
    exact .pure ⟨fun _ ↦ ⟨fd, ⟨rfl, h.cfg, h.cap, h.broker, h.id, rfl, rfl⟩,
      fun _ ↦ ⟨[], .start, rfl, rfl, rfl⟩⟩, by simp⟩
  · refine .perform_bind ⟨fun _ ↦ trivial, rfl⟩ fun _ ↦
      .modify_bind (.pure ⟨by simp, fun _ ↦ ?_⟩)
    exact ⟨h.cfg, h.cap, h.broker, h.id, rfl⟩

variable (hV : ∀ o s e a e', V.answer o s e a e' → o.Fair a)

include hV

theorem fair_behind (t : MqttTask) : ∀ o s e a e', (V.behind clientWindow t).answer o s e a e' →
    MqttOp.Fair o a := by
  rintro o s e _ e' ⟨a, rfl, ha⟩
  exact hV _ _ _ _ _ ha

/-- Where a packet that has been read takes the conversation. -/
def Heard (T : Terms) (phase : Phase) (fd : ℤ) (x : PacketRead) (t : MqttTask) (w : Wire) : Prop :=
  match x with
  | .packet type flags len => ∃ p : Packet, p.body.length ≤ T.cap ∧ type = p.type ∧ flags =
      p.flags ∧
      len = p.body.length ∧ t.ctx.rxbuf.take len = p.body ∧
        On T ⟨phase.hears T p, answers T.cap p⟩ fd t w
  | .nothing => On T ⟨phase, []⟩ fd t w
  | .over => Bound T fd t w

theorem lawful_readPacket {phase : Phase} (hphase : phase.Listens) (h : On T ⟨phase, []⟩ fd t w) :
    Recorded V Wire.note (Lawful T) (client readPacket) (Heard T phase fd) t w := by
  have hgot (p : Packet) :
      Talk.Step T ⟨phase, []⟩ (.got p) ⟨phase.hears T p, answers T.cap p⟩ :=
    .got hphase (owed_answers T.cap p)
  refine recorded_client (recorded_readPacket (fair_behind hV t)) ?_ ?_
  · intro o c w' hlistening
    cases o with
    | recv fd' len =>
      obtain ⟨rfl, part, hpart, rfl⟩ := hlistening
      exact ⟨fun hwhole ↦ ⟨_, w, part, h.2 hwhole, rfl, hphase, hpart, rfl⟩,
        h.1.sock ▸ h.1.wire, h.1.linked⟩
    | send => exact hlistening.elim
    | nowMs => exact ⟨fun _ ↦ trivial, trivial⟩
    | delay => exact ⟨fun _ ↦ trivial, trivial⟩
  · rintro x c w' ⟨hsteady, hx⟩
    cases x with
    | packet type flags len =>
      obtain ⟨p, rfl, hcap, rfl, rfl, rfl, hbuf⟩ := hx
      exact ⟨p, h.1.cap ▸ hcap, rfl, rfl, rfl, hbuf, h.1.steady hsteady rfl rfl,
        fun hwhole ↦ (h.2 hwhole).got (hgot p)⟩
    | nothing =>
      rcases hx with rfl | ⟨p, hbig, rfl⟩
      · exact ⟨h.1.steady hsteady rfl rfl, h.2⟩
      · -- A packet that does not fit is heard, and changes nothing.
        have hgot := hgot p
        rw [h.1.cap] at hbig
        rw [hears_of_big phase hbig, answers_of_big hbig] at hgot
        exact ⟨h.1.steady hsteady rfl rfl, fun hwhole ↦ (h.2 hwhole).got hgot⟩
    | «over» =>
      obtain ⟨bytes, rfl⟩ := hx
      exact h.1.steady hsteady rfl rfl

/-- Saying what may be said. -/
theorem lawful_sendAll {talk talk' : Talk} {a : Act} (ha : talk.Step T (.did a) talk')
    (hshows : a.shows = []) (h : On T talk fd t w) :
    Recorded V Wire.note (Lawful T) (client (sendAll (a.bytes T.cfg)))
    (fun _ t' w' ↦ On T talk' fd t' w') t w := by
  refine recorded_client (recorded_sendAll (fair_behind hV t)) ?_ ?_
  · intro o c w' hsaying
    cases o with
    | recv => exact hsaying.elim
    | send fd' rest =>
      obtain ⟨rfl, hrest, done, hdata, rfl⟩ := hsaying
      exact ⟨fun hwhole ↦ ⟨talk, a, talk', w, done, h.2 hwhole, ha, hdata, rfl⟩,
        h.1.sock ▸ h.1.wire, h.1.linked, hrest⟩
    | nowMs => exact ⟨fun _ ↦ trivial, trivial⟩
    | delay => exact ⟨fun _ ↦ trivial, trivial⟩
  · rintro b c w' ⟨hstill, ⟨rfl, rfl⟩ | ⟨rfl, done, -, rfl⟩⟩
    · exact ⟨h.1.steady hstill.toSteady rfl rfl, fun hwhole ↦ (h.2 hwhole).sent ha hshows⟩
    · exact ⟨h.1.steady hstill.toSteady rfl rfl, fun hwhole ↦ absurd hwhole
        (by simp [Wire.snap])⟩

/-- Saying something that may not fit the buffer. -/
theorem lawful_sender {talk talk' : Talk} {a : Act} {first : UInt8} {f : MqttConfig → List UInt8}
    (hbytes : a.bytes T.cfg = frame first (f T.cfg)) (ha : talk.Step T (.did a) talk')
    (hshows : a.shows = []) (h : On T talk fd t w) :
    Recorded V Wire.note (Lawful T) (client do
        let c ← get
        sendBuilt (build c.cap first (f c.cfg)))
      (fun b t' w' ↦ Bound T fd t' w' ∧ (b = true → On T talk' fd t' w')) t w := by
  by_cases hroom : t.ctx.cap < mqttFixedHdrMax + (f t.ctx.cfg).length
  · refine .through (fun _ _ _ _ ↦ rfl) (.get_bind ?_)
    change Recorded _ _ _ (sendBuilt (build t.ctx.cap first (f t.ctx.cfg))) _ _ _
    rw [build, if_pos hroom]
    exact .pure ⟨h.1, fun hb ↦ absurd hb (by simp)⟩
  · have hsend := lawful_sendAll hV ha hshows h
    have hdata : build t.ctx.cap first (f t.ctx.cfg) = some (a.bytes T.cfg) := by
      rw [build, if_neg hroom, hbytes, h.1.cfg]
      rfl
    have hclient : Recorded V Wire.note (Lawful T)
        (client (sendBuilt (build t.ctx.cap first (f t.ctx.cfg))))
        (fun b t' w' ↦ Bound T fd t' w' ∧ (b = true → On T talk' fd t' w')) t w := by
      rw [hdata]
      exact hsend.imp fun b t' w' hon ↦ ⟨hon.1, fun _ ↦ hon⟩
    exact hclient

theorem lawful_handlePublish {phase : Phase} {p : Packet} (hcap : p.body.length ≤ T.cap)
    (htype : p.type = mqttPktPublish) (hbuf : t.ctx.rxbuf.take p.body.length = p.body)
    (h : On T ⟨phase, answers T.cap p⟩ fd t w) :
    Recorded V Wire.note (Lawful T) (handlePublish p.flags p.body.length)
    (fun _ t' w' ↦ On T ⟨phase, []⟩ fd t' w') t w := by
  have hin : messageIn p.flags t.ctx.rxbuf p.body.length =
      messageIn p.flags p.body p.body.length := by
    rw [← messageIn_take, hbuf]
  rw [answers, if_pos ⟨hcap, htype⟩] at h
  refine .get_bind ?_
  rw [hin]
  cases hm : messageIn p.flags p.body p.body.length with
  | none =>
    rw [hm] at h
    exact .pure h
  | some m =>
    rw [hm] at h
    obtain ⟨hbound, htalked⟩ := h
    have hlog : Talk.Step T ⟨phase, .log m.topic m.payload :: if qosOf p.flags = 1 then
        [.puback m.pktId] else []⟩
        (.did (.log m.topic m.payload)) ⟨phase, if qosOf p.flags = 1 then [.puback m.pktId] else
          []⟩ := .pay
    refine .perform_bind ⟨fun hwhole ↦ ⟨_, _, htalked hwhole, hlog⟩, trivial⟩ fun _ ↦ ?_
    have hon : On T ⟨phase, if qosOf p.flags = 1 then [.puback m.pktId] else []⟩ fd t
        (w.tell m.topic m.payload) :=
      ⟨hbound.steady (.refl _) rfl rfl, fun hwhole ↦ (htalked hwhole).logged hlog⟩
    by_cases hqos : qosOf p.flags = 1
    · rw [if_pos hqos] at hon ⊢
      have hack : Talk.Step T ⟨phase, [.puback m.pktId]⟩ (.did (.puback m.pktId))
        ⟨phase, []⟩ := .pay
      exact .bind ((lawful_sendAll hV hack rfl hon).imp fun _ _ _ hon ↦ .pure hon)
    · rw [if_neg hqos] at hon ⊢
      exact .pure hon

/-- A packet that was not waited for. -/
theorem lawful_other {phase : Phase} {p : Packet} {k : Session α}
    {Q : α → MqttTask → Wire → Prop} (hcap : p.body.length ≤ T.cap)
    (hbuf : t.ctx.rxbuf.take p.body.length = p.body) (h : On T ⟨phase, answers T.cap p⟩ fd t w)
    (hk : ∀ t w, On T ⟨phase, []⟩ fd t w → Recorded V Wire.note (Lawful T) k Q t w) :
    Recorded V Wire.note (Lawful T) (if p.type = mqttPktPublish then do
      handlePublish p.flags p.body.length
      k else k) Q t w := by
  refine .ite (fun htype ↦ ?_) fun htype ↦ ?_
  · exact (lawful_handlePublish hV hcap htype hbuf h).seq fun _ t w hon ↦ hk t w hon
  · rw [answers_of_ne htype] at h
    exact hk t w h

/-- Where `wait_packet` leaves the conversation. -/
def Awaited (T : Terms) (phase : Phase) (want : UInt8) (fd : ℤ) (r : Option ℕ) (t : MqttTask)
    (w : Wire) : Prop :=
  match r with
  | none => Bound T fd t w
  | some len => ∃ p : Packet, p.body.length ≤ T.cap ∧ p.type = want ∧ len = p.body.length ∧
      t.ctx.rxbuf.take len = p.body ∧ On T ⟨phase.hears T p, []⟩ fd t w

theorem lawful_waitPacket {phase : Phase} {want : UInt8} {timeoutMs : UInt32}
    (hphase : phase.Listens) (hwant : want ≠ mqttPktPublish)
    (hothers : ∀ p : Packet, p.type ≠ want → phase.hears T p =
      phase)
    (h : On T ⟨phase, []⟩ fd t w) :
    Recorded V Wire.note (Lawful T) (waitPacket want timeoutMs) (Awaited T phase want fd) t w := by
  refine .perform_bind ⟨fun _ ↦ trivial, trivial⟩ fun start ↦
    .forever (On T ⟨phase, []⟩ fd) h fun t w hon ↦ ?_
  have htimeout : ∀ {Q : Option (Option ℕ) → MqttTask → Wire → Prop},
      (∀ t w, On T ⟨phase, []⟩ fd t w → Q none t w) →
      (∀ t w, Bound T fd t w → Q (some none) t w) → ∀ t w, On T ⟨phase, []⟩ fd t w →
        Recorded V Wire.note (Lawful T) (waitPacketTurn.waitPacketTimeout timeoutMs start)
          Q t w := by
    intro Q hgo hover t w hon
    refine .perform_bind ⟨fun _ ↦ trivial, trivial⟩ fun now ↦ .pure ?_
    split
    · exact hover t w hon.1
    · exact hgo t w hon
  refine .seq (lawful_readPacket hV hphase hon) fun x t w hx ↦ ?_
  cases x with
  | «over» => exact .pure hx
  | nothing => exact htimeout (fun _ _ hon ↦ hon) (fun _ _ hbound ↦ hbound) t w hx
  | packet type flags len =>
    obtain ⟨p, hcap, rfl, rfl, rfl, hbuf, hon⟩ := hx
    refine .ite (fun htype ↦ ?_) fun htype ↦ ?_
    · rw [answers_of_ne (htype ▸ hwant)] at hon
      exact .pure ⟨p, hcap, htype, rfl, hbuf, hon⟩
    · rw [hothers p htype] at hon
      exact lawful_other hV hcap hbuf hon (htimeout (fun _ _ hon ↦ hon) fun _ _ hbound ↦ hbound)

/-! ## The session -/

theorem lawful_mqttConnect (h : On T {} fd t w) :
    Recorded V Wire.note (Lawful T) mqttConnect
      (fun b t' w' ↦ Bound T fd t' w' ∧
        (b = true → On T ⟨if T.broker.subscribes = true then .accepted else .running,
          []⟩ fd t' w')) t w := by
  have hsender : sendConnect = (do
      let c ← get
      sendBuilt (build c.cap 0x10 (connectBody c.cfg))) := by
    unfold sendConnect
    simp only [connectPacket_eq]
  have hmay : Talk.Step T {} (.did .connect) ⟨.greeted, []⟩ := .act rfl
  unfold mqttConnect
  rw [hsender]
  refine .seq (lawful_sender hV rfl hmay rfl h) fun b t w hon ↦
    .ite (fun hb ↦ .pure ⟨hon.1, by simp⟩) fun hb ↦ ?_
  have hon := hon.2 (by simpa using hb)
  refine .seq (lawful_waitPacket hV (.inl rfl) (by decide) (fun p hp ↦ if_neg fun hconnack ↦
    hp hconnack.2) hon) ?_
  rintro (_ | len) t w hx
  · exact .pure ⟨hx, by simp⟩
  · obtain ⟨p, hcap, htype, rfl, hbuf, hon⟩ := hx
    refine .get_bind (.pure ⟨hon.1, fun hok ↦ ?_⟩)
    simp only [Bool.and_eq_true, decide_eq_true_eq, beq_iff_eq] at hok
    have hcode : p.body.getD 1 0 = 0 := by
      rw [← hbuf, List.getD_eq_getElem?_getD, List.getElem?_take_of_lt (by omega),
        ← List.getD_eq_getElem?_getD]
      exact hok.2
    rwa [Phase.hears, if_pos ⟨hcap, htype⟩, if_pos ⟨hok.1, hcode⟩] at hon

theorem lawful_mqttSubscribe (h : On T ⟨.accepted, []⟩ fd t w) :
    Recorded V Wire.note (Lawful T) mqttSubscribe
      (fun b t' w' ↦ Bound T fd t' w' ∧ (b = true → On T ⟨.running, []⟩ fd t' w')) t w := by
  have hsender : ∀ id, sendSubscribe id = (do
      let c ← get
      sendBuilt (build c.cap 0x82 (subscribeBody c.cfg id))) := by
    intro id
    unfold sendSubscribe
    simp only [subscribePacket_eq]
  have hmay : Talk.Step T ⟨.accepted, []⟩ (.did (.subscribe t.nextPktId)) ⟨.subscribed, []⟩ :=
    .act (if_pos h.1.id)
  -- The identifier after 65535 is 1.
  have hid : (if t.nextPktId + 1 = 0 then 1 else t.nextPktId + 1) ≠ 0 := by
    split
    · decide
    · assumption
  refine .modifyGet_bind ?_
  rw [hsender]
  have hbound : Bound T fd { t with nextPktId := if t.nextPktId + 1 = 0 then 1 else t.nextPktId +
      1 } w :=
    ⟨h.1.sock, h.1.cfg, h.1.cap, h.1.broker, hid, h.1.wire, h.1.linked⟩
  refine .seq (lawful_sender hV (f := (subscribeBody · t.nextPktId)) rfl hmay rfl ⟨hbound, h.2⟩)
    fun b t w hon ↦ ?_
  refine .ite (fun hb ↦ .pure ⟨hon.1, by simp⟩) fun hb ↦ ?_
  have hon := hon.2 (by simpa using hb)
  refine .seq (lawful_waitPacket hV (.inr (.inl rfl)) (by decide) (fun p hp ↦ if_neg fun hsuback ↦
    hp hsuback.2) hon) ?_
  rintro (_ | len) t w hx
  · exact .pure ⟨hx, by simp⟩
  · obtain ⟨p, hcap, htype, rfl, hbuf, hon⟩ := hx
    refine .get_bind (.pure ⟨hon.1, fun hok ↦ ?_⟩)
    simp only [Bool.and_eq_true, decide_eq_true_eq, bne_iff_ne] at hok
    have hcode : p.body.getD 2 0 ≠ subackFailure := by
      rw [← hbuf, List.getD_eq_getElem?_getD, List.getElem?_take_of_lt (by omega),
        ← List.getD_eq_getElem?_getD]
      exact hok.2
    rwa [Phase.hears, if_pos ⟨hcap, htype⟩, if_pos ⟨hok.1, hcode⟩] at hon

/-- What a part of the upkeep leaves behind. -/
def Kept (T : Terms) (fd : ℤ) (b : Bool) (t : MqttTask) (w : Wire) : Prop :=
  Bound T fd t w ∧ (b = true → On T ⟨.running, []⟩ fd t w)

theorem lawful_publishIfDue {now : UInt32} (h : On T ⟨.running, []⟩ fd t w) :
    Recorded V Wire.note (Lawful T) (publishIfDue now) (Kept T fd) t w := by
  have hsender : sendPublish = (do
      let c ← get
      sendBuilt (build c.cap 0x30 (publishBody c.cfg))) := by
    unfold sendPublish
    simp only [publishPacket_eq]
  refine .get_bind (.ite (fun hdue ↦ ?_) fun _ ↦ .pure ⟨h.1, fun _ ↦ h⟩)
  have hmay : Talk.Step T ⟨.running, []⟩ (.did .publish) ⟨.running, []⟩ :=
    .act (if_pos (h.1.broker ▸ hdue.1))
  refine .modify_bind ?_
  rw [hsender]
  exact lawful_sender hV rfl hmay rfl ⟨{ h.1 with }, h.2⟩

theorem lawful_keepAlive {now : UInt32} (h : On T ⟨.running, []⟩ fd t w) :
    Recorded V Wire.note (Lawful T) (keepAlive now) (Kept T fd) t w := by
  refine .get_bind (.ite (fun hkeep ↦ ?_) fun _ ↦ .pure ⟨h.1, fun _ ↦ h⟩)
  have hmay : Talk.Step T ⟨.running, []⟩ (.did .pingreq) ⟨.running, []⟩ :=
    .act (if_pos (h.1.cfg ▸ hkeep))
  have hping : Recorded V Wire.note (Lawful T) (pingIfIdle now)
      (fun _ t w ↦ On T ⟨.running, []⟩ fd t w) t w :=
    .get_bind (.ite (fun _ ↦ lawful_sendAll hV hmay rfl h) fun _ ↦ .pure h)
  refine .seq hping fun b t w hon ↦ .ite (fun _ ↦ .pure ⟨hon.1, by simp⟩) fun _ ↦ ?_
  exact .get_bind (.pure ⟨hon.1, fun _ ↦ hon⟩)

theorem lawful_mqttUpkeep (h : On T ⟨.running, []⟩ fd t w) :
    Recorded V Wire.note (Lawful T) mqttUpkeep
      (fun r t' w' ↦ Bound T fd t' w' ∧ (r = none → On T ⟨.running, []⟩ fd t' w')) t w := by
  refine .perform_bind ⟨fun _ ↦ trivial, trivial⟩ fun now ↦ ?_
  refine .seq (lawful_publishIfDue hV h) fun b t w hkept ↦
    .ite (fun _ ↦ .pure ⟨hkept.1, by simp⟩) fun hb ↦ ?_
  refine .seq (lawful_keepAlive hV (hkept.2 (by simpa using hb))) fun b t w hkept ↦ ?_
  exact .ite (fun _ ↦ .pure ⟨hkept.1, by simp⟩) fun hb ↦
    .pure ⟨hkept.1, fun _ ↦ hkept.2 (by simpa using hb)⟩

/-- **A turn of the session** comes back to where it was, or ends it. -/
theorem lawful_mqttTurn (h : On T ⟨.running, []⟩ fd t w) :
    Recorded V Wire.note (Lawful T) mqttTurn
      (fun r t' w' ↦ Bound T fd t' w' ∧ (r = none → On T ⟨.running, []⟩ fd t' w')) t w := by
  refine .seq (lawful_readPacket hV (.inr (.inr rfl)) h) fun x t w hx ↦ ?_
  cases x with
  | «over» => exact .pure ⟨hx, by simp⟩
  | nothing => exact lawful_mqttUpkeep hV hx
  | packet type flags len =>
    obtain ⟨p, hcap, rfl, rfl, rfl, hbuf, hon⟩ := hx
    exact lawful_other hV hcap hbuf hon fun t w hon ↦ lawful_mqttUpkeep hV hon

theorem lawful_mqttTalk (h : On T {} fd t w) :
    Recorded V Wire.note (Lawful T) mqttTalk (fun _ t' w' ↦ Bound T fd t' w') t w := by
  have hrun : ∀ t w, On T ⟨.running, []⟩ fd t w → Recorded V Wire.note (Lawful T) (do
      let now ← perform (.io .nowMs)
      modify fun t ↦ { t with lastPubMs := now }
      forever mqttTurn) (fun _ t' w' ↦ Bound T fd t' w') t w := by
    intro t w hon
    refine .perform_bind ⟨fun _ ↦ trivial, trivial⟩ fun now ↦ .modify_bind ?_
    refine .forever (On T ⟨.running, []⟩ fd) ⟨{ hon.1 with }, hon.2⟩ fun t w hon ↦
      (lawful_mqttTurn hV hon).imp ?_
    rintro (_ | _) t w hr
    · exact hr.2 rfl
    · exact hr.1
  refine .seq (lawful_mqttConnect hV h) fun b t w hon ↦ .ite (fun _ ↦ .pure hon.1) fun hb ↦
    .get_bind ?_
  have hon := hon.2 (by simpa using hb)
  rw [← hon.1.broker] at hon
  refine .ite (fun hsubscribes ↦ ?_) fun hquiet ↦ ?_
  · rw [if_pos hsubscribes] at hon
    refine .seq (lawful_mqttSubscribe hV hon) fun b t w hon ↦
      .ite (fun _ ↦ .pure hon.1) fun hb ↦ ?_
    exact hrun t w (hon.2 (by simpa using hb))
  · rw [if_neg hquiet] at hon
    exact hrun t w hon

/-- **A session** leaves no socket behind. -/
theorem lawful_mqttSession (h : Idle T t w) :
    Recorded V Wire.note (Lawful T) mqttSession (fun _ t' w' ↦ Idle T t' w') t w := by
  refine .seq (lawful_tcpConnect h) fun b t w hr ↦
    .ite (fun hb ↦ .pure (hr.2 (by simpa using hb))) fun hb ↦ ?_
  obtain ⟨fd, hon⟩ := hr.1 (by simpa using hb)
  refine .perform_bind ⟨fun _ ↦ trivial, trivial⟩ fun now ↦ .modify_bind ?_
  refine .seq (lawful_mqttTalk hV ⟨{ hon.1 with }, hon.2⟩) fun _ t w hbound ↦ .get_bind ?_
  refine .perform_bind ⟨fun _ ↦ trivial, hbound.sock ▸ hbound.wire⟩ fun _ ↦ .update ?_
  exact ⟨hbound.cfg, hbound.cap, hbound.broker, hbound.id, rfl⟩

/-- **The task** keeps to the rules of the conversation and of the socket calls. -/
theorem lawful_mqttTask (cfg : MqttConfig) (broker : MqttBroker) :
    Recorded V Wire.note (Lawful ⟨cfg, broker, mqttBufSize⟩) mqttTask (fun _ _ _ ↦ True)
    (mqttClientStart cfg broker) {} := by
  refine .perform_bind ⟨fun _ ↦ trivial, trivial⟩ fun txbuf ↦
    .perform_bind ⟨fun _ ↦ trivial, trivial⟩ fun rxbuf ↦ ?_
  cases txbuf with
  | none => exact .pure trivial
  | some txbuf =>
    cases rxbuf with
    | none => exact .pure trivial
    | some rxbuf =>
      refine .modify_bind ?_
      have hidle : Idle ⟨cfg, broker, mqttBufSize⟩
          { mqttClientStart cfg broker with ctx := { cfg := cfg, rxbuf := rxbuf, cap := mqttBufSize
            } } {} :=
        ⟨rfl, rfl, rfl, (by decide : (1 : UInt16) ≠ 0), rfl⟩
      refine .seq (.forever (Idle ⟨cfg, broker, mqttBufSize⟩) hidle fun t w hidle ↦ ?_)
        fun _ t w hidle ↦ .forever (Idle ⟨cfg, broker, mqttBufSize⟩) hidle fun t w hidle ↦ ?_
      · refine .perform_bind ⟨fun _ ↦ trivial, hidle.wire⟩ fun up ↦
          .ite (fun _ ↦ .pure hidle) fun _ ↦ ?_
        exact .perform_bind ⟨fun _ ↦ trivial, hidle.wire⟩ fun _ ↦ .pure hidle
      · refine .seq (lawful_mqttSession hV hidle) fun _ t w hidle ↦ ?_
        exact .perform_bind ⟨fun _ ↦ trivial, hidle.wire⟩ fun _ ↦ .pure hidle

end

/-! ## Runs of the task -/

section

variable {E : Type} {V : Env MqttTask E TaskOp.Ans} {cfg : MqttConfig} {broker : MqttBroker} {e : E}
  {o : TaskOp} {t : MqttTask} {e' : E × Wire}

/-- **The client keeps to the rules of MQTT.** -/
theorem mqttTask_polite (hV : ∀ o s e a e', V.answer o s e a e' → o.Fair a)
    (h : Performs (V.noted Wire.note) mqttTask (mqttClientStart cfg broker) (e, {}) o t e') :
    Polite ⟨cfg, broker, mqttBufSize⟩ o t e'.2 :=
  ((lawful_mqttTask hV cfg broker).performs h).1

/-- **One connection at a time.** Each socket is closed before there is another, and only the open
one is used. -/
theorem mqttTask_orderly (hV : ∀ o s e a e', V.answer o s e a e' → o.Fair a)
    (h : Performs (V.noted Wire.note) mqttTask (mqttClientStart cfg broker) (e, {}) o t e') :
    Orderly o t e'.2 :=
  ((lawful_mqttTask hV cfg broker).performs h).2

end

/-- The messages in the packets, each with its topic, in order. -/
inductive Delivers (cap : ℕ) : List Packet → List (List UInt8 × List UInt8) → Prop
  | nil : Delivers cap [] []
  | message {p ps m ms} (hfits : p.body.length ≤ cap) (hm : p.Publishes m)
      (h : Delivers cap ps ms) :
    Delivers cap (p :: ps) ((m.topic, m.payload) :: ms)
  | other {p ps ms} (hp : p.body.length ≤ cap → ∀ m, ¬p.Publishes m) (h : Delivers cap ps ms) :
      Delivers cap (p :: ps) ms

def Msg.packet? : Msg → List Packet
  | .got p => [p]
  | .did _ => []

theorem Delivers.append {cap : ℕ} {ps qs : List Packet} {ms ns : List (List UInt8 × List UInt8)}
    (hps : Delivers cap ps ms) (hqs : Delivers cap qs ns) : Delivers cap (ps ++ qs) (ms ++ ns) := by
  induction hps with
  | nil => exact hqs
  | message hfits hm _ ih => exact .message hfits hm ih
  | other hp _ ih => exact .other hp ih

/-- There is one way to read the messages. -/
theorem Delivers.unique {cap : ℕ} {ps : List Packet} {ms ns : List (List UInt8 × List UInt8)}
    (h : Delivers cap ps ms) (h' : Delivers cap ps ns) : ms = ns := by
  induction h generalizing ns with
  | nil =>
    cases h'
    rfl
  | message hfits hm _ ih =>
    cases h' with
    | message _ hm' h' =>
      obtain ⟨htopic, hpayload⟩ := hm.unique hm'
      rw [ih h', htopic, hpayload]
    | other hp _ => exact absurd hm (hp hfits _)
  | other hp _ ih =>
    cases h' with
    | message hfits hm _ => exact absurd hm (hp hfits _)
    | other _ h' => exact ih h'

theorem Publication.shows_owes (m : Publication) : m.owes.flatMap Act.shows =
    [(m.topic, m.payload)] := by
  rw [Publication.owes, List.flatMap_cons]
  cases m.qos <;> rfl

/-- What is owed for a packet is to show its message. -/
theorem Owed.delivers {cap : ℕ} {p : Packet} {owes : List Act} (h : Owed cap p owes) :
    Delivers cap [p] (owes.flatMap Act.shows) := by
  cases h with
  | @message m hfits hm => exact m.shows_owes ▸ .message hfits hm .nil
  | nothing hnone => exact .other hnone .nil

/-- Nothing is shown of its own accord. -/
theorem Phase.shows_of_may {T : Terms} {phase phase' : Phase} {a : Act}
    (h : phase.may T a = some phase') : a.shows = [] := by
  cases a with
  | log topic payload => cases phase <;> cases h
  | _ => rfl

/-- What has been shown, together with what is owed, is what has been heard. -/
theorem Conversation.delivers {T : Terms} {ms : List Msg} {talk : Talk}
    (h : Conversation T ms talk) :
    Delivers T.cap (ms.flatMap Msg.packet?)
    (ms.flatMap Msg.shown ++ talk.owes.flatMap Act.shows) := by
  induction h with
  | start => exact .nil
  | @step ms m talk talk' _ hm ih =>
    rw [List.flatMap_append, List.flatMap_append, List.flatMap_singleton, List.flatMap_singleton]
    cases hm with
    | pay => simpa [Msg.shown, Msg.packet?] using ih
    | act hmay => simpa [Msg.shown, Msg.packet?, Phase.shows_of_may hmay] using ih
    | got hphase howed =>
      rw [List.flatMap_nil, List.append_nil] at ih
      simpa [Msg.shown, Msg.packet?] using ih.append howed.delivers

/-- A broker that sends what it has to send and takes everything. -/
def scriptedBroker (o : TaskOp) (e : List UInt8) : o.Ans × List UInt8 :=
  match o with
  | .io (.recv _ len) => if e = [] then (.error .ewouldblock, []) else
      (.ok (e.take len), e.drop len)
  | .io (.send _ data) => (.ok data.length, e)
  | .io .nowMs => ((0 : UInt32), e)
  | .io .delay => ((), e)
  | .malloc size => (some (List.replicate size 0), e)
  | .socket => ((3 : ℤ), e)
  | .connect _ _ _ => (true, e)
  | .isUp => (true, e)
  | .setRcvtimeo _ _ | .setNodelay _ | .close _ | .delayMs _ | .log _ _ => ((), e)

theorem scriptedBroker_fair (o : TaskOp) (s : MqttTask) (e : List UInt8) (a : o.Ans)
    (e' : List UInt8)
    (h : (Env.script scriptedBroker : Env MqttTask (List UInt8) TaskOp.Ans).answer o s e a e') :
    o.Fair a := by
  obtain ⟨rfl, -⟩ := h
  cases o with
  | io o =>
    cases o with
    | recv fd len =>
      intro bytes hbytes
      simp only [scriptedBroker] at hbytes
      split at hbytes
      · exact absurd hbytes (by simp)
      · obtain rfl := Except.ok.inj hbytes
        exact List.length_take_le _ _
    | send fd data =>
      intro n hn
      exact (Except.ok.inj hn).ge
    | nowMs => exact trivial
    | delay => exact trivial
  | malloc size =>
    intro mem hmem
    rw [← Option.some_inj.mp hmem, List.length_replicate]
  | _ => exact trivial

/-- A broker that accepts, and sends a message of QoS 1. -/
def oneMessage : List UInt8 := [0x20, 2, 0, 0, 0x32, 6, 0, 1, 0x74, 0, 7, 0x68]

/-- The task and this broker after so many steps. -/
def briefTalk (n : ℕ) : Config MqttTask (List UInt8 × Wire) TaskOp.Ans Unit :=
  runNoted scriptedBroker Wire.note n
    ⟨mqttTask, mqttClientStart { clientId := [0x61], keepaliveS := 60 } {}, oneMessage, {}⟩

theorem performs_briefTalk {n : ℕ} {o : TaskOp} (h : (briefTalk n).prog.asks? = some o) :
    Performs ((Env.script scriptedBroker).noted Wire.note) mqttTask
      (mqttClientStart { clientId := [0x61], keepaliveS := 60 } {}) (oneMessage, {}) o
      (briefTalk n).store (briefTalk n).env :=
  performs_runNoted (V := Env.script scriptedBroker) (fun _ _ _ ↦ ⟨rfl, rfl⟩) h

/-- The message is acknowledged. -/
theorem mqttTask_polite_puback :
    Polite ⟨{ clientId := [0x61], keepaliveS := 60 }, {}, mqttBufSize⟩
    (.io (.send 3 [0x40, 2, 0, 7]))
      (briefTalk 164).store (briefTalk 164).env.2 :=
  mqttTask_polite scriptedBroker_fair (performs_briefTalk (by decide +kernel))

theorem mqttTask_orderly_puback :
    Orderly (.io (.send 3 [0x40, 2, 0, 7])) (briefTalk 164).store (briefTalk 164).env.2 :=
  mqttTask_orderly scriptedBroker_fair (performs_briefTalk (by decide +kernel))

end WsmDriver.Mqtt
