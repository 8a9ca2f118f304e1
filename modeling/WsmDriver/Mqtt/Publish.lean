import WsmDriver.Mqtt.Packets
import WsmDriver.Mqtt.Session

/-!
# Messages as MQTT sends them

A PUBLISH is a message in a packet: its flags are in the first byte, and the body has the topic with
its length, the identifier if the quality of service calls for one, and the payload, which takes up
the rest. A `Publication` is such a message, and its encoding is that of the protocol, not of this
client.

`handle_publish` reads it back. It takes from a body what has been put there, and warns where
nothing has.
-/

namespace WsmDriver.Mqtt

open W6300 (be16 word word_be16 be16_word)

/-! ## The format -/

/-- How often a message is to be delivered, and the packet identifier that is needed for it. MQTT
has no use for the fourth value of the two bits. -/
inductive Qos
  | atMostOnce
  | atLeastOnce (id : UInt16)
  | exactlyOnce (id : UInt16)
  | reserved (id : UInt16)
  deriving DecidableEq

def Qos.level : Qos → UInt8
  | .atMostOnce => 0
  | .atLeastOnce _ => 1
  | .exactlyOnce _ => 2
  | .reserved _ => 3

def Qos.id? : Qos → Option UInt16
  | .atMostOnce => none
  | .atLeastOnce id | .exactlyOnce id | .reserved id => some id

structure Publication where
  dup : Bool
  qos : Qos
  retain : Bool
  topic : List UInt8
  topic_lt : topic.length < 65536
  payload : List UInt8

/-- The first byte of a PUBLISH. -/
def publishFirst (dup : Bool) (level : UInt8) (retain : Bool) : UInt8 :=
  mqttPktPublish <<< 4 ||| (if dup = true then (0x08 : UInt8) else 0) ||| level <<< 1 |||
    (if retain = true then (0x01 : UInt8) else 0)

namespace Publication

def first (m : Publication) : UInt8 := publishFirst m.dup m.qos.level m.retain

def body (m : Publication) : List UInt8 :=
  be16 (.ofNat m.topic.length) ++ (m.topic ++ (m.qos.id?.elim [] be16 ++ m.payload))

end Publication

/-- The packet is a PUBLISH with this message. -/
def Packet.Publishes (p : Packet) (m : Publication) : Prop := p.first = m.first ∧ p.body = m.body

def Packet.type (p : Packet) : UInt8 := p.first >>> 4

def Packet.flags (p : Packet) : UInt8 := p.first &&& 0x0F

variable {p : Packet} {m : Publication}

/-! ## The first byte -/

theorem publishFirst_bits : ∀ dup retain : Bool, ∀ level ∈ ([0, 1, 2, 3] : List UInt8),
    publishFirst dup level retain >>> 4 = mqttPktPublish ∧ qosOf
    (publishFirst dup level retain &&& 0x0F) = level := by
  decide +kernel

/-- Every byte with the type of a PUBLISH is a first byte of one. -/
theorem publishFirst_of_type : ∀ n < 256, UInt8.ofNat n >>> 4 = mqttPktPublish →
    UInt8.ofNat n = publishFirst (UInt8.ofNat n &&& 8 ≠ 0) (qosOf (UInt8.ofNat n &&& 0x0F))
    (UInt8.ofNat n &&& 1 ≠ 0) := by
  decide +kernel

theorem Qos.level_mem (q : Qos) : q.level ∈ ([0, 1, 2, 3] : List UInt8) := by
  cases q with
  | atMostOnce => exact .head _
  | atLeastOnce => exact .tail _ (.head _)
  | exactlyOnce => exact .tail _ (.tail _ (.head _))
  | reserved => exact .tail _ (.tail _ (.tail _ (.head _)))

theorem qosOf_mem : ∀ n < 256, qosOf (UInt8.ofNat n) ∈ ([0, 1, 2, 3] : List UInt8) := by
  decide +kernel

theorem Packet.Publishes.type (h : p.Publishes m) : p.type = mqttPktPublish := by
  rw [Packet.type, h.1]
  exact (publishFirst_bits m.dup m.retain m.qos.level m.qos.level_mem).1

theorem Packet.Publishes.qos (h : p.Publishes m) : qosOf p.flags = m.qos.level := by
  rw [Packet.flags, h.1]
  exact (publishFirst_bits m.dup m.retain m.qos.level m.qos.level_mem).2

theorem Packet.first_of_type (h : p.type = mqttPktPublish) :
    p.first = publishFirst (p.first &&& 8 ≠ 0) (qosOf p.flags) (p.first &&& 1 ≠ 0) := by
  have hfirst := publishFirst_of_type p.first.toNat p.first.toNat_lt
  rw [UInt8.ofNat_toNat] at hfirst
  exact hfirst h

/-- Two bits and an identifier. -/
def Qos.ofLevel (level : UInt8) (id : UInt16) : Qos :=
  if level = 0 then .atMostOnce else if level = 1 then .atLeastOnce id else if level = 2 then
    .exactlyOnce id
  else .reserved id

theorem Qos.level_ofLevel (flags : UInt8) (id : UInt16) : (Qos.ofLevel (qosOf flags) id).level =
    qosOf flags := by
  have hmem := qosOf_mem flags.toNat flags.toNat_lt
  rw [UInt8.ofNat_toNat] at hmem
  generalize qosOf flags = level at hmem
  simp only [List.mem_cons, List.not_mem_nil, or_false] at hmem
  rcases hmem with rfl | rfl | rfl | rfl <;> rfl

theorem Qos.id?_ofLevel (level : UInt8) (id : UInt16) :
    (Qos.ofLevel level id).id? = if level = 0 then none else some id := by
  unfold ofLevel
  split
  · rfl
  · split
    · rfl
    · split <;> rfl

/-! ## The body -/

theorem word_be16_append (x : UInt16) (r : List UInt8) : word (be16 x ++ r) = x := word_be16 x

theorem Qos.level_id? (q : Qos) : q.level = 0 ∧ q.id? = none ∨ 0 < q.level ∧ ∃ id, q.id? =
    some id := by
  cases q with
  | atMostOnce => exact .inl ⟨rfl, rfl⟩
  | atLeastOnce id => exact .inr ⟨(by decide : (0 : UInt8) < 1), id, rfl⟩
  | exactlyOnce id => exact .inr ⟨(by decide : (0 : UInt8) < 2), id, rfl⟩
  | reserved id => exact .inr ⟨(by decide : (0 : UInt8) < 3), id, rfl⟩

/-- What `handle_publish` takes from the encoding of a message. -/
theorem messageIn_of_publishes (h : p.Publishes m) :
    messageIn p.flags p.body p.body.length = some ⟨m.topic, m.payload, m.qos.id?.getD 0⟩ := by
  have hword : (word p.body).toNat = m.topic.length := by
    rw [h.2, Publication.body, word_be16_append, UInt16.toNat_ofNat']
    exact Nat.mod_eq_of_lt m.topic_lt
  have hrest : p.body.drop 2 = m.topic ++ (m.qos.id?.elim [] be16 ++ m.payload) := by
    rw [h.2]
    rfl
  have hdrop : p.body.drop (2 + m.topic.length) = m.qos.id?.elim [] be16 ++ m.payload := by
    rw [← List.drop_drop, hrest, List.drop_left]
  have hlen : p.body.length = 2 + m.topic.length + (m.qos.id?.elim [] be16).length +
      m.payload.length := by
    rw [h.2, Publication.body]
    simp only [List.length_append, be16, List.length_cons, List.length_nil]
    omega
  rw [messageIn, if_neg (by omega)]
  dsimp only
  rw [hword, if_neg (by omega), h.qos, hrest, List.take_left]
  obtain ⟨hlevel, hid⟩ | ⟨hlevel, id, hid⟩ := m.qos.level_id?
  · rw [hid] at hdrop hlen
    rw [if_neg (by rw [hlevel]; decide), hdrop, hid]
    have hpayload : m.payload.take (p.body.length - (2 + m.topic.length)) = m.payload :=
      List.take_of_length_le
        (by rw [hlen]; exact Nat.le_sub_of_add_le (Nat.le_of_eq (Nat.add_comm _ _)))
    exact congrArg (fun payload ↦ some (Message.mk m.topic payload 0)) hpayload
  · rw [hid] at hdrop hlen
    have hlen' : p.body.length = 2 + m.topic.length + 2 + m.payload.length := hlen
    have hdrop' : p.body.drop (2 + m.topic.length + 2) = m.payload := by
      rw [← List.drop_drop, hdrop]
      rfl
    have hidword : word (p.body.drop (2 + m.topic.length)) = id := by
      rw [hdrop]
      exact word_be16_append id m.payload
    rw [if_pos hlevel, if_neg (by omega), hdrop', hidword, hid, List.take_of_length_le (by omega)]
    rfl

/-- A packet has one message at most. -/
theorem Packet.Publishes.unique {m' : Publication} (h : p.Publishes m) (h' : p.Publishes m') :
    m.topic = m'.topic ∧ m.payload = m'.payload := by
  have heq := Option.some_inj.mp ((messageIn_of_publishes h).symm.trans (messageIn_of_publishes h'))
  exact ⟨congrArg Message.topic heq, congrArg Message.payload heq⟩

/-- A packet of the type of a PUBLISH, taken apart. -/
theorem Packet.publishes_of_body {topic : List UInt8} (id : UInt16) (payload : List UInt8)
    (htype : p.type = mqttPktPublish) (htopic : topic.length < 65536)
    (hbody : p.body = be16 (.ofNat topic.length) ++
      (topic ++ ((if qosOf p.flags = 0 then [] else be16 id) ++ payload))) :
    ∃ m, p.Publishes m ∧ m.topic = topic ∧ m.payload = payload ∧
      m.qos.id?.getD 0 = if qosOf p.flags = 0 then 0 else id := by
  refine ⟨⟨p.first &&& 8 ≠ 0, .ofLevel (qosOf p.flags) id, p.first &&& 1 ≠ 0, topic, htopic,
    payload⟩, ⟨?_, ?_⟩, rfl, rfl, ?_⟩
  · rw [Publication.first, Qos.level_ofLevel]
    exact p.first_of_type htype
  · rw [hbody, Publication.body, Qos.id?_ofLevel]
    split <;> rfl
  · dsimp only
    rw [Qos.id?_ofLevel]
    split <;> rfl

theorem exists_two {l : List UInt8} (h : 2 ≤ l.length) : ∃ a b r, l = a :: b :: r := by
  rcases l with _ | ⟨a, _ | ⟨b, r⟩⟩
  · exact absurd h (by decide)
  · exact absurd h (Nat.not_succ_le_self 1)
  · exact ⟨a, b, r, rfl⟩

/-- What it takes from any other body is the message of which it is the encoding. -/
theorem publishes_of_messageIn (htype : p.type = mqttPktPublish) {x : Message}
    (h : messageIn p.flags p.body p.body.length = some x) :
    ∃ m, p.Publishes m ∧ x = ⟨m.topic, m.payload, m.qos.id?.getD 0⟩ := by
  rw [messageIn] at h
  split at h
  · cases h
  rename_i hlen
  obtain ⟨a, b, r, hbody⟩ := exists_two (not_lt.mp hlen)
  have hword : word p.body = word [a, b] := by
    rw [hbody]
    rfl
  have hlength : p.body.length = r.length + 2 := by rw [hbody, List.length_cons, List.length_cons]
  have hlt := (word [a, b]).toNat_lt
  generalize hn : (word [a, b]).toNat = n at hlt
  dsimp only at h
  rw [hword, hn] at h
  split at h
  · cases h
  rename_i hoff
  have htopic : (r.take n).length = n := List.length_take_of_le (by omega)
  have hhead : be16 (.ofNat (r.take n).length) = [a, b] := by
    rw [htopic, ← hn, UInt16.ofNat_toNat, be16_word]
  have hdrop : p.body.drop 2 = r := by
    rw [hbody]
    rfl
  have hrest : p.body.drop (2 + n) = r.drop n := by rw [← List.drop_drop, hdrop]
  have hsplit : p.body = be16 (.ofNat (r.take n).length) ++ (r.take n ++ r.drop n) := by
    rw [hhead, List.take_append_drop, hbody]
    rfl
  rw [hdrop] at h
  split at h
  · rename_i hqos
    have hqos' : qosOf p.flags ≠ 0 := fun hzero ↦ absurd hqos (by rw [hzero]; decide)
    split at h
    · cases h
    rename_i hid
    obtain ⟨c, d, payload, hr⟩ := exists_two (l := r.drop n) (by rw [List.length_drop]; omega)
    have hlast : p.body.drop (2 + n + 2) = payload := by
      rw [← List.drop_drop, hrest, hr]
      rfl
    have hpayload : payload.length = p.body.length - (2 + n + 2) := by
      rw [← hlast, List.length_drop]
    obtain ⟨m, hm, htop, hpay, hmid⟩ :=
      Packet.publishes_of_body (word [c, d]) payload htype (htopic ▸ hlt)
        (by rw [if_neg hqos', be16_word, hsplit, hr]; rfl)
    rw [if_neg hqos'] at hmid
    refine ⟨m, hm, ?_⟩
    rw [hmid, htop, hpay, ← Option.some_inj.mp h, hlast, hrest, hr,
      List.take_of_length_le hpayload.le]
    rfl
  · rename_i hqos
    have hqos' : qosOf p.flags = 0 := UInt8.le_zero_iff.mp (UInt8.not_lt.mp hqos)
    have hpayload : (r.drop n).length = p.body.length - (2 + n) := by rw [← hrest, List.length_drop]
    obtain ⟨m, hm, htop, hpay, hmid⟩ :=
      Packet.publishes_of_body 0 (r.drop n) htype (htopic ▸ hlt)
        (by rw [if_pos hqos', List.nil_append]; exact hsplit)
    rw [if_pos hqos'] at hmid
    refine ⟨m, hm, ?_⟩
    rw [hmid, htop, hpay, ← Option.some_inj.mp h, hrest, List.take_of_length_le hpayload.le]

end WsmDriver.Mqtt
