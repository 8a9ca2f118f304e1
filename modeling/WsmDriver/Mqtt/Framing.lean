import WsmDriver.Effect.History
import WsmDriver.Effect.Termination
import WsmDriver.Effect.Trace
import WsmDriver.Mqtt.Client
import Mathlib.Tactic.Ring

/-!
# Framing

Nothing in the byte stream says where a packet ends but the length in its header, so a client that
counts wrong once never finds the next packet again. Here the stream is a concatenation of packets,
`recv` splits it as it likes and times out in between, and the client is shown to report the packets
one by one.

## Time

A time-out between two packets is nothing to worry about. Inside a packet `read_exact` goes on
reading until the time it was given is over, and it counts that time from its own start, not from
the last byte that came. A `Watch` has both.
-/

namespace WsmDriver.Mqtt

open Effect Program

/-! ## Packets -/

/-- The bytes are an encoding of the length, in at most so many bytes. It need not be the
shortest. -/
inductive Sized : ℕ → List UInt8 → ℕ → Prop
  | last {n : ℕ} {b : UInt8} (h : b &&& 0x80 = 0) : Sized (n + 1) [b] (b &&& 0x7F).toNat
  | more {n : ℕ} {b : UInt8} {size : List UInt8} {len : ℕ} (h : b &&& 0x80 ≠ 0)
      (hs : Sized n size len) : Sized (n + 1) (b :: size) ((b &&& 0x7F).toNat + 128 * len)

/-- A control packet as it is sent: type and flags, remaining length, and everything else. -/
structure Packet where
  first : UInt8
  size : List UInt8
  body : List UInt8
  sized : Sized 4 size body.length

namespace Packet

def encode (p : Packet) : List UInt8 := p.first :: (p.size ++ p.body)

/-- What `read_packet` should make of it. -/
def outcome (cap : ℕ) (p : Packet) : PacketRead :=
  if p.body.length ≤ cap then .packet (p.first >>> 4) (p.first &&& 0x0F) p.body.length else .nothing

end Packet

def encodeAll (packets : List Packet) : List UInt8 := packets.flatMap Packet.encode

@[simp] theorem encodeAll_cons (p : Packet) (packets : List Packet) :
    encodeAll (p :: packets) = p.encode ++ encodeAll packets := rfl

/-- With this much of the packets to come, the stream is inside one of them. -/
def Inside (packets : List Packet) (rest : List UInt8) : Prop :=
  ∀ todo, todo <:+ packets → rest ≠ encodeAll todo

theorem encodeAll_length_le {todo packets : List Packet} (h : todo <:+ packets) :
    (encodeAll todo).length ≤ (encodeAll packets).length := by
  obtain ⟨done, rfl⟩ := h
  simp [encodeAll]

/-- Within the bytes, up to the last of them. -/
def Within (inside : List UInt8 → Prop) (bytes r : List UInt8) : Prop :=
  ∀ k < bytes.length, inside (bytes.drop k ++ r)

namespace Within

variable {inside : List UInt8 → Prop} {a b r : List UInt8}

theorem left (h : Within inside (a ++ b) r) : Within inside a (b ++ r) := by
  intro k hk
  have hin := h k (by simp only [List.length_append]; omega)
  rwa [List.drop_append_of_le_length (by omega), List.append_assoc] at hin

theorem right (h : Within inside (a ++ b) r) : Within inside b r := by
  intro k hk
  have hin := h (a.length + k) (by simp only [List.length_append]; omega)
  rwa [List.drop_length_add_append] at hin

end Within

/-- Behind the first byte of a packet the stream is inside it. -/
theorem within_inside {packets done todo : List Packet} {p : Packet}
    (h : packets = done ++ p :: todo) :
    Within (Inside packets) (p.size ++ p.body) (encodeAll todo) := by
  intro k hk todo' htodo' heq
  have hlength := congrArg List.length heq
  simp only [List.length_append, List.length_drop] at hlength hk
  -- A suffix of the packets is either no longer than what follows the packet, or has the packet in
  -- it.
  have hsuffix : p :: todo <:+ packets := ⟨done, h.symm⟩
  rcases List.suffix_or_suffix_of_suffix htodo' hsuffix with hle | hle
  · rcases List.suffix_cons_iff.mp hle with rfl | hle
    · simp only [encodeAll_cons, List.length_append, Packet.encode, List.length_cons] at hlength
      omega
    · have := encodeAll_length_le hle
      omega
  · have := encodeAll_length_le hle
    simp only [encodeAll_cons, List.length_append, Packet.encode, List.length_cons] at this
    omega

/-! ## Connections -/

/-- A connection whose other end goes on living: `rest` is the byte stream still to come, `time` the
milliseconds gone by. A call of `recv` that times out has taken its time. -/
structure Connection {E : Type} (V : Env MqttCtx E MqttOp.Ans) (rest : E → List UInt8)
    (time : E → ℕ) : Prop where
  drift : ∀ {e e'}, V.drift e e' → rest e' = rest e ∧ time e ≤ time e'
  recv : ∀ {fd len c e a e'}, V.answer (.recv fd len) c e a e' →
    (∃ bytes, a = .ok bytes ∧ bytes ≠ [] ∧ bytes.length ≤ len ∧ rest e = bytes ++
      rest e' ∧ time e ≤ time e') ∨
      ∃ errno, a = .error errno ∧ errnoIsTimeout errno = true ∧ rest e' = rest e ∧ time e <
        time e'
  nowMs : ∀ {c e now e'}, V.answer .nowMs c e now e' → now = UInt32.ofNat (time e) ∧ rest e' =
    rest e ∧ time e ≤ time e'

/-- Has `recv` been called since the clock was last looked at, and what came of it? -/
inductive Polled
  | no | bytes | quiet
  deriving DecidableEq

/-- When the client began to read what it is reading, and when it last got any of it. -/
structure Watch where
  began : ℕ := 0
  last : ℕ := 0
  polled : Polled := .no
  deriving DecidableEq

/-- The watch after an operation. A look at the clock that follows no `recv` is the one at the start
of `read_exact`. -/
def Watch.see {E : Type} (time : E → ℕ) (o : MqttOp) (e : E) (a : o.Ans) (w : Watch) : Watch :=
  match o, a with
  | .recv _ _, .ok _ => { w with polled := .bytes }
  | .recv _ _, .error _ => { w with polled := .quiet }
  | .nowMs, _ => match w.polled with
    | .no => { w with began := time e }
    | .bytes => { w with last := time e, polled := .no }
    | .quiet => { w with polled := .no }
  | _, _ => w

/-- The surroundings in which a time-out inside a packet is noticed less than `MQTT_ACK_TIMEOUT_MS`
after the moment `since`. -/
def timely {E : Type} (V : Env MqttCtx E MqttOp.Ans) (rest : E → List UInt8) (time : E → ℕ)
    (inside : List UInt8 → Prop) (since : Watch → ℕ) : Env MqttCtx (E × Watch) MqttOp.Ans :=
  (V.recorded fun o _ e a w ↦ w.see time o e a).restrict fun o _ e ↦
    o = .nowMs → e.2.polled = .quiet → inside (rest e.1) → time e.1 < since e.2 +
      mqttAckTimeoutMs.toNat

/-- The buffer has its length, and nothing has been written behind it. -/
def MqttCtx.Fits (cap : ℕ) (c : MqttCtx) : Prop := c.rxbuf.length = cap ∧ c.cap = cap

/-- Nothing has changed that counts between two calls of `recv`. -/
structure MqttCtx.Same (c c' : MqttCtx) : Prop where
  rxbuf : c'.rxbuf = c.rxbuf
  cap : c'.cap = c.cap
  toDrop : c'.toDrop = c.toDrop

namespace MqttCtx

variable {cap : ℕ} {c c₁ c₂ : MqttCtx}

theorem Same.trans (h₁ : c.Same c₁) (h₂ : c₁.Same c₂) : c.Same c₂ :=
  ⟨h₂.rxbuf.trans h₁.rxbuf, h₂.cap.trans h₁.cap, h₂.toDrop.trans h₁.toDrop⟩

theorem Same.fits (h : c.Same c₁) (hc : c.Fits cap) : c₁.Fits cap :=
  ⟨h.rxbuf ▸ hc.1, h.cap.trans hc.2⟩

end MqttCtx

/-! ## Reading -/

section

variable {E : Type} {V : Env MqttCtx E MqttOp.Ans} {rest : E → List UInt8} {time : E → ℕ}
  {inside : List UInt8 → Prop} {cap : ℕ}

/-- The guard under which everything is read. -/
def Guarded (cap : ℕ) (_ : MqttOp) (c : MqttCtx) (_ : E × Watch) : Prop := c.Fits cap

/-- In the middle of `read_exact`: `got` is what has been taken of the `stream` that was to come at
its start. -/
structure Reads (rest : E → List UInt8) (time : E → ℕ) (len : ℕ) (stream : List UInt8)
    (start : UInt32) (c₀ c : MqttCtx) (e : E × Watch) : Prop where
  stream : stream = c.got ++ rest e.1
  le : c.got.length ≤ len
  start : start = UInt32.ofNat e.2.began
  began : e.2.began ≤ time e.1
  polled : e.2.polled = .no
  same : c₀.Same c

/-- The time `read_exact` has for a receive time-out. -/
def Watch.left (time : E → ℕ) (e : E × Watch) : ℕ :=
  e.2.began + mqttAckTimeoutMs.toNat - time e.1

namespace Connection

variable (hV : Connection V rest time)

include hV

theorem drifts {e e' : E} (h : V.Drifts e e') : rest e' = rest e ∧ time e ≤ time e' :=
  h.induct (P := fun e' ↦ rest e' = rest e ∧ time e ≤ time e')
    (fun _ _ hd ih ↦ ⟨(hV.drift hd).1.trans ih.1, ih.2.trans (hV.drift hd).2⟩) ⟨rfl, le_rfl⟩

theorem timely_drifts {since : Watch → ℕ} {e e' : E × Watch}
    (h : (timely V rest time inside since).Drifts e e') :
    rest e'.1 = rest e.1 ∧ time e.1 ≤ time e'.1 ∧ e'.2 = e.2 := by
  have h : (V.recorded fun o _ e a (w : Watch) ↦ w.see time o e a).Drifts e e' := h
  exact ⟨(hV.drifts h.unrecorded.1).1, (hV.drifts h.unrecorded.1).2, h.unrecorded.2⟩

theorem reads_drifts {since : Watch → ℕ} {len : ℕ} {stream : List UInt8} {start : UInt32}
    {c₀ c : MqttCtx} {e e' : E × Watch} (h : Reads rest time len stream start c₀ c e)
    (hd : (timely V rest time inside since).Drifts e e') :
    Reads rest time len stream start c₀ c e' := by
  obtain ⟨hrest, htime, hwatch⟩ := hV.timely_drifts hd
  exact ⟨hrest ▸ h.stream, h.le, hwatch ▸ h.start, hwatch ▸ h.began.trans htime,
    hwatch ▸ h.polled, h.same⟩

end Connection

/-- What a call of `recv_some` may do. -/
def Polls (rest : E → List UInt8) (time : E → ℕ) (c : MqttCtx) (e : E × Watch) (n : ℕ)
    (x : Rd × List UInt8) (c' : MqttCtx) (e' : E × Watch) : Prop :=
  c.Same c' ∧ c'.got = c.got ∧ e'.2.began = e.2.began ∧
    ((x.1 = .ok ∧ x.2 ≠ [] ∧ x.2.length ≤ n ∧ rest e.1 = x.2 ++ rest e'.1 ∧ time e.1 ≤
        time e'.1 ∧
        e'.2.polled = .no) ∨
      (x = (.timeout, []) ∧ rest e'.1 = rest e.1 ∧ time e.1 < time e'.1 ∧ e'.2.polled = .quiet))

theorem Connection.polls_drifts (hV : Connection V rest time) {since : Watch → ℕ} {n : ℕ}
    {c c' : MqttCtx} {e e' e'' : E × Watch} {x : Rd × List UInt8}
    (h : Polls rest time c e n x c' e') (hd : (timely V rest time inside since).Drifts e' e'') :
    Polls rest time c e n x c' e'' := by
  obtain ⟨hrest, htime, hwatch⟩ := hV.timely_drifts hd
  obtain ⟨hsame, hgot, hbegan, h⟩ := h
  refine ⟨hsame, hgot, hwatch ▸ hbegan, h.imp ?_ ?_⟩
  · rintro ⟨hok, hne, hle, hsplit, hlater, hpolled⟩
    exact ⟨hok, hne, hle, hrest ▸ hsplit, hlater.trans htime, hwatch ▸ hpolled⟩
  · rintro ⟨hx, hsame, hlater, hpolled⟩
    exact ⟨hx, hrest.trans hsame, hlater.trans_le htime, hwatch ▸ hpolled⟩

theorem recvSome_polls (hV : Connection V rest time) {since : Watch → ℕ} {R : ℕ → ℕ → Prop}
    {c : MqttCtx} {e : E × Watch} (hfits : c.Fits cap) (n : ℕ) :
    pre (timely V rest time inside since) (Guarded cap) R (recvSome n)
    (Polls rest time c e n) c e := by
  refine pre_get_bind.mpr (pre_perform_bind.mpr fun e₁ hd₁ ↦ ⟨hfits, fun a e₂ ha ↦ ?_⟩)
  obtain ⟨hrest₁, htime₁, hwatch₁⟩ := hV.timely_drifts hd₁
  obtain ⟨-, ha, hsee⟩ := ha
  rcases hV.recv ha with ⟨bytes, rfl, hne, hle, hsplit, hlater⟩ | ⟨errno, rfl, herrno, hsame,
    hlater⟩
  · -- What has come is noted with the time at which it is looked at.
    obtain ⟨b, bytes, rfl⟩ := List.exists_cons_of_ne_nil hne
    refine pre_perform_bind.mpr fun e₃ hd₃ ↦ ⟨hfits, fun now e₄ ha₄ ↦ ?_⟩
    obtain ⟨hrest₃, htime₃, hwatch₃⟩ := hV.timely_drifts hd₃
    obtain ⟨-, ha₄, hsee₄⟩ := ha₄
    obtain ⟨-, hrest₄, htime₄⟩ := hV.nowMs ha₄
    refine pre_modify_bind.mpr fun e₅ hd₅ ↦ hV.polls_drifts ?_ hd₅
    have hwatch₄ : e₄.2 = { e.2 with last := time e₃.1, polled := .no } := by
      rw [hsee₄, hwatch₃, hsee, hwatch₁]
      rfl
    refine ⟨⟨rfl, rfl, rfl⟩, rfl, by rw [hwatch₄],
      .inl ⟨rfl, hne, hle, ?_, by omega, by rw [hwatch₄]⟩⟩
    rw [hrest₄, hrest₃, ← hsplit, hrest₁]
  · intro e₃ hd₃
    refine hV.polls_drifts ⟨⟨rfl, rfl, rfl⟩, rfl, ?_,
      .inr ⟨by rw [if_pos herrno], hsame.trans hrest₁, by omega, ?_⟩⟩ hd₃
    · rw [hsee, hwatch₁]
      rfl
    · rw [hsee]
      rfl

/-- The clock of the client does not run out early. -/
theorem elapsed_lt {start now : ℕ} {t : UInt32} (h : start ≤ now) (hlt : now < start + t.toNat) :
    ¬t ≤ UInt32.ofNat now - UInt32.ofNat start := by
  have := t.toNat_lt
  rw [UInt32.le_iff_toNat_le, UInt32.toNat_sub, UInt32.toNat_ofNat', UInt32.toNat_ofNat']
  omega

/-- What a turn of the loop of `read_exact` brings. -/
def Turned (rest : E → List UInt8) (time : E → ℕ) (inside : List UInt8 → Prop) (len : ℕ)
    (t : UInt32) (e : E × Watch) (c' : MqttCtx) (e' : E × Watch) : Option Rd → Prop
  | none => (rest e'.1).length < (rest e.1).length ∧ Watch.left time e' ≤ Watch.left time e ∨
      c'.got.length < len ∧ t ≠ 0 ∧ rest e'.1 = rest e.1 ∧
        (inside (rest e.1) → Watch.left time e' < Watch.left time e)
  | some .ok => c'.got.length = len
  | some .timeout => c'.got.length < len ∧ (inside (rest e'.1) → t ≠ mqttAckTimeoutMs)
  | some .error => False

theorem readExactTurn_reads (hV : Connection V rest time) {R : ℕ → ℕ → Prop} {len : ℕ}
    {stream : List UInt8} {start t : UInt32} {c₀ c : MqttCtx} {e : E × Watch}
    (h : Reads rest time len stream start c₀ c e) (hfits : c₀.Fits cap) :
    pre (timely V rest time inside Watch.began) (Guarded cap) R (readExactTurn len t start)
      (fun r c' e' ↦ Reads rest time len stream start c₀ c' e' ∧
        Turned rest time inside len t e c' e' r) c e := by
  refine pre_get_bind.mpr
    (pre_ite (fun hlen e' hd ↦ ⟨hV.reads_drifts h hd, le_antisymm h.le hlen⟩) fun hlen ↦ ?_)
  refine (recvSome_polls hV (h.same.fits hfits) _).seq fun x c₁ e₁ hpolls ↦ ?_
  obtain ⟨hsame, hgot, hbegan, ⟨hx, hne, hle, hsplit, hlater, hpolled⟩ | ⟨hx, hrest, hlater,
    hpolled⟩⟩ := hpolls
  · -- Some bytes.
    obtain ⟨r, bytes⟩ := x
    obtain rfl : r = .ok := hx
    refine pre_modify_bind.mpr fun e₂ hd ↦ ?_
    obtain ⟨hrest₂, htime₂, hwatch₂⟩ := hV.timely_drifts hd
    have hlength := congrArg List.length hsplit
    have hpos : 0 < bytes.length := List.length_pos_iff.mpr hne
    simp only [List.length_append] at hlength hle
    refine ⟨⟨?_, ?_, ?_, ?_, hwatch₂ ▸ hpolled, h.same.trans ⟨hsame.rxbuf, hsame.cap,
      hsame.toDrop⟩⟩, .inl ⟨?_, ?_⟩⟩
    · rw [h.stream, hsplit, hrest₂, List.append_assoc, hgot]
    · simp only [hgot, List.length_append]
      omega
    · rw [hwatch₂, hbegan, h.start]
    · rw [hwatch₂, hbegan]
      exact h.began.trans (hlater.trans htime₂)
    · rw [hrest₂]
      omega
    · simp only [Watch.left, hwatch₂, hbegan]
      omega
  · -- A time-out.
    obtain rfl := hx
    refine pre_perform_bind.mpr fun e₂ hd₂ ↦
      ⟨hsame.fits (h.same.fits hfits), fun now e₃ ha ↦ ?_⟩
    obtain ⟨hrest₂, htime₂, hwatch₂⟩ := hV.timely_drifts hd₂
    obtain ⟨htimely, ha, hsee⟩ := ha
    obtain ⟨rfl, hrest₃, htime₃⟩ := hV.nowMs ha
    have hwatch₃ : e₃.2 = { e₁.2 with polled := .no } := by
      rw [hsee, hwatch₂]
      simp only [Watch.see, hpolled]
    have hinside : inside (rest e.1) → time e₂.1 < e.2.began + mqttAckTimeoutMs.toNat := by
      intro hin
      rw [hwatch₂, hbegan, hrest₂, hrest] at htimely
      exact htimely rfl hpolled hin
    refine fun e₄ hd₄ ↦ ?_
    obtain ⟨hrest₄, htime₄, hwatch₄⟩ := hV.timely_drifts hd₄
    have hrest' : rest e₄.1 = rest e.1 := by rw [hrest₄, hrest₃, hrest₂, hrest]
    have hbegan' : e₄.2.began = e.2.began := by rw [hwatch₄, hwatch₃, hbegan]
    refine ⟨⟨?_, hgot ▸ h.le, ?_, ?_, by rw [hwatch₄, hwatch₃], h.same.trans hsame⟩, ?_⟩
    · rw [h.stream, hgot, hrest']
    · rw [hbegan', h.start]
    · rw [hbegan']
      exact h.began.trans (by omega)
    · rw [h.start]
      have hbegan₂ : e.2.began ≤ time e₂.1 := h.began.trans (by omega)
      split
      · rename_i hover
        refine ⟨by rw [hgot]; omega, fun hin ht ↦ ?_⟩
        subst ht
        exact elapsed_lt hbegan₂ (hinside (hrest' ▸ hin)) hover
      · rename_i hgo
        refine .inr ⟨by rw [hgot]; omega, ?_, hrest', fun hin ↦ ?_⟩
        · rintro rfl
          exact hgo (by simp)
        · have := hinside hin
          simp only [Watch.left, hbegan']
          omega

/-- What `read_exact` takes of the stream, all that was asked for or less. -/
def Took (rest : E → List UInt8) (inside : List UInt8 → Prop) (len : ℕ) (t : UInt32)
    (c : MqttCtx) (e : E × Watch) (x : Rd × List UInt8) (c' : MqttCtx) (e' : E × Watch) : Prop :=
  c.Same c' ∧ e'.2.polled = .no ∧ rest e.1 = x.2 ++ rest e'.1 ∧
    (x.1 = .ok ∧ x.2.length = len ∨ x.1 = .timeout ∧ x.2.length < len ∧
      (inside (rest e'.1) → t ≠ mqttAckTimeoutMs))

/-- `read_exact` returns if it is told not to wait, or is inside a packet all the time. -/
theorem readExact_took (hV : Connection V rest time) {len : ℕ} {t : UInt32} {c : MqttCtx}
    {e : E × Watch} (hfits : c.Fits cap) (hpolled : e.2.polled = .no)
    (hgo : t ≠ 0 → ∀ got r, rest e.1 = got ++ r → got.length < len → inside r) :
    wp (timely V rest time inside Watch.began) (Guarded cap) (readExact len t)
    (Took rest inside len t c e) c e := by
  refine pre_modify_bind.mpr (pre_perform_bind.mpr fun e₁ hd₁ ↦
    ⟨hfits, fun start e₂ ha ↦ ?_⟩)
  obtain ⟨hrest₁, htime₁, hwatch₁⟩ := hV.timely_drifts hd₁
  obtain ⟨-, ha, hsee⟩ := ha
  obtain ⟨rfl, hrest₂, htime₂⟩ := hV.nowMs ha
  have hwatch₂ : e₂.2 = { e.2 with began := time e₁.1 } := by
    rw [hsee, hwatch₁]
    simp only [Watch.see, hpolled]
  have hstart : Reads rest time len (rest e.1) (UInt32.ofNat (time e₁.1)) c
      { c with got := [] } e₂ :=
    ⟨by rw [hrest₂, hrest₁]; rfl, Nat.zero_le _, by rw [hwatch₂],
      by rw [hwatch₂]; exact htime₂, by rw [hwatch₂]; exact hpolled, rfl, rfl, rfl⟩
  refine pre.seq (M := fun r c' e' ↦ Reads rest time len (rest e.1) (UInt32.ofNat (time e₁.1))
    c c' e' ∧
    (r = .ok ∧ c'.got.length = len ∨
      r = .timeout ∧ c'.got.length < len ∧ (inside (rest e'.1) → t ≠ mqttAckTimeoutMs))) ?_
        fun r c' e' hr ↦ ?_
  · -- The bytes to come and the time left go down together.
    refine ⟨fun n c' e' ↦ Reads rest time len (rest e.1) (UInt32.ofNat (time e₁.1)) c c' e' ∧
      n = (rest e'.1).length + Watch.left time e', ⟨_, hstart, rfl⟩, ?_⟩
    rintro n c₃ e₃ ⟨hreads, rfl⟩
    refine (readExactTurn_reads hV hreads hfits).imp ?_
    rintro (_ | r) c₄ e₄ ⟨hreads₄, hturned⟩
    · refine ⟨_, ?_, hreads₄, rfl⟩
      rcases hturned with ⟨hless, hleft⟩ | ⟨hless, ht, hsame, hleft⟩
      · omega
      -- A time-out inside of a packet: the bytes to come are the same, and there is less time left.
      · have hin := hgo ht c₄.got (rest e₄.1) hreads₄.stream hless
        have := hleft (hsame ▸ hin)
        rw [hsame]
        omega
    · intro e₅ hd
      refine ⟨hV.reads_drifts hreads₄ hd, ?_⟩
      cases r with
      | ok => exact .inl ⟨rfl, hturned⟩
      | timeout =>
        exact .inr ⟨rfl, hturned.1, fun hin ↦ hturned.2 ((hV.timely_drifts hd).1 ▸ hin)⟩
      | error => exact hturned.elim
  · refine pre_get_bind.mpr fun e'' hd ↦ ?_
    obtain ⟨hreads, hr⟩ := hr
    obtain ⟨hrest, -, hwatch⟩ := hV.timely_drifts hd
    exact ⟨hreads.same, hwatch ▸ hreads.polled, hrest ▸ hreads.stream,
      hr.imp id fun hr ↦ ⟨hr.1, hr.2.1, hrest ▸ hr.2.2⟩⟩

/-- Inside a packet it reads all it is asked for. -/
theorem readExact_all (hV : Connection V rest time) {bytes r : List UInt8} {c : MqttCtx}
    {e : E × Watch} (hfits : c.Fits cap) (hpolled : e.2.polled = .no)
    (hrest : rest e.1 = bytes ++ r) (hin : Within inside bytes r) :
    wp (timely V rest time inside Watch.began) (Guarded cap)
    (readExact bytes.length mqttAckTimeoutMs)
      (fun x c' e' ↦ x = (.ok, bytes) ∧ c.Same c' ∧ e'.2.polled = .no ∧ rest e'.1 = r)
        c e := by
  have hwithin : ∀ got r', rest e.1 = got ++ r' → got.length < bytes.length → inside r' := by
    intro got r' hsplit hlt
    have hr' : r' = bytes.drop got.length ++ r := by
      rw [← List.drop_append_of_le_length hlt.le, ← hrest, hsplit, List.drop_left]
    exact hr' ▸ hin got.length hlt
  refine (readExact_took hV hfits hpolled fun _ ↦ hwithin).imp ?_
  rintro ⟨x, got⟩ c' e' ⟨hsame, hpolled', hsplit, ⟨rfl, hlen⟩ | ⟨rfl, hlen, hout⟩⟩
  · obtain ⟨rfl, hr⟩ := List.append_inj (hsplit.symm.trans hrest) hlen
    exact ⟨rfl, hsame, hpolled', hr⟩
  · exact absurd rfl (hout (hwithin got _ hsplit hlen))

/-- The first byte of a packet, if one comes at once. -/
theorem readExact_first (hV : Connection V rest time) {c : MqttCtx} {e : E × Watch}
    (hfits : c.Fits cap) (hpolled : e.2.polled = .no) :
    wp (timely V rest time inside Watch.began) (Guarded cap) (readExact 1 0)
      (fun x c' e' ↦ c.Same c' ∧ e'.2.polled = .no ∧
        (x = (.timeout, []) ∧ rest e'.1 = rest e.1 ∨ ∃ b, x = (.ok, [b]) ∧ rest e.1 =
          b :: rest e'.1)) c e := by
  refine (readExact_took hV hfits hpolled fun h ↦ absurd rfl h).imp ?_
  rintro ⟨x, got⟩ c' e' ⟨hsame, hpolled', hsplit, ⟨rfl, hlen⟩ | ⟨rfl, hlen, -⟩⟩
  · obtain ⟨b, rfl⟩ := List.length_eq_one_iff.mp hlen
    exact ⟨hsame, hpolled', .inr ⟨b, rfl, hsplit⟩⟩
  · obtain rfl := List.length_eq_zero_iff.mp (Nat.lt_one_iff.mp hlen)
    exact ⟨hsame, hpolled', .inl ⟨rfl, hsplit.symm⟩⟩

/-- The remaining length. -/
theorem readLengthBytes_all (hV : Connection V rest time) {r : List UInt8} {n len : ℕ}
    {size : List UInt8} (hsize : Sized n size len) :
    ∀ {value mult : ℕ} {c : MqttCtx} {e : E × Watch}, c.Fits cap →
    e.2.polled = .no →
      rest e.1 = size ++ r → Within inside size r →
      wp (timely V rest time inside Watch.began) (Guarded cap) (readLengthBytes n value mult)
        (fun x c' e' ↦ x = some (value + len * mult) ∧ c.Same c' ∧ e'.2.polled = .no ∧
          rest e'.1 = r) c e := by
  -- The induction is on the length's bytes: each turn adds its seven bits and multiplies by 128.
  induction hsize with
  | @last n b h =>
    intro value mult c e hfits hpolled hrest hin
    refine (readExact_all hV hfits hpolled (show rest e.1 = [b] ++ r from hrest) hin).seq ?_
    rintro _ c₁ e₁ ⟨rfl, hsame, hpolled₁, hrest₁⟩
    refine pre_ite (fun hr ↦ absurd rfl hr) fun _ ↦ pre_ite (fun _ e₂ hd ↦ ?_) fun hb ↦
      absurd h hb
    obtain ⟨hrest₂, -, hwatch₂⟩ := hV.timely_drifts hd
    exact ⟨rfl, hsame, hwatch₂ ▸ hpolled₁, hrest₂.trans hrest₁⟩
  | @more n b size len h hs ih =>
    intro value mult c e hfits hpolled hrest hin
    have hin : Within inside ([b] ++ size) r := hin
    refine (readExact_all hV hfits hpolled (show rest e.1 = [b] ++ (size ++ r) from hrest)
      hin.left).seq ?_
    rintro _ c₁ e₁ ⟨rfl, hsame, hpolled₁, hrest₁⟩
    refine pre_ite (fun hr ↦ absurd rfl hr) fun _ ↦ pre_ite (fun hb ↦ absurd hb h) fun _ ↦ ?_
    refine (ih (hsame.fits hfits) hpolled₁ hrest₁ hin.right).imp ?_
    rintro _ c₂ e₂ ⟨rfl, hsame₂, hpolled₂, hrest₂⟩
    refine ⟨congrArg some ?_, hsame.trans hsame₂, hpolled₂, hrest₂⟩
    simp only [List.headD_cons]
    ring

/-- A body that is dropped. -/
theorem dropBytes_all (hV : Connection V rest time) (hcap : 0 < cap) {bytes r : List UInt8}
    {c : MqttCtx} {e : E × Watch} (hfits : c.Fits cap) (hpolled : e.2.polled = .no)
    (hrest : rest e.1 = bytes ++ r) (hin : Within inside bytes r) :
    wp (timely V rest time inside Watch.began) (Guarded cap) (dropBytes bytes.length)
      (fun x c' e' ↦ x = .ok ∧ c'.Fits cap ∧ e'.2.polled = .no ∧ rest e'.1 = r) c e := by
  refine pre_modify_bind.mpr ⟨fun n c' e' ↦ c'.toDrop = n ∧ c'.Fits cap ∧ e'.2.polled = .no ∧
    ∃ more, more.length = n ∧ rest e'.1 = more ++ r ∧ Within inside more r,
    ⟨_, rfl, hfits, hpolled, bytes, rfl, hrest, hin⟩, ?_⟩
  rintro n c₁ e₁ ⟨rfl, hfits₁, hpolled₁, more, hmore, hrest₁, hin₁⟩
  refine pre_get_bind.mpr (pre_ite (fun hzero e₂ hd e₃ hd' ↦ ?_) fun hpos ↦ ?_)
  · obtain ⟨hrest₂, -, hwatch₂⟩ := hV.timely_drifts (hd.trans hd')
    obtain rfl : more = [] := List.length_eq_zero_iff.mp (hmore.trans hzero)
    exact ⟨rfl, hfits₁, hwatch₂ ▸ hpolled₁, hrest₂.trans hrest₁⟩
  · -- The next chunk, and what is left then.
    set chunk := if c₁.toDrop < c₁.cap then c₁.toDrop else c₁.cap with hchunk
    have hle : chunk ≤ more.length ∧ chunk ≤ cap ∧ 0 < chunk := by
      rw [hmore, hchunk, hfits₁.2]
      split <;> omega
    have hsplit : more = more.take chunk ++ more.drop chunk := (List.take_append_drop _ _).symm
    have htake : (more.take chunk).length = chunk := List.length_take_of_le hle.1
    rw [hsplit] at hrest₁ hin₁
    rw [List.append_assoc] at hrest₁
    have hread := readExact_all hV hfits₁ hpolled₁ hrest₁ hin₁.left
    rw [htake] at hread
    refine hread.seq ?_
    rintro _ c₂ e₂ ⟨rfl, hsame, hpolled₂, hrest₂⟩
    refine pre_modify_bind.mpr (pre_ite (fun hr ↦ absurd rfl hr) fun _ ↦ pre_modify_bind.mpr
      fun e₃ hd ↦ ?_)
    obtain ⟨hrest₃, -, hwatch₃⟩ := hV.timely_drifts hd
    have hfits₂ := hsame.fits hfits₁
    refine ⟨c₁.toDrop - chunk, by omega, by simp only [hsame.toDrop], ⟨?_, hfits₂.2⟩,
      hwatch₃ ▸ hpolled₂, more.drop chunk,
      by rw [List.length_drop, hmore], hrest₃.trans hrest₂, hin₁.right⟩
    simp only [List.length_append, List.length_drop, htake, hfits₂.1]
    omega

/-! ## One packet -/

/-- What a call of `read_packet` does with a packet in front of it. -/
def Takes (rest : E → List UInt8) (cap : ℕ) (p : Packet) (r : List UInt8) (x : PacketRead)
    (c' : MqttCtx) (e' : E × Watch) : Prop :=
  c'.Fits cap ∧ e'.2.polled = .no ∧
    (x = .nothing ∧ rest e'.1 = p.encode ++ r ∨
      x = p.outcome cap ∧ (p.body.length ≤ cap → c'.rxbuf.take p.body.length = p.body) ∧
        rest e'.1 = r)

theorem takes_drifts (hV : Connection V rest time) {since : Watch → ℕ} {p : Packet}
    {r : List UInt8} {x : PacketRead} {c : MqttCtx} {e e' : E × Watch}
    (h : Takes rest cap p r x c e) (hd : (timely V rest time inside since).Drifts e e') :
    Takes rest cap p r x c e' := by
  obtain ⟨hrest, -, hwatch⟩ := hV.timely_drifts hd
  exact ⟨h.1, hwatch ▸ h.2.1, hrest ▸ h.2.2⟩

theorem readBody_takes (hV : Connection V rest time) (hcap : 0 < cap) {p : Packet} {r : List UInt8}
    {c : MqttCtx} {e : E × Watch} (hfits : c.Fits cap) (hpolled : e.2.polled = .no)
    (hrest : rest e.1 = p.body ++ r) (hin : Within inside p.body r) :
    wp (timely V rest time inside Watch.began) (Guarded cap) (readBody p.first p.body.length)
    (Takes rest cap p r)
      c e := by
  refine pre_get_bind.mpr (pre_ite (fun hover ↦ ?_) fun hfit ↦ ?_)
  · -- A body that does not fit is read past.
    rw [hfits.2] at hover
    refine (dropBytes_all hV hcap hfits hpolled hrest hin).seq ?_
    rintro _ c₁ e₁ ⟨rfl, hfits₁, hpolled₁, hrest₁⟩ e₂ hd
    refine takes_drifts hV ⟨hfits₁, hpolled₁, .inr ⟨?_, fun hle ↦ absurd hle (by omega),
      hrest₁⟩⟩ hd
    rw [if_pos rfl, Packet.outcome, if_neg (by omega)]
  · rw [hfits.2] at hfit
    have houtcome : p.outcome cap = .packet (p.first >>> 4) (p.first &&& 0x0F) p.body.length :=
      if_pos (by omega)
    refine pre_ite (fun hzero e₁ hd ↦ ?_) fun hpos ↦ ?_
    · have hbody : p.body = [] := List.length_eq_zero_iff.mp hzero
      rw [hbody] at hrest
      exact takes_drifts hV ⟨hfits, hpolled, .inr ⟨houtcome.symm, fun _ ↦ by rw [hbody]; rfl,
        hrest⟩⟩ hd
    · refine (readExact_all hV hfits hpolled hrest hin).seq ?_
      rintro _ c₁ e₁ ⟨rfl, hsame, hpolled₁, hrest₁⟩
      have hfits₁ := hsame.fits hfits
      refine pre_modify_bind.mpr fun e₂ hd ↦
        takes_drifts hV ⟨⟨?_, hfits₁.2⟩, hpolled₁,
        .inr ⟨?_, fun _ ↦ ?_, hrest₁⟩⟩ hd
      · simp only [List.length_append, List.length_drop, hfits₁.1]
        omega
      · rw [if_pos rfl, houtcome]
      · exact List.take_left

theorem readPacket_takes (hV : Connection V rest time) (hcap : 0 < cap) {p : Packet}
    {r : List UInt8} {c : MqttCtx} {e : E × Watch} (hfits : c.Fits cap) (hpolled : e.2.polled = .no)
    (hrest : rest e.1 = p.encode ++ r) (hin : Within inside (p.size ++ p.body) r) :
    wp (timely V rest time inside Watch.began) (Guarded cap) readPacket
    (Takes rest cap p r) c e := by
  refine (readExact_first hV hfits hpolled).seq ?_
  rintro x c₁ e₁ ⟨hsame, hpolled₁, ⟨rfl, hrest₁⟩ | ⟨b, rfl, hrest₁⟩⟩
  · exact fun e₂ hd ↦
      takes_drifts hV ⟨hsame.fits hfits, hpolled₁, .inl ⟨rfl, hrest₁.trans hrest⟩⟩ hd
  · obtain ⟨rfl, hbytes⟩ := List.cons.inj (hrest.symm.trans hrest₁)
    have hbytes : rest e₁.1 = p.size ++ (p.body ++ r) := by
      rw [← hbytes]
      exact List.append_assoc _ _ _
    refine (readLengthBytes_all hV p.sized (hsame.fits hfits) hpolled₁ hbytes hin.left).seq ?_
    rintro _ c₂ e₂ ⟨rfl, hsame₂, hpolled₂, hrest₂⟩
    have hlen : 0 + p.body.length * 1 = p.body.length := by omega
    rw [hlen]
    exact readBody_takes hV hcap (hsame₂.fits (hsame.fits hfits)) hpolled₂ hrest₂ hin.right

/-- At the end of the stream nothing comes. -/
theorem readPacket_end (hV : Connection V rest time) {c : MqttCtx} {e : E × Watch}
    (hfits : c.Fits cap) (hpolled : e.2.polled = .no) (hrest : rest e.1 = []) :
    wp (timely V rest time inside Watch.began) (Guarded cap) readPacket
      (fun x c' e' ↦ c'.Fits cap ∧ e'.2.polled = .no ∧ x = .nothing ∧ rest e'.1 = []) c e := by
  refine (readExact_first hV hfits hpolled).seq ?_
  rintro x c₁ e₁ ⟨hsame, hpolled₁, ⟨rfl, hrest₁⟩ | ⟨b, rfl, hrest₁⟩⟩
  · intro e₂ hd
    obtain ⟨hrest₂, -, hwatch₂⟩ := hV.timely_drifts hd
    exact ⟨hsame.fits hfits, hwatch₂ ▸ hpolled₁, rfl, hrest₂.trans (hrest₁.trans hrest)⟩
  · exact absurd (hrest.symm.trans hrest₁) (List.cons_ne_nil _ _).symm

end

/-! ## Every packet -/

/-- `read_packet`, and what is in `rxbuf` when it has returned. -/
def received : Client (PacketRead × List UInt8) := do
  let r ← readPacket
  let c ← get
  return (r, c.rxbuf)

/-- The packets are what the calls have reported, in order. A call that has taken nothing of the
stream reports nothing. -/
inductive Reported {E : Type} (rest : E → List UInt8) (cap : ℕ) :
    List Packet → List (Event Unit (E × Watch) (PacketRead × List UInt8)) → Prop
  | start : Reported rest cap [] []
  | idle {packets : List Packet} {log : List (Event Unit (E × Watch) (PacketRead × List UInt8))}
      {x : Event Unit (E × Watch) (PacketRead × List UInt8)} (h : Reported rest cap packets log)
      (hrest : rest x.after.1 = rest x.before.1) (hx : x.result.1 = .nothing) :
        Reported rest cap packets (log ++ [x])
  | packet {packets : List Packet} {log : List (Event Unit (E × Watch) (PacketRead × List UInt8))}
      {x : Event Unit (E × Watch) (PacketRead × List UInt8)} {p : Packet}
        (h : Reported rest cap packets log)
      (hrest : rest x.before.1 = p.encode ++ rest x.after.1) (hx : x.result.1 = p.outcome cap)
      (hbody : p.body.length ≤ cap → x.result.2.take p.body.length = p.body) :
      Reported rest cap (packets ++ [p]) (log ++ [x])

/-- Wherever the calls have got to: the packets before that point have been reported, one by one,
and the stream is at the start of the next. No call has given up. The next one does not write behind
the buffer, and returns. -/
def InSync {E : Type} (V : Env MqttCtx (E × Watch) MqttOp.Ans) (rest : E → List UInt8)
    (packets : List Packet) (c₀ : MqttCtx) (e₀ : E × Watch) : Prop :=
  ∀ log c e, Session V (fun _ : Unit ↦ received) c₀ e₀ log c e →
    (∃ done todo, packets = done ++ todo ∧ rest e.1 = encodeAll todo ∧
      Reported rest c₀.cap done log) ∧
      (∀ x ∈ log, x.result.1 ≠ .over) ∧
      (∀ o c' e', Performs V received c e o c' e' → c'.rxbuf.length = c₀.cap) ∧
        Halts V.bundled received c e

section

variable {E : Type} {V : Env MqttCtx E MqttOp.Ans} {rest : E → List UInt8} {time : E → ℕ}

/-- One more call. -/
theorem received_reports (hV : Connection V rest time) {cap : ℕ} (hcap : 0 < cap)
    {packets done todo : List Packet} (hpackets : packets = done ++ todo) {c : MqttCtx}
    {e : E × Watch} (hfits : c.Fits cap) (hpolled : e.2.polled = .no)
    (hrest : rest e.1 = encodeAll todo) :
    wp (timely V rest time (Inside packets) Watch.began) (Guarded cap) received
      (fun x c' e' ↦ c'.Fits cap ∧ e'.2.polled = .no ∧ x.1 ≠ .over ∧
        (x.1 = .nothing ∧ rest e'.1 = encodeAll todo ∨
          ∃ p todo', todo = p :: todo' ∧ x.1 = p.outcome cap ∧
          (p.body.length ≤ cap → x.2.take p.body.length = p.body) ∧
            rest e'.1 = encodeAll todo')) c e := by
  cases todo with
  | nil =>
    -- The stream is at its end, so nothing but time-outs can come.
    refine (readPacket_end hV hfits hpolled hrest).seq ?_
    rintro _ c₁ e₁ ⟨hfits₁, hpolled₁, rfl, hrest₁⟩
    refine pre_get_bind.mpr fun e₂ hd ↦ ?_
    obtain ⟨hrest₂, -, hwatch₂⟩ := hV.timely_drifts hd
    exact ⟨hfits₁, hwatch₂ ▸ hpolled₁, (fun h ↦ nomatch h),
      .inl ⟨rfl, hrest₂.trans hrest₁⟩⟩
  | cons p todo =>
    refine (readPacket_takes hV hcap hfits hpolled hrest (within_inside hpackets)).seq
      fun x c₁ e₁ htakes ↦ ?_
    refine pre_get_bind.mpr fun e₂ hd ↦ ?_
    obtain ⟨hfits₂, hpolled₂, ⟨rfl, hrest₂⟩ | ⟨rfl, hbody, hrest₂⟩⟩ :=
      takes_drifts hV htakes hd
    · exact ⟨hfits₂, hpolled₂, (fun h ↦ nomatch h), .inl ⟨rfl, hrest₂⟩⟩
    · refine ⟨hfits₂, hpolled₂, ?_, .inr ⟨p, todo, rfl, rfl, hbody, hrest₂⟩⟩
      rw [Packet.outcome]
      split
      · exact fun h ↦ nomatch h
      · exact fun h ↦ nomatch h

theorem received_inSync (hV : Connection V rest time) {packets : List Packet} {c₀ : MqttCtx}
    {e₀ : E × Watch} (hcap : 0 < c₀.cap) (hbuf : c₀.rxbuf.length = c₀.cap)
    (hpolled : e₀.2.polled = .no) (hrest : rest e₀.1 = encodeAll packets) :
    InSync (timely V rest time (Inside packets) Watch.began) rest packets c₀ e₀ := by
  intro log c e h
  have hinv : c.Fits c₀.cap ∧ e.2.polled = .no ∧ (∀ x ∈ log, x.result.1 ≠ .over) ∧
      ∃ done todo, packets = done ++ todo ∧ rest e.1 = encodeAll todo ∧
        Reported rest c₀.cap done log := by
    induction h with
    | start => exact ⟨⟨hbuf, rfl⟩, hpolled, by simp, [], packets, rfl, hrest, .start⟩
    | drift _ hd ih =>
      obtain ⟨hfits, hpolled, hover, done, todo, hpackets, hrest, hreported⟩ := ih
      obtain ⟨hrest', -, hwatch⟩ := hV.timely_drifts (.single hd)
      exact ⟨hfits, hwatch ▸ hpolled, hover, done, todo, hpackets, hrest'.trans hrest, hreported⟩
    | @call log c c' e e' _ r _ hr ih =>
      obtain ⟨hfits, hpolled, hover, done, todo, hpackets, hrest, hreported⟩ := ih
      obtain ⟨hfits', hpolled', hgo, hreport⟩ :=
        (received_reports hV hcap hpackets hfits hpolled hrest).returns hr
      refine ⟨hfits', hpolled', ?_, ?_⟩
      · intro x hx
        obtain hx | rfl := (List.mem_append.mp hx).imp_right List.mem_singleton.mp
        · exact hover x hx
        · exact hgo
      · rcases hreport with ⟨hnothing, hrest'⟩ | ⟨p, todo', rfl, houtcome, hbody, hrest'⟩
        · exact ⟨done, todo, hpackets, hrest', hreported.idle (hrest'.trans hrest.symm) hnothing⟩
        · refine ⟨done ++ [p], todo', ?_, hrest', hreported.packet ?_ houtcome hbody⟩
          · rw [hpackets, List.append_assoc, List.singleton_append]
          · rw [hrest, hrest', encodeAll_cons]
  obtain ⟨hfits, hpolled, hover, done, todo, hpackets, hrest, hreported⟩ := hinv
  have hcall := received_reports hV hcap hpackets hfits hpolled hrest
  exact ⟨⟨done, todo, hpackets, hrest, hreported⟩, hover, fun o c' e' hp ↦
    (hcall.performs hp).1, wp_halts_bundled hcall⟩

end

/-! ## A broker -/

/-- A broker at work: what it has to send, the time, and when the next byte is there. -/
structure Peer where
  rest : List UInt8
  time : ℕ := 0
  plan : List Bool := []
  deriving DecidableEq

/-- It sends a byte where there is one according to plan, and otherwise a second goes by. -/
def peer (o : MqttOp) (e : Peer) : o.Ans × Peer :=
  match o with
  | .recv _ 0 => (.error .ewouldblock, { e with time := e.time + 1000 })
  | .recv _ (_ + 1) => match e.plan, e.rest with
    | true :: plan, b :: rest => (.ok [b], { e with rest, plan })
    | _, _ => (.error .ewouldblock, { e with time := e.time + 1000, plan := e.plan.tail })
  | .send _ data => (.ok data.length, e)
  | .nowMs => (UInt32.ofNat e.time, e)
  | .delay => ((), e)

theorem peer_recv (fd : ℤ) (len : ℕ) (e : Peer) :
    (∃ b, (peer (.recv fd (len + 1)) e).1 = .ok [b] ∧ e.rest =
      b :: (peer (.recv fd (len + 1)) e).2.rest ∧
        e.time = (peer (.recv fd (len + 1)) e).2.time) ∨
      (peer (.recv fd (len + 1)) e).1 = .error .ewouldblock ∧ (peer (.recv fd (len + 1)) e).2.rest =
      e.rest ∧
        e.time < (peer (.recv fd (len + 1)) e).2.time := by
  obtain ⟨rest, time, plan⟩ := e
  rcases plan with _ | ⟨_ | _, plan⟩
  · exact .inr ⟨rfl, rfl, Nat.lt_add_of_pos_right (by decide)⟩
  · exact .inr ⟨rfl, rfl, Nat.lt_add_of_pos_right (by decide)⟩
  · cases rest with
    | nil => exact .inr ⟨rfl, rfl, Nat.lt_add_of_pos_right (by decide)⟩
    | cons b rest => exact .inl ⟨b, rfl, rfl, rfl⟩

theorem peer_connection : Connection (Env.script peer) Peer.rest Peer.time where
  drift h := h.elim
  recv := by
    rintro fd (_ | len) c e _ _ ⟨rfl, rfl⟩
    · exact .inr ⟨.ewouldblock, rfl, rfl, rfl, Nat.lt_add_of_pos_right (by decide)⟩
    · rcases peer_recv fd len e with ⟨b, hb, hrest, htime⟩ | ⟨hquiet, hrest, htime⟩
      · exact .inl ⟨[b], hb, List.cons_ne_nil _ _, Nat.le_add_left _ _, hrest, htime.le⟩
      · exact .inr ⟨.ewouldblock, hquiet, rfl, hrest, htime⟩
  nowMs := by
    rintro c e _ _ ⟨rfl, rfl⟩
    exact ⟨rfl, rfl, le_rfl⟩

/-- A publication of three bytes. -/
def threeBytes : Packet := ⟨0x30, [3], [0, 1, 0x74], .last rfl⟩

/-- A client with a buffer for it. -/
def roomy : MqttCtx := { rxbuf := [0, 0, 0, 0], cap := 4 }

/-- **Framing.** Where every time-out inside a packet is noticed before `MQTT_ACK_TIMEOUT_MS` have
gone by since the client began to read what it is reading, the client stays in step with the
packets: whatever they are, however the stream is split and whenever nothing comes, they are
reported one by one, those that are too long for the buffer as nothing. -/
theorem received_inSync_of_began {E : Type} {V : Env MqttCtx E MqttOp.Ans} {rest : E → List UInt8}
    {time : E → ℕ} (hV : Connection V rest time) {packets : List Packet} {c₀ : MqttCtx}
    {e₀ : E} (hcap : 0 < c₀.cap) (hbuf : c₀.rxbuf.length = c₀.cap)
    (hrest : rest e₀ = encodeAll packets) :
    InSync (timely V rest time (Inside packets) Watch.began) rest packets c₀ (e₀, {}) :=
  received_inSync hV hcap hbuf rfl hrest

theorem received_inSync_of_began_twice :
    InSync (timely (Env.script peer) Peer.rest Peer.time (Inside [threeBytes, threeBytes])
      Watch.began) Peer.rest
      [threeBytes, threeBytes] roomy ({ rest := encodeAll [threeBytes, threeBytes] }, {}) :=
  received_inSync_of_began peer_connection (by decide) rfl rfl

/-- The broker and the watch. -/
def watchedPeer (o : MqttOp) (e : Peer × Watch) : o.Ans × (Peer × Watch) :=
  ((peer o e.1).1, (peer o e.1).2, e.2.see Peer.time o e.1 (peer o e.1).1)

/-- Is less than `MQTT_ACK_TIMEOUT_MS` gone by since the last byte? -/
def gapShort (o : MqttOp) (_ : MqttCtx) (e : Peer × Watch) : Bool :=
  o ≠ .nowMs || e.2.polled ≠ .quiet || decide (e.1.time < e.2.last + mqttAckTimeoutMs.toNat)

theorem gapShort_timely (packets : List Packet) (o : MqttOp) (c : MqttCtx) (e : Peer × Watch)
    (h : gapShort o c e = true) (ho : o = .nowMs) (hq : e.2.polled = .quiet)
    (_ : Inside packets e.1.rest) : e.1.time < e.2.last + mqttAckTimeoutMs.toNat := by
  simpa [gapShort, ho, hq] using h

/-- The second byte of a body comes after three seconds, and the third is two seconds late when the
client gives up: five seconds have gone by since it began to read. -/
theorem not_received_inSync_of_gaps :
    ¬∀ (E : Type) (V : Env MqttCtx E MqttOp.Ans) (rest : E → List UInt8) (time : E → ℕ),
    Connection V rest time →
      ∀ (packets : List Packet) (c₀ : MqttCtx) (e₀ : E), 0 < c₀.cap → c₀.rxbuf.length =
      c₀.cap →
        rest e₀ = encodeAll packets →
        InSync (timely V rest time (Inside packets) Watch.last) rest packets c₀ (e₀, {}) := by
  intro h
  have hr := returns_passes (V := (Env.script peer).recorded fun o (_ : MqttCtx) e a (w : Watch) ↦
    w.see Peer.time o e a) (h := watchedPeer) (n := 200) (p := received) (s := roomy)
    (e := ({ rest := encodeAll [threeBytes], plan := [true, true, true, false, false, false, true]
      }, {}))
    (a := (.over, [0, 1, 0, 0])) (fun _ _ _ ↦ ⟨⟨rfl, rfl⟩, rfl⟩)
      (gapShort_timely [threeBytes])
    (by decide) (by decide)
  have hsession :
      Session (timely (Env.script peer) Peer.rest Peer.time (Inside [threeBytes]) Watch.last)
      (fun _ : Unit ↦ received) roomy _ _ _ _ := .call () .start hr
  exact (h Peer (Env.script peer) Peer.rest Peer.time peer_connection [threeBytes] roomy _
    (by decide) rfl rfl _ _ _
    hsession).2.1 _ (List.mem_append_right _ (List.mem_singleton_self _)) rfl

end WsmDriver.Mqtt
