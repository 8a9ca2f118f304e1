import WsmDriver.Effect.Embed
import WsmDriver.Mqtt.Packets
import WsmDriver.Mqtt.Session

/-!
# What goes over the connection

A `Wire` is what an observer at the socket calls has seen: which socket is open, whether it is
connected, and the bytes that have gone each way since it was opened. Time plays no part, and
nothing is assumed of the other end. A call may time out or fail at any moment; all that is asked is
that `recv` stores no more than there is room for and that `send` takes no more than it is given.

The functions of the client are described by what they do to the wire. `read_packet` takes one
packet from it or nothing, unless it ends the session. `send_all` puts its bytes there, or some of
them, and then the connection is `broken`: what has been sent stops in the middle of a packet, and
whatever follows makes no sense to the other end.
-/

namespace WsmDriver.Mqtt

open Effect Program
open W6300 (be16 word)

/-! ## The wire -/

structure Wire where
  fd : Option ℤ := none
  linked : Bool := false
  /-- What `recv` has brought. -/
  inn : List UInt8 := []
  /-- What `send` has taken. -/
  out : List UInt8 := []
  /-- A `send` has failed. -/
  broken : Bool := false
  /-- The messages shown. -/
  shown : List (List UInt8 × List UInt8) := []
  deriving DecidableEq

namespace Wire

def hear (bytes : List UInt8) (w : Wire) : Wire := { w with inn := w.inn ++ bytes }

def say (bytes : List UInt8) (w : Wire) : Wire := { w with out := w.out ++ bytes }

def snap (w : Wire) : Wire := { w with broken := true }

/-- The wire after a socket call of the client. -/
def noteIo (o : MqttOp) (_ : MqttCtx) (a : o.Ans) (w : Wire) : Wire :=
  match o, a with
  | .recv _ _, .ok bytes => w.hear bytes
  | .send _ data, .ok (n + 1) => w.say (data.take (n + 1))
  | .send _ _, .ok 0 => w.snap
  | .send _ _, .error errno => if errnoIsTimeout errno = true then w else w.snap
  | _, _ => w

@[simp] theorem hear_nil (w : Wire) : w.hear [] = w := by simp [hear]

@[simp] theorem hear_hear (w : Wire) (a b : List UInt8) : (w.hear a).hear b = w.hear (a ++ b) := by
  simp [hear]

@[simp] theorem say_nil (w : Wire) : w.say [] = w := by simp [say]

@[simp] theorem say_say (w : Wire) (a b : List UInt8) : (w.say a).say b = w.say (a ++ b) := by
  simp [say]

end Wire

/-- `recv` stores no more than there is room for, `send` takes no more than it is given. -/
def MqttOp.Fair : (o : MqttOp) → o.Ans → Prop
  | .recv _ len, a => ∀ bytes, a = .ok bytes → bytes.length ≤ len
  | .send _ data, a => ∀ n, a = .ok n → n ≤ data.length
  | .nowMs, _ | .delay, _ => True

/-- The connection and the configuration are the same. -/
structure MqttCtx.Steady (c c' : MqttCtx) : Prop where
  fd : c'.fd = c.fd
  cfg : c'.cfg = c.cfg
  cap : c'.cap = c.cap

/-- And so is the buffer. -/
structure MqttCtx.Still (c c' : MqttCtx) : Prop extends c.Steady c' where
  rxbuf : c'.rxbuf = c.rxbuf
  toDrop : c'.toDrop = c.toDrop

namespace MqttCtx

variable {c c₁ c₂ : MqttCtx}

theorem Steady.refl (c : MqttCtx) : c.Steady c := ⟨rfl, rfl, rfl⟩

theorem Steady.trans (h₁ : c.Steady c₁) (h₂ : c₁.Steady c₂) : c.Steady c₂ :=
  ⟨h₂.fd.trans h₁.fd, h₂.cfg.trans h₁.cfg, h₂.cap.trans h₁.cap⟩

theorem Still.refl (c : MqttCtx) : c.Still c := ⟨.refl c, rfl, rfl⟩

theorem Still.trans (h₁ : c.Still c₁) (h₂ : c₁.Still c₂) : c.Still c₂ :=
  ⟨h₁.toSteady.trans h₂.toSteady, h₂.rxbuf.trans h₁.rxbuf, h₂.toDrop.trans h₁.toDrop⟩

end MqttCtx

/-! ## Less than a packet -/

/-- What the header says of the length does not depend on what follows it. -/
theorem Sized.eq_of_prefix {n len : ℕ} {a : List UInt8} (ha : Sized n a len) :
    ∀ {m len' : ℕ} {b x y : List UInt8},
    Sized m b len' → a ++ x <+: b ++ y → a = b ∧ len = len' := by
  induction ha with
  | last hlast =>
    intro m len' b x y hb h
    cases hb with
    | last _ =>
      obtain ⟨rfl, -⟩ := List.cons_prefix_cons.mp h
      exact ⟨rfl, rfl⟩
    | more hmore _ =>
      obtain ⟨rfl, -⟩ := List.cons_prefix_cons.mp h
      exact absurd hlast hmore
  | more hmore _ ih =>
    intro m len' b x y hb h
    cases hb with
    | last hlast =>
      obtain ⟨rfl, -⟩ := List.cons_prefix_cons.mp h
      exact absurd hlast hmore
    | more _ hs =>
      rw [List.cons_append, List.cons_append, List.cons_prefix_cons] at h
      obtain ⟨rfl, hrest⟩ := h
      obtain ⟨rfl, rfl⟩ := ih hs hrest
      exact ⟨rfl, rfl⟩

theorem Sized.exists_last {n len : ℕ} {size : List UInt8} (h : Sized n size len) :
    ∃ b ∈ size, b &&& 0x80 = 0 := by
  induction h with
  | last hlast => exact ⟨_, List.mem_singleton_self _, hlast⟩
  | more _ _ ih =>
    obtain ⟨b, hb, hlast⟩ := ih
    exact ⟨b, List.mem_cons_of_mem _ hb, hlast⟩

/-- There is no whole packet at the start of these bytes. -/
def Partway (part : List UInt8) : Prop := ∀ p : Packet, ¬p.encode <+: part

theorem partway_nil : Partway [] := by
  intro p h
  exact absurd (List.prefix_nil.mp h) (List.cons_ne_nil _ _)

theorem partway_size {hdr : UInt8} {part : List UInt8} (h : ∀ b ∈ part, b &&& 0x80 ≠ 0) :
    Partway ([hdr] ++ part) := by
  intro p hp
  obtain ⟨-, hp⟩ := List.cons_prefix_cons.mp hp
  obtain ⟨b, hb, hlast⟩ := p.sized.exists_last
  exact h b (hp.subset (List.mem_append_left _ hb)) hlast

theorem partway_body {hdr : UInt8} {rem : ℕ} {size part : List UInt8} (hsized : Sized 4 size rem)
    (h : part.length < rem) : Partway (hdr :: size ++ part) := by
  intro p hp
  rw [Packet.encode, List.cons_append, List.cons_prefix_cons] at hp
  obtain ⟨-, hp⟩ := hp
  obtain ⟨hsize, hlen⟩ := p.sized.eq_of_prefix hsized hp
  rw [hsize, List.prefix_append_right_inj] at hp
  have := hp.length_le
  omega

/-- Nothing is sent, and `recv` is called only while what has been heard since `w₀` is not
enough. -/
def Listening (fd : ℤ) (w₀ : Wire) (wanting : List UInt8 → Prop) : MqttOp → MqttCtx →
    Wire → Prop
  | .recv fd' _, _, w => fd' = fd ∧ ∃ part, wanting part ∧ w = w₀.hear part
  | .send _ _, _, _ => False
  | .nowMs, _, _ | .delay, _, _ => True

/-- After some bytes more of them are wanted. -/
theorem Listening.after {fd : ℤ} {w₀ : Wire} {part : List UInt8}
    {wanting wanting' : List UInt8 → Prop} {o : MqttOp} {c : MqttCtx} {w : Wire}
    (h : Listening fd (w₀.hear part) wanting o c w)
    (hw : ∀ more, wanting more → wanting' (part ++ more)) : Listening fd w₀ wanting' o c w := by
  cases o with
  | recv fd' len =>
    obtain ⟨rfl, more, hmore, rfl⟩ := h
    exact ⟨rfl, part ++ more, hw more hmore, w₀.hear_hear _ _⟩
  | send => exact h
  | nowMs => exact h
  | delay => exact h

section

variable {E : Type} {V : Env MqttCtx E MqttOp.Ans} {c : MqttCtx} {w : Wire}

/-! ## Reading -/

theorem recorded_storeRx {G : MqttOp → MqttCtx → Wire → Prop} {α : Type} {bytes : List UInt8}
    {k : PUnit → Client α} {Q : α → MqttCtx → Wire → Prop}
    (h : ∀ c₁, c.Steady c₁ → c₁.rxbuf.take bytes.length = bytes → c₁.toDrop =
      c.toDrop →
      Recorded V Wire.noteIo G (k ⟨⟩) Q c₁ w) : Recorded V Wire.noteIo G (storeRx bytes >>= k)
        Q c w :=
  .modify_bind (h _ ⟨rfl, rfl, rfl⟩ (List.take_left' rfl) rfl)

/-- What `recv_some` brings, and what is in the context then. -/
def Brought (c : MqttCtx) (w : Wire) (n : ℕ) (x : Rd × List UInt8) (c' : MqttCtx) (w' : Wire) :
    Prop :=
  c.Still c' ∧ c'.got = c.got ∧ w' = w.hear x.2 ∧ x.2.length ≤ n ∧ (x.1 ≠ .ok → x.2 = [])

variable (hV : ∀ o s e a e', V.answer o s e a e' → o.Fair a)

include hV

theorem recorded_recvSome {G : MqttOp → MqttCtx → Wire → Prop} {n : ℕ}
    (hrecv : G (.recv c.fd n) c w) (hnow : ∀ c w, G .nowMs c w) :
    Recorded V Wire.noteIo G (recvSome n) (Brought c w n) c w := by
  refine .get_bind (.answer_bind hrecv fun ε a ε' ha ↦ ?_)
  rcases a with errno | _ | ⟨b, bytes⟩
  · exact .pure ⟨.refl c, rfl, (w.hear_nil).symm, Nat.zero_le _, fun _ ↦ rfl⟩
  · exact .pure ⟨.refl c, rfl, rfl, Nat.zero_le _, fun _ ↦ rfl⟩
  · refine .perform_bind (hnow _ _) fun now ↦
      .modify_bind (.pure ⟨⟨⟨rfl, rfl, rfl⟩, rfl, rfl⟩, rfl, rfl, ?_, ?_⟩)
    · exact hV _ _ _ _ _ ha _ rfl
    · exact fun h ↦ absurd rfl h

/-- What `read_exact` brings: all it was asked for, or less and no success. -/
def Filled (c : MqttCtx) (w : Wire) (n : ℕ) (x : Rd × List UInt8) (c' : MqttCtx) (w' : Wire) :
    Prop :=
  c.Still c' ∧ w' = w.hear x.2 ∧ (x.1 = .ok ∧ x.2.length = n ∨ x.1 ≠ .ok ∧ x.2.length < n)

theorem recorded_readExact {n : ℕ} {t : UInt32} :
    Recorded V Wire.noteIo (Listening c.fd w (List.length · < n)) (readExact n t)
    (Filled c w n) c w := by
  refine .modify_bind (.perform_bind trivial fun start ↦ ?_)
  -- What has been stored is what has been heard since the start.
  refine .seq (.forever (fun c' w' ↦ c.Still c' ∧ w' = w.hear c'.got ∧ c'.got.length ≤ n)
    (Q := fun r c' w' ↦ c.Still c' ∧ w' = w.hear c'.got ∧
      (r = .ok ∧ c'.got.length = n ∨ r ≠ .ok ∧ c'.got.length < n))
    ⟨⟨⟨rfl, rfl, rfl⟩, rfl, rfl⟩, (w.hear_nil).symm, Nat.zero_le _⟩ ?_) ?_
  · rintro c₁ w₁ ⟨hstill, rfl, hle⟩
    refine .get_bind (.ite (fun hlen ↦ .pure ⟨hstill, rfl, .inl ⟨rfl, le_antisymm hle hlen⟩⟩)
      fun hlen ↦ ?_)
    refine .seq (recorded_recvSome hV ⟨hstill.fd, _, not_le.mp hlen, rfl⟩ fun _ _ ↦ trivial) ?_
    rintro ⟨r, bytes⟩ c₂ w₂ ⟨hstill₂, hgot, rfl, hroom, hfail⟩
    rw [Wire.hear_hear]
    cases r with
    | error =>
      obtain rfl : bytes = [] := hfail (by simp)
      refine .pure ⟨hstill.trans hstill₂, by rw [List.append_nil, hgot], .inr ⟨by simp, ?_⟩⟩
      rw [hgot]
      omega
    | timeout =>
      obtain rfl : bytes = [] := hfail (by simp)
      refine .perform_bind trivial fun now ↦ .pure ?_
      rw [List.append_nil]
      by_cases hover : t ≤ now - start
      · rw [if_pos hover]
        refine ⟨hstill.trans hstill₂, by rw [hgot]; rfl, .inr ⟨by simp, ?_⟩⟩
        rw [hgot]
        omega
      · rw [if_neg hover]
        exact ⟨hstill.trans hstill₂, by rw [hgot]; rfl, hgot ▸ hle⟩
    | ok =>
      refine .modify_bind
        (.pure ⟨hstill.trans ⟨⟨hstill₂.fd, hstill₂.cfg, hstill₂.cap⟩, hstill₂.rxbuf,
        hstill₂.toDrop⟩, by rw [hgot], ?_⟩)
      simp only [hgot, List.length_append] at hroom ⊢
      omega
  · rintro r c₁ w₁ ⟨hstill, rfl, hr⟩
    exact .get_bind (.pure ⟨hstill, rfl, hr⟩)

theorem recorded_dropBytes {n : ℕ} :
    Recorded V Wire.noteIo (Listening c.fd w (List.length · < n)) (dropBytes n)
      (fun r c' w' ↦ c.Steady c' ∧ ∃ bytes, w' = w.hear bytes ∧ (r = .ok → bytes.length = n))
        c w := by
  refine .modify_bind (.forever (fun c' w' ↦ c.Steady c' ∧ ∃ bytes, w' = w.hear bytes ∧
    bytes.length + c'.toDrop = n) ⟨⟨rfl, rfl, rfl⟩, [], (w.hear_nil).symm, Nat.zero_add n⟩ ?_)
  rintro c₁ w₁ ⟨hsteady, bytes, rfl, hleft⟩
  refine .get_bind (.ite (fun hdone ↦ .pure ⟨hsteady, bytes, rfl, fun _ ↦ by omega⟩)
    fun _ ↦ ?_)
  have hread := recorded_readExact hV (c := c₁) (w := w.hear bytes)
    (n := if c₁.toDrop < c₁.cap then c₁.toDrop else c₁.cap) (t := mqttAckTimeoutMs)
  rw [hsteady.fd] at hread
  refine .seq (hread.guard fun _ _ _ h ↦ h.after fun more hmore ↦ ?_) ?_
  · rw [List.length_append]
    split at hmore <;> omega
  rintro ⟨r, got⟩ c₂ w₂ ⟨hstill, rfl, hr⟩
  rw [Wire.hear_hear]
  refine recorded_storeRx fun c₃ hsteady₃ _ hdrop ↦ .ite (fun hfail ↦ ?_) fun hok ↦ ?_
  · exact .pure ⟨(hsteady.trans hstill.toSteady).trans hsteady₃, _, rfl,
      fun h ↦ absurd h hfail⟩
  · obtain ⟨-, hlen⟩ := hr.resolve_right fun h ↦ hok h.1
    refine .modify_bind
      (.pure ⟨(hsteady.trans hstill.toSteady).trans ⟨hsteady₃.fd, hsteady₃.cfg,
      hsteady₃.cap⟩, _, rfl, ?_⟩)
    rw [List.length_append]
    simp only [hlen, hdrop, hstill.toDrop]
    split <;> omega

/-- The remaining length, if it is one. It goes on as long as every byte says so. -/
theorem recorded_readLengthBytes {n : ℕ} : ∀ {v m : ℕ} {c : MqttCtx} {w : Wire},
    Recorded V Wire.noteIo (Listening c.fd w fun part ↦ ∀ b ∈ part, b &&& 0x80 ≠ 0)
    (readLengthBytes n v m)
      (fun x c' w' ↦ c.Steady c' ∧ ∃ bytes, w' = w.hear bytes ∧
        ∀ u, x = some u → ∃ len, Sized n bytes len ∧ u = v + len * m) c w := by
  induction n with
  | zero =>
    intro v m c w
    exact .pure ⟨.refl c, [], (w.hear_nil).symm, fun v h ↦ absurd h (by simp)⟩
  | succ n ih =>
    intro v m c w
    have hread := recorded_readExact hV (c := c) (w := w.hear []) (n := 1) (t := mqttAckTimeoutMs)
    rw [w.hear_nil] at hread
    refine .seq (hread.guard fun _ _ _ h ↦ ?_) ?_
    · rw [← w.hear_nil] at h
      refine h.after fun more hmore ↦ ?_
      rw [List.length_eq_zero_iff.mp (Nat.lt_one_iff.mp hmore)]
      simp
    rintro ⟨r, bytes⟩ c₁ w₁ ⟨hstill, rfl, hr⟩
    refine .ite (fun _ ↦ .pure ⟨hstill.toSteady, bytes, rfl, fun v h ↦ absurd h (by simp)⟩)
      fun hok ↦ ?_
    obtain ⟨-, hlen⟩ := hr.resolve_right fun h ↦ hok h.1
    obtain ⟨b, rfl⟩ := List.length_eq_one_iff.mp hlen
    refine .ite (fun hlast ↦ .pure ⟨hstill.toSteady, [b], rfl, ?_⟩) fun hmore ↦ ?_
    · rintro v ⟨⟩
      exact ⟨_, .last hlast, rfl⟩
    · have hrest := ih (v := v + (b &&& 0x7F).toNat * m) (m := m * 128) (c := c₁) (w := w.hear [b])
      rw [hstill.fd] at hrest
      have hgo : ∀ more, (∀ x ∈ more, x &&& 0x80 ≠ 0) → ∀ x ∈ [b] ++ more,
          x &&& 0x80 ≠ 0 :=
        fun more hall ↦ List.forall_mem_cons.mpr ⟨hmore, hall⟩
      refine (hrest.guard fun _ _ _ h ↦ h.after hgo).imp ?_
      rintro x c₂ w₂ ⟨hsteady, bytes, rfl, hx⟩
      refine ⟨hstill.toSteady.trans hsteady, b :: bytes, w.hear_hear _ _, fun v hv ↦ ?_⟩
      obtain ⟨len, hsized, rfl⟩ := hx v hv
      exact ⟨_, .more hmore hsized, by ring⟩

/-- What `read_packet` makes of the bytes it takes. -/
def Parsed (c : MqttCtx) (w : Wire) (x : PacketRead) (c' : MqttCtx) (w' : Wire) : Prop :=
  c.Steady c' ∧ match x with
    | .packet type flags len => ∃ p : Packet, w' = w.hear p.encode ∧ p.body.length ≤ c.cap ∧
        type = p.first >>> 4 ∧
        flags = p.first &&& 0x0F ∧ len = p.body.length ∧ c'.rxbuf.take len = p.body
    | .nothing => w' = w ∨ ∃ p : Packet, c.cap < p.body.length ∧ w' = w.hear p.encode
    | .over => ∃ bytes, w' = w.hear bytes

theorem recorded_readBody {b : UInt8} {rem : ℕ} {size : List UInt8} (hsized : Sized 4 size rem) :
    Recorded V Wire.noteIo (Listening c.fd w Partway) (readBody b rem) (Parsed c w) c
    (w.hear (b :: size)) := by
  refine .get_bind (.ite (fun hbig ↦ ?_) fun hfits ↦ .ite (fun hzero ↦ ?_) fun _ ↦ ?_)
  · refine .seq ((recorded_dropBytes hV).guard fun _ _ _ h ↦ h.after fun _ ↦
      partway_body hsized) ?_
    rintro r c₁ w₁ ⟨hsteady, bytes, rfl, hr⟩
    by_cases hok : r = .ok
    · subst hok
      obtain rfl := hr rfl
      exact .pure ⟨hsteady, .inr ⟨⟨b, size, bytes, hsized⟩, hbig, w.hear_hear _ _⟩⟩
    · rw [if_neg hok]
      exact .pure ⟨hsteady, _, w.hear_hear _ _⟩
  · subst hzero
    exact .pure ⟨.refl c, ⟨b, size, [], hsized⟩, by simp [Packet.encode], Nat.zero_le _, rfl,
      rfl, rfl, rfl⟩
  · refine .seq ((recorded_readExact hV).guard fun _ _ _ h ↦ h.after fun _ ↦
      partway_body hsized) ?_
    rintro ⟨r, body⟩ c₁ w₁ ⟨hstill, rfl, hr⟩
    refine recorded_storeRx fun c₂ hsteady hbuf _ ↦ ?_
    rw [Wire.hear_hear]
    by_cases hok : r = .ok
    · obtain ⟨-, rfl⟩ := hr.resolve_right fun h ↦ h.1 hok
      rw [if_pos hok]
      exact .pure ⟨hstill.toSteady.trans hsteady, ⟨b, size, body, hsized⟩, rfl, not_lt.mp hfits,
        rfl, rfl, rfl, hbuf⟩
    · rw [if_neg hok]
      exact .pure ⟨hstill.toSteady.trans hsteady, _, rfl⟩

theorem recorded_readPacket :
    Recorded V Wire.noteIo (Listening c.fd w Partway) readPacket (Parsed c w) c w := by
  have hfirst := recorded_readExact hV (c := c) (w := w.hear []) (n := 1) (t := 0)
  rw [w.hear_nil] at hfirst
  refine .seq (hfirst.guard fun _ _ _ h ↦ ?_) ?_
  · rw [← w.hear_nil] at h
    refine h.after fun more hmore ↦ ?_
    rw [List.length_eq_zero_iff.mp (Nat.lt_one_iff.mp hmore)]
    exact partway_nil
  rintro ⟨r, bytes⟩ c₁ w₁ ⟨hstill, rfl, hr⟩
  cases r with
  | timeout =>
    obtain rfl : bytes = [] :=
      List.length_eq_zero_iff.mp (Nat.lt_one_iff.mp (hr.resolve_left (by simp)).2)
    exact .pure ⟨hstill.toSteady, .inl w.hear_nil⟩
  | error => exact .pure ⟨hstill.toSteady, bytes, rfl⟩
  | ok =>
    obtain ⟨hdr, rfl⟩ := List.length_eq_one_iff.mp (hr.resolve_right (by simp)).2
    have hlen := recorded_readLengthBytes hV (n := 4) (v := 0) (m := 1) (c := c₁)
      (w := w.hear [hdr])
    rw [hstill.fd] at hlen
    refine .seq (hlen.guard fun _ _ _ h ↦ h.after fun _ ↦ partway_size) ?_
    rintro (_ | rem) c₂ w₂ ⟨hsteady, size, rfl, hx⟩
    · exact .pure ⟨hstill.toSteady.trans hsteady, _, w.hear_hear _ _⟩
    · obtain ⟨rem, hsized, rfl⟩ := hx _ rfl
      have hsteady₂ := hstill.toSteady.trans hsteady
      have hbody := recorded_readBody hV (c := c₂) (w := w) (b := hdr) hsized
      rw [hsteady₂.fd] at hbody
      rw [Wire.hear_hear, Nat.zero_add, Nat.mul_one]
      refine hbody.imp ?_
      rintro x c₃ w₃ ⟨hsteady₃, hparsed⟩
      refine ⟨hsteady₂.trans hsteady₃, ?_⟩
      rwa [hsteady₂.cap] at hparsed

/-! ## Sending -/

/-- Nothing is read, and what is sent is what is left of `data`. -/
def Saying (fd : ℤ) (data : List UInt8) (w₀ : Wire) : MqttOp → MqttCtx → Wire → Prop
  | .send fd' rest, _, w => fd' = fd ∧ rest ≠ [] ∧ ∃ done, data = done ++ rest ∧ w =
      w₀.say done
  | .recv _ _, _, _ => False
  | .nowMs, _, _ | .delay, _, _ => True

/-- What `send_all` leaves behind: all of its bytes, or some of them on a connection that is
broken. -/
def Said (c : MqttCtx) (w : Wire) (data : List UInt8) (b : Bool) (c' : MqttCtx) (w' : Wire) :
    Prop :=
  c.Still c' ∧ (b = true ∧ w' = w.say data ∨ b = false ∧ ∃ done, done <+: data ∧ w' =
    (w.say done).snap)

theorem recorded_sendAll {data : List UInt8} :
    Recorded V Wire.noteIo (Saying c.fd data w) (sendAll data) (Said c w data) c w := by
  refine .modify_bind (.forever (fun c' w' ↦ c.Still c' ∧ c'.off ≤ data.length ∧ w' =
    w.say (data.take c'.off))
    ⟨⟨⟨rfl, rfl, rfl⟩, rfl, rfl⟩, Nat.zero_le _, (w.say_nil).symm⟩ ?_)
  rintro c₁ w₁ ⟨hstill, hle, rfl⟩
  refine .get_bind (.ite (fun hall ↦ ?_) fun hmore ↦ ?_)
  · rw [List.take_of_length_le hall]
    refine .perform_bind trivial fun now ↦ .modify_bind (.pure ⟨?_, .inl ⟨rfl, rfl⟩⟩)
    exact hstill.trans ⟨⟨rfl, rfl, rfl⟩, rfl, rfl⟩
  · have hrest : data.drop c₁.off ≠ [] := fun h ↦ hmore (List.drop_eq_nil_iff.mp h)
    have hfail : Said c w data false c₁ ((w.say (data.take c₁.off)).snap) :=
      ⟨hstill, .inr ⟨rfl, _, List.take_prefix _ _, rfl⟩⟩
    refine .answer_bind ⟨hstill.fd, hrest, _, (List.take_append_drop _ _).symm, rfl⟩
      fun ε a ε' ha ↦ ?_
    rcases a with errno | _ | sent
    · by_cases htime : errnoIsTimeout errno = true
      · simp only [Wire.noteIo, htime, if_true]
        exact .perform_bind trivial fun _ ↦ .pure ⟨hstill, hle, rfl⟩
      · simp only [Wire.noteIo, if_neg htime]
        exact .pure hfail
    · exact .pure hfail
    · have hroom : sent + 1 ≤ (data.drop c₁.off).length := hV _ _ _ _ _ ha _ rfl
      rw [List.length_drop] at hroom
      refine .modify_bind (.pure ⟨hstill.trans ⟨⟨rfl, rfl, rfl⟩, rfl, rfl⟩, ?_, ?_⟩)
      · change c₁.off + (sent + 1) ≤ data.length
        omega
      · change (w.say (data.take c₁.off)).say ((data.drop c₁.off).take (sent + 1)) = _
        rw [Wire.say_say, ← List.take_add]

end

end WsmDriver.Mqtt
