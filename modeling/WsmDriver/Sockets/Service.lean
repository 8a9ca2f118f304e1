import WsmDriver.Sockets.Ops

/-!
# Services with one connection at a time

A server opens a listener, and then accepts, attends to the connection and closes it, over and over;
a client connects instead. How a connection is to be treated is a matter of their `Manners`: when
they may read, what they may say, and when they may leave. `Manners.Kept` says at every call that a
service has them, and that no descriptor is in use but the connection it attends to, and the
listener.

What makes a service keep to them is shown here once, from what it does on one connection.
-/

namespace WsmDriver.Sockets

open Effect Program

/-! ## Opening a listener -/

/-- The `bind` and the `listen` of a server: have both of them worked? -/
def bindListen {S : Type} (fd : ℤ) (port : UInt16) : Program S SockOp.Ans Bool := do
  if ← ask (.bind fd port) then ask (.listen fd 1) else return false

/-- A turn of the loop that waits for the link. -/
def waitLinkTurn {S : Type} : Program S SockOp.Ans (Option Unit) := do
  if ← ask .isUp then return some ()
  ask (.delayMs 100)
  return none

/-! ## Manners -/

/-- How to treat a connection. -/
structure Manners where
  /-- It may read up to so many bytes. -/
  mayRead : ℕ → Line → Prop
  /-- It may go on to say this. -/
  maySay : List UInt8 → Line → Prop
  /-- It may close the connection. -/
  mayLeave : Line → Prop

/-- There is the listener, and nothing has gone over it. -/
def waiting (lfd : ℤ) : Desk := Desk.empty.put lfd {}

/-- There is the listener or nothing, and another descriptor can be had. -/
structure Beside (d : Desk) (fd : ℤ) : Prop where
  base : d = Desk.empty ∨ ∃ lfd, d = waiting lfd
  free : d fd = none

variable {lfd fd : ℤ} {l : Line} {d₀ : Desk}

theorem beside_empty : Beside Desk.empty fd := ⟨.inl rfl, rfl⟩

theorem beside_waiting (h : fd ≠ lfd) : Beside (waiting lfd) fd :=
  ⟨.inr ⟨lfd, rfl⟩, Desk.put_ne h⟩

theorem waiting_clear : (waiting lfd).clear lfd = Desk.empty := by
  rw [waiting, Desk.clear_put, Desk.clear_eq rfl]

theorem Beside.clear (h : Beside d₀ fd) : (d₀.put fd l).clear fd = d₀ := by
  rw [Desk.clear_put, Desk.clear_eq h.free]

/-- There is this connection, and nothing but the listener beside it. -/
def Attending (fd : ℤ) (p : Line → Prop) (d : Desk) : Prop :=
  ∃ d₀ l, Beside d₀ fd ∧ d = d₀.put fd l ∧ p l

/-- **The manners, at a call.** -/
def Manners.Kept (M : Manners) (o : SockOp) (d : Desk) : Prop :=
  match o with
  | .socket _ => d = Desk.empty
  | .accept lfd => d = waiting lfd
  | .connect fd _ => Attending fd (· = {}) d
  | .recv fd len => Attending fd (M.mayRead len) d
  | .send fd data => Attending fd (M.maySay data) d
  | .close fd => d = waiting fd ∨ Attending fd M.mayLeave d
  | .recvfrom _ _ | .sendto _ _ _ => False
  | _ => True

namespace Manners

variable {S E α : Type} {V : Env S E SockOp.Ans} {M : Manners} {s : S} {d : Desk}

/-- A program that keeps to the manners. -/
abbrev Keeps (V : Env S E SockOp.Ans) (M : Manners) (p : Program S SockOp.Ans α)
    (Q : α → S → Desk → Prop) (s : S) (d : Desk) : Prop :=
  Recorded V Desk.note (fun o _ d ↦ M.Kept o d) p Q s d

theorem keeps_bindListen {port : UInt16} {Q : Bool → S → Desk → Prop} (h : ∀ ok, Q ok s d) :
    Keeps V M (bindListen fd port) Q s d :=
  .perform_bind trivial fun _ ↦ .ite (fun _ ↦ .perform trivial h) fun _ ↦ .pure (h false)

theorem keeps_waitLink {Q : Unit → S → Desk → Prop} (h : Q () s d) :
    Keeps V M (.forever waitLinkTurn) Q s d := by
  refine .forever (fun s' d' ↦ s' = s ∧ d' = d) ⟨rfl, rfl⟩ ?_
  rintro _ _ ⟨rfl, rfl⟩
  exact .perform_bind trivial fun _ ↦ .ite (fun _ ↦ .pure h) fun _ ↦
    .perform_bind trivial fun _ ↦ .pure ⟨rfl, rfl⟩

section

variable (hV : ∀ o s e a e', V.answer o s e a e' → o.Fair a)

include hV

/-- One reading. -/
theorem keeps_recv_bind {len : ℕ} {k : Except Errno (List UInt8) → Program S SockOp.Ans α}
    {Q : α → S → Desk → Prop} (hd₀ : Beside d₀ fd) (hread : M.mayRead len l)
    (hsome : ∀ bytes, bytes ≠ [] → bytes.length ≤ len →
      Keeps V M (k (.ok bytes)) Q s (d₀.put fd (l.hear bytes)))
    (hnone : ∀ a, (∀ bytes, a = .ok bytes → bytes = []) →
      Keeps V M (k a) Q s (d₀.put fd l)) :
    Keeps V M (ask (.recv fd len) >>= k) Q s (d₀.put fd l) := by
  refine .answer_bind ⟨d₀, l, hd₀, rfl, hread⟩ fun ε a ε' ha ↦ ?_
  have hhear : ∀ bytes, (d₀.put fd l).alter fd (Line.hear bytes) = d₀.put fd (l.hear bytes) := by
    intro bytes
    rw [Desk.alter_eq Desk.put_self, Desk.put_put]
  rcases a with errno | _ | ⟨b, bytes⟩
  · exact hnone _ nofun
  · rw [Desk.note, hhear, Line.hear_nil]
    exact hnone _ fun bytes h ↦ (Except.ok.inj h).symm
  · rw [Desk.note, hhear]
    exact hsome _ (List.cons_ne_nil _ _) (hV _ _ _ _ _ ha _ rfl)

/-- The turn of a server: accept, attend, close. -/
theorem keeps_accept_bind {k : Except Errno (ℤ × SockAddr) → Program S SockOp.Ans α}
    {Q : α → S → Desk → Prop}
    (hfail : ∀ errno, Keeps V M (k (.error errno)) Q s (waiting lfd))
    (hok : ∀ fd src, Beside (waiting lfd) fd →
      Keeps V M (k (.ok (fd, src))) Q s ((waiting lfd).put fd {})) :
    Keeps V M (ask (.accept lfd) >>= k) Q s (waiting lfd) := by
  refine .answer_bind rfl fun ε a ε' ha ↦ ?_
  rcases a with errno | ⟨fd, src⟩
  · exact hfail errno
  · exact hok fd src (beside_waiting (hV _ _ _ _ _ ha _ _ rfl))

/-- To say something is to go on saying it. -/
theorem keeps_sendAll [HasOff S] {data : List UInt8} (hd₀ : Beside d₀ fd)
    (hsay : ∀ part rest, data = part ++ rest → rest ≠ [] → M.maySay rest (l.say part)) :
    Keeps V M (sendAll fd data)
      (fun ok s' d' ↦ (∃ n, s' = HasOff.setOff n s) ∧ ∃ l', Pushed l data ok l' ∧ d' =
        d₀.put fd l')
      s (d₀.put fd l) := by
  refine ((recorded_sendAll hV Desk.put_self).guard ?_).imp ?_
  · intro o _ d' h
    cases o with
    | send fd' rest =>
      obtain ⟨rfl, hrest, part, hdata, rfl⟩ := h
      exact ⟨d₀, _, hd₀, Desk.put_put, hsay part rest hdata hrest⟩
    | delay => exact trivial
    | _ => exact False.elim h
  · rintro ok s' d' ⟨hs, l', hpushed, rfl⟩
    exact ⟨hs, l', hpushed, Desk.put_put⟩

end

theorem keeps_close_bind {k : Unit → Program S SockOp.Ans α} {Q : α → S → Desk → Prop}
    (hd₀ : Beside d₀ fd) (hleave : M.mayLeave l) (hk : Keeps V M (k ()) Q s d₀) :
    Keeps V M (ask (.close fd) >>= k) Q s (d₀.put fd l) := by
  refine .perform_bind (.inr ⟨d₀, l, hd₀, rfl, hleave⟩) fun _ ↦ ?_
  rw [Desk.note, hd₀.clear]
  exact hk

end Manners

/-! ## A client -/

/-- Surroundings with one client, which has this to say, up to 16 bytes at a time, and takes
everything. -/
def oneClient (o : SockOp) (e : List UInt8) : o.Ans × List UInt8 :=
  match o with
  | .recv _ len => (.ok (e.take (min 16 len)), e.drop (min 16 len))
  | .send _ data | .sendto _ data _ => (.ok data.length, e)
  | .recvfrom _ _ => (.error .ewouldblock, e)
  | .socket _ => ((3 : ℤ), e)
  | .accept lfd => (.ok (lfd + 1, ⟨0, 0⟩), e)
  | .bind _ _ | .listen _ _ | .connect _ _ | .isUp | .malloc _ => (true, e)
  | .setReuseaddr _ | .setNodelay _ | .setBroadcast _ | .setRcvtimeo _ _ | .setDevice _ _ | .close
      _ | .delay _
  | .delayMs _ => ((), e)

theorem oneClient_fair {S : Type} (o : SockOp) (s : S) (e : List UInt8) (a : o.Ans)
    (e' : List UInt8)
    (h : (Env.script oneClient : Env S (List UInt8) SockOp.Ans).answer o s e a e') : o.Fair a := by
  obtain ⟨rfl, -⟩ := h
  cases o with
  | recv fd len =>
    intro bytes hbytes
    obtain rfl := Except.ok.inj hbytes
    exact (List.length_take_le _ _).trans (min_le_right _ _)
  | send fd data =>
    intro n hn
    exact (Except.ok.inj hn).ge
  | sendto fd data dst =>
    intro n hn
    exact (Except.ok.inj hn).ge
  | recvfrom fd len => exact fun _ _ h ↦ absurd h (by simp [oneClient])
  | accept lfd =>
    intro fd src hfd
    obtain ⟨rfl, -⟩ := Prod.mk.inj (Except.ok.inj hfd)
    omega
  | _ => exact trivial

end WsmDriver.Sockets
