import Mathlib.Data.Int.Notation
import Mathlib.Data.List.Infix
import Mathlib.Logic.Function.Basic
import WsmDriver.Effect.Embed

/-!
# Sockets, as the services use them

The services under `examples/` reach their sockets through a table of functions, `net_sock_ops_t` or
a copy of it. Their calls are the operations of one interface, together with the little that the
services ask of the system besides.

A `Desk` is what an observer at these calls has seen: which descriptors are in use, and for each of
them the bytes that have gone each way since it was opened. Nothing is assumed of the other ends. A
call may time out or fail at any moment; all that is asked is that `recv` stores no more than there
is room for, that `send` takes no more than it is given, and that `accept` does not return the
listener itself.

`send_all` is in several of the services, word for word, and is here once.
-/

namespace WsmDriver.Sockets

open Effect Program

/-! ## Operations -/

/-- What `errno` is after a call that failed. -/
inductive Errno
  | ewouldblock | eagain | other
  deriving DecidableEq

/-- Does it ask for another try? -/
def Errno.again : Errno → Bool
  | .ewouldblock | .eagain => true
  | .other => false

/-- A `struct sockaddr_in`, in host order. -/
structure SockAddr where
  addr : UInt32
  port : UInt16
  deriving DecidableEq

inductive SockOp
  /-- `socket`, of `SOCK_STREAM` or of `SOCK_DGRAM`. -/
  | socket (stream : Bool)
  | setReuseaddr (fd : ℤ)
  | setNodelay (fd : ℤ)
  | setBroadcast (fd : ℤ)
  | setRcvtimeo (fd : ℤ) (ms : UInt32)
  /-- `SO_BINDTODEVICE`. -/
  | setDevice (fd : ℤ) (ifname : List UInt8)
  /-- `bind`, to `INADDR_ANY`. -/
  | bind (fd : ℤ) (port : UInt16)
  | listen (fd : ℤ) (backlog : ℕ)
  | accept (fd : ℤ)
  | connect (fd : ℤ) (dst : SockAddr)
  | recv (fd : ℤ) (len : ℕ)
  | send (fd : ℤ) (data : List UInt8)
  | recvfrom (fd : ℤ) (len : ℕ)
  | sendto (fd : ℤ) (data : List UInt8) (dst : SockAddr)
  | close (fd : ℤ)
  /-- `vTaskDelay`. -/
  | delay (ticks : ℕ)
  | delayMs (ms : UInt32)
  | isUp
  | malloc (size : ℕ)
  deriving DecidableEq

/-- The answer to each operation. A call that returns -1 is an error; `recv` answers the bytes, none
at the end of the stream. `bind`, `listen` and `connect` answer whether they returned 0. -/
abbrev SockOp.Ans : SockOp → Type
  | .socket _ => ℤ
  | .accept _ => Except Errno (ℤ × SockAddr)
  | .bind _ _ | .listen _ _ | .connect _ _ | .isUp | .malloc _ => Bool
  | .recv _ _ => Except Errno (List UInt8)
  | .recvfrom _ _ => Except Errno (List UInt8 × SockAddr)
  | .send _ _ | .sendto _ _ _ => Except Errno ℕ
  | .setReuseaddr _ | .setNodelay _ | .setBroadcast _ | .setRcvtimeo _ _ | .setDevice _ _ | .close
      _ | .delay _
  | .delayMs _ => Unit

/-- `recv` stores no more than there is room for, `send` takes no more than it is given, and
`accept` makes a new descriptor. -/
def SockOp.Fair : (o : SockOp) → o.Ans → Prop
  | .recv _ len, a => ∀ bytes, a = .ok bytes → bytes.length ≤ len
  | .recvfrom _ len, a => ∀ bytes src, a = .ok (bytes, src) → bytes.length ≤ len
  | .send _ data, a | .sendto _ data _, a => ∀ n, a = .ok n → n ≤ data.length
  | .accept lfd, a => ∀ fd src, a = .ok (fd, src) → fd ≠ lfd
  | _, _ => True

/-- Perform an operation. -/
abbrev ask {S : Type} (o : SockOp) : Program S SockOp.Ans o.Ans := perform o

/-! ## `send_all` -/

/-- A turn of the loop of `send_all`. The store is `off`. -/
def sendAllTurn (fd : ℤ) (data : List UInt8) : Program ℕ SockOp.Ans (Option Bool) := do
  let off ← get
  if data.length ≤ off then return some true
  match ← ask (.send fd (data.drop off)) with
  | .ok (w + 1) => do
    modify (· + (w + 1))
    return none
  | .ok 0 => return some false
  | .error errno =>
    if errno.again then
      ask (.delay 1)
      return none
    return some false

/-- A store with a place for `off`. -/
class HasOff (S : Type) where
  off : S → ℕ
  setOff : ℕ → S → S
  off_setOff : ∀ n s, off (setOff n s) = n
  setOff_off : ∀ s, setOff (off s) s = s
  setOff_setOff : ∀ m n s, setOff n (setOff m s) = setOff n s

instance : HasOff ℕ := ⟨id, fun n _ ↦ n, fun _ _ ↦ rfl, fun _ ↦ rfl, fun _ _ _ ↦ rfl⟩

open HasOff in
/-- `send_all`. -/
def sendAll {S : Type} [HasOff S] (fd : ℤ) (data : List UInt8) : Program S SockOp.Ans Bool :=
  Program.through (.part off setOff off_setOff setOff_off setOff_setOff) do
    set 0
    forever (sendAllTurn fd data)

/-! ## What is seen of the sockets -/

/-- The bytes that have gone over a descriptor. -/
structure Line where
  /-- What `recv` has brought. -/
  inn : List UInt8 := []
  /-- What `send` has taken. -/
  out : List UInt8 := []
  /-- A `send` has failed. -/
  broken : Bool := false
  deriving DecidableEq

namespace Line

def hear (bytes : List UInt8) (l : Line) : Line := { l with inn := l.inn ++ bytes }

def say (bytes : List UInt8) (l : Line) : Line := { l with out := l.out ++ bytes }

def snap (l : Line) : Line := { l with broken := true }

@[simp] theorem hear_nil (l : Line) : l.hear [] = l := by simp [hear]

@[simp] theorem hear_hear (l : Line) (a b : List UInt8) : (l.hear a).hear b = l.hear (a ++ b) := by
  simp [hear]

@[simp] theorem say_nil (l : Line) : l.say [] = l := by simp [say]

@[simp] theorem say_say (l : Line) (a b : List UInt8) : (l.say a).say b = l.say (a ++ b) := by
  simp [say]

end Line

/-- The descriptors in use. -/
abbrev Desk := ℤ → Option Line

namespace Desk

def put (fd : ℤ) (l : Line) (d : Desk) : Desk := Function.update d fd (some l)

def clear (fd : ℤ) (d : Desk) : Desk := Function.update d fd none

/-- Do this to a line. -/
def alter (fd : ℤ) (g : Line → Line) (d : Desk) : Desk := Function.update d fd ((d fd).map g)

/-- No descriptor is in use. -/
def empty : Desk := fun _ ↦ none

variable {fd fd' : ℤ} {l l' : Line} {d : Desk}

@[simp] theorem put_self : d.put fd l fd = some l := Function.update_self ..

theorem put_ne (h : fd' ≠ fd) : d.put fd l fd' = d fd' := Function.update_of_ne h ..

@[simp] theorem put_put : (d.put fd l).put fd l' = d.put fd l' := Function.update_idem ..

@[simp] theorem clear_put : (d.put fd l).clear fd = d.clear fd := Function.update_idem ..

theorem put_eq (h : d fd = some l) : d.put fd l = d := by rw [put, ← h, Function.update_eq_self]

theorem clear_eq (h : d fd = none) : d.clear fd = d := by rw [clear, ← h, Function.update_eq_self]

theorem alter_eq {g : Line → Line} (h : d fd = some l) : d.alter fd g = d.put fd (g l) := by
  rw [alter, h, Option.map_some, put]

/-- The desk after a call. -/
def note {S : Type} (o : SockOp) (_ : S) (a : o.Ans) (d : Desk) : Desk :=
  match o, a with
  | .socket _, fd => if fd < 0 then d else d.put fd {}
  | .accept _, .ok (fd, _) => d.put fd {}
  | .recv fd _, .ok bytes => d.alter fd (Line.hear bytes)
  | .send fd data, .ok (n + 1) => d.alter fd (Line.say (data.take (n + 1)))
  | .send fd _, .ok 0 => d.alter fd Line.snap
  | .send fd _, .error errno => if errno.again then d else d.alter fd Line.snap
  | .close fd, _ => d.clear fd
  | _, _ => d

end Desk

/-! ## What `send_all` does to a line -/

/-- What is sent is the rest of the data, and what has been sent since `d` is what comes before
it. -/
def Pushing (fd : ℤ) (l : Line) (d : Desk) (data : List UInt8) (o : SockOp) (d' : Desk) : Prop :=
  match o with
  | .send fd' rest => fd' = fd ∧ rest ≠ [] ∧ ∃ part, data = part ++ rest ∧ d' =
      d.put fd (l.say part)
  | .delay _ => True
  | _ => False

/-- All of the data, or some of it and the line is broken. -/
def Pushed (l : Line) (data : List UInt8) (ok : Bool) (l' : Line) : Prop :=
  if ok then l' = l.say data else ∃ part, part <+: data ∧ l' = (l.say part).snap

section

variable {S E : Type} {V : Env S E SockOp.Ans} (hV : ∀ o s e a e', V.answer o s e a e' → o.Fair a)

include hV

theorem recorded_sendAll [HasOff S] {fd : ℤ} {data : List UInt8} {d : Desk} {l : Line} {s : S}
    (hd : d fd = some l) :
    Recorded V Desk.note (fun o _ d' ↦ Pushing fd l d data o d') (sendAll fd data)
      (fun ok s' d' ↦ (∃ n, s' = HasOff.setOff n s) ∧ ∃ l', Pushed l data ok l' ∧ d' =
        d.put fd l') s d := by
  refine Recorded.through (g := Desk.note) (fun _ _ _ _ ↦ rfl) ?_
  -- What has been sent since the start is what lies before `off`.
  refine .set_bind
    (.forever (fun off d' ↦ off ≤ data.length ∧ d' = d.put fd (l.say (data.take off)))
    ⟨Nat.zero_le _, by rw [List.take_zero, Line.say_nil, Desk.put_eq hd]⟩ ?_)
  rintro off d' ⟨hle, rfl⟩
  refine .get_bind (.ite (fun hall ↦ .pure ⟨⟨_, rfl⟩, _, ?_, rfl⟩) fun hmore ↦ ?_)
  · rw [List.take_of_length_le hall]
    rfl
  have hrest : data.drop off ≠ [] := by rwa [Ne, List.drop_eq_nil_iff]
  have hpre : data.take off <+: data := List.take_prefix _ _
  refine .answer_bind ⟨rfl, hrest, _, (List.take_append_drop off data).symm, rfl⟩
    fun ε a ε' ha ↦ ?_
  have hsnap : (d.put fd (l.say (data.take off))).alter fd Line.snap =
      d.put fd (l.say (data.take off)).snap := by
    rw [Desk.alter_eq Desk.put_self, Desk.put_put]
  rcases a with errno | _ | w
  · refine .ite (fun hagain ↦ ?_) fun hfail ↦
      .pure ⟨⟨_, rfl⟩, _, ⟨_, hpre, rfl⟩, (if_neg hfail).trans hsnap⟩
    exact .perform_bind trivial fun _ ↦ .pure ⟨hle, if_pos hagain⟩
  · exact .pure ⟨⟨_, rfl⟩, _, ⟨_, hpre, rfl⟩, hsnap⟩
  · obtain ⟨_, rfl, ha⟩ := ha
    have hfair := hV _ _ _ _ _ ha _ rfl
    rw [List.length_drop] at hfair
    refine .modify_bind (.pure ⟨by omega, ?_⟩)
    rw [Desk.note, Desk.alter_eq Desk.put_self, Desk.put_put, Line.say_say, ← List.take_add]

end

end WsmDriver.Sockets
