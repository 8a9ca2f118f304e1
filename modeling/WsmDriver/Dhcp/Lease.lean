import WsmDriver.Dhcp.Rules

/-!
# The lease

There are three copies of a lease: what the parser made of the acknowledgement, what the client
keeps, and what the caller is given. And there are two signs that it is there, the state and the
flag `bound`, of which a renewal changes the first and not the second. The log says what was
installed in the interface, and when the socket was opened and closed; it is the log that the copies
and the flag are compared with.
-/

namespace WsmDriver.Dhcp

open Effect

/-- The lease in force: the argument of the last `apply_lease` since the last socket was opened,
which is when its binding succeeded, and since the last one was closed. -/
def inForce : DhcpLog → Option NetInfo
  | [] => none
  | (_, ⟨.applyLease i, _⟩) :: _ => some i
  | (_, ⟨.bind .., a⟩) :: l => if (0 : ℤ) ≤ a then none else inForce l
  | (_, ⟨.close _, _⟩) :: _ => none
  | _ :: l => inForce l

/-- The client knows what is in force. -/
structure Accords (c : Client) (l : DhcpLog) : Prop where
  closed : c.fd < 0 → c.bound = false
  inForce : Dhcp.inForce l = if c.bound then some c.lease else none
  bound : c.state = .bound → c.bound = true

namespace Accords

variable {c c' : Client} {l l' : DhcpLog}

/-- It does as long as nothing is installed, opened or closed, and the lease and the flag stay. -/
theorem of_eq (h : Accords c l) (hlog : Dhcp.inForce l' = Dhcp.inForce l) (hfd : c'.fd = c.fd)
    (hlease : c'.lease = c.lease) (hbound : c'.bound = c.bound)
    (hstate : c'.state = .bound → c.state = .bound) :
    Accords c' l' where
  closed := by
    rw [hfd, hbound]
    exact h.closed
  inForce := by
    rw [hlog, hlease, hbound]
    exact h.inForce
  bound hs := by
    rw [hbound]
    exact h.bound (hstate hs)

/-- Without a socket, or before it has installed anything, it holds nothing. -/
theorem of_unbound (hlog : Dhcp.inForce l = none) (hb : c.bound = false) (hs : c.state ≠ .bound) :
    Accords c l where
  closed _ := hb
  inForce := by
    rw [hlog, hb]
    rfl
  bound hs' := absurd hs' hs

end Accords

theorem accords_rules : Rules Accords (fun c l ↦ Accords c l ∧ c.bound = false)
    (fun c l ↦ Accords c l ∧ 0 ≤ c.fd) (fun c l ↦ Accords c l ∧ 0 ≤ c.fd)
    (fun _ _ _ ↦ True) (fun _ _ _ ↦ True) (fun _ _ ↦ True) where
  clock t h := ⟨h.1.of_eq rfl rfl rfl rfl id, h.2⟩
  select xid h := ⟨h.1.of_eq rfl rfl rfl rfl (fun hs ↦ by cases hs), h.2⟩
  expire _ _ _ _ _ := trivial
  message _ _ _ _ := trivial
  transmit a h _ _ _ := ⟨h.1.of_eq rfl rfl rfl rfl id, h.2⟩
  wait h _ _ := h
  silence a h _ := ⟨h.1.of_eq rfl rfl rfl rfl id, h.2⟩
  foreign p h _ := ⟨h.1.of_eq rfl rfl rfl rfl id, h.2⟩
  ignore p h _ _ _ _ := ⟨h.1.of_eq rfl rfl rfl rfl id, h.2⟩
  refuse p xid h _ := ⟨h.1.of_eq rfl rfl rfl rfl (fun hs ↦ by cases hs), h.2⟩
  accept p h _ := ⟨h.1.of_eq rfl rfl rfl rfl (fun hs ↦ by cases hs), h.2⟩
  lease _ _ _ := trivial
  install p t h _ := ⟨⟨fun hfd ↦ absurd h.2 (not_le.mpr hfd), rfl, fun _ ↦ rfl⟩, h.2⟩
  enter h hfd := ⟨h, hfd⟩
  leave h := h.1
  start {c l} mac ifname xid h hfd := by
    refine ⟨.of_unbound ?_ rfl (by simp [Client.selecting, Client.reset]), rfl⟩
    have hl := h.inForce
    rw [h.closed hfd] at hl
    exact hl
  opening {c l} x h hx := by
    have hl : inForce l = none := by rw [h.1.inForce, h.2]; rfl
    refine ⟨.of_unbound ?_ h.2 fun hs ↦ by simp [h.1.bound hs] at h, h.2⟩
    obtain ⟨o, a⟩ := x
    cases o with
    | socket | setsockopt | fcntl => exact hl
    | close => rfl
    | bind => exact (if_neg (not_le.mpr hx)).trans hl
    | _ => exact hx.elim
  opened fd a h _ ha := .of_unbound (if_pos ha) h.2 fun hs ↦ by simp [h.1.bound hs] at h
  unopened h := h.1
  stop a h _ := .of_unbound rfl rfl fun hs ↦ by cases hs

variable {E : Type} {V : Env Client E DhcpOp.Ans} {c₀ c : Client} {e₀ : E} {e : E × DhcpLog}

theorem Created.accords (h : Created c₀) : Accords c₀ [] := by
  obtain ⟨ops, timeout, packets, tries, interval, -, -, -, rfl⟩ := h.eq
  exact .of_unbound rfl rfl fun hs ↦ by cases hs

/-- What a call reports about a lease in force, given the result and what it stored through its
pointer. -/
theorem lease_reported (h₀ : Created c₀) (h : Run V c₀ e₀ c e) :
    (∀ p info r c' e', Returns V.observed (wsmDhcpPoll p info) c e r c' e' →
      (r.2 ≠ none → r.1 = .leased) ∧ (r.1 = .leased → c'.state = .bound ∧ ∃ i,
        inForce e'.2 = some i ∧
        r.2 = if info = .null then none else some i)) ∧
    (∀ b c' e', Returns V.observed (wsmDhcpIsBound .valid) c e b c' e' →
      (b = true ↔ inForce e.2 ≠ none)) ∧
    ∀ r c' e', Returns V.observed (wsmDhcpGetNetinfo .valid .valid) c e r c' e' →
      r = (inForce e.2).elim (.error .invalidState) .ok := by
  have hacc : Accords c e.2 := accords_rules.run h₀.accords h
  refine ⟨fun p info r c' e' hr ↦ ?_, fun b c' e' hr ↦ ?_, fun r c' e' hr ↦ ?_⟩
  · obtain ⟨filled, hended, hfill⟩ := (wsmDhcpPoll_logged accords_rules hacc p info).returns hr
    refine ⟨fun hw ↦ ?_, fun hl ↦ ?_⟩
    · obtain ⟨i, rfl⟩ : ∃ i, filled = some i := by
        refine Option.ne_none_iff_exists'.mp fun hnone ↦ hw ?_
        rw [hfill, hnone, ite_self]
      exact hended.filled
    · rw [hl] at hended
      obtain ⟨i, rfl, hacc', hs, rfl⟩ := hended.leased
      exact ⟨hs, c'.lease, by rw [hacc'.inForce, hacc'.bound hs]; rfl, hfill⟩
  · have hp : Logged V (fun _ _ _ ↦ True) (wsmDhcpIsBound .valid) (fun b _ _ ↦ b = c.bound) c
        e.2 :=
      .get_bind (.pure (by simp))
    rw [hp.returns hr, hacc.inForce]
    cases c.bound <;> simp
  · have hp : Logged V (fun _ _ _ ↦ True) (wsmDhcpGetNetinfo .valid .valid)
        (fun r _ _ ↦ r = if c.bound then .ok c.lease else .error .invalidState) c e.2 := by
      refine .ite (fun h ↦ by simp at h) fun _ ↦
        .get_bind (.ite (fun hb ↦ .pure ?_) fun hb ↦ .get_bind (.pure ?_))
      · rw [if_neg (by simpa using hb)]
      · rw [if_pos (by simpa using hb)]
    rw [hp.returns hr, hacc.inForce]
    cases c.bound <;> rfl

/-- An exchange with one server, in one poll. -/
theorem lease_reported_bound : ∃ l, inForce l =
    some { ip := Vector.replicate 4 9, leaseS := 600 } := by
  have hr := returns_runNoted (V := .script scripted) (h := scripted)
    (f := fun o c a l ↦ (c, ⟨o, a⟩) :: l) (n := 200)
    (p := wsmDhcpPoll .valid .valid)
      (a := (.leased, some { ip := Vector.replicate 4 9, leaseS := 600 }))
    (s := (started [fromServer dhcpOffer (Vector.replicate 4 9) [],
      fromServer dhcpAck (Vector.replicate 4 9) [(optLeaseTime, [0, 0, 2, 88])]]).store)
    (e := (started [fromServer dhcpOffer (Vector.replicate 4 9) [],
      fromServer dhcpAck (Vector.replicate 4 9) [(optLeaseTime, [0, 0, 2, 88])]]).env)
    (fun _ _ _ ↦ ⟨rfl, rfl⟩) (by decide +kernel)
  obtain ⟨-, i, hi, hw⟩ :=
    ((lease_reported defaultClient_created (started_run _)).1 _ _ _ _ _ hr).2 rfl
  obtain rfl := Option.some_inj.mp hw
  exact ⟨_, hi⟩

end WsmDriver.Dhcp
