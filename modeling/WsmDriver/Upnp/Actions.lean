import WsmDriver.Upnp.Content

/-!
# Port actions

A port action has one integer for three things: that the router has confirmed it, that the reply
makes no sense, and the router's own error code. The last of them is whatever the digits in the
reply add up to in 16 bits, so that a router can refuse an action in a way that reads as success.
-/

namespace WsmDriver.Upnp

open Effect Program
open Format (text cstr strstr strstr_isSome_iff)

/-- The replies of the transport. -/
def replies (l : List (Statics × Sigma UpnpOp.Ans)) : List (List UInt8) :=
  l.filterMap fun x ↦ reply x.2.1 x.2.2

/-- A fault the code of which comes to 0: `parse_error` finds all it looks for. -/
def ZeroFault (charSigned : Bool) (xml : List UInt8) : Prop :=
  (element xml (text "<faultstring>") (text "</faultstring>")).isSome ∧
    (∃ code, element xml (text "<errorCode>") (text "</errorCode>") = some code ∧
      atoi charSigned code 10 = 0) ∧
      (element xml (text "<errorDescription>") (text "</errorDescription>")).isSome

/-- An element is part of the text it is found in. -/
theorem zero_notMem_element {xml opening closing bytes : List UInt8}
    (h : element xml opening closing = some bytes) (hxml : 0 ∉ xml) : 0 ∉ bytes := by
  rw [element] at h
  obtain ⟨start, -, h⟩ := Option.bind_eq_some_iff.mp h
  obtain ⟨dist, -, h⟩ := Option.bind_eq_some_iff.mp h
  dsimp only at h
  split at h
  · cases h
  · obtain rfl := Option.some.inj h
    exact fun hmem ↦ hxml (List.mem_of_mem_drop (List.mem_of_mem_take hmem))

section

variable {E : Type} {V : Env Statics E UpnpOp.Ans} {α : Type} {u : Statics}
  {l l₀ : List (Statics × Sigma UpnpOp.Ans)}

/-- The precondition of a program, for what it returns and the log. -/
abbrev Yields (V : Env Statics E UpnpOp.Ans) (p : Client α)
    (Q : α → Statics → List (Statics × Sigma UpnpOp.Ans) → Prop)
    (u : Statics) (l : List (Statics × Sigma UpnpOp.Ans)) : Prop :=
  Recorded V (fun o s a l ↦ (s, ⟨o, a⟩) :: l) (fun _ _ _ ↦ True) p Q u l

theorem parseHttp_replies (xml : List UInt8) :
    Yields V (parseHttp xml) (fun _ _ l' ↦ replies l' = replies l) u l := by
  refine .ite (fun _ ↦ .pure rfl) fun _ ↦ .modify_bind ?_
  split
  · exact .modify_bind (.get_bind (.perform_bind trivial fun _ ↦ .pure rfl))
  · exact .get_bind (.perform_bind trivial fun _ ↦ .pure rfl)

/-- An element that is found is at the start of `content`. -/
theorem printElement_content (xml opening closing : List UInt8) (label : String) :
    Yields V (printElement xml opening closing label) (fun found u' l' ↦ replies l' = replies l ∧
      found = (element xml opening closing).isSome ∧
      ∀ bytes, element xml opening closing = some bytes → ∃ q, u'.content = bytes ++ 0 :: q)
        u l := by
  unfold printElement copyElement
  split
  · rename_i hnone
    exact .pure ⟨rfl, by rw [hnone]; rfl, fun bytes h ↦ by rw [hnone] at h; cases h⟩
  · rename_i bytes hbytes
    refine .bind
      (.modify_bind
      (.pure (.ite (fun _ ↦ .get_bind (.perform_bind trivial fun _ ↦ .pure ?_)) fun hne ↦ ?_)))
    · refine ⟨rfl, by rw [hbytes]; rfl, fun bytes' h ↦ ?_⟩
      obtain rfl := Option.some.inj (hbytes.symm.trans h)
      exact ⟨_, List.append_assoc _ _ _⟩
    · exact absurd rfl hne

/-- What `parse_error` makes of a reply is 0 for such a fault only. -/
theorem parseError_result {charSigned : Bool} {xml : List UInt8} (hxml : 0 ∉ xml) :
    Yields V (parseError charSigned xml)
      (fun r _ l' ↦ replies l' = replies l ∧ (r = upnpOk ↔ ZeroFault charSigned xml)) u l := by
  have hparse : upnpErrParse ≠ upnpOk := by decide
  refine (printElement_content _ _ _ _).seq ?_
  rintro _ u₁ l₁ ⟨hl₁, rfl, -⟩
  refine .ite (fun hfault ↦ .pure ⟨hl₁, iff_of_false hparse fun h ↦ ?_⟩) fun hfault ↦ ?_
  · exact Bool.false_ne_true (hfault.symm.trans h.1)
  refine (printElement_content _ _ _ _).seq ?_
  rintro _ u₂ l₂ ⟨hl₂, rfl, hcontent⟩
  refine .ite (fun hcode ↦ .pure ⟨hl₂.trans hl₁, iff_of_false hparse fun h ↦ ?_⟩)
    fun hcode ↦ .get_bind ?_
  · obtain ⟨-, ⟨code, hcode', -⟩, -⟩ := h
    rw [hcode'] at hcode
    cases hcode
  refine (printElement_content _ _ _ _).seq ?_
  rintro _ u₃ l₃ ⟨hl₃, rfl, -⟩
  refine .ite (fun hdescr ↦ .pure ⟨hl₃.trans (hl₂.trans hl₁), iff_of_false hparse fun h ↦
    ?_⟩) fun hdescr ↦ .pure ?_
  · exact Bool.false_ne_true (hdescr.symm.trans h.2.2)
  · -- All three are there, and the code has been read back from `content`.
    obtain ⟨code, hcode⟩ := Option.isSome_iff_exists.mp ((Bool.not_eq_false _).mp hcode)
    obtain ⟨q, hq⟩ := hcontent code hcode
    have hread : cstr u₂.content = code := by
      rw [hq, Format.cstr_append_zero (zero_notMem_element hcode hxml)]
    refine ⟨hl₃.trans (hl₂.trans hl₁), ?_⟩
    rw [hread]
    constructor
    · intro hr
      have hzero : (atoi charSigned code 10).toNat = 0 := Int.natCast_eq_zero.mp hr
      exact ⟨(Bool.not_eq_false _).mp hfault, ⟨code, hcode, UInt16.toNat_inj.mp hzero⟩,
        (Bool.not_eq_false _).mp hdescr⟩
    · rintro ⟨-, ⟨code', hcode', hzero⟩, -⟩
      obtain rfl := Option.some.inj (hcode.symm.trans hcode')
      rw [hzero]
      rfl

/-- How an action ends: without a reply it has not succeeded, and with one it has if the element is
there or the fault comes to 0. -/
def Ends (charSigned : Bool) (response : List UInt8) (r : ℤ)
    (l : List (Statics × Sigma UpnpOp.Ans)) : Prop :=
  (∀ bytes ∈ replies l, bytes = []) ∧ r ≠ upnpOk ∨
    ∃ bytes, bytes ≠ [] ∧ replies l = [bytes] ∧
      (r = upnpOk ↔ response <:+: cstr bytes ∨ ZeroFault charSigned (cstr bytes))

theorem portAction_ends (charSigned : Bool) (action : UpnpAction) (response : List UInt8)
    (u : Statics) :
    Yields V (portAction charSigned action response) (fun r _ l ↦ Ends charSigned response r l) u
    [] := by
  have hnone : ∀ {bytes : List UInt8}, bytes ∈ replies [] → bytes = [] := fun h ↦ nomatch h
  refine .get_bind (.ite (fun _ ↦ .pure (.inl ⟨fun _ ↦ hnone, by decide⟩)) fun _ ↦
    .ite (fun _ ↦ ?_) fun _ ↦ ?_)
  · exact .perform_bind trivial fun _ ↦ .pure (.inl ⟨fun _ ↦ hnone, by decide⟩)
  · refine .bind (.get_bind (.perform_bind trivial fun a ↦ ?_))
    rcases a with _ | _ | ⟨b, bytes⟩
    · exact .pure (.pure (.inl ⟨fun _ ↦ hnone, by decide⟩))
    · exact .pure (.pure (.inl ⟨fun _ h ↦ List.mem_singleton.mp h, by decide⟩))
    · refine .pure
        (.bind (.bind ((parseHttp_replies _).imp fun _ u₁ l₁ hl₁ ↦
        .pure (.ite (fun hno ↦ ?_) fun hyes ↦ .pure ?_))))
      · refine (parseError_result (Format.zero_notMem_cstr _)).imp
          fun r u₂ l₂ ⟨hl₂, hr⟩ ↦ ?_
        refine .inr ⟨b :: bytes, List.cons_ne_nil _ _, hl₂.trans hl₁,
          hr.trans (or_iff_right fun h ↦ ?_).symm⟩
        exact Bool.false_ne_true (hno.symm.trans (strstr_isSome_iff.mpr h))
      · refine .inr ⟨b :: bytes, List.cons_ne_nil _ _, hl₁, iff_of_true rfl (.inl ?_)⟩
        exact strstr_isSome_iff.mp ((Bool.not_eq_false _).mp hyes)

end

/-! ## The two actions -/

/-- A call of `upnp_add_port` or `upnp_delete_port`. -/
inductive PortCall
  | add (protocol : List UInt8) (externalPort : UInt16) (internalIp : List UInt8)
      (internalPort : UInt16) (description : List UInt8)
  | delete (protocol : List UInt8) (externalPort : UInt16)

namespace PortCall

def prog (charSigned : Bool) : PortCall → Client ℤ
  | .add protocol externalPort internalIp internalPort description =>
    upnpAddPort charSigned protocol externalPort internalIp internalPort description
  | .delete protocol externalPort => upnpDeletePort charSigned protocol externalPort

/-- The element that confirms it. -/
def response : PortCall → List UInt8
  | .add .. => UpnpAction.addPort.response
  | .delete .. => UpnpAction.deletePort.response

theorem ends {E : Type} {V : Env Statics E UpnpOp.Ans} (charSigned : Bool) (c : PortCall)
    (u : Statics) :
    Yields V (c.prog charSigned) (fun r _ l ↦ Ends charSigned c.response r l) u [] := by
  cases c with
  | add => exact .modify_bind (portAction_ends charSigned _ _ _)
  | delete => exact .modify_bind (portAction_ends charSigned _ _ _)

/-- **Success is confirmed.** A call that gets no reply does not report success. With a reply, it
reports success exactly if the reply has the confirming element, except where the reply has no such
element and is a fault the code of which comes to 0 in 16 bits. -/
theorem ok_iff_confirmed {E : Type} {V : Env Statics E UpnpOp.Ans} {charSigned : Bool}
    {c : PortCall} {u u' : Statics} {e₀ : E} {e : E × List (Statics × Sigma UpnpOp.Ans)} {r : ℤ}
    (hr : Returns V.observed (c.prog charSigned) u (e₀, []) r u' e) :
    (∀ bytes ∈ replies e.2, bytes = []) ∧ r ≠ upnpOk ∨
      ∃ bytes, bytes ≠ [] ∧ replies e.2 = [bytes] ∧
        ((r = upnpOk ↔ c.response <:+: cstr bytes) ↔
          ¬(¬c.response <:+: cstr bytes ∧ ZeroFault charSigned (cstr bytes))) := by
  rcases (c.ends charSigned u).returns hr with hnone | ⟨bytes, hne, hbytes, hok⟩
  · exact .inl hnone
  · exact .inr ⟨bytes, hne, hbytes, by rw [hok]; tauto⟩

/-- A router that answers every request with this text. -/
def textReply (s : String) (o : UpnpOp) (e : Unit) : o.Ans × Unit :=
  match o with
  | .upnpTransportSsdp .. | .upnpTransportHttp .. => (some (text s), e)
  | .printf .. => ((), e)

/-- A session that has got to the port actions. -/
def described : Statics :=
  { step := .described, descIP := text "192.168.0.6", descPORT := text "3121", controlURL :=
    text "/ctl" }

/-- A mapping that is not there, as the router says. -/
def noSuchEntry : String :=
  "HTTP/1.1 500 Internal Server Error\r\n\r\n<faultstring>UPnPError</faultstring>" ++
  "<errorCode>714</errorCode><errorDescription>NoSuchEntryInArray</errorDescription>"

theorem ok_iff_confirmed_noSuchEntry :
    ∃ (u' : Statics) (e : Unit × List (Statics × Sigma UpnpOp.Ans)),
    Returns (Env.script (textReply noSuchEntry) : Env Statics Unit UpnpOp.Ans).observed
        ((delete (text "TCP") 8000).prog false) described ((), []) 714 u' e ∧
      ((∀ bytes ∈ replies e.2, bytes = []) ∧ (714 : ℤ) ≠ upnpOk ∨
        ∃ bytes, bytes ≠ [] ∧ replies e.2 = [bytes] ∧
          ((714 = upnpOk ↔ (delete (text "TCP") 8000).response <:+: cstr bytes) ↔
            ¬(¬(delete (text "TCP") 8000).response <:+: cstr bytes ∧
              ZeroFault false (cstr bytes)))) := by
  have hr :=
    returns_runNoted (V := (Env.script (textReply noSuchEntry) : Env Statics Unit UpnpOp.Ans))
    (f := fun o s a (l : List (Statics × Sigma UpnpOp.Ans)) ↦ (s, ⟨o, a⟩) :: l)
      (h := textReply noSuchEntry)
    (fun _ _ _ ↦ ⟨rfl, rfl⟩) (n := 60) (p := (delete (text "TCP") 8000).prog false)
      (s := described) (e := ((), []))
    (a := 714) (by decide +kernel)
  exact ⟨_, _, hr, ok_iff_confirmed hr⟩

/-- A fault the code of which is 65536. -/
def wrappedCode : String :=
  "HTTP/1.1 500 Internal Server Error\r\n\r\n<faultstring>UPnPError</faultstring>" ++
  "<errorCode>65536</errorCode><errorDescription>ActionFailed</errorDescription>"

theorem not_ok_iff_confirmed :
    ¬∀ (E : Type) (V : Env Statics E UpnpOp.Ans) (charSigned : Bool) (c : PortCall) (u u' : Statics)
    (e₀ : E)
      (e : E × List (Statics × Sigma UpnpOp.Ans)) (r : ℤ),
      Returns V.observed (c.prog charSigned) u (e₀, []) r u' e →
      ∀ bytes, bytes ≠ [] → replies e.2 = [bytes] →
      (r = upnpOk ↔ c.response <:+: cstr bytes) := by
  intro h
  have hr :=
    returns_runNoted (V := (Env.script (textReply wrappedCode) : Env Statics Unit UpnpOp.Ans))
    (f := fun o s a (l : List (Statics × Sigma UpnpOp.Ans)) ↦ (s, ⟨o, a⟩) :: l)
      (h := textReply wrappedCode)
    (fun _ _ _ ↦ ⟨rfl, rfl⟩) (n := 60) (p := (delete (text "TCP") 8000).prog false)
      (s := described) (e := ((), []))
    (a := upnpOk) (by decide +kernel)
  have hresponse :=
    (h Unit _ false (delete (text "TCP") 8000) _ _ _ _ _ hr (text wrappedCode) (by decide)
    (by decide +kernel)).mp rfl
  rw [← strstr_isSome_iff] at hresponse
  revert hresponse
  decide +kernel

end PortCall

end WsmDriver.Upnp
