import WsmDriver.Effect.History
import WsmDriver.Effect.Trace
import WsmDriver.Upnp.Core

/-!
# The content buffer

Everything that comes from a router ends up in `content`, which is half as long as the buffer it is
received in. `copy_element` asks whether an element fits. `parse_http` does not ask: of a reply that
does not say `200 OK` it copies the first line, however long it is.

A program prints what it has stored, so the log of its operations, with the statics each of them
finds, shows `content` after each store.
-/

namespace WsmDriver.Upnp

open Effect Program
open Format (text cstr strstr strstr_isSome_iff)

/-! ## What is stored -/

/-- Nothing is written behind the array, and a zero is in it. -/
def Contained (content : List UInt8) : Prop := content.length = contBufferSize ∧ 0 ∈ content

instance (content : List UInt8) : Decidable (Contained content) :=
  inferInstanceAs (Decidable (_ ∧ _))

/-- A reply of which nothing is copied, or not more than there is room for with a zero behind it. -/
def Harmless (xml : List UInt8) : Prop :=
  text "200 OK" <:+: xml ∨ ∀ loc, strstr xml (text "\r\n") = some loc → loc < contBufferSize

theorem harmless_nil (bytes : List UInt8) (h : some [] = some bytes) : Harmless (cstr bytes) := by
  obtain rfl := Option.some.inj h
  exact .inr fun loc hloc ↦ nomatch hloc

theorem contained_replicate : Contained (List.replicate contBufferSize 0) :=
  ⟨List.length_replicate, List.mem_replicate.mpr ⟨by decide, rfl⟩⟩

/-- An element with its zero. -/
theorem Contained.store {content bytes : List UInt8} (h : Contained content)
    (hlen : bytes.length < contBufferSize) :
    Contained (bytes ++ [0] ++ content.drop (bytes ++ [0]).length) := by
  refine ⟨?_, by simp⟩
  have := h.1
  simp only [List.length_append, List.length_drop, List.length_singleton]
  omega

/-- The first line of a reply, over zeros. -/
theorem contained_line_iff {xml : List UInt8} {loc : ℕ} (hxml : 0 ∉ xml)
    (hloc : loc ≤ xml.length) :
    Contained (xml.take loc ++ (List.replicate contBufferSize 0).drop (xml.take loc).length) ↔
    loc < contBufferSize := by
  have hlen : (xml.take loc).length = loc := List.length_take_of_le hloc
  rw [Contained, hlen, List.drop_replicate, List.mem_append]
  constructor
  · -- The line brings no zero, so one of those it was copied over must be left.
    rintro ⟨-, hmem | hmem⟩
    · exact absurd (List.mem_of_mem_take hmem) hxml
    · have := (List.mem_replicate.mp hmem).1
      omega
  · intro h
    refine ⟨?_, .inr (List.mem_replicate.mpr ⟨by omega, rfl⟩)⟩
    simp only [List.length_append, List.length_replicate, hlen]
    omega

theorem append_length {size : ℕ} {dest src : List UInt8} (h : dest.length < size) :
    (append size dest src).length < size := by
  rw [append]
  split
  · exact h
  · simp only [List.length_append, List.length_take]
    omega

theorem compose_length {size : ℕ} (h : 0 < size) (parts : List (List UInt8)) :
    (compose size parts).length < size := by
  have hfold : ∀ dest : List UInt8, dest.length < size → (parts.foldl (append size) dest).length <
      size := by
    induction parts with
    | nil => exact fun dest hdest ↦ hdest
    | cons part parts ih => exact fun dest hdest ↦ ih _ (append_length hdest)
  exact hfold [] h

theorem element_length {xml opening closing bytes : List UInt8}
    (h : element xml opening closing = some bytes) : bytes.length < contBufferSize := by
  rw [element] at h
  obtain ⟨start, -, h⟩ := Option.bind_eq_some_iff.mp h
  obtain ⟨dist, -, h⟩ := Option.bind_eq_some_iff.mp h
  dsimp only at h
  split at h
  · cases h
  · rename_i hlen
    obtain rfl := Option.some.inj h
    exact (List.length_take_le _ _).trans_lt (not_le.mp hlen)

/-! ## The log -/

/-- What the transport has put in `recv_buffer`. -/
def reply : (o : UpnpOp) → o.Ans → Option (List UInt8)
  | .upnpTransportSsdp .., a => a
  | .upnpTransportHttp .., a => a
  | .printf .., _ => none

/-- Every operation has found `content` as it should be. -/
def AllContained (l : List (Statics × Sigma UpnpOp.Ans)) : Prop := ∀ x ∈ l, Contained x.1.content

/-- Every reply is harmless. -/
def AllHarmless (l : List (Statics × Sigma UpnpOp.Ans)) : Prop :=
  ∀ x ∈ l, ∀ bytes, reply x.2.1 x.2.2 = some bytes → Harmless (cstr bytes)

/-- Between two operations: the two go together, and with them goes what `content` is now. -/
structure Tallies (u : Statics) (l : List (Statics × Sigma UpnpOp.Ans)) : Prop where
  iff : AllContained l ↔ AllHarmless l
  content : AllHarmless l → Contained u.content

theorem allContained_cons {u : Statics} {x : Sigma UpnpOp.Ans}
    {l : List (Statics × Sigma UpnpOp.Ans)} :
    AllContained ((u, x) :: l) ↔ Contained u.content ∧ AllContained l := List.forall_mem_cons

theorem allHarmless_cons {u : Statics} {x : Sigma UpnpOp.Ans}
    {l : List (Statics × Sigma UpnpOp.Ans)} :
    AllHarmless ((u, x) :: l) ↔ (∀ bytes, reply x.1 x.2 = some bytes → Harmless (cstr bytes)) ∧
    AllHarmless l :=
  List.forall_mem_cons

theorem allHarmless_printf {u : Statics} {label : String} {arg : List UInt8}
    {l : List (Statics × Sigma UpnpOp.Ans)} :
    AllHarmless ((u, ⟨.printf label arg, ()⟩) :: l) ↔ AllHarmless l := by
  rw [allHarmless_cons]
  exact and_iff_right fun _ h ↦ nomatch h

namespace Tallies

variable {u u' : Statics} {l : List (Statics × Sigma UpnpOp.Ans)}

theorem keep (h : Tallies u l) (hu : Contained u.content → Contained u'.content) : Tallies u' l :=
  ⟨h.iff, fun hl ↦ hu (h.content hl)⟩

theorem printf (h : Tallies u l) (label : String) (arg : List UInt8) :
    Tallies u ((u, ⟨.printf label arg, ()⟩) :: l) := by
  refine ⟨?_, fun hl ↦ h.content (allHarmless_printf.mp hl)⟩
  rw [allContained_cons, allHarmless_printf, h.iff]
  exact and_iff_right_of_imp h.content

/-- A reply, and nothing copied of it. -/
theorem answer (h : Tallies u l) {o : UpnpOp} {a : o.Ans}
    (ha : ∀ bytes, reply o a = some bytes → Harmless (cstr bytes)) :
    Tallies u ((u, ⟨o, a⟩) :: l) := by
  refine ⟨?_, fun hl ↦ h.content (allHarmless_cons.mp hl).2⟩
  rw [allContained_cons, allHarmless_cons, h.iff]
  exact ⟨fun hl ↦ ⟨ha, hl.2⟩, fun hl ↦ ⟨h.content hl.2, hl.2⟩⟩

/-- A reply, and something copied of it and printed. -/
theorem copied (h : Tallies u l) {o : UpnpOp} {a : o.Ans} {bytes : List UInt8}
    (ha : reply o a = some bytes)
    (hcopy : Contained u.content → (Contained u'.content ↔ Harmless (cstr bytes))) (label : String)
    (arg : List UInt8) : Tallies u' ((u', ⟨.printf label arg, ()⟩) :: (u, ⟨o, a⟩) :: l) := by
  have hharmless : (∀ bytes', reply o a = some bytes' → Harmless (cstr bytes')) ↔
      Harmless (cstr bytes) := by
    rw [ha]
    exact ⟨fun h ↦ h bytes rfl, fun h bytes' h' ↦ Option.some.inj h' ▸ h⟩
  constructor
  · -- The `printf` finds what was copied, and the operation before it what was there until then.
    rw [allContained_cons, allContained_cons, allHarmless_printf, allHarmless_cons, hharmless,
      h.iff]
    exact ⟨fun ⟨hu', hu, hl⟩ ↦ ⟨(hcopy hu).mp hu', hl⟩,
      fun ⟨hb, hl⟩ ↦ ⟨(hcopy (h.content hl)).mpr hb, h.content hl, hl⟩⟩
  · rw [allHarmless_printf, allHarmless_cons, hharmless]
    exact fun ⟨hb, hl⟩ ↦ (hcopy (h.content hl)).mpr hb

end Tallies

/-! ## Programs -/

section

variable {E : Type} {V : Env Statics E UpnpOp.Ans} {α β : Type} {u : Statics}
    {l : List (Statics × Sigma UpnpOp.Ans)}

/-- Whatever the program does, the log tallies in the end. -/
def Tallied (V : Env Statics E UpnpOp.Ans) (p : Client α) (u : Statics)
    (l : List (Statics × Sigma UpnpOp.Ans)) : Prop :=
  Recorded V (fun o s a l ↦ (s, ⟨o, a⟩) :: l) (fun _ _ _ ↦ True) p (fun _ ↦ Tallies) u l

theorem Tallied.seq {p : Client α} {k : α → Client β} (hp : Tallied V p u l)
    (hk : ∀ a u l, Tallies u l → Tallied V (k a) u l) : Tallied V (p >>= k) u l :=
  Recorded.seq hp hk

/-- Zeros, and the first line over them. -/
theorem parseHttp_tallied {o : UpnpOp} {a : o.Ans} {bytes : List UInt8} (h : Tallies u l)
    (ha : reply o a = some bytes) : Tallied V (parseHttp (cstr bytes)) u ((u, ⟨o, a⟩) :: l) := by
  have hzero := Format.zero_notMem_cstr bytes
  refine .ite (fun hgood ↦ .pure (h.answer fun bytes' h' ↦ ?_)) fun hbad ↦ ?_
  · obtain rfl := Option.some.inj (ha.symm.trans h')
    exact .inl (strstr_isSome_iff.mp hgood)
  · -- `memset` covers the array exactly as long as nothing was written behind it before.
    have hzeros : Contained u.content →
        List.replicate contBufferSize 0 ++
          u.content.drop (List.replicate contBufferSize (0 : UInt8)).length =
          List.replicate contBufferSize 0 := by
      intro hu
      rw [List.length_replicate, List.drop_eq_nil_of_le hu.1.le, List.append_nil]
    have hharmless : Harmless (cstr bytes) ↔
        ∀ loc, strstr (cstr bytes) (text "\r\n") = some loc → loc < contBufferSize :=
      or_iff_right fun hgood ↦ hbad (strstr_isSome_iff.mpr hgood)
    refine .modify_bind ?_
    split
    · rename_i loc hloc
      refine .modify_bind
        (.get_bind (.perform_bind trivial fun _ ↦ .pure (h.copied ha (fun hu ↦ ?_) _ _)))
      have hle := Format.strstr_le hloc
      simp only [hzeros hu]
      rw [contained_line_iff hzero (by omega), hharmless, hloc]
      exact ⟨fun hlt loc' h' ↦ Option.some.inj h' ▸ hlt, fun hlt ↦ hlt loc rfl⟩
    · rename_i hloc
      refine .get_bind (.perform_bind trivial fun _ ↦ .pure (h.copied ha (fun hu ↦ ?_) _ _))
      simp only [hzeros hu]
      rw [hharmless, hloc]
      exact iff_of_true contained_replicate fun loc h' ↦ nomatch h'

/-- An element that fits. -/
theorem printElement_tallied (h : Tallies u l) (xml opening closing : List UInt8) (label : String) :
    Tallied V (printElement xml opening closing label) u l := by
  unfold printElement copyElement
  split
  · exact .pure h
  · rename_i bytes hbytes
    have hlen := element_length hbytes
    refine .bind
      (.modify_bind
      (.pure (.ite (fun _ ↦ .get_bind (.perform_bind trivial fun _ ↦ .pure ?_)) fun hne ↦ ?_)))
    · exact (h.keep fun hu ↦ hu.store hlen).printf _ _
    · exact absurd rfl hne

theorem upnpParseEventing_tallied (h : Tallies u l) (xml : List UInt8) :
    Tallied V (upnpParseEventing xml) u l := by
  have hprint : ∀ (opening closing : List UInt8) (label : String) (u : Statics)
      (l : List (Statics × Sigma UpnpOp.Ans)),
      Tallies u l → Tallied V (discard (printElement xml opening closing label)) u l :=
    fun opening closing label u l h ↦
      (printElement_tallied h xml opening closing label).seq fun _ _ _ h ↦ .pure h
  exact (hprint _ _ _ u l h).seq fun _ u l h ↦ (hprint _ _ _ u l h).seq fun _ u l h ↦
    (hprint _ _ _ u l h).seq fun _ u l h ↦ hprint _ _ _ u l h

theorem parseError_tallied (charSigned : Bool) (h : Tallies u l) (xml : List UInt8) :
    Tallied V (parseError charSigned xml) u l := by
  refine (printElement_tallied h _ _ _ _).seq fun _ u l h ↦ .ite (fun _ ↦ .pure h) fun _ ↦ ?_
  refine (printElement_tallied h _ _ _ _).seq fun _ u l h ↦ .ite (fun _ ↦ .pure h) fun _ ↦
    .get_bind ?_
  refine (printElement_tallied h _ _ _ _).seq fun _ u l h ↦ .ite (fun _ ↦ .pure h) fun _ ↦
    .pure h

theorem parseUrl_tallied (h : Tallies u l) (url : List UInt8) : Tallied V (parseUrl url) u l := by
  unfold parseUrl
  split
  · dsimp only
    split
    · refine .ite (fun _ ↦ .pure h) fun _ ↦ .modify_bind ?_
      split
      · refine .ite (fun _ ↦ .pure (h.keep id)) fun _ ↦ .modify_bind ?_
        exact .ite (fun _ ↦ .pure (h.keep id)) fun _ ↦ .modify_bind (.pure (h.keep id))
      · exact .pure (h.keep id)
    · exact .pure h
  · exact .pure h

theorem parseSsdp_tallied {o : UpnpOp} {a : o.Ans} {bytes : List UInt8} (h : Tallies u l)
    (ha : reply o a = some bytes) : Tallied V (parseSsdp (cstr bytes)) u ((u, ⟨o, a⟩) :: l) := by
  refine (parseHttp_tallied h ha).seq fun ret u l h ↦ .ite (fun _ ↦ .pure h) fun _ ↦ ?_
  split
  · split
    · refine .ite (fun _ ↦ .pure h) fun _ ↦ .modify_bind (parseUrl_tallied ?_ _)
      exact h.keep id
    · exact .pure h
  · exact .pure h

theorem parseDescription_tallied {o : UpnpOp} {a : o.Ans} {bytes : List UInt8} (h : Tallies u l)
    (ha : reply o a = some bytes) :
    Tallied V (parseDescription (cstr bytes)) u ((u, ⟨o, a⟩) :: l) := by
  refine (parseHttp_tallied h ha).seq fun ret u l h ↦ .ite (fun _ ↦ .pure h) fun _ ↦ ?_
  split
  · refine .modify_bind ?_
    split
    · exact .modify_bind (.pure (h.keep id))
    · exact .pure (h.keep id)
  · exact .pure h

/-- An exchange leaves its reply to whoever parses it. -/
theorem exchange_bind_tallied (charSigned : Bool) (h : Tallies u l) {request : List UInt8}
    {k : Option (List UInt8) → Client α} (hnone : ∀ l, Tallies u l → Tallied V (k none) u l)
    (hsome : ∀ (o : UpnpOp) (a : o.Ans) (bytes : List UInt8), reply o a = some bytes →
      Tallied V (k (some (cstr bytes))) u ((u, ⟨o, a⟩) :: l)) :
    Tallied V (exchange charSigned request >>= k) u l := by
  refine .bind (.get_bind (.perform_bind trivial fun a ↦ ?_))
  rcases a with _ | _ | ⟨b, bytes⟩
  · exact .pure (hnone _ (h.answer fun _ h' ↦ nomatch h'))
  · exact .pure (hnone _ (h.answer harmless_nil))
  · exact .pure (hsome _ _ (b :: bytes) rfl)

theorem upnpDiscover_tallied (h : Tallies u l) : Tallied V upnpDiscover u l := by
  refine .perform_bind trivial fun a ↦ ?_
  rcases a with _ | _ | ⟨b, bytes⟩
  · exact .pure (h.answer fun _ h' ↦ nomatch h')
  · exact .pure (h.answer harmless_nil)
  · refine (parseSsdp_tallied h rfl).seq fun ret u l h ↦ .when_bind (fun _ ↦ ?_) fun _ ↦ .pure h
    exact .modify_bind (.pure (h.keep id))

theorem upnpGetDescription_tallied (charSigned : Bool) (h : Tallies u l) :
    Tallied V (upnpGetDescription charSigned) u l := by
  refine .get_bind (.ite (fun _ ↦ .pure h) fun _ ↦ ?_)
  refine exchange_bind_tallied charSigned h (fun l h ↦ .pure h) fun o a bytes ha ↦ ?_
  refine (parseDescription_tallied h ha).seq fun ret u l h ↦ .when_bind (fun _ ↦ ?_) fun _ ↦
    .pure h
  exact .modify_bind (.pure (h.keep id))

theorem upnpSubscribe_tallied (charSigned : Bool) (h : Tallies u l) (localIp : List UInt8)
    (eventPort : UInt16) : Tallied V (upnpSubscribe charSigned localIp eventPort) u l := by
  refine .get_bind (.ite (fun _ ↦ .pure h) fun _ ↦ ?_)
  exact exchange_bind_tallied charSigned h (fun l h ↦ .pure h) fun o a bytes ha ↦
    parseHttp_tallied h ha

theorem portAction_tallied (charSigned : Bool) (h : Tallies u l) (action : UpnpAction)
    (expectResponse : List UInt8) :
    Tallied V (portAction charSigned action expectResponse) u l := by
  refine .get_bind (.ite (fun _ ↦ .pure h) fun _ ↦ .ite (fun _ ↦ ?_) fun _ ↦ ?_)
  · exact .perform_bind trivial fun _ ↦ .pure (h.printf _ _)
  · -- What `parse_http` returns is not looked at here.
    refine exchange_bind_tallied charSigned h (fun l h ↦ .pure h) fun o a bytes ha ↦ ?_
    refine Tallied.seq ((parseHttp_tallied h ha).seq fun _ _ _ h ↦ .pure h) fun _ u l h ↦ ?_
    exact .ite (fun _ ↦ parseError_tallied charSigned h _) fun _ ↦ .pure h

/-! ## Sessions -/

/-- What the application may call. -/
inductive Call
  | discover
  | getDescription
  | subscribe (localIp : List UInt8) (eventPort : UInt16)
  | addPort (protocol : List UInt8) (externalPort : UInt16) (internalIp : List UInt8)
      (internalPort : UInt16) (description : List UInt8)
  | deletePort (protocol : List UInt8) (externalPort : UInt16)
  | parseEventing (buf : List UInt8)

def Call.prog (charSigned : Bool) : Call → Client Unit
  | .discover => discard upnpDiscover
  | .getDescription => discard (upnpGetDescription charSigned)
  | .subscribe localIp eventPort => discard (upnpSubscribe charSigned localIp eventPort)
  | .addPort protocol externalPort internalIp internalPort description =>
    discard (upnpAddPort charSigned protocol externalPort internalIp internalPort description)
  | .deletePort protocol externalPort => discard (upnpDeletePort charSigned protocol externalPort)
  | .parseEventing buf => upnpParseEventing (cstr buf)

theorem Tallied.discard {p : Client α} (hp : Tallied V p u l) : Tallied V (discard p) u l :=
  hp.seq fun _ _ _ h ↦ .pure h

/-- A request fits where it is built. -/
theorem Contained.compose {content : List UInt8} (h : Contained content)
    (parts : List (List UInt8)) :
    Contained (compose contBufferSize parts ++ [0] ++ content.drop (compose contBufferSize parts ++
      [0]).length) :=
  h.store (compose_length (by decide) parts)

theorem Call.tallied (charSigned : Bool) (c : Call) (h : Tallies u l) :
    Tallied V (c.prog charSigned) u l := by
  cases c with
  | discover => exact (upnpDiscover_tallied h).discard
  | getDescription => exact (upnpGetDescription_tallied charSigned h).discard
  | subscribe localIp eventPort =>
    exact (upnpSubscribe_tallied charSigned h localIp eventPort).discard
  | addPort protocol externalPort internalIp internalPort description =>
    refine Tallied.discard (.modify_bind (portAction_tallied charSigned ?_ _ _))
    exact h.keep fun hu ↦ hu.compose _
  | deletePort protocol externalPort =>
    refine Tallied.discard (.modify_bind (portAction_tallied charSigned ?_ _ _))
    exact h.keep fun hu ↦ hu.compose _
  | parseEventing buf => exact upnpParseEventing_tallied h _

theorem tallies_of_history {charSigned : Bool} {e₀ : E} {e : E × List (Statics × Sigma UpnpOp.Ans)}
    (h : History (fun _ : Call ↦ V.observed) (fun _ _ _ ↦ True) (Call.prog charSigned) {}
      (e₀, []) u e) :
    Tallies u e.2 := by
  induction h with
  | start =>
    exact ⟨iff_of_true (fun x hx ↦ nomatch hx) (fun x hx ↦ nomatch hx),
      fun _ ↦ contained_replicate⟩
  | drift c _ hd ih => exact hd.2 ▸ ih
  | call c _ _ hr ih => exact (c.tallied charSigned ih).returns hr

end

/-- **The content buffer.** In a session whatever is stored stays inside `content` and leaves a zero
there if and only if each reply says `200 OK`, has no line end, or has a first line that is shorter
than `content`. -/
theorem content_contained_iff {E : Type} {V : Env Statics E UpnpOp.Ans} {charSigned : Bool}
    {u : Statics} {e₀ : E} {e : E × List (Statics × Sigma UpnpOp.Ans)}
    (h : History (fun _ : Call ↦ V.observed) (fun _ _ _ ↦ True) (Call.prog charSigned) {}
      (e₀, []) u e) :
    AllContained e.2 ∧ Contained u.content ↔ AllHarmless e.2 := by
  have htallies := tallies_of_history h
  rw [htallies.iff]
  exact and_iff_left_of_imp htallies.content

/-- A router that answers everything with a line of so many bytes. -/
def lineReply (n : ℕ) (o : UpnpOp) (e : Unit) : o.Ans × Unit :=
  match o with
  | .upnpTransportSsdp .. | .upnpTransportHttp .. =>
    (some (List.replicate n 0x41 ++ text "\r\n"), e)
  | .printf .. => ((), e)

theorem content_contained_iff_short :
    ∃ (u : Statics) (e : Unit × List (Statics × Sigma UpnpOp.Ans)),
    History (fun _ : Call ↦ (Env.script (lineReply 3) : Env Statics Unit UpnpOp.Ans).observed)
    (fun _ _ _ ↦ True)
      (Call.prog false) {} ((), []) u e ∧ e.2.length = 2 ∧
      (AllContained e.2 ∧ Contained u.content ↔ AllHarmless e.2) := by
  have hr := returns_runNoted (V := (Env.script (lineReply 3) : Env Statics Unit UpnpOp.Ans))
    (f := fun o s a (l : List (Statics × Sigma UpnpOp.Ans)) ↦ (s, ⟨o, a⟩) :: l)
      (h := lineReply 3)
    (fun _ _ _ ↦ ⟨rfl, rfl⟩) (n := 40) (p := Call.prog false .discover) (s := {}) (e := ((), []))
      (a := ())
    (by decide)
  have hh : History
      (fun _ : Call ↦ (Env.script (lineReply 3) : Env Statics Unit UpnpOp.Ans).observed)
      (fun _ _ _ ↦ True) (Call.prog false) {} ((), []) _ _ := .call .discover .start trivial hr
  exact ⟨_, _, hh, by decide, content_contained_iff hh⟩

/-- A router that answers the search with a line of 2049 bytes. -/
theorem not_content_contained :
    ¬∀ (E : Type) (V : Env Statics E UpnpOp.Ans) (u : Statics) (e₀ : E)
    (e : E × List (Statics × Sigma UpnpOp.Ans)),
      History (fun _ : Call ↦ V.observed) (fun _ _ _ ↦ True) (Call.prog false) {}
      (e₀, []) u e →
      (∀ x ∈ e.2, ∀ bytes ∈ reply x.2.1 x.2.2, bytes.length ≤ recvBufferSize - 1) →
      AllContained e.2 ∧ Contained u.content := by
  intro h
  have hr := returns_runNoted (V := (Env.script (lineReply 2049) : Env Statics Unit UpnpOp.Ans))
    (f := fun o s a (l : List (Statics × Sigma UpnpOp.Ans)) ↦ (s, ⟨o, a⟩) :: l)
      (h := lineReply 2049)
    (fun _ _ _ ↦ ⟨rfl, rfl⟩) (n := 40) (p := Call.prog false .discover) (s := {}) (e := ((), []))
      (a := ())
    (by decide +kernel)
  have hh : History
      (fun _ : Call ↦ (Env.script (lineReply 2049) : Env Statics Unit UpnpOp.Ans).observed)
      (fun _ _ _ ↦ True) (Call.prog false) {} ((), []) _ _ := .call .discover .start trivial hr
  have hcontent := (h Unit _ _ _ _ hh (by decide +kernel)).2.1
  revert hcontent
  decide +kernel

end WsmDriver.Upnp
