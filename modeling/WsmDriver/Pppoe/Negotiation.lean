import WsmDriver.Pppoe.Digest
import WsmDriver.Pppoe.Handshake

/-!
# The negotiations of the PPPoE client

How the client answers requests about options: with an acknowledgement of all of them, if it knows
them all, or else with a rejection of exactly those that it does not know. This is so in every run
in which what arrives is well formed. The client does not check that, and then reads and writes
outside of its arrays.
-/

namespace WsmDriver.Pppoe

open Effect Program
open Format (Block readBytes)
open W6300 (be16 word word_be16)

/-! ## Options -/

/-- An option of LCP or IPCP. Its length byte counts the code and itself. -/
structure ConfigOption where
  code : UInt8
  data : List UInt8
  length_lt : data.length < 254
  deriving DecidableEq

namespace ConfigOption

def encode (o : ConfigOption) : List UInt8 := o.code :: UInt8.ofNat (o.data.length + 2) :: o.data

theorem length_encode (o : ConfigOption) : o.encode.length = o.data.length + 2 := rfl

theorem toNat_length (o : ConfigOption) : (UInt8.ofNat (o.data.length + 2)).toNat =
    o.encode.length := by
  have := o.length_lt
  rw [UInt8.toNat_ofNat', length_encode]
  omega

/-- The bytes of some options. -/
def encodeAll (os : List ConfigOption) : List UInt8 := os.flatMap encode

@[simp] theorem encodeAll_nil : encodeAll [] = [] := rfl

@[simp] theorem encodeAll_cons (o : ConfigOption) (os : List ConfigOption) :
    encodeAll (o :: os) = o.encode ++ encodeAll os := rfl

@[simp] theorem encodeAll_append (os os' : List ConfigOption) : encodeAll (os ++ os') =
    encodeAll os ++ encodeAll os' :=
  List.flatMap_append ..

theorem encodeAll_eq_nil {os : List ConfigOption} : encodeAll os = [] ↔ os = [] := by
  cases os with
  | nil => exact iff_of_true rfl rfl
  | cons o os => exact iff_of_false (by simp [encode]) (by simp)

/-- Some of the options take no more room than all. -/
theorem length_encodeAll_filter (p : ConfigOption → Bool) (os : List ConfigOption) :
    (encodeAll (os.filter p)).length ≤ (encodeAll os).length := by
  induction os with
  | nil => exact Nat.le_refl _
  | cons o os ih =>
    rw [List.filter_cons, encodeAll_cons, List.length_append]
    split
    · rw [encodeAll_cons, List.length_append]
      exact Nat.add_le_add_left ih _
    · exact ih.trans (Nat.le_add_left _ _)

/-- The bytes say which options they are. -/
theorem encodeAll_injective {os os' : List ConfigOption} (h : encodeAll os = encodeAll os') :
    os = os' := by
  induction os generalizing os' with
  | nil => exact (encodeAll_eq_nil.mp h.symm).symm
  | cons o os ih =>
    cases os' with
    | nil => exact absurd (encodeAll_eq_nil.mp h) (by simp)
    | cons o' os' =>
      simp only [encodeAll_cons, encode, List.cons_append, List.cons.injEq] at h
      obtain ⟨hcode, hlen, hrest⟩ := h
      have hlength : o.data.length = o'.data.length := by
        have h₁ := o.toNat_length
        have h₂ := o'.toNat_length
        rw [hlen, h₂, length_encode, length_encode] at h₁
        omega
      obtain ⟨hdata, htail⟩ := List.append_inj hrest hlength
      obtain rfl : o = o' := by
        cases o
        cases o'
        cases hcode
        cases hdata
        rfl
      rw [ih htail]

end ConfigOption

open ConfigOption (encodeAll encodeAll_nil encodeAll_cons encodeAll_append encodeAll_eq_nil
      length_encodeAll_filter)

/-- The frame has these options behind its header. -/
structure Carries (b : Block pppoeDataBufSize) (os : List ConfigOption) : Prop where
  length : word (b.1.drop 24) - 4 = .ofNat (encodeAll os).length
  options : ∃ rest, b.1.drop 26 = encodeAll os ++ rest

theorem Carries.length_le {b : Block pppoeDataBufSize} {os : List ConfigOption} (h : Carries b os) :
    (encodeAll os).length ≤ 2022 := by
  obtain ⟨rest, hrest⟩ := h.options
  have := congrArg List.length hrest
  rw [List.length_drop, b.2, pppoeDataBufSize, List.length_append] at this
  omega

theorem Carries.unique {b : Block pppoeDataBufSize} {os os' : List ConfigOption} (h : Carries b os)
    (h' : Carries b os') : os = os' := by
  obtain ⟨rest, hrest⟩ := h.options
  obtain ⟨rest', hrest'⟩ := h'.options
  have hlen : (encodeAll os).length = (encodeAll os').length := by
    have heq := congrArg UInt16.toNat (h.length.symm.trans h'.length)
    rw [UInt16.toNat_ofNat', UInt16.toNat_ofNat'] at heq
    have := h.length_le
    have := h'.length_le
    omega
  exact ConfigOption.encodeAll_injective (List.append_inj (hrest.symm.trans hrest') hlen).1

/-- The options that are known. -/
def lcpKnown (code : UInt8) : Bool := code = lcpMru ∨ code = lcpAuth ∨ code = lcpMagicnum

def ipcpKnown (code : UInt8) : Bool := code = 0x02 ∨ code = 0x03

/-- The code of the answer, and its options. -/
def configAnswer (known : UInt8 → Bool) (ok : UInt8) (os : List ConfigOption) :
    UInt8 × List ConfigOption :=
  if os.all fun o ↦ known o.code then (ok, os) else (pppConfigRej, os.filter fun o ↦ !known o.code)

/-! ## The loop over the options -/

section

variable {b : Block pppoeDataBufSize} {os : List ConfigOption} {known : UInt8 → Bool}
  {option : UInt8 → ℕ → ℕ → Globals → Option (Bool × Globals)}
  {use : Block 4 → ConfigOption → Block 4}

/-- What the loop does with an option by itself: it is known or not, and may set the address. -/
def Reads (option : UInt8 → ℕ → ℕ → Globals → Option (Bool × Globals))
    (known : UInt8 → Bool) (use : Block 4 → ConfigOption → Block 4) (o : ConfigOption) : Prop :=
  ∀ (s : Globals) (t : ℕ) (q : List UInt8), s.buf.1.drop t = o.encode ++ q →
    t + o.encode.length + 80 ≤ pppoeDataBufSize →
    ∃ s₁, option o.code o.encode.length t s = some (known o.code, s₁) ∧ s₁.buf = s.buf ∧
      s₁.ip = use s.ip o

/-- Where the loop is when the options `past` have been read, and `todo` have not. -/
structure Scanned (b : Block pppoeDataBufSize) (known : UInt8 → Bool)
    (past todo : List ConfigOption) (s : Globals) : Prop where
  buf : s.buf = b
  tIdx : s.scan.tIdx.toNat = 26 + (encodeAll past).length
  left : s.scan.left = .ofNat (encodeAll todo).length
  acknak : s.scan.acknak = encodeAll (past.filter fun o ↦ known o.code)
  rjt : s.scan.rjt = encodeAll (past.filter fun o ↦ !known o.code)
  rest : ∃ rest, b.1.drop (26 + (encodeAll past).length) = encodeAll todo ++ rest

/-- One option. -/
theorem Scanned.turn {past todo : List ConfigOption} {o : ConfigOption} {s : Globals}
    (h : Scanned b known past (o :: todo) s) (hfit : (encodeAll (past ++ o :: todo)).length ≤
      optmsgLen)
    (ho : Reads option known use o) :
    ∃ s', optionTurn option s = some (some s') ∧ Scanned b known (past ++ [o]) todo s' ∧ s'.ip =
    use s.ip o := by
  obtain ⟨rest, hrest⟩ := h.rest
  rw [encodeAll_cons, List.append_assoc, ← h.tIdx, ← h.buf] at hrest
  rw [encodeAll_append, encodeAll_cons, List.length_append, List.length_append] at hfit
  have hsize : o.encode.length = o.data.length + 2 := o.length_encode
  have hoptmsg : optmsgLen = 80 := rfl
  have hbuf : pppoeDataBufSize = 2048 := rfl
  have htIdx := h.tIdx
  have hleft : ¬s.scan.left = 0 := by
    rw [h.left, encodeAll_cons, ← UInt16.toNat_inj, UInt16.toNat_ofNat', List.length_append]
    simp only [UInt16.toNat_zero]
    omega
  have hhead : s.buf.read s.scan.tIdx.toNat 2 = some [o.code, .ofNat (o.data.length + 2)] := by
    rw [Block.read_of_le (by omega), hrest]
    rfl
  have hopt : s.buf.read s.scan.tIdx.toNat o.encode.length = some o.encode := by
    rw [Block.read_of_le (by omega), hrest, List.take_left' rfl]
  obtain ⟨s₁, hoption, hbuf₁, hip⟩ := ho s _ _ hrest (by omega)
  have hknown := length_encodeAll_filter (fun o ↦ known o.code) past
  have hunknown := length_encodeAll_filter (fun o ↦ !known o.code) past
  simp only [optionTurn, if_neg hleft, hhead, Option.bind_eq_bind, Option.bind_some,
    List.getD_cons_zero, List.getD_cons_succ, o.toNat_length, h.acknak, h.rjt]
  rw [if_neg (by omega), hopt, Option.bind_some, hoption]
  refine ⟨_, rfl, ?_, hip⟩
  have hlen : (UInt8.ofNat (o.data.length + 2)).toUInt16.toNat = o.encode.length := by
    rw [UInt8.toNat_toUInt16, o.toNat_length]
  have hpast : (encodeAll (past ++ [o])).length = (encodeAll past).length + o.encode.length := by
    rw [encodeAll_append, encodeAll_cons, encodeAll_nil, List.append_nil, List.length_append]
  have htIdx' : (s.scan.tIdx + (UInt8.ofNat (o.data.length + 2)).toUInt16).toNat =
      26 + (encodeAll (past ++ [o])).length := by
    rw [UInt16.toNat_add, hlen, hpast]
    omega
  have hleft' : s.scan.left - (UInt8.ofNat (o.data.length + 2)).toUInt16 =
      .ofNat (encodeAll todo).length := by
    rw [← UInt16.toNat_inj, h.left, encodeAll_cons, UInt16.toNat_sub_of_le, hlen,
      UInt16.toNat_ofNat', UInt16.toNat_ofNat', List.length_append]
    · omega
    · rw [UInt16.le_iff_toNat_le, hlen, UInt16.toNat_ofNat', List.length_append]
      omega
  have hrest' : ∃ rest, b.1.drop (26 + (encodeAll (past ++ [o])).length) = encodeAll todo ++
      rest := by
    refine ⟨rest, ?_⟩
    rw [hpast, ← Nat.add_assoc, ← htIdx, ← h.buf, ← List.drop_drop, hrest, List.drop_left' rfl]
  cases hk : known o.code
  · refine ⟨hbuf₁.trans h.buf, htIdx', hleft', ?_, ?_, hrest'⟩
    · simp [hk]
    · simp [hk]
  · refine ⟨hbuf₁.trans h.buf, htIdx', hleft', ?_, ?_, hrest'⟩
    · simp [hk]
    · simp [hk]

end

/-! ## The dialogue -/

/-- The frames that have come, the latest first, and the last of them as long as nothing has been
sent after it. Has every frame that was announced had room in the buffer? -/
structure Dialogue where
  mac : Block 6 := .zeros 6
  frames : List Frame := []
  pending : Option Frame := none
  room : Bool := true
  deriving DecidableEq

def Dialogue.note (o : PppOp) (s : Globals) (a : o.Ans) (w : Dialogue) : Dialogue :=
  match o, a with
  | .getShar, mac => { w with mac }
  | .recvHead, head => { w with
      room := w.room && decide (((head.1.toUInt16 <<< 8 ||| head.2.toUInt16) - 2).toNat ≤
        pppoeDataBufSize) }
  | .recvData n, bytes =>
    let f : Frame := ⟨w.mac, s.buf.fill (bytes.take n)⟩
    { w with frames := f :: w.frames, pending := some f }
  | .sendData _, _ => { w with pending := none }
  | _, _ => w

/-- A frame that asks about options: which protocol it is of, which options are known there, and the
code of the answer if all of them are. A Configure-Nak is answered by another request. -/
inductive Asks (f : Frame) : UInt16 → (UInt8 → Bool) → UInt8 → Prop
  | lcp (h : f.IsSession pppoeLcp pppConfigReq) : Asks f pppoeLcp lcpKnown pppConfigAck
  | ipcp (h : f.IsSession pppoeIpcp pppConfigReq) : Asks f pppoeIpcp ipcpKnown pppConfigAck
  | nak (h : f.IsSession pppoeIpcp pppConfigNak) : Asks f pppoeIpcp ipcpKnown pppConfigReq

/-- A message of the session, from the length of the payload on. -/
def message (protocol : UInt16) (code id : UInt8) (msg : List UInt8) : List UInt8 :=
  be16 (.ofNat (msg.length + 6)) ++
    (be16 protocol ++ [code, id] ++ be16 (.ofNat (msg.length + 4)) ++ msg)

/-- What the frame has to be answered with, if it carries these options. -/
def answerTo (f : Frame) (protocol : UInt16) (known : UInt8 → Bool) (ok : UInt8)
    (os : List ConfigOption) : List UInt8 :=
  let (code, os') := configAnswer known ok os
  message protocol code (f.bytes.1.getD 23 0) (encodeAll os')

/-- The response to a challenge. Who made the challenge takes the digest of the number of the
message, the password and the challenge, in this order; that is also what the comment of the source
says. -/
def responseTo (login : Login) (challenge : List UInt8) : List UInt8 :=
  .ofNat cvHvLen :: md5 (challenge ++ login.pw ++ login.id) ++ login.id

/-- The value of a challenge. -/
def Frame.challenge (f : Frame) : List UInt8 := (f.bytes.1.drop 27).take (f.bytes.1.getD 26 0).toNat

/-- What a frame has to be answered with, where `algorithm` is the one of CHAP that has been agreed
on. -/
inductive Answer (login : Login) (algorithm : UInt8) (f : Frame) : List UInt8 → Prop
  | options {protocol known ok os} (hasks : Asks f protocol known ok) (hos : Carries f.bytes os) :
    Answer login algorithm f (answerTo f protocol known ok os)
  | challenge (h : f.IsSession pppoeChap 0x01) (halg : algorithm = chapMd5) :
    Answer login algorithm f (message pppoeChap 0x02 (f.bytes.1.getD 23 0)
      (responseTo login f.challenge))

/-- Nothing is left to be answered. -/
def Dialogue.Answered (login : Login) (algorithm : UInt8) (w : Dialogue) : Prop :=
  ∀ f, w.pending = some f → ∀ m, ¬Answer login algorithm f m

/-- The address after an option of IPCP. -/
def addressIn (ip : Block 4) (o : ConfigOption) : Block 4 :=
  if h : o.code = 0x03 ∧ o.data.length = 4 then ⟨o.data, h.2⟩ else ip

/-- The address that the frames give: the last in a request of IPCP, or in a Configure-Nak. -/
inductive Gives : List Frame → Block 4 → Prop
  | nothing : Gives [] (.zeros 4)
  | other {f l ip} (hreq : ¬f.IsSession pppoeIpcp pppConfigReq)
    (hnak : ¬f.IsSession pppoeIpcp pppConfigNak) (h : Gives l ip) : Gives (f :: l) ip
  | options {f l ip os}
    (hipcp : f.IsSession pppoeIpcp pppConfigReq ∨ f.IsSession pppoeIpcp pppConfigNak)
    (hos : Carries f.bytes os) (h : Gives l ip) : Gives (f :: l) (os.foldl addressIn ip)

/-- **The rules.** Nothing undefined happens. What has to be answered is answered, unless in
discovery, with what it has to be answered with, before the client waits for anything else. The
address that is written to the chip is the one given. -/
def Proper (login : Login) (o : PppOp) (s : Globals) (w : Dialogue) : Prop :=
  match o with
  | .undefined => False
  | .sleepMs _ => w.Answered login s.chapAlgorithm
  | .sendData frame => ∀ f, w.pending = some f → s.pppoeState ≠ .discovery → ∀ m,
      Answer login s.chapAlgorithm f m →
      frame.drop 18 = m
  | .setSipr ip => Gives w.frames ip
  | _ => True

/-! ## What arrives -/

/-- A tag of discovery. -/
structure Tag where
  name : UInt16
  data : List UInt8

def Tag.encode (t : Tag) : List UInt8 := be16 t.name ++ be16 (.ofNat t.data.length) ++ t.data

/-- A frame that is well formed, and not too long for the client. Options have to leave room for
their header in 80 bytes; a challenge has to leave room for the name and the password. It does not
matter to whom the frame is addressed. -/
structure Regular (login : Login) (b : Block pppoeDataBufSize) : Prop where
  pado : word (b.1.drop 12) = pppoeDiscovery → b.1.getD 15 0 = pppoePado → ∃ tags : List Tag,
    ∃ rest,
    b.1.drop 20 = tags.flatMap Tag.encode ++ rest ∧ word (b.1.drop 18) =
      .ofNat (tags.flatMap Tag.encode).length ∧
      (tags.flatMap Tag.encode).length ≤ 1494
  lcp : word (b.1.drop 12) = pppoeSession → word (b.1.drop 20) = pppoeLcp → b.1.getD 22 0 =
    pppConfigReq →
    ∃ os, Carries b os ∧ (encodeAll os).length ≤ 74
  ipcp : word (b.1.drop 12) = pppoeSession → word (b.1.drop 20) = pppoeIpcp →
    b.1.getD 22 0 = pppConfigReq ∨ b.1.getD 22 0 = pppConfigNak →
    ∃ os, Carries b os ∧ (encodeAll os).length ≤ 74 ∧ ∀ o ∈ os, o.code = 0x03 →
      o.data.length = 4
  chap : word (b.1.drop 12) = pppoeSession → word (b.1.drop 20) = pppoeChap → b.1.getD 22 0 =
    0x01 →
    (b.1.getD 26 0).toNat + login.pw.length + login.id.length ≤ optmsgLen

/-- The answers of the chip: a frame has room in the buffer, and is regular. -/
def Sound (login : Login) (o : PppOp) (s : Globals) (a : o.Ans) : Prop :=
  match o, a with
  | .recvHead, head => ((head.1.toUInt16 <<< 8 ||| head.2.toUInt16) - 2).toNat ≤ pppoeDataBufSize
  | .recvData n, bytes => Regular login (s.buf.fill (bytes.take n))
  | _, _ => True

/-- All that has come was so. -/
def Dialogue.Sound (login : Login) (w : Dialogue) : Prop :=
  w.room = true ∧ ∀ f ∈ w.frames, Regular login f.bytes

/-! ## Sending -/

section

variable {E : Type} {V : Env Globals E PppOp.Ans} {login : Login} {s : Globals} {w : Dialogue}
  {α : Type} {f : Frame} {l : List Frame}

abbrev Abides (V : Env Globals E PppOp.Ans) (login : Login) (p : Ppp α)
    (Q : α → Globals → Dialogue → Prop) (s : Globals) (w : Dialogue) : Prop :=
  Recorded V Dialogue.note (Proper login) p Q s w

/-- Where the client is between two frames. -/
structure InStep (login : Login) (s : Globals) (w : Dialogue) : Prop where
  ip : Gives w.frames s.ip
  answered : w.Answered login s.chapAlgorithm

/-- The other variables do not matter. -/
theorem InStep.of_eq {s' : Globals} (h : InStep login s w)
    (hs : s'.ip = s.ip ∧ s'.chapAlgorithm = s.chapAlgorithm) :
    InStep login s' w := ⟨hs.1 ▸ h.ip, hs.2 ▸ h.answered⟩

/-- The one frame to be answered. -/
structure Pending (f : Frame) (l : List Frame) (s : Globals) (w : Dialogue) : Prop where
  frames : w.frames = f :: l
  pending : w.pending = some f
  buf : s.buf = f.bytes
  ip : Gives l s.ip

/-- A frame asks for one thing only. -/
theorem Asks.unique {protocol protocol' : UInt16} {known known' : UInt8 → Bool} {ok ok' : UInt8}
    (h : Asks f protocol known ok) (h' : Asks f protocol' known' ok') : protocol = protocol' ∧
    known = known' ∧ ok = ok' := by
  have hlcp {code} (h₁ : f.IsSession pppoeLcp pppConfigReq) (h₂ : f.IsSession pppoeIpcp code) :
      False :=
    absurd (h₁.2.2.1.symm.trans h₂.2.2.1) (by decide)
  have hnak (h₁ : f.IsSession pppoeIpcp pppConfigReq) (h₂ : f.IsSession pppoeIpcp pppConfigNak) :
      False :=
    absurd (h₁.2.2.2.symm.trans h₂.2.2.2) (by decide)
  cases h with
  | lcp h =>
    cases h' with
    | lcp h' => exact ⟨rfl, rfl, rfl⟩
    | ipcp h' => exact (hlcp h h').elim
    | nak h' => exact (hlcp h h').elim
  | ipcp h =>
    cases h' with
    | lcp h' => exact (hlcp h' h).elim
    | ipcp h' => exact ⟨rfl, rfl, rfl⟩
    | nak h' => exact (hnak h h').elim
  | nak h =>
    cases h' with
    | lcp h' => exact (hlcp h' h).elim
    | ipcp h' => exact (hnak h' h).elim
    | nak h' => exact ⟨rfl, rfl, rfl⟩

/-- And does not ask for anything if it is a message of CHAP. -/
theorem Asks.not_chap {protocol : UInt16} {known : UInt8 → Bool} {ok code : UInt8}
    (h : Asks f protocol known ok) : ¬f.IsSession pppoeChap code := by
  rintro ⟨-, -, hp, -⟩
  cases h with
  | lcp h | ipcp h | nak h => exact absurd (h.2.2.1.symm.trans hp) (by decide)

/-- There is one answer only. -/
theorem Answer.unique {algorithm : UInt8} {m m' : List UInt8} (h : Answer login algorithm f m)
    (h' : Answer login algorithm f m') : m = m' := by
  cases h with
  | options hasks hos =>
    cases h' with
    | options hasks' hos' =>
      obtain ⟨rfl, rfl, rfl⟩ := hasks.unique hasks'
      rw [hos.unique hos']
    | challenge h' => exact absurd h' hasks.not_chap
  | challenge h =>
    cases h' with
    | options hasks' => exact absurd h hasks'.not_chap
    | challenge => rfl

/-- A frame that is not of IPCP gives no address. -/
theorem Pending.gives (h : Pending f l s w) (hnot : ∀ {code}, ¬f.IsSession pppoeIpcp code) :
    Gives w.frames s.ip :=
  h.frames ▸ .other hnot hnot h.ip

/-- A change of the variables that do not matter here. -/
theorem Pending.modify_bind {g : Globals → Globals} (hbuf : ∀ s, (g s).buf = s.buf)
    (hip : ∀ s, (g s).ip = s.ip) (h : Pending f l s w) {k : PUnit → Ppp α}
    {Q : α → Globals → Dialogue → Prop}
    (hk : ∀ s₁, Pending f l s₁ w → Abides V login (k ⟨⟩) Q s₁ w) :
    Abides V login (modify g >>= k) Q s w :=
  .modify_bind (hk _ ⟨h.frames, h.pending, (hbuf s).trans h.buf, (hip s).symm ▸ h.ip⟩)

/-- Where the loop over the tags is when `todo` have not been read. -/
structure Tagged (s₀ : Globals) (todo : List Tag) (s : Globals) : Prop where
  buf : s.buf = s₀.buf
  same : s.ip = s₀.ip ∧ s.chapAlgorithm = s₀.chapAlgorithm
  acknak : s.scan.acknak.length ≤ optmsgLen
  left : s.scan.left = .ofNat (todo.flatMap Tag.encode).length
  within : s.scan.tIdx.toNat + (todo.flatMap Tag.encode).length ≤ 1514
  rest : ∃ rest, s₀.buf.1.drop s.scan.tIdx.toNat = todo.flatMap Tag.encode ++ rest

theorem Tag.length_encode (t : Tag) : t.encode.length = t.data.length + 4 := by
  simp [Tag.encode, be16]

theorem Tagged.turn {s₀ : Globals} {todo : List Tag} (h : Tagged s₀ todo s) :
    padoTurn s = some none ∨ ∃ s' todo', padoTurn s = some (some s') ∧ Tagged s₀ todo' s' := by
  cases todo with
  | nil =>
    have hleft : s.scan.left = 0 := h.left
    exact .inl (by rw [padoTurn, if_pos hleft]; rfl)
  | cons t todo =>
    obtain ⟨rest, hrest⟩ := h.rest
    have hwithin := h.within
    have hbuf : pppoeDataBufSize = 2048 := rfl
    rw [List.flatMap_cons, List.length_append, t.length_encode] at hwithin
    rw [List.flatMap_cons, List.append_assoc, ← h.buf] at hrest
    have hleft : ¬s.scan.left = 0 := by
      rw [h.left, List.flatMap_cons, ← UInt16.toNat_inj, UInt16.toNat_ofNat', List.length_append,
        t.length_encode]
      simp only [UInt16.toNat_zero]
      omega
    have hhead : s.buf.read s.scan.tIdx.toNat 4 =
        some (be16 t.name ++ be16 (.ofNat t.data.length)) := by
      rw [Block.read_of_le (by omega), hrest]
      rfl
    have htag : s.buf.read s.scan.tIdx.toNat (t.data.length + 4) = some t.encode := by
      rw [Block.read_of_le (by omega), hrest, List.take_left' t.length_encode]
    have hname : word (be16 t.name ++ be16 (.ofNat t.data.length)) = t.name := word_be16 t.name
    have hlength : word ((be16 t.name ++ be16 (.ofNat t.data.length)).drop 2) =
        .ofNat t.data.length :=
      word_be16 (.ofNat t.data.length)
    have hn : (UInt16.ofNat t.data.length).toNat = t.data.length := by
      rw [UInt16.toNat_ofNat']
      omega
    have hsize : (UInt16.ofNat t.data.length + 4).toNat = t.data.length + 4 := by
      rw [UInt16.toNat_add, hn]
      simp only [UInt16.reduceToNat]
      omega
    have htIdx : (s.scan.tIdx + (UInt16.ofNat t.data.length + 4)).toNat = s.scan.tIdx.toNat +
        (t.data.length + 4) := by
      rw [UInt16.toNat_add, hsize]
      omega
    have hnext {s' : Globals} (hs' : s'.buf = s.buf ∧
        (s'.ip = s.ip ∧ s'.chapAlgorithm = s.chapAlgorithm) ∧ s'.scan.acknak.length ≤
        optmsgLen ∧
        s'.scan.tIdx = s.scan.tIdx + (UInt16.ofNat t.data.length + 4) ∧
        s'.scan.left = s.scan.left - (UInt16.ofNat t.data.length + 4)) : Tagged s₀ todo s' := by
      obtain ⟨hbuf', ⟨hip', halg'⟩, hacknak', htIdx', hleft'⟩ := hs'
      refine ⟨hbuf'.trans h.buf, ⟨hip'.trans h.same.1, halg'.trans h.same.2⟩, hacknak', ?_, ?_,
        rest, ?_⟩
      · rw [hleft', ← UInt16.toNat_inj, h.left, List.flatMap_cons, UInt16.toNat_sub_of_le, hsize,
          UInt16.toNat_ofNat', UInt16.toNat_ofNat', List.length_append, t.length_encode]
        · omega
        · rw [UInt16.le_iff_toNat_le, hsize, UInt16.toNat_ofNat', List.length_append,
            t.length_encode]
          omega
      · rw [htIdx', htIdx]
        omega
      · rw [htIdx', htIdx, ← t.length_encode, ← List.drop_drop, ← h.buf, hrest,
          List.drop_left' rfl]
    simp only [padoTurn, if_neg hleft, hhead, Option.bind_eq_bind, Option.bind_some, hname, hlength,
      hn, htag]
    split
    · exact .inl rfl
    · rename_i hroom
      have hlen : (s.scan.acknak ++ t.encode).length ≤ optmsgLen := by
        rw [List.length_append, t.length_encode]
        omega
      refine .inr ?_
      split
      · split
        · exact ⟨_, todo, rfl, hnext ⟨rfl, ⟨rfl, rfl⟩, h.acknak, rfl, rfl⟩⟩
        · exact ⟨_, todo, rfl, hnext ⟨rfl, ⟨rfl, rfl⟩, hlen, rfl, rfl⟩⟩
      · split
        · exact ⟨_, todo, rfl, hnext ⟨rfl, ⟨rfl, rfl⟩, hlen, rfl, rfl⟩⟩
        · exact ⟨_, todo, rfl, hnext ⟨rfl, ⟨rfl, rfl⟩, h.acknak, rfl, rfl⟩⟩

section

variable (hV : ∀ o s e a e', V.answer o s e a e' → Sound login o s a)
  (hlogin : login.id.length + login.pw.length ≤ 57)

include hV hlogin

end

end

section

variable {b : Block pppoeDataBufSize} {code : UInt8}

end

end WsmDriver.Pppoe
