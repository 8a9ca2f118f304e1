import WsmDriver.Http.Server

/-!
# Who gets the page

A request asks for something with its first line: a method, a space, and a target up to the next
space, the end of the line or the end of the text. `answerTo` says what is answered to that, with no
regard to the sizes of buffers. The server answers so, although it keeps no more than 7 bytes of a
method and 127 of a target: whatever it compares them with is shorter, and the path of a target
comes first.

Over the whole run of the server, nothing is sent before the request is there, and after it nothing
but the answer.
-/

namespace WsmDriver.Http

open Effect Program Sockets
open Format (cstr strstr text)

/-! ## The first line -/

def token (req : List UInt8) : List UInt8 := req.takeWhile (!delimiter ·)

def afterToken (req : List UInt8) : List UInt8 := req.dropWhile (!delimiter ·)

/-- The first line asks for the target by the method. -/
structure Asks (req method target : List UInt8) : Prop where
  starts : ∃ rest, req = method ++ 0x20 :: (target ++ rest) ∧ ∀ b ∈ rest.head?,
    delimiter b = true
  noneInMethod : ∀ b ∈ method, delimiter b = false
  noneInTarget : ∀ b ∈ target, delimiter b = false
  nonempty : target ≠ []

/-- What the first line asks for, if it is one. -/
def request? (req : List UInt8) : Option (List UInt8 × List UInt8) :=
  match afterToken req with
  | 0x20 :: rest => if token rest ≠ [] then some (token req, token rest) else none
  | _ => none

theorem token_append {a t : List UInt8} (ha : ∀ b ∈ a, delimiter b = false)
    (ht : ∀ b ∈ t.head?, delimiter b = true) : token (a ++ t) = a ∧ afterToken (a ++ t) = t := by
  have hall : ∀ b ∈ a, (!delimiter b) = true := fun b hb ↦ by rw [ha b hb, Bool.not_false]
  rw [token, afterToken, List.takeWhile_append_of_pos hall, List.dropWhile_append_of_pos hall]
  cases t with
  | nil => simp
  | cons c rest => simp [ht c rfl]

theorem token_append_afterToken (req : List UInt8) : token req ++ afterToken req = req :=
  List.takeWhile_append_dropWhile

theorem not_delimiter_of_mem_token {req : List UInt8} : ∀ b ∈ token req, delimiter b = false :=
  fun b hb ↦ by simpa using List.mem_takeWhile_imp hb

theorem delimiter_head_afterToken {req : List UInt8} : ∀ b ∈ (afterToken req).head?, delimiter b =
    true := by
  intro b hb
  have h := List.head?_dropWhile_not (!delimiter ·) req
  rw [afterToken] at hb
  rw [Option.mem_def.mp hb] at h
  simpa using h

theorem request?_eq_some_iff {req method target : List UInt8} :
    request? req = some (method, target) ↔ Asks req method target := by
  constructor
  · intro h
    rw [request?] at h
    split at h
    · rename_i rest hrest
      split at h
      · rename_i hne
        obtain ⟨rfl, rfl⟩ := Prod.mk.inj (Option.some.inj h)
        refine ⟨⟨afterToken rest, ?_, delimiter_head_afterToken⟩, not_delimiter_of_mem_token,
          not_delimiter_of_mem_token, hne⟩
        rw [token_append_afterToken, ← hrest, token_append_afterToken]
      · cases h
    · cases h
  · rintro ⟨⟨rest, rfl, hrest⟩, hmethod, htarget, hne⟩
    obtain ⟨hm, hd⟩ := token_append hmethod (t := 0x20 :: (target ++ rest)) (by simp [delimiter])
    obtain ⟨ht, -⟩ := token_append htarget hrest
    simp only [request?, hd, hm, ht, if_pos hne]

theorem copyToken_eq (cap i : ℕ) (req : List UInt8) :
    copyToken cap i req = ((token req).take (cap - 1 - i), afterToken req) := by
  induction req generalizing i with
  | nil => simp [copyToken, token, afterToken]
  | cons b req ih =>
    rw [copyToken]
    split
    · rename_i hb
      simp [token, afterToken, hb]
    · rename_i hb
      have htoken : token (b :: req) = b :: token req := by simp [token, hb]
      have hafter : afterToken (b :: req) = afterToken req := by simp [afterToken, hb]
      rw [ih, htoken, hafter]
      by_cases hi : i < cap - 1
      · simp only [if_pos hi, show cap - 1 - i = cap - 1 - (i + 1) + 1 by omega,
          List.take_succ_cons]
      · simp only [if_neg hi, show cap - 1 - i = 0 by omega, show cap - 1 - (i + 1) = 0 by omega,
          List.take_zero]

/-- The buffers cut off what they have no room for. -/
theorem parseRequestLine_eq (req : List UInt8) {methodCap targetCap : ℕ} (h : 1 < targetCap) :
    parseRequestLine req methodCap targetCap =
      (request? req).map fun x ↦ (x.1.take (methodCap - 1), x.2.take (targetCap - 1)) := by
  rw [parseRequestLine, request?, copyToken_eq]
  rcases hafter : afterToken req with _ | ⟨b, rest⟩
  · rfl
  by_cases hb : b = 0x20
  · subst hb
    have hne : (token rest).take (targetCap - 1) = [] ↔ token rest = [] := by
      rw [List.take_eq_nil_iff, or_iff_right (by omega)]
    simp only [copyToken_eq, Nat.sub_zero, hne, ne_eq, ite_not]
    split <;> rfl
  · split
    · rename_i heq
      cases heq
      exact absurd rfl hb
    · split
      · rename_i heq
        cases heq
        exact absurd rfl hb
      · rfl

/-! ## What is answered -/

/-- A target is its path, and what follows a question mark. -/
def path (target : List UInt8) : List UInt8 := target.takeWhile (· ≠ 0x3F)

def IsIndex (target : List UInt8) : Prop :=
  path target = text "/" ∨ path target = text "/index.html"

instance (target : List UInt8) : Decidable (IsIndex target) := inferInstanceAs (Decidable (_ ∨ _))

structure Response where
  status : List UInt8
  /-- The length of the page. -/
  length : ℕ
  /-- The page, or nothing. -/
  body : List UInt8
  deriving DecidableEq

def Response.bytes (r : Response) : List UInt8 :=
  responseHeader r.status (text "text/html") r.length ++ r.body

/-- What is answered to a request. -/
def answerTo (req : List UInt8) : Response :=
  match request? req with
  | none => ⟨text "400 Bad Request", 0, []⟩
  | some (method, target) =>
    if method ≠ text "GET" ∧ method ≠ text "HEAD" then ⟨text "501 Not Implemented", 0, []⟩
    else
      let (status, page) := if IsIndex target then (text "200 OK", indexPage) else
        (text "404 Not Found", notFound)
      ⟨status, page.length, if method = text "HEAD" then [] else page⟩

theorem take_eq_iff {α : Type} {s t : List α} {n : ℕ} (h : t.length < n) : s.take n = t ↔
    s = t := by
  constructor
  · rintro rfl
    rw [List.length_take] at h
    exact (List.take_of_length_le (by omega)).symm
  · rintro rfl
    exact List.take_of_length_le h.le

theorem targetIsIndex_iff {target : List UInt8} : targetIsIndex target = true ↔ IsIndex target := by
  obtain ⟨rest, hrest⟩ : path target <+: target := List.takeWhile_prefix _
  have hroot : text "/" = [0x2F] := by decide
  have hlen : (text "/index.html").length = 11 := by decide
  have hfold : target.takeWhile (· ≠ 0x3F) = path target := rfl
  rw [targetIsIndex, IsIndex, hfold]
  generalize path target = p at hrest ⊢
  subst hrest
  simp only [Bool.or_eq_true, Bool.and_eq_true, decide_eq_true_eq, hroot]
  refine or_congr ⟨fun ⟨h, hb⟩ ↦ ?_, ?_⟩ ⟨fun ⟨h, hp⟩ ↦ ?_, ?_⟩
  · obtain ⟨b, rfl⟩ := List.length_eq_one_iff.mp h
    exact congrArg ([·]) hb
  · rintro rfl
    exact ⟨rfl, rfl⟩
  · rwa [List.take_left' h] at hp
  · rintro rfl
    exact ⟨hlen, List.take_left' hlen⟩

/-- The path of a target that has been cut off is the same, or longer than those that there are. -/
theorem isIndex_take {target : List UInt8} {n : ℕ} (h : 11 < n) : IsIndex (target.take n) ↔
    IsIndex target := by
  have hpath : path (target.take n) = (path target).take n := List.take_takeWhile.symm
  rw [IsIndex, IsIndex, hpath, take_eq_iff, take_eq_iff]
  · exact lt_of_le_of_lt (by decide) h
  · exact lt_of_le_of_lt (by decide) h

/-! ## Answering -/

/-- The end of the headers is there, or the buffer is full. -/
def Complete (inn : List UInt8) : Prop := crlf ++ crlf <:+: cstr inn ∨ httpBufSize - 1 ≤ inn.length

instance (inn : List UInt8) : Decidable (Complete inn) := inferInstanceAs (Decidable (_ ∨ _))

/-- Of this, no more has been sent; and no less, if no `send` has failed. -/
def Sent (bytes : List UInt8) (l : Line) : Prop :=
  l.out <+: bytes ∧ (l.broken = false → l.out = bytes)

/-- Nothing is sent before the request is there, and nothing is read after that. -/
def httpManners : Manners where
  mayRead len l := l.out = [] ∧ l.broken = false ∧ ¬Complete l.inn ∧ len =
    httpBufSize - 1 - l.inn.length
  maySay data l := l.broken = false ∧ Complete l.inn ∧ l.out ++ data <+: (answerTo l.inn).bytes
  mayLeave l := if Complete l.inn then Sent (answerTo l.inn).bytes l else l.out = [] ∧
    l.broken = false

section

variable {E : Type} {V : Env HttpTask E SockOp.Ans} {lfd fd : ℤ} {d₀ : Desk} {t : HttpTask}

theorem hasHeaders_iff {buf : List UInt8} : hasHeaders buf = true ↔ crlf ++ crlf <:+: cstr buf :=
  Format.strstr_isSome_iff

variable (hV : ∀ o s e a e', V.answer o s e a e' → o.Fair a)

include hV

open Manners in
theorem keeps_recvRequest (hd₀ : Beside d₀ fd) :
    Keeps V httpManners (recvRequest fd httpBufSize)
      (fun ok t' d' ↦ d' = d₀.put fd { inn := t'.buf } ∧ (ok = true ↔ Complete t'.buf)) t
      (d₀.put fd {}) := by
  refine .modify_bind (.forever
    (fun t' d' ↦ d' = d₀.put fd { inn := t'.buf } ∧ ¬hasHeaders t'.buf = true)
      ⟨rfl, (by decide : ¬hasHeaders [] = true)⟩ ?_)
  rintro t _ ⟨rfl, hheaders⟩
  refine .get_bind (.ite (fun hroom ↦ ?_) fun hfull ↦ .pure ⟨rfl, ?_⟩)
  · have hmore : ¬Complete t.buf := not_or.mpr ⟨hasHeaders_iff.not.mp hheaders, not_le.mpr hroom⟩
    refine keeps_recv_bind hV hd₀ ⟨rfl, rfl, hmore, rfl⟩ (fun bytes hbytes _ ↦ ?_)
      fun a ha ↦ ?_
    · obtain ⟨b, bytes, rfl⟩ := List.exists_cons_of_ne_nil hbytes
      refine .modify_bind (.pure ?_)
      by_cases hnow : hasHeaders (t.buf ++ b :: bytes) = true
      · rw [if_pos hnow]
        exact ⟨rfl, fun _ ↦ .inl (hasHeaders_iff.mp hnow), fun _ ↦ rfl⟩
      · rw [if_neg hnow]
        exact ⟨rfl, hnow⟩
    · rcases a with errno | _ | ⟨b, bytes⟩
      · exact .pure ⟨rfl, by simp, fun h ↦ absurd h hmore⟩
      · exact .pure ⟨rfl, by simp, fun h ↦ absurd h hmore⟩
      · exact absurd (ha _ rfl) (List.cons_ne_nil _ _)
  · exact ⟨fun _ ↦ .inr (not_lt.mp hfull), fun _ ↦ rfl⟩

/-- The connection is one that may be closed. -/
abbrev Left (d₀ : Desk) (fd : ℤ) (d : Desk) : Prop :=
  ∃ l, httpManners.mayLeave l ∧ d = d₀.put fd l

omit hV in
theorem mayLeave_of_sent {l : Line} (h : Complete l.inn) (hsent : Sent (answerTo l.inn).bytes l) :
    httpManners.mayLeave l := by
  change if _ then _ else _
  rwa [if_pos h]

open Manners in
theorem keeps_sendResponse (hd₀ : Beside d₀ fd) {inn status ctype : List UInt8}
    {body : Option (List UInt8)} {n : ℕ} (hcomplete : Complete inn)
    (hfits : (responseHeader status ctype n).length < httpBufSize)
    (hbytes : (answerTo inn).bytes = responseHeader status ctype n ++ (body.getD []).take n) :
    Keeps V httpManners (sendResponse fd httpBufSize status ctype body n)
    (fun _ _ d' ↦ Left d₀ fd d') t
      (d₀.put fd { inn := inn }) := by
  refine .ite (fun h ↦ absurd h (not_le.mpr hfits)) fun _ ↦ ?_
  generalize responseHeader status ctype n = hdr at hbytes
  have hfail : ∀ (said : List UInt8) {part : List UInt8}, said ++ part <+: (answerTo inn).bytes →
      httpManners.mayLeave (({ inn := inn } : Line).say said |>.say part).snap := by
    intro said part hpre
    exact mayLeave_of_sent hcomplete ⟨by simpa [Line.say, Line.snap] using hpre, nofun⟩
  have hgo : ∀ {said data part rest : List UInt8}, said ++ data <+: (answerTo inn).bytes → data =
      part ++ rest →
      httpManners.maySay rest (({ inn := inn } : Line).say said |>.say part) := by
    rintro said data part rest hpre rfl
    exact ⟨rfl, hcomplete, by simpa [Line.say] using hpre⟩
  have hhdr : [] ++ hdr <+: (answerTo inn).bytes := ⟨_, hbytes.symm⟩
  refine .seq (keeps_sendAll hV hd₀ fun part rest h _ ↦ by simpa using hgo hhdr h) ?_
  rintro ok t d ⟨-, l, hpushed, rfl⟩
  refine .ite (fun hok ↦ .pure ⟨l, ?_, rfl⟩) fun hok ↦ ?_
  · rw [Bool.not_eq_true'] at hok
    subst hok
    obtain ⟨part, hpart, rfl⟩ := hpushed
    simpa using hfail [] (hpart.trans hhdr)
  rw [Bool.not_eq_true', Bool.not_eq_false] at hok
  subst hok
  obtain rfl : l = ({ inn := inn } : Line).say hdr := hpushed
  have hall : ∀ data, (body.getD []).take n = data →
      httpManners.mayLeave (({ inn := inn } : Line).say hdr |>.say data) := by
    rintro _ rfl
    refine mayLeave_of_sent hcomplete ?_
    rw [Line.say_say, ← hbytes]
    exact ⟨List.prefix_refl _, fun _ ↦ rfl⟩
  cases body with
  | none => exact .pure ⟨_, hall [] List.take_nil, by rw [Line.say_nil]⟩
  | some body =>
    refine .ite (fun hn ↦ ?_) fun hn ↦ .pure ⟨_, hall [] (by simp [Nat.eq_zero_of_not_pos hn]),
      by rw [Line.say_nil]⟩
    have hbody : hdr ++ body.take n <+: (answerTo inn).bytes :=
      ⟨[], by rw [List.append_nil, hbytes]; rfl⟩
    refine .seq (keeps_sendAll hV hd₀ fun part rest h _ ↦ hgo hbody h) ?_
    rintro ok t d ⟨-, l, hpushed, rfl⟩
    refine .pure ⟨l, ?_, rfl⟩
    cases ok with
    | true =>
      obtain rfl : l = _ := hpushed
      exact hall _ rfl
    | false =>
      obtain ⟨part, hpart, rfl⟩ := hpushed
      exact hfail _ (((List.prefix_append_right_inj _).mpr hpart).trans hbody)

open Manners in
theorem keeps_serveClient (hd₀ : Beside d₀ fd) :
    Keeps V httpManners (serveClient fd httpBufSize) (fun _ _ d' ↦ Left d₀ fd d') t
    (d₀.put fd {}) := by
  refine .seq (keeps_recvRequest hV hd₀) ?_
  rintro ok t d ⟨rfl, hok⟩
  refine .ite (fun h ↦ ?_) fun h ↦ .get_bind ?_
  · have hmore : ¬Complete t.buf := fun hc ↦ by simp [hok.mpr hc] at h
    refine .pure ⟨_, ?_, rfl⟩
    change if _ then _ else _
    rw [if_neg hmore]
    exact ⟨rfl, rfl⟩
  have hcomplete : Complete t.buf := hok.mp (by simpa using h)
  rw [parseRequestLine_eq _ (by decide)]
  have hanswer : answerTo t.buf = answerTo t.buf := rfl
  conv_rhs at hanswer => rw [answerTo]
  rcases hreq : request? t.buf with _ | ⟨method, target⟩
  · rw [hreq] at hanswer
    exact keeps_sendResponse hV hd₀ hcomplete (by decide) (by rw [hanswer]; rfl)
  have hget : method.take 7 = text "GET" ↔ method = text "GET" := take_eq_iff (by decide)
  have hhead : method.take 7 = text "HEAD" ↔ method = text "HEAD" := take_eq_iff (by decide)
  have hindex : targetIsIndex (target.take 127) = true ↔ IsIndex target := by
    rw [targetIsIndex_iff, isIndex_take (by decide)]
  simp only [hreq] at hanswer
  simp only [Option.map_some, Nat.reduceSub, hget, hhead]
  refine .ite (fun hnot ↦ ?_) fun hsome ↦ .ite (fun hno ↦ ?_) fun hyes ↦ ?_
  · rw [if_pos hnot] at hanswer
    exact keeps_sendResponse hV hd₀ hcomplete (by decide) (by rw [hanswer]; rfl)
  -- A HEAD gets the header of the page only.
  · rw [Bool.not_eq_true', ← Bool.not_eq_true, hindex] at hno
    rw [if_neg hsome, if_neg hno] at hanswer
    have hfits : (responseHeader (text "404 Not Found") (text "text/html") notFound.length).length <
        httpBufSize := by
      decide +kernel
    generalize notFound = page at hfits hanswer ⊢
    refine keeps_sendResponse hV hd₀ hcomplete hfits ?_
    rw [hanswer, Response.bytes]
    split
    · rw [Option.getD_none, List.take_nil]
    · rw [Option.getD_some, List.take_length]
  · rw [Bool.not_eq_true', Bool.not_eq_false, hindex] at hyes
    rw [if_neg hsome, if_pos hyes] at hanswer
    have hfits : (responseHeader (text "200 OK") (text "text/html") indexPage.length).length <
        httpBufSize := by
      decide +kernel
    generalize indexPage = page at hfits hanswer ⊢
    refine keeps_sendResponse hV hd₀ hcomplete hfits ?_
    rw [hanswer, Response.bytes]
    split
    · rw [Option.getD_none, List.take_nil]
    · rw [Option.getD_some, List.take_length]

open Manners in
theorem keeps_httpServeTurn :
    Keeps V httpManners (httpServeTurn lfd httpBufSize)
      (fun r _ d' ↦ match r with
        | none => d' = waiting lfd
        | some _ => False) t (waiting lfd) := by
  refine keeps_accept_bind hV (fun _ ↦ .pure rfl) fun fd _ hd₀ ↦
    .perform_bind trivial fun _ ↦ ?_
  refine .seq (keeps_serveClient hV hd₀) ?_
  rintro _ t _ ⟨l, hleave, rfl⟩
  exact keeps_close_bind hd₀ hleave (.pure rfl)

open Manners in
theorem keeps_httpTask (port : UInt16) :
    Keeps V httpManners (httpTask port) (fun _ _ d' ↦ d' = Desk.empty) t Desk.empty := by
  refine .perform_bind trivial fun mem ↦ .ite (fun _ ↦ ?_) fun _ ↦ .pure rfl
  refine .seq (keeps_waitLink (Q := fun _ _ d ↦ d = Desk.empty) rfl) ?_
  rintro _ t _ rfl
  refine .perform_bind rfl fun lsock ↦ .ite (fun h ↦ .pure (if_pos h)) fun h ↦ ?_
  have hopened : Desk.note (.socket true) t lsock Desk.empty = waiting lsock := if_neg h
  rw [hopened]
  refine .perform_bind trivial fun _ ↦ .perform_bind trivial fun _ ↦
    .perform_bind trivial fun _ ↦ ?_
  refine .seq (keeps_bindListen (Q := fun _ _ d ↦ d = waiting lsock) fun _ ↦ rfl) ?_
  rintro ok t _ rfl
  refine .ite (fun _ ↦ ?_) fun _ ↦ .perform (.inl rfl) fun _ ↦ waiting_clear
  refine .forever (fun _ d ↦ d = waiting lsock) rfl ?_
  rintro t _ rfl
  refine (keeps_httpServeTurn hV).imp ?_
  rintro (_ | _) t d h
  · exact h
  · exact False.elim h

end

/-- The whole page, with its header. -/
def pageResponse : List UInt8 := (Response.mk (text "200 OK") indexPage.length indexPage).bytes

theorem answerTo_bytes_iff {req : List UInt8} :
    (answerTo req).bytes = pageResponse ↔ ∃ target, Asks req (text "GET") target ∧
    IsIndex target := by
  have hnone : (⟨text "400 Bad Request", 0, []⟩ : Response).bytes ≠ pageResponse := by
    decide
  have hmethod : (⟨text "501 Not Implemented", 0, []⟩ : Response).bytes ≠ pageResponse := by
    decide
  have hpage : ∀ b : Bool, (⟨text "404 Not Found", notFound.length, if b then [] else notFound⟩ :
      Response).bytes ≠ pageResponse := by decide
  have hhead : (⟨text "200 OK", indexPage.length, []⟩ : Response).bytes ≠ pageResponse := by
    decide +kernel
  have hdiff : text "HEAD" ≠ text "GET" := by decide
  simp only [← request?_eq_some_iff]
  rw [answerTo]
  rcases request? req with _ | ⟨method, target⟩
  · exact iff_of_false hnone fun ⟨_, h, _⟩ ↦ by cases h
  have hasks : (∃ target', some (method, target) = some (text "GET", target') ∧
      IsIndex target') ↔
      method = text "GET" ∧ IsIndex target := by
    constructor
    · rintro ⟨_, h, hindex⟩
      obtain ⟨rfl, rfl⟩ := Prod.mk.inj (Option.some.inj h)
      exact ⟨rfl, hindex⟩
    · rintro ⟨rfl, hindex⟩
      exact ⟨target, rfl, hindex⟩
  rw [hasks]
  dsimp only
  by_cases hnot : method ≠ text "GET" ∧ method ≠ text "HEAD"
  · rw [if_pos hnot]
    exact iff_of_false hmethod fun h ↦ hnot.1 h.1
  rw [if_neg hnot]
  by_cases hindex : IsIndex target
  · rw [if_pos hindex]
    dsimp only
    by_cases hisHead : method = text "HEAD"
    · rw [if_pos hisHead]
      exact iff_of_false hhead fun h ↦ hdiff (hisHead ▸ h.1)
    · rw [if_neg hisHead]
      exact iff_of_true rfl ⟨not_not.mp fun hget ↦ hnot ⟨hget, hisHead⟩, hindex⟩
  · rw [if_neg hindex]
    refine iff_of_false ?_ fun h ↦ hindex h.2
    simpa using hpage (decide (method = text "HEAD"))

/-! ## Runs of the server -/

/-- The server and a client with this request, after so many steps. -/
def briefVisit (n : ℕ) : Config HttpTask (List UInt8 × Desk) SockOp.Ans Unit :=
  runNoted oneClient Desk.note n ⟨httpTask 80, {}, text "GET /?a HTTP/1.1\r\n\r\n", Desk.empty⟩

theorem performs_briefVisit {n : ℕ} {o : SockOp} (h : (briefVisit n).prog.asks? = some o) :
    Performs ((Env.script oneClient).noted Desk.note) (httpTask 80) {}
    (text "GET /?a HTTP/1.1\r\n\r\n", Desk.empty) o
      (briefVisit n).store (briefVisit n).env :=
  performs_runNoted (V := Env.script oneClient) (fun _ _ _ ↦ ⟨rfl, rfl⟩) h

/-- **The server keeps its manners**, whatever its clients do. -/
theorem httpTask_serves {E : Type} {V : Env HttpTask E SockOp.Ans}
    (hV : ∀ o s e a e', V.answer o s e a e' → o.Fair a) {port : UInt16} {t t' : HttpTask} {e : E}
    {e' : E × Desk} {o : SockOp}
    (h : Performs (V.noted Desk.note) (httpTask port) t (e, Desk.empty) o t' e') :
    httpManners.Kept o e'.2 :=
  (keeps_httpTask hV port).performs h

/-- The page goes out after its header. -/
theorem httpTask_serves_index : httpManners.Kept (.send 4 indexPage) (briefVisit 39).env.2 :=
  httpTask_serves oneClient_fair (performs_briefVisit (by decide +kernel))

/-- **Who gets the page**: a connection on which everything has gone well carries the whole page
when it is closed if, and only if, the request that has come over it is a GET of `/` or of
`/index.html`. -/
theorem page_delivered_iff {E : Type} {V : Env HttpTask E SockOp.Ans}
    (hV : ∀ o s e a e', V.answer o s e a e' → o.Fair a) {port : UInt16} {t t' : HttpTask} {e : E}
    {e' : E × Desk} {fd : ℤ} {l : Line}
    (h : Performs (V.noted Desk.note) (httpTask port) t (e, Desk.empty)
      (.close fd) t' e')
    (hl : e'.2 fd = some l) (hcomplete : Complete l.inn) (hwhole : l.broken = false) :
    l.out = pageResponse ↔ ∃ target, Asks l.inn (text "GET") target ∧ IsIndex target := by
  rcases (keeps_httpTask hV port).performs h with hd | ⟨d₀, l', -, hd, hleave⟩
  · rw [hd, waiting, Desk.put_self] at hl
    obtain rfl := Option.some.inj hl
    exact absurd hcomplete (by decide)
  · rw [hd, Desk.put_self] at hl
    obtain rfl := Option.some.inj hl
    change if _ then _ else _ at hleave
    rw [if_pos hcomplete] at hleave
    rw [hleave.2 hwhole, answerTo_bytes_iff]

/-- What has gone over the connection of this client when it is closed. -/
def visited : Line := { inn := text "GET /?a HTTP/1.1\r\n\r\n", out := pageResponse }

theorem page_delivered_index :
    visited.out = pageResponse ↔ ∃ target, Asks visited.inn (text "GET") target ∧
    IsIndex target :=
  page_delivered_iff oneClient_fair (performs_briefVisit (n := 45) (o := .close 4)
    (by decide +kernel)) (by decide +kernel) (by decide +kernel) rfl

end WsmDriver.Http
