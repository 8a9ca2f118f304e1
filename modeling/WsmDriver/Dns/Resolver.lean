import WsmDriver.Dhcp.Rules
import WsmDriver.Dns.Answers
import WsmDriver.Effect.Execution

/-!
# The resolver

`wsm_dns_resolve` sends one query and takes one datagram. Which datagrams arrive at its socket is up
to whoever sends them; the resolver decides by the first.
-/

namespace WsmDriver.Dns

open Effect Program Format
open Dhcp (Client DhcpOp Engine EspErr ask defaultClient inaddrAny sockSetRecvMode)
open W6300 (be16)

/-- `WSM_DNS_TIMEOUT_MS` and `DNS_SERVER_PORT`. -/
def wsmDnsTimeoutMs : UInt32 := 3000

def dnsServerPort : UInt16 := 53

/-- What separates the labels of a domain. -/
def dot : UInt8 := 0x2e

/-- The size of `dnsbuf`. -/
def dnsBufSize : ℕ := 512

/-- The loop of `dns_encode_name`, with `w` written already. -/
def encodeLabels (cap : ℕ) : ℕ → List UInt8 → List UInt8 → Option (List UInt8)
  | 0, _, _ => none
  | n + 1, w, label =>
    let l := label.takeWhile fun b ↦ b ≠ dot
    if l.length = 0 ∨ 63 < l.length ∨ cap < w.length + 1 + l.length + 1 then none
    else
      let w := w ++ UInt8.ofNat l.length :: l
      match label.drop l.length with
      | [] => some (w ++ [0])
      | _ :: label => encodeLabels cap n w label

/-- `dns_encode_name`: what it writes, or `none` where it returns `-1`. -/
def dnsEncodeName (cap : ℕ) (domain : List UInt8) : Option (List UInt8) :=
  encodeLabels cap (domain.length + 1) [] domain

/-- The query that `dns_resolve` builds. -/
def dnsQuery (id : UInt16) (name : List UInt8) : List UInt8 :=
  be16 id ++ [0x01, 0x00] ++ [0, 1] ++ List.replicate 6 0 ++ name ++ be16 dnsTypeA ++
    be16 dnsClassIn

/-- The part of `dns_resolve` that waits for the answer to the query it has `sent`. -/
def dnsReceive (fd : ℤ) (id : UInt16) (sent : ℤ) (outIp : Dhcp.Ip4) :
    Engine (Bool × Dhcp.Ip4) := do
  if sent ≤ 0 then return (false, outIp)
  match ← ask (.recvfrom fd dnsBufSize) with
  | none | some [] => return (false, outIp)
  -- The parser always returns (`dnsParse_isSome`).
  | some p => return (dnsParse p id outIp).getD (false, outIp)

/-- The part of `dns_resolve` that has a socket. -/
def dnsExchange (fd : ℤ) (server : Dhcp.Ip4) (domain : List UInt8) (outIp : Dhcp.Ip4) :
    Engine (Bool × Dhcp.Ip4) := do
  let random ← ask .espRandom
  match dnsEncodeName (dnsBufSize - dnsHeaderLen - 4) domain with
  | none => return (false, outIp)
  | some name => do
    let sent ← ask (.sendto fd (dnsQuery random.toUInt16 name) server dnsServerPort)
    dnsReceive fd random.toUInt16 sent outIp

/-- `dns_resolve`: its result, and what is then in `out_ip`. Every path closes. -/
def dnsResolve (hasFcntl : Bool) (server : Dhcp.Ip4) (domain : List UInt8) (timeoutMs : UInt32)
    (outIp : Dhcp.Ip4) : Engine (Bool × Dhcp.Ip4) := do
  if server = inaddrAny then return (false, outIp)
  let fd ← ask .socket
  if fd < 0 then return (false, outIp)
  sockSetRecvMode hasFcntl fd timeoutMs
  let r ← dnsExchange fd server domain outIp
  discard (ask (.close fd))
  return r

/-- `wsm_dns_resolve`, with `none` for a null pointer. Of `sock` only matters whether it has a
`fcntl`; the default one has. -/
def wsmDnsResolve (sock : Option Bool) (server : Option Dhcp.Ip4) (hostname : Option (List UInt8))
    (timeoutMs : UInt32) (outIp : Option Dhcp.Ip4) :
    Engine (Except EspErr Unit × Option Dhcp.Ip4) :=
  match server, hostname, outIp with
  | some server, some hostname, some outIp => do
    let (ok, outIp) ← dnsResolve (sock.getD true) server hostname (if timeoutMs = 0 then
      wsmDnsTimeoutMs else timeoutMs) outIp
    return (if ok then .ok () else .error .fail, some outIp)
  | _, _, _ => return (.error .invalidArg, outIp)

/-! ## Datagrams at the socket -/

/-- The surroundings of a lookup whose query has the id `id`: the socket is opened, the query is
sent, and the datagrams of the state arrive in time, one after the other. -/
def arrivals (id : UInt16) : Env Client (List (List UInt8)) DhcpOp.Ans where
  drift _ _ := False
  answer
    | .espRandom, _, e, a, e' => a.toUInt16 = id ∧ e' = e
    | .socket, _, e, a, e' => 0 ≤ a ∧ e' = e
    | .sendto .., _, e, a, e' => 0 < a ∧ e' = e
    | .recvfrom _ size, _, e, a, e' => a = e.head?.map (List.take size) ∧ e' = e.tail
    | _, _, e, _, e' => e' = e

/-- The address in a datagram that is a valid answer. -/
def answerOf (id : UInt16) (p : List UInt8) : Option Dhcp.Ip4 := (dnsAddress p id).getD none

theorem dnsParse_eq (p : List UInt8) (id : UInt16) (outIp : Dhcp.Ip4) :
    dnsParse p id outIp = some ((answerOf id p).isSome, (answerOf id p).getD outIp) := by
  obtain ⟨address, h⟩ := dnsAddress_isSome p id
  rw [dnsParse, answerOf, h, Option.map_some, Option.getD_some]

/-- What the resolver makes of the datagrams that arrive: it looks at the first bytes of the
first. -/
def resolved (id : UInt16) (ds : List (List UInt8)) : Option Dhcp.Ip4 :=
  ds.head?.bind fun d ↦ answerOf id (d.take dnsBufSize)

variable {id : UInt16} {ds : List (List UInt8)} {c : Client}

theorem arrivals_still : ∀ e e', ¬(arrivals id).drift e e' := fun _ _ hd ↦ hd

theorem arrivals_responsive (id : UInt16) : (arrivals id).Responsive := by
  intro o c e
  cases o with
  | espRandom => exact ⟨e, id.toUInt32, e, .refl _ _, by simp, rfl⟩
  | socket => exact ⟨e, 0, e, .refl _ _, le_refl 0, rfl⟩
  | sendto => exact ⟨e, 1, e, .refl _ _, Int.one_pos, rfl⟩
  | recvfrom fd size => exact ⟨e, _, _, .refl _ _, rfl, rfl⟩
  | _ => exact ⟨e, default, e, .refl _ _, rfl⟩

/-- What a lookup returns that found `address` or nothing. -/
def found (address : Option Dhcp.Ip4) (outIp : Dhcp.Ip4) : Bool × Dhcp.Ip4 :=
  (address.isSome, address.getD outIp)

theorem dnsReceive_resolved {sent : ℤ} (fd : ℤ) (outIp : Dhcp.Ip4) (hsent : 0 < sent) :
    wp (arrivals id) (fun _ _ _ ↦ True) (dnsReceive fd id sent outIp)
      (fun r _ _ ↦ r = found (resolved id ds) outIp) c ds := by
  unfold dnsReceive
  rw [if_neg (Int.not_le.mpr hsent)]
  refine pre_perform_bind_still arrivals_still trivial ?_
  rintro a ds' ⟨ha, -⟩
  cases ds with
  | nil =>
    obtain rfl : a = none := ha
    exact pre_pure_still arrivals_still rfl
  | cons d ds =>
    obtain rfl : a = some (d.take dnsBufSize) := ha
    have hresolved : resolved id (d :: ds) = answerOf id (d.take dnsBufSize) := rfl
    rw [hresolved]
    cases d.take dnsBufSize with
    | nil => exact pre_pure_still arrivals_still rfl
    | cons b p => exact pre_pure_still arrivals_still (by rw [dnsParse_eq, Option.getD_some, found])

theorem dnsExchange_resolved {domain name : List UInt8} (fd : ℤ) (server outIp : Dhcp.Ip4)
    (hname : dnsEncodeName (dnsBufSize - dnsHeaderLen - 4) domain = some name) :
    wp (arrivals id) (fun _ _ _ ↦ True) (dnsExchange fd server domain outIp)
      (fun r _ _ ↦ r = found (resolved id ds) outIp) c ds := by
  unfold dnsExchange
  refine pre_perform_bind_still arrivals_still trivial ?_
  rintro random ds' ⟨rfl, rfl⟩
  rw [hname]
  refine pre_perform_bind_still arrivals_still trivial ?_
  rintro sent ds' ⟨hsent, rfl⟩
  exact dnsReceive_resolved fd outIp hsent

theorem sockSetRecvMode_arrivals (hasFcntl : Bool) (fd : ℤ) (ms : UInt32) :
    wp (arrivals id) (fun _ _ _ ↦ True) (sockSetRecvMode hasFcntl fd ms)
    (fun _ _ ds' ↦ ds' = ds) c ds := by
  have hquiet : ∀ o, (∀ a ds', (arrivals id).answer o c ds a ds' → ds' = ds) →
      wp (arrivals id) (fun _ _ _ ↦ True) (discard (ask o)) (fun _ _ ds' ↦ ds' = ds) c ds := by
    intro o ho
    refine pre_discard (pre_perform_still arrivals_still trivial ?_)
    rintro a ds' ha _ he
    obtain rfl := he.still arrivals_still
    exact ho a _ ha
  unfold sockSetRecvMode
  refine pre_ite (fun _ ↦ pre_when (fun _ ↦ hquiet _ fun _ _ ha ↦ ha) ?_) fun _ ↦
    hquiet _ fun _ _ ha ↦ ha
  exact fun _ _ he ↦ he.still arrivals_still

/-- What a lookup comes to. -/
theorem wsmDnsResolve_resolved {server : Dhcp.Ip4} {hostname name : List UInt8} (sock : Option Bool)
    (timeoutMs : UInt32) (outIp : Dhcp.Ip4) (id : UInt16) (c : Client) (ds : List (List UInt8))
    (hserver : server ≠ inaddrAny)
    (hname : dnsEncodeName (dnsBufSize - dnsHeaderLen - 4) hostname = some name) :
    wp (arrivals id) (fun _ _ _ ↦ True) (wsmDnsResolve sock (some server) (some hostname) timeoutMs
      (some outIp)) (fun r _ _ ↦ r = (if (resolved id ds).isSome then .ok () else .error .fail,
        some ((resolved id ds).getD outIp))) c ds := by
  unfold wsmDnsResolve
  refine .seq (M := fun r _ _ ↦ r = found (resolved id ds) outIp) ?_ ?_
  · unfold dnsResolve
    rw [if_neg hserver]
    refine pre_perform_bind_still arrivals_still trivial ?_
    rintro fd ds' ⟨hfd, rfl⟩
    rw [if_neg (Int.not_lt.mpr hfd)]
    refine (sockSetRecvMode_arrivals _ fd _).seq ?_
    rintro _ c' _ rfl
    refine (dnsExchange_resolved fd server outIp hname).seq ?_
    rintro r c' ds' rfl
    -- Every path closes the socket.
    have hclose : wp (arrivals id) (fun _ _ _ ↦ True) (discard (ask (.close fd)))
        (fun _ _ _ ↦ True) c' ds' :=
      pre_discard (pre_perform_still arrivals_still trivial fun _ _ _ _ _ ↦ trivial)
    exact hclose.seq fun _ _ _ _ ↦ pre_pure_still arrivals_still rfl
  · rintro r c' ds' rfl
    exact pre_pure_still arrivals_still rfl

/-- What the resolver finds in the first bytes of a datagram is what the datagram says. -/
theorem answerOf_take {d : List UInt8} {ip : Dhcp.Ip4} (n : ℕ)
    (h : answerOf id (d.take n) = some ip) : answerOf id d = some ip := by
  obtain ⟨address, haddress⟩ := dnsAddress_isSome (d.take n) id
  rw [answerOf, haddress, Option.getD_some] at h
  have happend := dnsAddress_append (d.drop n) (h ▸ haddress)
  rw [List.take_append_drop] at happend
  rw [answerOf, happend, Option.getD_some]

theorem resolved_findSome {ip : Dhcp.Ip4} (h : resolved id ds = some ip) :
    ds.findSome? (answerOf id) = some ip := by
  obtain ⟨d, hd, hip⟩ := Option.bind_eq_some_iff.mp h
  obtain ⟨ds, rfl⟩ := List.head?_eq_some_iff.mp hd
  rw [List.findSome?_cons, answerOf_take _ hip]

/-- **When a lookup succeeds.** Of the datagrams that arrive in time, at least one is a valid
answer, and `addr` is the address in the first such. The lookup comes to an end and returns `ESP_OK`
with `addr` exactly if the very first datagram is a valid answer, and is one already within the
bytes that `dnsbuf` can hold. -/
theorem wsmDnsResolve_ok_iff {server outIp addr : Dhcp.Ip4} {hostname name : List UInt8}
    (sock : Option Bool) (timeoutMs : UInt32) (c : Client) (hserver : server ≠ inaddrAny)
    (hname : dnsEncodeName (dnsBufSize - dnsHeaderLen - 4) hostname = some name)
    (haddr : ds.findSome? (answerOf id) = some addr) :
    (Halts (arrivals id) (wsmDnsResolve sock (some server) (some hostname) timeoutMs (some outIp))
      c ds ∧
      ∀ r c' ds', Returns (arrivals id) (wsmDnsResolve sock (some server) (some hostname) timeoutMs
        (some outIp)) c ds r c' ds' → r = (.ok (), some addr)) ↔
    ∃ d, ds.head? = some d ∧ (answerOf id (d.take dnsBufSize)).isSome := by
  have hrun := wsmDnsResolve_resolved sock timeoutMs outIp id c ds hserver hname
  constructor
  · rintro ⟨-, hret⟩
    obtain ⟨r, c', ds', hr, hq⟩ := wp_returns (arrivals_responsive id) hrun
    obtain hok := hq.symm.trans (hret r c' ds' hr)
    have hsome : (resolved id ds).isSome := by
      by_contra hnone
      rw [if_neg hnone] at hok
      cases congrArg Prod.fst hok
    obtain ⟨ip, hip⟩ := Option.isSome_iff_exists.mp hsome
    obtain ⟨d, hd, hip⟩ := Option.bind_eq_some_iff.mp hip
    exact ⟨d, hd, by rw [hip, Option.isSome_some]⟩
  · rintro ⟨d, hd, hsome⟩
    obtain ⟨ip, hip⟩ := Option.isSome_iff_exists.mp hsome
    have hres : resolved id ds = some ip := by rw [resolved, hd, Option.bind_some, hip]
    obtain rfl : ip = addr := Option.some.inj ((resolved_findSome hres).symm.trans haddr)
    refine ⟨wp_halts (.of_none arrivals_still) hrun, fun r c' ds' hr ↦ ?_⟩
    rw [hrun.returns hr, hres]
    rfl

/-- The server's answer to the query for `wiz.net` whose id is `id`. -/
def reply (id : UInt16) : List UInt8 :=
  be16 id ++ [0x81, 0x80, 0, 1, 0, 1, 0, 0, 0, 0, 3, 119, 105, 122, 3, 110, 101, 116, 0, 0, 1,
    0, 1] ++ [0xC0, 12, 0, 1, 0, 1, 0, 0, 14, 16, 0, 4, 211, 46, 117, 87]

/-- `wiz.net`. -/
def wizNet : List UInt8 := [119, 105, 122, 46, 110, 101, 116]

theorem wizNet_name :
    dnsEncodeName (dnsBufSize - dnsHeaderLen - 4) wizNet = some [3, 119, 105, 122, 3, 110, 101, 116,
      0] := by
  decide

/-- The answer alone is found. -/
theorem wsmDnsResolve_answer :
    Halts (arrivals 7) (wsmDnsResolve none (some #v[8, 8, 8, 8]) (some wizNet) 0 (some inaddrAny))
      defaultClient [reply 7] ∧
    ∀ r c' ds', Returns (arrivals 7)
    (wsmDnsResolve none (some #v[8, 8, 8, 8]) (some wizNet) 0 (some inaddrAny))
      defaultClient [reply 7] r c' ds' → r = (.ok (), some #v[211, 46, 117, 87]) :=
  (wsmDnsResolve_ok_iff none 0 defaultClient (by decide) wizNet_name (by decide)).mpr
    ⟨reply 7, rfl, by decide⟩

/-- **A late answer ends a lookup.** The answer to the query before arrives first. The answer to
this one is next, and valid, and the lookup fails. -/
theorem wsmDnsResolve_late :
    [reply 6, reply 7].findSome? (answerOf 7) = some #v[211, 46, 117, 87] ∧
    ∃ c' ds', Returns (arrivals 7)
    (wsmDnsResolve none (some #v[8, 8, 8, 8]) (some wizNet) 0 (some inaddrAny))
      defaultClient [reply 6, reply 7] (.error .fail, some inaddrAny) c' ds' := by
  refine ⟨by decide, ?_⟩
  obtain ⟨r, c', ds', hr, rfl⟩ := wp_returns (arrivals_responsive 7)
    (wsmDnsResolve_resolved none 0 inaddrAny 7 defaultClient [reply 6, reply 7]
      (show #v[8, 8, 8, 8] ≠ inaddrAny by decide) wizNet_name)
  have hnone : resolved 7 [reply 6, reply 7] = none := by decide
  rw [hnone] at hr
  exact ⟨c', ds', hr⟩

end WsmDriver.Dns
