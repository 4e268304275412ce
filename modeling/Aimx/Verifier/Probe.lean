import Aimx.Net.IpAddr

/-!
# The probe of the verifier

`GET /probe` makes the public verifier connect to port 25 of its caller.  Behind the reverse proxy the peer
is the loopback interface and the caller stands in a header.

* `canonicalizeIp`, `resolveClientIp`, `isBlockedTarget`, `probe` — the functions of the source;
* `isBlockedTarget_iff` — the guards block exactly the blocks of `IpAddr.Internal`;
* `probe_connects` — whom a probe may connect to.
-/

namespace Aimx
namespace Verifier

open Text Net

/-! ## The handler -/

/-- A value in the header table of the HTTP library: what `HeaderValue::to_str` gives. -/
structure HeaderValue where
  toStr : Option Str

/-- The header table of a request: what `HeaderMap::get` gives for a name. -/
structure HeaderMap where
  get : Str → Option HeaderValue

def clientIpHeader : Str := "X-AIMX-Client-IP".toList

def canonicalizeIp : IpAddr → IpAddr
  | .v6 v6 =>
    match v6.toIpv4Mapped with
    | some v4 => .v4 v4
    | none => .v6 v6
  | .v4 v4 => .v4 v4

def isBlockedIpv4 (ip : Ipv4Addr) : Bool :=
  if ip.isLinkLocal || ip.isBroadcast || ip.isMulticast then true
  else if ip.a == 10 then true
  else if ip.a == 172 && (16 ≤ ip.b && ip.b ≤ 31) then true
  else if ip.a == 192 && ip.b == 168 then true
  -- RFC 6598
  else if ip.a == 100 && (64 ≤ ip.b && ip.b ≤ 127) then true
  else false

def isBlockedIpv6 (ip : Ipv6Addr) : Bool :=
  if ip.isMulticast then true
  else if ip.s0 &&& 0xffc0 == 0xfe80 then true
  -- RFC 4193
  else if ip.s0 &&& 0xfe00 == 0xfc00 then true
  else false

def isBlockedTarget (ip : IpAddr) : Bool :=
  let ip := canonicalizeIp ip
  if ip.isLoopback || ip.isUnspecified then true
  else
    match ip with
    | .v4 v4 => isBlockedIpv4 v4
    | .v6 v6 => isBlockedIpv6 v6

def resolveClientIp (peer : SocketAddr) (headers : HeaderMap) : Option IpAddr :=
  let peerIp := canonicalizeIp peer.ip
  if !peerIp.isLoopback then some peerIp
  else do
    let value ← (headers.get clientIpHeader).bind HeaderValue.toStr
    let parsed ← parseIpAddr (trim value)
    let ip := canonicalizeIp parsed
    if isBlockedTarget ip then none else some ip

/-- What a host shows to a client that connects: whether it accepts, what `read_line` gives one time after
the other, an error or the empty line at the end of the stream included, whether the two writes succeed and
whether all of it ends in time. -/
structure Remote where
  accepts : Bool
  lines : List (Option Str)
  ehloSent : Bool
  quitSent : Bool
  inTime : Bool

/-- The lines of the reply to `EHLO`, up to the one that ends it. -/
def readEhloReply : List (Option Str) → Bool
  | some line :: rest =>
    if line = [] then false
    else if "250 ".toList.isPrefixOf line then true
    else if !"250-".toList.isPrefixOf line then false
    else readEhloReply rest
  | _ => false

def smtpEhloHandshake (remote : Remote) : Bool :=
  match remote.lines with
  | some banner :: rest =>
    if !"220".toList.isPrefixOf banner then false
    else if !remote.ehloSent then false
    else readEhloReply rest && remote.quitSent
  | _ => false

structure ProbeResponse where
  reachable : Bool
  ip : IpAddr
  deriving DecidableEq

/-- What a request to `/probe` does: the addresses it connects to, and its answer or the status of an
error. -/
structure Probe where
  connects : List SocketAddr
  response : Except Nat ProbeResponse

section Handler

variable (network : SocketAddr → Remote)

def checkPort25Ehlo (ip : IpAddr) : List SocketAddr × Bool :=
  let addr := SocketAddr.new ip 25
  ([addr], (network addr).accepts && smtpEhloHandshake (network addr) && (network addr).inTime)

def probe (addr : SocketAddr) (headers : HeaderMap) : Probe :=
  match resolveClientIp addr headers with
  | none => ⟨[], .error 400⟩
  | some callerIp =>
    if isBlockedTarget callerIp then ⟨[], .ok ⟨false, callerIp⟩⟩
    else
      let (connects, reachable) := checkPort25Ehlo network callerIp
      ⟨connects, .ok ⟨reachable, callerIp⟩⟩

end Handler

/-! ## The guards -/

@[simp] theorem ip_new (ip : IpAddr) (port : UInt16) : (SocketAddr.new ip port).ip = ip := by
  cases ip <;> rfl

/-- The canonical form is another form of the same address. -/
theorem number_canonicalizeIp (ip : IpAddr) : (canonicalizeIp ip).number = ip.number := by
  cases ip with
  | v4 ip => rfl
  | v6 ip =>
    simp only [canonicalizeIp]
    split
    next v4 h => exact ip.number_toIpv4Mapped.1 v4 h
    next => rfl

theorem canonicalizeIp_idem (ip : IpAddr) : canonicalizeIp (canonicalizeIp ip) = canonicalizeIp ip := by
  cases ip with
  | v4 ip => rfl
  | v6 ip =>
    cases h : ip.toIpv4Mapped <;> simp [canonicalizeIp, h]

/-- A canonical address of version 6 lies outside the mapped block. -/
theorem number_of_canonicalizeIp_v6 {ip : IpAddr} {v6 : Ipv6Addr} (h : canonicalizeIp ip = .v6 v6) :
    v6.toNat / 2 ^ 32 ≠ 0xffff := by
  have hnone : v6.toIpv4Mapped = none := by
    have hidem := canonicalizeIp_idem ip
    rw [h, canonicalizeIp] at hidem
    split at hidem
    next v4 h4 => cases hidem
    next h6 => exact h6
  exact v6.number_toIpv4Mapped.2 hnone

theorem isBlockedIpv4_iff (ip : Ipv4Addr) :
    (ip.isLoopback || ip.isUnspecified || isBlockedIpv4 ip) = true ↔ (IpAddr.v4 ip).Internal := by
  obtain ⟨a, b, c, d⟩ := ip
  have ha := a.toNat_lt; have hb := b.toNat_lt; have hc := c.toNat_lt; have hd := d.toNat_lt
  have h24 : (⟨a, b, c, d⟩ : Ipv4Addr).toNat / 2 ^ 24 = a.toNat := Ipv4Addr.toNat_div_first _
  have h16 : (⟨a, b, c, d⟩ : Ipv4Addr).toNat / 2 ^ 16 = a.toNat * 256 + b.toNat := by
    simp only [Ipv4Addr.toNat]
    omega
  generalize hn : (⟨a, b, c, d⟩ : Ipv4Addr).toNat = n at h24 h16
  have hlocal : n / 2 ^ 16 = 0xa9fe ↔ a.toNat = 169 ∧ b.toNat = 254 := by omega
  have h192 : n / 2 ^ 16 = 0xc0a8 ↔ a.toNat = 192 ∧ b.toNat = 168 := by omega
  have h172 : n / 2 ^ 20 = 0xac1 ↔ a.toNat = 172 ∧ 16 ≤ b.toNat ∧ b.toNat ≤ 31 := by omega
  have hshared : n / 2 ^ 22 = 0x191 ↔ a.toNat = 100 ∧ 64 ≤ b.toNat ∧ b.toNat ≤ 127 := by omega
  have hmulti : n / 2 ^ 28 = 0xe ↔ 224 ≤ a.toNat ∧ a.toNat ≤ 239 := by omega
  have hzero : (⟨a, b, c, d⟩ : Ipv4Addr).isUnspecified = true ↔ n = 0 := by
    rw [Ipv4Addr.isUnspecified, beq_iff_eq, ← Ipv4Addr.toNat_injective.eq_iff, hn]
    exact Iff.rfl
  have hones : (⟨a, b, c, d⟩ : Ipv4Addr).isBroadcast = true ↔ n = 0xffffffff := by
    rw [Ipv4Addr.isBroadcast, beq_iff_eq, ← Ipv4Addr.toNat_injective.eq_iff, hn]
    exact Iff.rfl
  rw [internal_v4_iff, hn, h24, hlocal, h192, h172, hshared, hmulti]
  simp only [Ipv4Addr.isLoopback, isBlockedIpv4, Ipv4Addr.isLinkLocal, Ipv4Addr.isMulticast, Bool.or_eq_true,
    Bool.and_eq_true, Bool.if_true_left, Bool.if_false_right, beq_iff_eq, decide_eq_true_eq, hzero, hones,
    ← UInt8.toNat_inj, UInt8.le_iff_toNat_le, UInt8.reduceToNat, and_true]
  simp only [or_comm, or_left_comm, or_assoc]

theorem isBlockedIpv6_iff {ip : Ipv6Addr} (h : ip.toNat / 2 ^ 32 ≠ 0xffff) :
    (ip.isLoopback || ip.isUnspecified || isBlockedIpv6 ip) = true ↔ (IpAddr.v6 ip).Internal := by
  have hzero : ip.isUnspecified = true ↔ ip.toNat = 0 := by
    rw [Ipv6Addr.isUnspecified, beq_iff_eq, ← Ipv6Addr.toNat_injective.eq_iff]
    exact Iff.rfl
  have hhigh : ip.toNat / 2 ^ 112 = ip.s0.toNat := by
    obtain ⟨s0, s1, s2, s3, s4, s5, s6, s7⟩ := ip
    have := s1.toNat_lt; have := s2.toNat_lt; have := s3.toNat_lt
    have := s4.toNat_lt; have := s5.toNat_lt; have := s6.toNat_lt; have := s7.toNat_lt
    simp only [Ipv6Addr.toNat]
    omega
  have h118 : ip.toNat / 2 ^ 118 = ip.s0.toNat / 2 ^ 6 := by
    rw [← hhigh, Nat.div_div_eq_div_mul, ← pow_add]
  have h121 : ip.toNat / 2 ^ 121 = ip.s0.toNat / 2 ^ 9 := by
    rw [← hhigh, Nat.div_div_eq_div_mul, ← pow_add]
  have h120 : ip.toNat / 2 ^ 120 = ip.s0.toNat / 2 ^ 8 := by
    rw [← hhigh, Nat.div_div_eq_div_mul, ← pow_add]
  rw [internal_v6_iff h, h118, h121, h120, ← land_mask_iff ip.s0 (by omega), ← land_mask_iff ip.s0 (by omega),
    ← land_mask_iff ip.s0 (by omega)]
  simp only [isBlockedIpv6, Ipv6Addr.isMulticast, Bool.or_eq_true, Bool.if_true_left, Bool.if_false_right,
    beq_iff_eq, decide_eq_true_eq, ip.isLoopback_iff, hzero, ← UInt16.toNat_inj, UInt16.toNat_and,
    UInt16.reduceToNat]
  norm_num
  simp only [or_comm, or_left_comm, or_assoc]

/-- Scopes do not depend on the form of an address. -/
theorem hasScope_congr {ip ip' : IpAddr} (h : ip.number = ip'.number) (scope : Scope) :
    ip.HasScope scope ↔ ip'.HasScope scope := by
  rw [IpAddr.HasScope, IpAddr.HasScope, h]

theorem internal_canonicalizeIp (ip : IpAddr) : (canonicalizeIp ip).Internal ↔ ip.Internal :=
  exists_congr (hasScope_congr (number_canonicalizeIp ip))

/-- The guards block the internal addresses and no others. -/
theorem isBlockedTarget_iff (ip : IpAddr) : isBlockedTarget ip = true ↔ ip.Internal := by
  rw [← internal_canonicalizeIp]
  cases hip : canonicalizeIp ip with
  | v4 v4 =>
    rw [← isBlockedIpv4_iff]
    simp [isBlockedTarget, hip, IpAddr.isLoopback, IpAddr.isUnspecified, or_assoc]
  | v6 v6 =>
    rw [← isBlockedIpv6_iff (number_of_canonicalizeIp_v6 hip)]
    simp [isBlockedTarget, hip, IpAddr.isLoopback, IpAddr.isUnspecified, or_assoc]

/-! ## Whom a probe connects to -/

/-- The address that the proxy names: the first value under its header, where that is an address. -/
def NamedByProxy (headers : HeaderMap) (ip : IpAddr) : Prop :=
  ∃ value text, headers.get clientIpHeader = some value ∧ value.toStr = some text ∧
    parseIpAddr (trim text) = some ip

/-- The caller of a request: the peer, or for the proxy the address that it names. -/
def Caller (peer : SocketAddr) (headers : HeaderMap) (ip : IpAddr) : Prop :=
  if peer.ip.HasScope .loopback then NamedByProxy headers ip else ip = peer.ip

theorem isLoopback_canonicalizeIp (ip : IpAddr) :
    (canonicalizeIp ip).isLoopback = true ↔ ip.HasScope .loopback := by
  have hscope : ip.HasScope .loopback ↔ ip.number / 2 ^ 24 = 0xffff7f ∨ ip.number = 1 := by
    simp [IpAddr.HasScope, Scope.blocks, Block.Contains, Block.v4, Block.v6, Ipv4Addr.toNat,
      Ipv6Addr.toNat, IpAddr.number]
  rw [hscope, ← number_canonicalizeIp ip]
  cases hip : canonicalizeIp ip with
  | v4 v4 =>
    have hlt := v4.toNat_lt
    have hfirst : v4.toNat / 2 ^ 24 = v4.a.toNat := v4.toNat_div_first
    show (v4.a == 127) = true ↔ _
    rw [beq_iff_eq, ← UInt8.toNat_inj, ← hfirst, show (127 : UInt8).toNat = 127 from rfl,
      show (IpAddr.v4 v4).number = 0xffff * 2 ^ 32 + v4.toNat from rfl]
    omega
  | v6 v6 =>
    have hplain := number_of_canonicalizeIp_v6 hip
    show v6.isLoopback = true ↔ v6.toNat / 2 ^ 24 = 0xffff7f ∨ v6.toNat = 1
    rw [v6.isLoopback_iff]
    omega

/-- The address that the handler works with: the caller's, in canonical form; nothing for a caller behind
the proxy that is internal. -/
theorem resolveClientIp_eq_some_iff {peer : SocketAddr} {headers : HeaderMap} {ip : IpAddr} :
    resolveClientIp peer headers = some ip ↔ ∃ caller, Caller peer headers caller ∧
      (peer.ip.HasScope .loopback → ¬ caller.Internal) ∧ ip = canonicalizeIp caller := by
  unfold resolveClientIp Caller
  by_cases hloop : peer.ip.HasScope .loopback
  · have hpeer := (isLoopback_canonicalizeIp peer.ip).mpr hloop
    simp only [hpeer, hloop, Bool.not_true, Bool.false_eq_true, if_false, if_true, NamedByProxy,
      bind, Option.bind_eq_some_iff]
    constructor
    · rintro ⟨text, ⟨value, hvalue, htext⟩, parsed, hparsed, h⟩
      split at h
      · cases h
      next hblocked =>
        cases h
        rw [isBlockedTarget_iff, internal_canonicalizeIp] at hblocked
        exact ⟨parsed, ⟨value, text, hvalue, htext, hparsed⟩, fun _ => hblocked, rfl⟩
    · rintro ⟨parsed, ⟨value, text, hvalue, htext, hparsed⟩, hpublic, rfl⟩
      refine ⟨text, ⟨value, hvalue, htext⟩, parsed, hparsed, ?_⟩
      rw [if_neg]
      rw [isBlockedTarget_iff, internal_canonicalizeIp]
      exact hpublic trivial
  · have hpeer : (canonicalizeIp peer.ip).isLoopback = false := by
      rw [← Bool.not_eq_true, isLoopback_canonicalizeIp]
      exact hloop
    simp [hpeer, hloop, eq_comm]

theorem length_connects_le (network : SocketAddr → Remote) (peer : SocketAddr) (headers : HeaderMap) :
    (probe network peer headers).connects.length ≤ 1 := by
  unfold probe
  split
  · exact Nat.zero_le 1
  · split
    · exact Nat.zero_le 1
    · exact Nat.le_refl 1

/-- A probe connects to port 25 of the caller and of nobody else, unless the caller is internal. -/
theorem mem_connects_iff (network : SocketAddr → Remote) (peer : SocketAddr) (headers : HeaderMap)
    (target : SocketAddr) : target ∈ (probe network peer headers).connects ↔
      ∃ ip, Caller peer headers ip ∧ ¬ ip.Internal ∧ target = SocketAddr.new (canonicalizeIp ip) 25 := by
  have hguard : ∀ ip, isBlockedTarget (canonicalizeIp ip) = true ↔ ip.Internal := fun ip => by
    rw [isBlockedTarget_iff, internal_canonicalizeIp]
  unfold probe
  constructor
  · intro htarget
    split at htarget
    next => cases htarget
    next callerIp hcaller =>
      obtain ⟨ip, hip, -, rfl⟩ := resolveClientIp_eq_some_iff.mp hcaller
      split at htarget
      next => cases htarget
      next hpublic =>
        rw [hguard] at hpublic
        exact ⟨ip, hip, hpublic, List.mem_singleton.mp htarget⟩
  · rintro ⟨ip, hip, hpublic, rfl⟩
    rw [resolveClientIp_eq_some_iff.mpr ⟨ip, hip, fun _ => hpublic, rfl⟩]
    simp [mt (hguard ip).mp hpublic, checkPort25Ehlo]

/-- The probe connects to one address at most, the caller's own, whatever the headers of a caller that is
not the proxy, and never to an internal one. -/
theorem probe_connects (network : SocketAddr → Remote) (peer : SocketAddr) (headers : HeaderMap) :
    (probe network peer headers).connects.length ≤ 1 ∧
    (¬ peer.ip.HasScope .loopback →
      (∀ target ∈ (probe network peer headers).connects, target.ip.number = peer.ip.number) ∧
      ∀ headers', (probe network peer headers').connects = (probe network peer headers).connects) ∧
    (peer.ip.HasScope .loopback → ∀ target ∈ (probe network peer headers).connects,
      ∃ ip, NamedByProxy headers ip ∧ target.ip.number = ip.number) ∧
    ∀ target ∈ (probe network peer headers).connects, ∀ scope, ¬ target.ip.HasScope scope := by
  refine ⟨length_connects_le network peer headers, fun hloop => ⟨?_, ?_⟩, fun hloop => ?_, ?_⟩
  · intro target htarget
    obtain ⟨ip, hip, -, rfl⟩ := (mem_connects_iff network peer headers target).mp htarget
    rw [Caller, if_neg hloop] at hip
    rw [ip_new, number_canonicalizeIp, hip]
  · intro headers'
    have hresolve : resolveClientIp peer headers' = resolveClientIp peer headers := by
      have hpeer : (canonicalizeIp peer.ip).isLoopback = false := by
        rw [← Bool.not_eq_true, isLoopback_canonicalizeIp]
        exact hloop
      simp only [resolveClientIp, hpeer, Bool.not_false, if_true]
    rw [probe, probe, hresolve]
  · intro target htarget
    obtain ⟨ip, hip, -, rfl⟩ := (mem_connects_iff network peer headers target).mp htarget
    rw [Caller, if_pos hloop] at hip
    exact ⟨ip, hip, by rw [ip_new, number_canonicalizeIp]⟩
  · intro target htarget scope hscope
    obtain ⟨ip, -, hpublic, rfl⟩ := (mem_connects_iff network peer headers target).mp htarget
    rw [ip_new, hasScope_congr (number_canonicalizeIp ip)] at hscope
    exact hpublic ⟨scope, hscope⟩

end Verifier
end Aimx
