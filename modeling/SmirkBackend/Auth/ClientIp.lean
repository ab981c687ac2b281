import Mathlib.Data.List.TakeWhile
import SmirkBackend.Basic

/-!
# The address of a client

Rate limits and the restore governor count by client address.  Behind trusted proxies the TCP peer
is a proxy, and the address is the first entry of `X-Forwarded-For`.  Proxies append to this header
what they observe, so its first entry is the client's own whenever the client sends the header.

* `clientIp_untrusted` : without a trusted peer the header is ignored.
* `client_ip_honest_iff` : behind a `ProxyChain`, two runs agree on the observed client if and only
  if both headers are honest (`HonestHeader`).
* `client_ip_controlled` : a client that writes its own entry.
-/

namespace SmirkBackend

/-! ### Addresses -/

/-- `IpAddr`. -/
inductive IpAddr
  | v4 (bits : BitVec 32)
  | v6 (bits : BitVec 128)
  deriving DecidableEq

/-- `IpNetwork`: an address and the number of leading bits that count. -/
inductive IpNetwork
  | v4 (bits : BitVec 32) (leading : Fin 33)
  | v6 (bits : BitVec 128) (leading : Fin 129)

/-- `IpNetwork::contains`: the leading bits agree. -/
def IpNetwork.contains : IpNetwork → IpAddr → Bool
  | v4 net leading, .v4 ip => net >>> (32 - leading.val) = ip >>> (32 - leading.val)
  | v6 net leading, .v6 ip => net >>> (128 - leading.val) = ip >>> (128 - leading.val)
  | _, _ => false

/-- `char::to_digit`. -/
def toDigit (radix : ℕ) (c : Char) : Option ℕ :=
  let value : Option ℕ :=
    if '0' ≤ c ∧ c ≤ '9' then some (c.toNat - '0'.toNat)
    else if 'a' ≤ c ∧ c ≤ 'z' then some (c.toNat - 'a'.toNat + 10)
    else if 'A' ≤ c ∧ c ≤ 'Z' then some (c.toNat - 'A'.toNat + 10)
    else none
  value.filter fun v => v < radix

/-- `read_number`: at most `maxDigits` digits, and the value below the bound. -/
def readNumber (radix maxDigits bound : ℕ) (zeroPrefix : Bool) (s : List Char) :
    Option (ℕ × List Char) :=
  let digits := s.takeWhile fun c => (toDigit radix c).isSome
  let value := digits.foldl (fun n c => n * radix + (toDigit radix c).getD 0) 0
  if digits.isEmpty || maxDigits < digits.length ||
      (!zeroPrefix && digits.head? = some '0' && 1 < digits.length) || bound ≤ value then none
  else some (value, s.drop digits.length)

/-- `read_given_char`. -/
def readChar (c : Char) : List Char → Option (List Char)
  | [] => none
  | c' :: rest => if c' = c then some rest else none

/-- `read_ipv4_addr`: four decimal numbers without leading zeros. -/
def readIpv4 (s : List Char) : Option (BitVec 32 × List Char) := do
  let octet := readNumber 10 3 256 false
  let (a, s) ← octet s
  let (b, s) ← octet (← readChar '.' s)
  let (c, s) ← octet (← readChar '.' s)
  let (d, s) ← octet (← readChar '.' s)
  return (BitVec.ofNat 32 (((a * 256 + b) * 256 + c) * 256 + d), s)

/-- `read_groups`: up to `n` groups of an IPv6 address, the last two perhaps as an IPv4 address;
whether this is so, and what is left. -/
def readGroups : ℕ → Bool → List Char → List ℕ × Bool × List Char
  | 0, _, s => ([], false, s)
  | n + 1, isFirst, s =>
    let start := if isFirst then some s else readChar ':' s
    match if 0 < n then start.bind readIpv4 else none with
    | some (ip, rest) => ([ip.toNat / 65536, ip.toNat % 65536], true, rest)
    | none =>
      match start.bind (readNumber 16 4 65536 true) with
      | some (group, rest) =>
        let (groups, embedded, rest) := readGroups n false rest
        (group :: groups, embedded, rest)
      | none => ([], false, s)

/-- The address of eight groups. -/
def ofGroups (groups : List ℕ) : BitVec 128 :=
  BitVec.ofNat 128 (groups.foldl (fun n g => n * 65536 + g) 0)

/-- `read_ipv6_addr`: eight groups, or fewer around `::`. -/
def readIpv6 (s : List Char) : Option (BitVec 128 × List Char) :=
  match readGroups 8 true s with
  | (front, embedded, rest) =>
    if front.length = 8 then some (ofGroups front, rest)
    else if embedded then none
    else do
      let rest ← readChar ':' (← readChar ':' rest)
      let (back, _, rest) := readGroups (8 - (front.length + 1)) true rest
      let zeros := List.replicate (8 - front.length - back.length) 0
      return (ofGroups (front ++ zeros ++ back), rest)

/-- `str::parse::<IpAddr>`: the whole text is one address. -/
def parseIpAddr (text : String) : Option IpAddr :=
  let read : Option (IpAddr × List Char) := match readIpv4 text.toList with
    | some (ip, rest) => some (.v4 ip, rest)
    | none => (readIpv6 text.toList).map fun p => (.v6 p.1, p.2)
  (read.filter fun p => p.2.isEmpty).map Prod.fst

/-- Texts of addresses, and texts that are none. -/
example :
    parseIpAddr "10.0.0.5" = some (.v4 0x0A000005#32) ∧
    parseIpAddr "2001:db8::ff00:42:8329" = some (.v6 0x20010DB8000000000000FF0000428329#128) ∧
    parseIpAddr "::ffff:1.2.3.4" = some (.v6 0xFFFF01020304#128) ∧
    parseIpAddr "1.2.3.04" = none ∧ parseIpAddr "1.2.3.4 " = none ∧ parseIpAddr "1::2::3" = none := by
  decide +kernel

/-- The text of an IPv4 address: its octets in decimal. -/
def ipv4Text (bits : BitVec 32) : String :=
  ".".intercalate ([24, 16, 8, 0].map fun shift => toString ((bits >>> shift).toNat % 256))

/-- A number in hexadecimal, without leading zeros. -/
def hexText (n : ℕ) : String := String.ofList (Nat.toDigits 16 n)

/-- The longest run of zeros, the first of those of equal length: its start and its length. -/
def zeroRun (segments : List ℕ) : ℕ × ℕ :=
  (segments.zipIdx.foldl (fun (acc : (ℕ × ℕ) × (ℕ × ℕ)) (p : ℕ × ℕ) =>
    if p.1 = 0 then
      let current := if acc.2.2 = 0 then (p.2, 1) else (acc.2.1, acc.2.2 + 1)
      (if acc.1.2 < current.2 then current else acc.1, current)
    else (acc.1, (0, 0))) ((0, 0), (0, 0))).1

/-- The text of an IPv6 address: its segments in hexadecimal, the longest run of zeros left out;
an embedded IPv4 address as such. -/
def ipv6Text (bits : BitVec 128) : String :=
  let segments := [112, 96, 80, 64, 48, 32, 16, 0].map fun shift => (bits >>> shift).toNat % 65536
  let join (part : List ℕ) := ":".intercalate (part.map hexText)
  if (bits >>> 32).toNat = 0xFFFF then "::ffff:" ++ ipv4Text (bits.truncate 32)
  else
    let (start, len) := zeroRun segments
    if 1 < len then join (segments.take start) ++ "::" ++ join (segments.drop (start + len))
    else join segments

/-- `IpAddr::to_string`. -/
def IpAddr.text : IpAddr → String
  | v4 bits => ipv4Text bits
  | v6 bits => ipv6Text bits

/-- Texts of addresses. -/
example :
    (IpAddr.v4 0x0A000005#32).text = "10.0.0.5" ∧
    (IpAddr.v6 0x20010DB8000000000000FF0000428329#128).text = "2001:db8::ff00:42:8329" ∧
    (IpAddr.v6 0xFFFF01020304#128).text = "::ffff:1.2.3.4" ∧ (IpAddr.v6 0#128).text = "::" := by
  decide +kernel

/-! ### The client of a request -/

/-- `HeaderValue::to_str`: visible ASCII and tabs only. -/
def visible (value : String) : Bool :=
  value.toList.all fun c => (32 ≤ c.toNat && c.toNat < 127) || c.toNat = 9

/-- The first entry of a header, without blanks around it. -/
def firstEntry (value : String) : String :=
  trim (String.ofList (value.toList.takeWhile fun c => c ≠ ','))

/-- The address that a header claims. -/
def claimedIp (xff : Option String) : Option IpAddr :=
  (xff.filter fun value => visible value).bind fun value => parseIpAddr (firstEntry value)

/-- `client_ip`: the peer, or behind a trusted peer the first entry of `X-Forwarded-For`. -/
def clientIp (trustedProxies : List IpNetwork) (xff : Option String) (peer : IpAddr) : IpAddr :=
  if !trustedProxies.any fun net => net.contains peer then peer
  else (claimedIp xff).getD peer

/-- `ClientIpKeyExtractor::extract`: a request without a peer has no key. -/
def rateLimitKey (trustedProxies : List IpNetwork) (xff : Option String) (peer : Option IpAddr) :
    Option IpAddr :=
  peer.map (clientIp trustedProxies xff)

/-- A peer that is not trusted is counted under its own address. -/
theorem clientIp_untrusted {trustedProxies : List IpNetwork} {peer : IpAddr}
    (h : ∀ net ∈ trustedProxies, net.contains peer = false) (xff : Option String) :
    clientIp trustedProxies xff peer = peer := by
  have hany : (trustedProxies.any fun net => net.contains peer) = false := by
    rw [List.any_eq_false]
    exact fun net hnet => by simp [h net hnet]
  simp [clientIp, hany]

/-! ### Proxies -/

/-- A proxy that forwards a request, with the text it appends for the peer it observed. -/
structure ProxyHop where
  /-- Its own address. -/
  address : IpAddr
  /-- What it appends. -/
  entry : String

/-- The entry is a text of the address. -/
structure EntryOf (ip : IpAddr) (entry : String) : Prop where
  /-- It is one entry. -/
  single : ',' ∉ entry.toList
  /-- It can be sent. -/
  visible : visible entry = true
  /-- It denotes the address. -/
  denotes : parseIpAddr (trim entry) = some ip

/-- Each proxy appends the address of the one before it, the first that of the client. -/
def Forwards : IpAddr → List ProxyHop → Prop
  | _, [] => True
  | ip, hop :: rest => EntryOf ip hop.entry ∧ Forwards hop.address rest

/-- The header with one entry more. -/
def appendEntry (xff : Option String) (entry : String) : String :=
  match xff with
  | none => entry
  | some value => value ++ ", " ++ entry

/-- A chain of trusted proxies between a client and the server. -/
structure ProxyChain (trustedProxies : List IpNetwork) where
  /-- The address that the outermost proxy observes. -/
  client : IpAddr
  /-- The outermost proxy. -/
  outermost : ProxyHop
  /-- The proxies behind it. -/
  inner : List ProxyHop
  /-- All of them are trusted. -/
  trusted : ∀ hop ∈ outermost :: inner, trustedProxies.any fun net => net.contains hop.address
  /-- Each appends what it observes. -/
  forwards : Forwards client (outermost :: inner)

namespace ProxyChain

variable {trustedProxies : List IpNetwork} (chain : ProxyChain trustedProxies)

/-- The proxies, the outermost first. -/
def hops : List ProxyHop := chain.outermost :: chain.inner

/-- The peer of the server: the innermost proxy. -/
def peer : IpAddr := (chain.inner.getLastD chain.outermost).address

/-- The header that reaches the server, when the client sends `xff`. -/
def header (xff : Option String) : Option String :=
  chain.hops.foldl (fun value hop => some (appendEntry value hop.entry)) xff

/-- The address under which the server counts a request of the client. -/
def counted (xff : Option String) : IpAddr :=
  clientIp trustedProxies (chain.header xff) chain.peer

end ProxyChain

/-- A header that does not misstate the client: it is not sent, or its first entry is the address
the outermost proxy observes, or it claims no address and the innermost proxy has this address. -/
def HonestHeader {trustedProxies : List IpNetwork} (chain : ProxyChain trustedProxies)
    (xff : Option String) : Prop :=
  xff = none ∨ claimedIp xff = some chain.client ∨
    claimedIp xff = none ∧ chain.peer = chain.client

/-! ### The first entry -/

theorem visible_append (s t : String) : visible (s ++ t) = (visible s && visible t) := by
  simp [visible, List.all_append]

theorem firstEntry_append (value entry : String) :
    firstEntry (value ++ ", " ++ entry) = firstEntry value := by
  have hcomma : (value ++ ", " ++ entry).toList = value.toList ++ ',' :: ' ' :: entry.toList := by
    simp [String.toList_append]
  rw [firstEntry, firstEntry, hcomma]
  congr 2
  induction value.toList with
  | nil => simp
  | cons c rest ih =>
    by_cases hc : c = ','
    · simp [hc]
    · simpa [hc] using ih

theorem claimedIp_append {value entry : String} (h : visible entry = true) :
    claimedIp (some (value ++ ", " ++ entry)) = claimedIp (some value) := by
  have hsep : visible ", " = true := by decide
  cases hvalue : visible value <;>
    simp [claimedIp, Option.filter, visible_append, hvalue, hsep, h, firstEntry_append]

theorem claimedIp_foldl {ip : IpAddr} {hops : List ProxyHop} (h : Forwards ip hops)
    (value : String) :
    claimedIp (hops.foldl (fun v hop => some (appendEntry v hop.entry)) (some value)) =
      claimedIp (some value) := by
  induction hops generalizing ip value with
  | nil => rfl
  | cons hop rest ih =>
    rw [List.foldl_cons, ih h.2]
    exact claimedIp_append h.1.visible

theorem EntryOf.claimed {ip : IpAddr} {entry : String} (h : EntryOf ip entry) :
    claimedIp (some entry) = some ip := by
  have hall : entry.toList.takeWhile (fun c => c ≠ ',') = entry.toList := by
    rw [List.takeWhile_eq_self_iff]
    intro c hc
    have hne : c ≠ ',' := fun heq => h.single (heq ▸ hc)
    simpa using hne
  simp only [claimedIp, Option.filter, h.visible, if_true, Option.bind_some, firstEntry, hall,
    String.ofList_toList]
  exact h.denotes

namespace ProxyChain

variable {trustedProxies : List IpNetwork} (chain : ProxyChain trustedProxies)

theorem claimedIp_header_none : claimedIp (chain.header none) = some chain.client := by
  have h := chain.forwards
  rw [header, hops, List.foldl_cons]
  exact (claimedIp_foldl h.2 _).trans h.1.claimed

theorem claimedIp_header_some (value : String) :
    claimedIp (chain.header (some value)) = claimedIp (some value) :=
  claimedIp_foldl chain.forwards value

theorem peer_trusted : (trustedProxies.any fun net => net.contains chain.peer) = true := by
  refine chain.trusted _ ?_
  rw [List.getLastD_eq_getLast?]
  cases hlast : chain.inner.getLast? with
  | none => exact .head _
  | some hop => exact .tail _ (List.mem_of_getLast? hlast)

theorem counted_eq (xff : Option String) :
    chain.counted xff = (claimedIp (chain.header xff)).getD chain.peer := by
  simp [counted, clientIp, chain.peer_trusted]

theorem counted_eq_client_iff (xff : Option String) :
    chain.counted xff = chain.client ↔ HonestHeader chain xff := by
  rw [counted_eq]
  cases xff with
  | none => simp [claimedIp_header_none, HonestHeader]
  | some value =>
    rw [claimedIp_header_some]
    cases hclaim : claimedIp (some value) <;> simp [HonestHeader, hclaim]

end ProxyChain

/-- **The address of a client is the one the outermost proxy observed, in both of two runs, if and
only if the headers that the client sends are honest in both.** -/
theorem client_ip_honest_iff (trustedProxies : List IpNetwork)
    (chain : ProxyChain trustedProxies) (xff xff' : Option String) :
    (chain.counted xff = chain.counted xff' ∧ chain.counted xff = chain.client) ↔
      HonestHeader chain xff ∧ HonestHeader chain xff' := by
  rw [← chain.counted_eq_client_iff, ← chain.counted_eq_client_iff]
  constructor
  · rintro ⟨hsame, hclient⟩
    exact ⟨hclient, hsame ▸ hclient⟩
  · rintro ⟨hclient, hclient'⟩
    exact ⟨hclient.trans hclient'.symm, hclient⟩

/-! ### A client that writes its own entry -/

/-- One proxy of the network 10.0.0.0/8 before the server. -/
def sampleChain : ProxyChain [.v4 0x0A000000#32 8] where
  client := .v4 0x09090909#32
  outermost := ⟨.v4 0x0A000005#32, "9.9.9.9"⟩
  inner := []
  trusted := by decide +kernel
  forwards := ⟨⟨by decide +kernel, by decide +kernel, by decide +kernel⟩, trivial⟩

/-- The client chooses the address it is counted under. -/
theorem client_ip_controlled :
    sampleChain.counted none = .v4 0x09090909#32 ∧
    sampleChain.counted (some "1.2.3.4") = .v4 0x01020304#32 ∧
    ¬ (∀ (trustedProxies : List IpNetwork) (chain : ProxyChain trustedProxies)
      (xff xff' : Option String),
      chain.counted xff = chain.counted xff' ∧ chain.counted xff = chain.client) := by
  have hnone : sampleChain.counted none = .v4 0x09090909#32 := by decide +kernel
  have hsome : sampleChain.counted (some "1.2.3.4") = .v4 0x01020304#32 := by decide +kernel
  refine ⟨hnone, hsome, fun hclaim => ?_⟩
  have hsame := (hclaim _ sampleChain none (some "1.2.3.4")).1
  rw [hnone, hsome] at hsame
  exact absurd hsame (by decide)

end SmirkBackend
