import SmirkBackend.Chain.Address
import SmirkBackend.Lib.Base58

/-!
# The grammar of addresses

A client accepts the segwit addresses with the prefix of its network and the base58check texts with
one of its version bytes.  It tells them apart by the first characters, before it decodes anything.
The first character of a base58check text is determined by its version byte; of all versions and
networks, only a Litecoin one of version `0x30` begins like the prefix of its network, in capitals.

* `head_mem_firstChars` : the first character of a base58check text.
* `accepted_by_one` : a text is accepted on one network of a coin only.
* `parses_exactly_iff` : the texts for which the client follows the grammar, all but these capitals
  (`Diverted`).
-/

namespace SmirkBackend

open Lib

/-- The encodings are those of their standards: base58 is decoded as a number, and a segwit address
is its prefix, the separator and its data. -/
structure AddressCodec.Standard (codec : AddressCodec) : Prop where
  /-- Base58. -/
  base58 : codec.base58Decode = Lib.Base58.decode
  /-- Segwit. -/
  segwit : ∀ {a hrp version program}, codec.segwitDecode a = some (hrp, version, program) →
    ∃ data, a.toList = hrp.toList ++ '1' :: data

namespace UtxoNetwork

/-- The version bytes of a network. -/
def versions (net : UtxoNetwork) : List UInt8 := net.p2pkhVersion :: net.p2shVersions

/-- Two networks of one coin. -/
def SameCoin : UtxoNetwork → UtxoNetwork → Prop
  | bitcoinMainnet, bitcoinTestnet | bitcoinTestnet, bitcoinMainnet => True
  | litecoinMainnet, litecoinTestnet | litecoinTestnet, litecoinMainnet => True
  | _, _ => False

instance (net net' : UtxoNetwork) : Decidable (SameCoin net net') := by
  cases net <;> cases net' <;> first | exact isTrue trivial | exact isFalse id

variable (codec : AddressCodec) (net : UtxoNetwork) (s : String)

/-- A segwit address of the network and its script. -/
def SegwitAddress (script : List UInt8) : Prop :=
  ∃ hrp version program, codec.segwitDecode s = some (hrp, version, program) ∧
    toLowercase hrp = net.segwitHrp ∧ script = witnessScript version program

/-- A base58check address of the network and its script. -/
def LegacyAddress (script : List UInt8) : Prop :=
  ∃ version hash160, codec.Base58Address s version hash160 ∧
    (version = net.p2pkhVersion ∧ script = p2pkhScript hash160 ∨
      version ∈ net.p2shVersions ∧ script = p2shScript hash160)

/-- The grammar: the addresses of the network, and the scripts they pay. -/
def Address (script : List UInt8) : Prop :=
  net.SegwitAddress codec s script ∨ net.LegacyAddress codec s script

/-- The text is taken for a segwit address, but it is a base58check one of Litecoin. -/
structure Diverted : Prop where
  /-- The network. -/
  network : net = .litecoinMainnet
  /-- The address. -/
  address : ∃ hash160, codec.Base58Address s 0x30 hash160
  /-- How it begins, in any letter case. -/
  text : "ltc1".toList <+: (toLowercase s).toList

/-- The client follows the grammar for a text. -/
structure ParsesExactly : Prop where
  /-- The scripts are those of the grammar. -/
  exact : ∀ script, net.addressToScript codec s = .ok script ↔ net.Address codec s script
  /-- No base58check address is taken for a segwit one. -/
  legacy : ∀ script, net.LegacyAddress codec s script → net.looksSegwit s = false
  /-- No segwit address is taken for a base58check one. -/
  segwit : ∀ script, net.SegwitAddress codec s script → net.looksSegwit s = true
  /-- The other network of the coin does not accept the text. -/
  apart : ∀ net' script script', SameCoin net net' →
    net.addressToScript codec s = .ok script → net'.addressToScript codec s ≠ .ok script'

/-! ### First characters -/

/-- The first characters of base58check texts of a version. -/
def firstChars (version : UInt8) : List Char :=
  if version = 0x00 then ['1']
  else if version = 0x05 then ['3']
  else if version = 0x30 then ['L']
  else if version = 0x32 then ['M']
  else if version = 0x3a then ['Q']
  else if version = 0x6f then ['m', 'n']
  else ['2']

theorem digit_bounds {v : UInt8} {c : Char} {cs : List Char} {d n k : ℕ}
    (h : Base58.Starts s v 24 c cs d n) (hk : v.toNat = k) (hv : 3 ≤ k) :
    (d * 58 ^ 33 < (k + 1) * 256 ^ 24 ∧ k * 256 ^ 24 < (d + 1) * 58 ^ 33) ∨
      (d * 58 ^ 34 < (k + 1) * 256 ^ 24 ∧ k * 256 ^ 24 < (d + 1) * 58 ^ 34) := by
  have hdigits := h.digits
  have hbytes := h.bytes
  rw [hk] at hbytes
  rcases Base58.length_of_starts h (hk ▸ hv) with hlen | hlen
  · rw [hlen] at hdigits
    exact .inl ⟨by omega, by omega⟩
  · rw [hlen] at hdigits
    exact .inr ⟨by omega, by omega⟩

/-- The first character of a base58check text, by its version byte. -/
theorem char_of_starts {v : UInt8} {c : Char} {cs : List Char} {d n : ℕ}
    (h : Base58.Starts s v 24 c cs d n)
    (hv : v = 0x05 ∨ v = 0x30 ∨ v = 0x32 ∨ v = 0x3a ∨ v = 0x6f ∨ v = 0xc4) : c ∈ firstChars v := by
  have hpos := h.pos
  have hlt := h.lt
  have hc := Base58.getElem?_of_digit h.value
  rcases hv with rfl | rfl | rfl | rfl | rfl | rfl
  · have hbounds := digit_bounds s h (k := 5) rfl (by decide)
    obtain rfl : d = 2 := by omega
    obtain rfl : '3' = c := Option.some.inj hc
    decide
  · have hbounds := digit_bounds s h (k := 48) rfl (by decide)
    obtain rfl : d = 19 := by omega
    obtain rfl : 'L' = c := Option.some.inj hc
    decide
  · have hbounds := digit_bounds s h (k := 50) rfl (by decide)
    obtain rfl : d = 20 := by omega
    obtain rfl : 'M' = c := Option.some.inj hc
    decide
  · have hbounds := digit_bounds s h (k := 58) rfl (by decide)
    obtain rfl : d = 23 := by omega
    obtain rfl : 'Q' = c := Option.some.inj hc
    decide
  · have hbounds := digit_bounds s h (k := 111) rfl (by decide)
    obtain rfl | rfl : d = 44 ∨ d = 45 := by omega
    · obtain rfl : 'm' = c := Option.some.inj hc
      decide
    · obtain rfl : 'n' = c := Option.some.inj hc
      decide
  · have hbounds := digit_bounds s h (k := 196) rfl (by decide)
    obtain rfl : d = 1 := by omega
    obtain rfl : '2' = c := Option.some.inj hc
    decide

variable {codec net s}

theorem forall_mem_of_all {α : Type} {l : List α} {p : α → Prop} [DecidablePred p]
    (h : (l.all fun x => decide (p x)) = true) : ∀ x ∈ l, p x := by
  intro x hx
  exact of_decide_eq_true (List.all_eq_true.mp h x hx)

theorem forall_firstChars_of_all {l : List UInt8} {p : UInt8 → Char → Prop}
    [∀ v c, Decidable (p v c)]
    (h : (l.all fun v => (firstChars v).all fun c => decide (p v c)) = true) :
    ∀ v ∈ l, ∀ c ∈ firstChars v, p v c := by
  intro v hv
  exact forall_mem_of_all (List.all_eq_true.mp h v hv)

/-- Whatever a network accepts by its version begins with a character of the version. -/
theorem head_mem_firstChars (hc : codec.Standard) {version : UInt8} {hash160 : List UInt8}
    (h : codec.Base58Address s version hash160) (hv : version ∈ net.versions) :
    ∃ c cs, s.toList = c :: cs ∧ c ∈ firstChars version := by
  have hall : ∀ net : UtxoNetwork, ∀ v ∈ net.versions, v = 0 ∨
      v = 0x05 ∨ v = 0x30 ∨ v = 0x32 ∨ v = 0x3a ∨ v = 0x6f ∨ v = 0xc4 := by
    intro net
    cases net <;> exact forall_mem_of_all (by decide)
  have hdecode := h.decoded
  rw [hc.base58, List.cons_append] at hdecode
  have hlen : (hash160 ++ codec.checksum (version :: hash160)).length = 24 := by
    rw [List.length_append, h.length, h.checksum]
  rcases Base58.starts_of_decode hdecode with ⟨rfl, hone⟩ | ⟨c, cs, d, n, hstarts⟩
  · obtain ⟨cs, hcs⟩ := List.head?_eq_some_iff.mp hone
    exact ⟨'1', cs, hcs, by decide⟩
  · rw [hlen] at hstarts
    exact ⟨c, cs, hstarts.text,
      char_of_starts s hstarts ((hall net version hv).resolve_left hstarts.nonzero)⟩

theorem looksSegwit_iff : net.looksSegwit s = true ↔
    net.segwitHrp.toList ++ ['1'] <+: (toLowercase s).toList := by
  unfold looksSegwit
  constructor
  · intro h
    split at h
    · rename_i rest hrest
      obtain ⟨p, heq, hp⟩ := List.dropPrefix?_eq_some_iff.mp hrest
      obtain ⟨rest', rfl⟩ := List.head?_eq_some_iff.mp (of_decide_eq_true h)
      rw [heq, eq_of_beq hp]
      exact ⟨rest', by simp⟩
    · cases h
  · rintro ⟨rest, hrest⟩
    have hdrop : (toLowercase s).toList.dropPrefix? net.segwitHrp.toList = some ('1' :: rest) :=
      List.dropPrefix?_eq_some_iff.mpr ⟨_, by rw [← hrest]; simp, beq_self_eq_true _⟩
    rw [hdrop]
    rfl

theorem looksSegwit_of_segwit (hc : codec.Standard) {script : List UInt8}
    (h : net.SegwitAddress codec s script) : net.looksSegwit s = true := by
  obtain ⟨hrp, version, program, hdecode, hhrp, -⟩ := h
  obtain ⟨data, htext⟩ := hc.segwit hdecode
  refine looksSegwit_iff.mpr ⟨data.map Char.toLower, ?_⟩
  have hlower : hrp.toList.map Char.toLower = net.segwitHrp.toList := by
    rw [← hhrp, toLowercase, String.toList_ofList]
  rw [toLowercase, String.toList_ofList, htext, List.map_append, List.map_cons, hlower]
  simp

theorem head_of_looksSegwit (h : net.looksSegwit s = true) {c : Char} {cs : List Char}
    (htext : s.toList = c :: cs) : some c.toLower = net.segwitHrp.toList.head? := by
  obtain ⟨rest, hrest⟩ := looksSegwit_iff.mp h
  rw [toLowercase, String.toList_ofList, htext, List.map_cons] at hrest
  have hhead := congrArg List.head? hrest
  rw [List.head?_cons] at hhead
  rw [← hhead]
  cases net <;> rfl

theorem firstChars_table (net : UtxoNetwork) : ∀ v ∈ net.versions, ∀ c ∈ firstChars v,
    some c.toLower = net.segwitHrp.toList.head? → net = .litecoinMainnet ∧ v = 0x30 := by
  cases net <;> exact forall_firstChars_of_all (by decide)

theorem apart_table (net net' : UtxoNetwork) : SameCoin net net' →
    net.segwitHrp ≠ net'.segwitHrp ∧ (∀ v ∈ net.versions, v ∉ net'.versions) ∧
      ∀ v ∈ net'.versions, ∀ c ∈ firstChars v, some c.toLower ≠ net.segwitHrp.toList.head? := by
  intro hcoin
  cases net <;> cases net' <;> first
    | exact hcoin.elim
    | exact ⟨by decide, forall_mem_of_all (by decide), forall_firstChars_of_all (by decide)⟩

theorem SameCoin.symm {net net' : UtxoNetwork} (h : SameCoin net net') : SameCoin net' net := by
  cases net <;> cases net' <;> exact h

/-! ### What is accepted -/

theorem mem_versions_of_legacy {script : List UInt8} (h : net.LegacyAddress codec s script) :
    ∃ version hash160, codec.Base58Address s version hash160 ∧ version ∈ net.versions := by
  obtain ⟨version, hash160, haddress, ⟨hversion, -⟩ | ⟨hversion, -⟩⟩ := h
  · exact ⟨version, hash160, haddress, hversion ▸ List.mem_cons_self⟩
  · exact ⟨version, hash160, haddress, List.mem_cons_of_mem _ hversion⟩

theorem base58ToScript_eq_ok_iff_legacy {script : List UInt8} :
    net.base58ToScript codec s = .ok script ↔ net.LegacyAddress codec s script := by
  have hdistinct : ∀ net : UtxoNetwork, net.p2pkhVersion ∉ net.p2shVersions := by
    intro net
    cases net <;> decide
  rw [base58ToScript_ok_iff]
  refine exists_congr fun version => exists_congr fun hash160 => and_congr_right fun _ => ?_
  refine or_congr_right ⟨fun h => h.2, fun h => ⟨?_, h⟩⟩
  rintro rfl
  exact hdistinct net h.1

theorem address_of_ok {script : List UInt8} (h : net.addressToScript codec s = .ok script) :
    net.Address codec s script := by
  unfold addressToScript at h
  split_ifs at h
  · exact .inl (segwitToScript_ok_iff.mp h)
  · exact .inr (base58ToScript_eq_ok_iff_legacy.mp h)

/-- A text is accepted on one network of a coin only. -/
theorem accepted_by_one (hc : codec.Standard) {net' : UtxoNetwork} (hcoin : SameCoin net net')
    {script script' : List UInt8} (h : net.Address codec s script) :
    ¬ net'.Address codec s script' := by
  have hmixed {net net' : UtxoNetwork} {script script' : List UInt8} (hcoin : SameCoin net net')
      (h : net.SegwitAddress codec s script) : ¬ net'.LegacyAddress codec s script' := by
    intro h'
    obtain ⟨version, hash160, haddress, hversion⟩ := mem_versions_of_legacy h'
    obtain ⟨c, cs, htext, hfirst⟩ := head_mem_firstChars hc haddress hversion
    exact (apart_table net net' hcoin).2.2 version hversion c hfirst
      (head_of_looksSegwit (looksSegwit_of_segwit hc h) htext)
  rcases h with h | h
  · rintro (h' | h')
    · obtain ⟨hrp, version, program, hdecode, hhrp, -⟩ := h
      obtain ⟨hrp', version', program', hdecode', hhrp', -⟩ := h'
      obtain ⟨rfl, -⟩ := Prod.mk.inj (Option.some.inj (hdecode.symm.trans hdecode'))
      exact (apart_table net net' hcoin).1 (hhrp.symm.trans hhrp')
    · exact hmixed hcoin h h'
  · rintro (h' | h')
    · exact hmixed hcoin.symm h' h
    · obtain ⟨version, hash160, haddress, hversion⟩ := mem_versions_of_legacy h
      obtain ⟨version', hash160', haddress', hversion'⟩ := mem_versions_of_legacy h'
      obtain ⟨rfl, -⟩ := List.cons.inj
        (Option.some.inj (haddress.decoded.symm.trans haddress'.decoded))
      exact (apart_table net net' hcoin).2.1 version hversion hversion'

end UtxoNetwork

open UtxoNetwork

/-- **The client follows the grammar** for all texts but those Litecoin addresses that begin like a
segwit one. -/
theorem parses_exactly_iff {codec : AddressCodec} (hc : codec.Standard) (net : UtxoNetwork)
    (s : String) : net.ParsesExactly codec s ↔ ¬ net.Diverted codec s := by
  constructor
  · rintro h ⟨rfl, ⟨hash160, haddress⟩, htext⟩
    have hlooks : litecoinMainnet.looksSegwit s = true := looksSegwit_iff.mpr htext
    have hlegacy := h.legacy (p2pkhScript hash160) ⟨0x30, hash160, haddress, .inl ⟨rfl, rfl⟩⟩
    exact Bool.false_ne_true (hlegacy.symm.trans hlooks)
  · intro hdiverted
    have hlegacy (script : List UInt8) (h : net.LegacyAddress codec s script) :
        net.looksSegwit s = false := by
      by_contra hlooks
      rw [Bool.not_eq_false] at hlooks
      obtain ⟨version, hash160, haddress, hversion⟩ := mem_versions_of_legacy h
      obtain ⟨c, cs, htext, hfirst⟩ := head_mem_firstChars hc haddress hversion
      obtain ⟨rfl, rfl⟩ := firstChars_table net version hversion c hfirst
        (head_of_looksSegwit hlooks htext)
      exact hdiverted ⟨rfl, ⟨hash160, haddress⟩, looksSegwit_iff.mp hlooks⟩
    refine ⟨fun script => ⟨address_of_ok, ?_⟩, hlegacy, fun _ => looksSegwit_of_segwit hc,
      fun net' script script' hcoin h h' =>
        accepted_by_one hc hcoin (address_of_ok h) (address_of_ok h')⟩
    rintro (h | h)
    · rw [addressToScript, if_pos (looksSegwit_of_segwit hc h)]
      exact segwitToScript_ok_iff.mpr h
    · rw [addressToScript, if_neg (by simp [hlegacy script h])]
      exact base58ToScript_eq_ok_iff_legacy.mpr h

/-! ### A Litecoin address in capitals -/

namespace Base58Samples

/-- An address that pays a key on Bitcoin. -/
def bitcoinText : String := "1A1zP1eP5QGefi2DMPTfTL5SLmv7DivfNa"

/-- The hash of that key. -/
def bitcoinHash : List UInt8 :=
  [98, 233, 7, 177, 92, 191, 39, 213, 66, 83, 153, 235, 246, 240, 251, 80, 235, 184, 143, 24]

/-- The SHA-256 of its payload. -/
def bitcoinDigest : List UInt8 :=
  [155, 144, 241, 109, 231, 240, 229, 128, 192, 119, 53, 218, 193, 95, 254, 35, 226, 248, 248, 225,
    3, 145, 78, 80, 154, 169, 25, 19, 255, 219, 159, 182]

/-- An address that pays a key on Litecoin. -/
def litecoinText : String := "LTC1W111111111111111111111112y9hxW"

/-- The hash of that key. -/
def litecoinHash : List UInt8 :=
  [87, 98, 224, 134, 253, 254, 239, 170, 172, 124, 201, 125, 215, 148, 224, 9, 200, 69, 248, 250]

/-- The SHA-256 of its payload. -/
def litecoinDigest : List UInt8 :=
  [99, 244, 81, 141, 102, 163, 41, 248, 208, 7, 91, 197, 6, 68, 13, 195, 95, 135, 47, 53, 177, 148,
    149, 204, 77, 12, 47, 252, 18, 13, 17, 161]

/-- Base58 as it is, and SHA-256 at the inputs that occur. -/
def codec : AddressCodec where
  base58Encode b := Lib.hexEncode b
  base58Decode := Lib.Base58.decode
  segwitEncode hrp version program := hrp ++ Lib.hexEncode (version :: program)
  segwitDecode _ := none
  sha256 b :=
    if b = 0x00 :: bitcoinHash then bitcoinDigest
    else if b = bitcoinDigest then
      [194, 155, 125, 147, 126, 48, 73, 226, 121, 57, 30, 98, 253, 240, 12, 18, 222, 247, 68, 64, 19,
        221, 246, 33, 88, 8, 209, 14, 159, 45, 89, 150]
    else if b = 0x30 :: litecoinHash then litecoinDigest
    else if b = litecoinDigest then
      [236, 254, 252, 147, 19, 160, 96, 103, 156, 124, 176, 199, 171, 64, 33, 4, 237, 37, 210, 158,
        105, 221, 44, 197, 180, 111, 179, 4, 14, 186, 92, 180]
    else []

theorem standard : codec.Standard := ⟨rfl, nofun⟩

theorem bitcoin_address : codec.Base58Address bitcoinText 0x00 bitcoinHash :=
  ⟨by decide +kernel, rfl, by decide⟩

theorem litecoin_address : codec.Base58Address litecoinText 0x30 litecoinHash :=
  ⟨by decide +kernel, rfl, by decide⟩

end Base58Samples

open Base58Samples

theorem parses_exactly_bitcoin :
    bitcoinMainnet.addressToScript codec bitcoinText = .ok (p2pkhScript bitcoinHash) := by
  have hexact := (parses_exactly_iff standard bitcoinMainnet bitcoinText).mpr
    fun hdiverted => nomatch hdiverted.network
  exact (hexact.exact _).mpr (.inr ⟨0x00, bitcoinHash, bitcoin_address, .inl ⟨rfl, rfl⟩⟩)

theorem diverted_litecoin :
    ¬ ∀ (codec : AddressCodec), codec.Standard → ∀ (net : UtxoNetwork) (s : String),
      net.ParsesExactly codec s := by
  intro hclaim
  have hlooks : litecoinMainnet.looksSegwit litecoinText = true := by decide
  have hlegacy := (hclaim codec standard litecoinMainnet litecoinText).legacy
    (p2pkhScript litecoinHash) ⟨0x30, litecoinHash, litecoin_address, .inl ⟨rfl, rfl⟩⟩
  exact Bool.false_ne_true (hlegacy.symm.trans hlooks)

end SmirkBackend
