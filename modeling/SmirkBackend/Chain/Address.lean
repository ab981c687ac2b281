import SmirkBackend.Chain.Electrum
import SmirkBackend.Lib.Hex
import Mathlib.Data.List.Basic

/-!
# Addresses and scripts

An Electrum server is asked about scripts, users and transactions name addresses.  The client
decodes an address to the script it pays, and refuses one of another network.  Base58, bech32 and
SHA-256 are parameters; which of their answers is accepted, and the script that is built, are
modelled.

`UtxoNetwork.segwitToScript_ok_iff` and `UtxoNetwork.base58ToScript_ok_iff` say which addresses are
accepted and which scripts they pay.
-/

namespace SmirkBackend

/-- The coin and network a client is bound to. -/
inductive UtxoNetwork
  | bitcoinMainnet
  | bitcoinTestnet
  | litecoinMainnet
  | litecoinTestnet
  deriving DecidableEq

/-- The text encodings of addresses and the hash under their checksum. -/
structure AddressCodec where
  /-- Base58 text. -/
  base58Encode : List UInt8 → String
  /-- `bs58::decode`. -/
  base58Decode : String → Option (List UInt8)
  /-- Lower-case bech32 or bech32m text of a prefix, a witness version and a program. -/
  segwitEncode : String → UInt8 → List UInt8 → String
  /-- `bech32::segwit::decode`; the prefix is given as it is written. -/
  segwitDecode : String → Option (String × UInt8 × List UInt8)
  /-- SHA-256. -/
  sha256 : List UInt8 → List UInt8

/-- A witness version with a program of a length it allows. -/
structure ValidProgram (version : UInt8) (program : List UInt8) : Prop where
  /-- Sixteen is the last version. -/
  le_sixteen : version ≤ 16
  /-- No program is shorter. -/
  le_length : 2 ≤ program.length
  /-- None is longer. -/
  length_le : program.length ≤ 40
  /-- A key hash or a script hash. -/
  v0 : version = 0 → program.length = 20 ∨ program.length = 32

/-- What the documentation of the encodings promises. -/
structure AddressCodec.Lawful (codec : AddressCodec) : Prop where
  /-- Distinct bytes have distinct texts. -/
  base58_injective : ∀ {b b'}, codec.base58Encode b = codec.base58Encode b' → b = b'
  /-- Only the text of the bytes decodes to them. -/
  base58_decode : ∀ {a b}, codec.base58Decode a = some b → a = codec.base58Encode b
  /-- What decodes is valid, and a text up to its letter case. -/
  segwit_decode : ∀ {a hrp version program}, codec.segwitDecode a = some (hrp, version, program) →
    ValidProgram version program ∧
      toLowercase a = codec.segwitEncode (toLowercase hrp) version program

/-! ### Scripts -/

/-- Pay to a public key hash: `OP_DUP OP_HASH160 <20> OP_EQUALVERIFY OP_CHECKSIG`. -/
def p2pkhScript (hash160 : List UInt8) : List UInt8 :=
  [0x76, 0xa9, 0x14] ++ hash160 ++ [0x88, 0xac]

/-- Pay to a script hash: `OP_HASH160 <20> OP_EQUAL`. -/
def p2shScript (hash160 : List UInt8) : List UInt8 :=
  [0xa9, 0x14] ++ hash160 ++ [0x87]

/-- A witness program: `OP_n <push> <program>`. -/
def witnessScript (version : UInt8) (program : List UInt8) : List UInt8 :=
  (if version = 0 then 0x00 else 0x50 + version) :: .ofNat program.length :: program

namespace AddressCodec

variable (codec : AddressCodec)

/-- The checksum of a payload. -/
def checksum (payload : List UInt8) : List UInt8 :=
  (codec.sha256 (codec.sha256 payload)).take 4

/-- The base58check text of a version byte and a hash. -/
def base58check (version : UInt8) (hash160 : List UInt8) : String :=
  codec.base58Encode (version :: hash160 ++ codec.checksum (version :: hash160))

/-- The text decodes to 25 bytes: a version byte, a hash and their checksum. -/
structure Base58Address (address : String) (version : UInt8) (hash160 : List UInt8) : Prop where
  /-- The bytes. -/
  decoded : codec.base58Decode address = some
    (version :: hash160 ++ codec.checksum (version :: hash160))
  /-- The hash. -/
  length : hash160.length = 20
  /-- The checksum. -/
  checksum : (codec.checksum (version :: hash160)).length = 4

end AddressCodec

/-! ### Decoding -/

namespace UtxoNetwork

/-- `segwit_hrp`: prefix of native-segwit addresses. -/
def segwitHrp : UtxoNetwork → String
  | bitcoinMainnet => "bc"
  | bitcoinTestnet => "tb"
  | litecoinMainnet => "ltc"
  | litecoinTestnet => "tltc"

/-- `p2pkh_version`: version byte of P2PKH addresses. -/
def p2pkhVersion : UtxoNetwork → UInt8
  | bitcoinMainnet => 0x00
  | bitcoinTestnet => 0x6f
  | litecoinMainnet => 0x30
  | litecoinTestnet => 0x6f

/-- `p2sh_versions`: version bytes of P2SH addresses.  Litecoin has its own one and, second, the
legacy one it shares with Bitcoin. -/
def p2shVersions : UtxoNetwork → List UInt8
  | bitcoinMainnet => [0x05]
  | bitcoinTestnet => [0xc4]
  | litecoinMainnet => [0x32, 0x05]
  | litecoinTestnet => [0x3a, 0xc4]

/-- Whether an address is meant as native segwit: the network's prefix and the separator, in any
letter case. -/
def looksSegwit (net : UtxoNetwork) (address : String) : Bool :=
  match (toLowercase address).toList.dropPrefix? net.segwitHrp.toList with
  | some rest => rest.head? = some '1'
  | none => false

variable (codec : AddressCodec) (net : UtxoNetwork)

/-- `segwit_to_script`. -/
def segwitToScript (address : String) : Except AppError (List UInt8) :=
  match codec.segwitDecode address with
  | none => .error (.validationError "invalid segwit address")
  | some (decodedHrp, version, program) =>
    if toLowercase decodedHrp ≠ net.segwitHrp then
      .error (.validationError "address is for a different network")
    else .ok (witnessScript version program)

/-- `base58_to_script`. -/
def base58ToScript (address : String) : Except AppError (List UInt8) :=
  match codec.base58Decode address with
  | none => .error (.validationError "invalid base58 address")
  | some decoded =>
    -- version(1) + hash160(20) + checksum(4)
    if decoded.length ≠ 25 then .error (.validationError "invalid address length")
    else
      let payload := decoded.take 21
      if codec.checksum payload ≠ decoded.drop 21 then
        .error (.validationError "invalid address checksum")
      else
        let version := payload.headD 0
        let hash160 := payload.drop 1
        if version = net.p2pkhVersion then .ok (p2pkhScript hash160)
        else if version ∈ net.p2shVersions then .ok (p2shScript hash160)
        else .error (.validationError "address is for a different network")

/-- `address_to_script`: the script an address pays, on the configured network. -/
def addressToScript (address : String) : Except AppError (List UInt8) :=
  if net.looksSegwit address then net.segwitToScript codec address
  else net.base58ToScript codec address

/-- How the servers name a script: its SHA-256, reversed, in hexadecimal. -/
def scripthash (script : List UInt8) : String := Lib.hexEncode (codec.sha256 script).reverse

/-- `address_to_scripthash`. -/
def addressToScripthash (address : String) : Except AppError String := do
  let script ← net.addressToScript codec address
  pure (scripthash codec script)

/-! ### What is accepted -/

variable {codec net}

/-- An accepted segwit address has the prefix of the network. -/
theorem segwitToScript_ok_iff {address : String} {script : List UInt8} :
    net.segwitToScript codec address = .ok script ↔
      ∃ hrp version program, codec.segwitDecode address = some (hrp, version, program) ∧
        toLowercase hrp = net.segwitHrp ∧ script = witnessScript version program := by
  constructor
  · intro h
    unfold segwitToScript at h
    split at h
    · cases h
    · rename_i hrp version program hdecode
      by_cases hhrp : toLowercase hrp = net.segwitHrp
      · rw [if_neg (by simpa using hhrp)] at h
        exact ⟨hrp, version, program, hdecode, hhrp, (Except.ok.inj h).symm⟩
      · rw [if_pos hhrp] at h
        cases h
  · rintro ⟨hrp, version, program, hdecode, hhrp, rfl⟩
    simp only [segwitToScript, hdecode, hhrp, ne_eq, not_true, if_false]

/-- An accepted base58 address decodes to a version byte of the network and a hash with their
checksum, and the version says what the script is. -/
theorem base58ToScript_ok_iff {address : String} {script : List UInt8} :
    net.base58ToScript codec address = .ok script ↔
      ∃ version hash160, codec.Base58Address address version hash160 ∧
        (version = net.p2pkhVersion ∧ script = p2pkhScript hash160 ∨
          version ≠ net.p2pkhVersion ∧ version ∈ net.p2shVersions ∧
            script = p2shScript hash160) := by
  constructor
  · intro h
    unfold base58ToScript at h
    split at h
    · cases h
    · rename_i decoded hdecode
      simp only at h
      split at h
      · cases h
      · rename_i hlength
        split at h
        · cases h
        · rename_i hchecksum
          replace hlength := Decidable.not_not.mp hlength
          replace hchecksum := Decidable.not_not.mp hchecksum
          -- the payload is not empty
          obtain ⟨version, hash160, hpayload⟩ : ∃ version hash160,
              decoded.take 21 = version :: hash160 := by
            cases hcases : decoded.take 21 with
            | nil =>
              have hlen := congrArg List.length hcases
              rw [List.length_take, hlength] at hlen
              cases hlen
            | cons version hash160 => exact ⟨version, hash160, rfl⟩
          have hlen := congrArg List.length hpayload
          rw [List.length_take, hlength, List.length_cons] at hlen
          have hdecoded : decoded = version :: hash160 ++ codec.checksum (version :: hash160) := by
            rw [← hpayload, hchecksum, List.take_append_drop]
          have hcheck : (codec.checksum (version :: hash160)).length = 4 := by
            rw [← hpayload, hchecksum, List.length_drop, hlength]
          rw [hpayload] at h
          simp only [List.headD_cons, List.drop_succ_cons, List.drop_zero] at h
          refine ⟨version, hash160, ⟨hdecoded ▸ hdecode, by omega, hcheck⟩, ?_⟩
          by_cases hp2pkh : version = net.p2pkhVersion
          · rw [if_pos hp2pkh] at h
            exact .inl ⟨hp2pkh, (Except.ok.inj h).symm⟩
          · rw [if_neg hp2pkh] at h
            by_cases hp2sh : version ∈ net.p2shVersions
            · rw [if_pos hp2sh] at h
              exact .inr ⟨hp2pkh, hp2sh, (Except.ok.inj h).symm⟩
            · rw [if_neg hp2sh] at h
              cases h
  · rintro ⟨version, hash160, haddress, hscript⟩
    have hlen : (version :: hash160).length = 21 := congrArg (· + 1) haddress.length
    have htake : (version :: hash160 ++ codec.checksum (version :: hash160)).take 21 =
        version :: hash160 := List.take_left' hlen
    have hdrop : (version :: hash160 ++ codec.checksum (version :: hash160)).drop 21 =
        codec.checksum (version :: hash160) := List.drop_left' hlen
    have hlength : (version :: hash160 ++ codec.checksum (version :: hash160)).length = 25 := by
      rw [List.length_append, hlen, haddress.checksum]
    simp only [base58ToScript, haddress.decoded, hlength, htake, hdrop, ne_eq, not_true, if_false,
      List.headD_cons, List.drop_succ_cons, List.drop_zero]
    rcases hscript with ⟨hp2pkh, rfl⟩ | ⟨hp2pkh, hp2sh, rfl⟩
    · rw [if_pos hp2pkh]
    · rw [if_neg hp2pkh, if_pos hp2sh]

/-- An accepted base58 address is the base58check text of a version byte of the network and a hash,
and the version says what the script is. -/
theorem base58_of_ok (hc : codec.Lawful) {address : String} {script : List UInt8}
    (h : net.base58ToScript codec address = .ok script) :
    ∃ version hash160, hash160.length = 20 ∧ address = codec.base58check version hash160 ∧
      codec.base58Decode address = some
        (version :: hash160 ++ codec.checksum (version :: hash160)) ∧
      (version = net.p2pkhVersion ∧ script = p2pkhScript hash160 ∨
        version ≠ net.p2pkhVersion ∧ version ∈ net.p2shVersions ∧
          script = p2shScript hash160) := by
  obtain ⟨version, hash160, haddress, hscript⟩ := base58ToScript_ok_iff.mp h
  exact ⟨version, hash160, haddress.length, hc.base58_decode haddress.decoded, haddress.decoded,
    hscript⟩

end UtxoNetwork

end SmirkBackend
