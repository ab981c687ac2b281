import SmirkBackend.Auth.Takeover
import SmirkBackend.Auth.Website
import SmirkBackend.Lib.Hex

/-!
# Spellings of a key

A secp256k1 key is sent as the hexadecimal text of one of its two encodings.  The check of a
signature decodes the text: every spelling of a key verifies the same signatures.  The identity of
a wallet, and the look-up of a key on file, use the text itself: they agree on two spellings only
if these are the same text.

With the curve as a parameter, `verifyBitcoinSignature_congr` proves the former and
`one_identity_iff` the latter; `spellings_split` registers two wallets with one key.
-/

namespace SmirkBackend

open Lib (Prog hexDecode)

/-! ### The check of a signature -/

/-- The curve and the encodings, which are library code. -/
structure Secp256k1 (Point Sig : Type) where
  /-- `VerifyingKey::from_sec1_bytes`. -/
  fromSec1 : List UInt8 → Option Point
  /-- `Signature::from_slice`. -/
  fromSlice : List UInt8 → Option Sig
  /-- `verify_prehash`: key, hash, signature. -/
  verifyPrehash : Point → List UInt8 → Sig → Bool
  /-- `base64_decode`. -/
  base64Decode : String → Option (List UInt8)
  /-- SHA-256. -/
  sha256 : List UInt8 → List UInt8

/-- The bytes of a number, the lowest first. -/
def leBytes (n width : ℕ) : List UInt8 := (List.range width).map fun i => UInt8.ofNat (n / 256 ^ i)

theorem length_leBytes (n width : ℕ) : (leBytes n width).length = width := by simp [leBytes]

theorem leBytes_inj {m n width : ℕ} (hm : m < 256 ^ width) (hn : n < 256 ^ width)
    (h : leBytes m width = leBytes n width) : m = n := by
  refine Lib.eq_of_digits hm hn fun i hi => ?_
  have hbyte := List.map_inj_left.mp h i (List.mem_range.mpr hi)
  simpa using congrArg UInt8.toNat hbyte

/-- `encode_varint`. -/
def encodeVarint (n : ℕ) : List UInt8 :=
  if n < 253 then [UInt8.ofNat n]
  else if n ≤ 0xFFFF then 0xfd :: leBytes n 2
  else if n ≤ 0xFFFFFFFF then 0xfe :: leBytes n 4
  else 0xff :: leBytes n 8

section Check

variable {Point Sig : Type} (lib : Secp256k1 Point Sig)

/-- `bitcoin_message_hash`. -/
def bitcoinMessageHash (message : String) : List UInt8 :=
  lib.sha256 (lib.sha256 ("\x18Bitcoin Signed Message:\n".toUTF8.data.toList ++
    encodeVarint message.utf8ByteSize ++ message.toUTF8.data.toList))

/-- `verify_bitcoin_signature`. -/
def verifyBitcoinSignature (message signature pubkeyHex : String) : Except AppError Unit :=
  match hexDecode pubkeyHex with
  | none => .error (.validationError "Invalid public key hex")
  | some bytes =>
    match lib.fromSec1 bytes with
    | none => .error (.validationError "Invalid secp256k1 public key")
    | some key =>
      match lib.base64Decode signature with
      | none => .error (.validationError "Invalid signature encoding (expected base64)")
      | some decoded =>
        if decoded.length ≠ 65 then
          .error (.validationError "BIP-137 signature must be 65 bytes")
        else
          match lib.fromSlice (decoded.drop 1) with
          | none => .error (.validationError "Invalid ECDSA signature")
          | some sig =>
            if lib.verifyPrehash key (bitcoinMessageHash lib message) sig then .ok ()
            else .error (.authError "signature verification failed")

/-- The key that a text spells. -/
def keyPoint (pubkeyHex : String) : Option Point := (hexDecode pubkeyHex).bind lib.fromSec1

/-- **Spellings of one key verify the same signatures.** -/
theorem verifyBitcoinSignature_congr {k₁ k₂ : String} {P : Point} (h₁ : keyPoint lib k₁ = some P)
    (h₂ : keyPoint lib k₂ = some P) (message signature : String) :
    verifyBitcoinSignature lib message signature k₁ =
      verifyBitcoinSignature lib message signature k₂ := by
  obtain ⟨bytes₁, hdecode₁, hpoint₁⟩ := Option.bind_eq_some_iff.mp h₁
  obtain ⟨bytes₂, hdecode₂, hpoint₂⟩ := Option.bind_eq_some_iff.mp h₂
  simp only [verifyBitcoinSignature, hdecode₁, hdecode₂, hpoint₁, hpoint₂]

end Check

/-! ### Identities -/

/-- Two texts are one identity: they have the same hash, and are the same keys on file. -/
structure OneIdentity (env : AuthEnv) (k₁ k₂ : String) : Prop where
  /-- `pubkey_hash`. -/
  hash : env.hashPublicKey k₁ = env.hashPublicKey k₂
  /-- The look-up of a key on file. -/
  stored : ∀ (db : Db) asset, db.getUserByAssetPubkey asset k₁ = db.getUserByAssetPubkey asset k₂

/-- A wallet can sign in with this text of its BTC key. -/
def CanSignIn (env : WebsiteEnv) (a : WebsiteAnswers) (signature k : String) (w : World) : Prop :=
  ∃ resp w', (websiteVerify env a ⟨"btc", signature, k⟩).Outcome w (.ok resp) w'

/-- A wallet that can sign in with the first text can sign in with the second. The legacy instance
knows neither. -/
def FindsItsOwn (env : WebsiteEnv) (k₁ k₂ : String) : Prop :=
  ∀ a signature w, (∀ asset key, a.findByProvenKey asset key = .ok none) →
    CanSignIn env a signature k₁ w → CanSignIn env a signature k₂ w

/-- One user, with this BTC key on file. -/
def holderOf (k : String) : World where
  db := { Db.empty with
    users := .single ⟨1, none, none, none, none, none, none, none, none⟩
    userKeys := ⟨[⟨1, .btc, k, none, "primary"⟩], by simp⟩ }
  now := 0

theorem getUserByAssetPubkey_holderOf (k k' : String) :
    (holderOf k).db.getUserByAssetPubkey .btc k' =
      if k = k' then some ⟨1, none, none, none, none, none, none, none, none⟩ else none := by
  by_cases hk : k = k'
  · subst hk
    simp [Db.getUserByAssetPubkey, holderOf, Lib.Table.get?, Lib.key]
  · simp [Db.getUserByAssetPubkey, holderOf, hk]

theorem OneIdentity.text_eq {env : AuthEnv} {k₁ k₂ : String} (h : OneIdentity env k₁ k₂) :
    k₁ = k₂ := by
  have hsame := h.stored (holderOf k₁).db .btc
  rw [getUserByAssetPubkey_holderOf, getUserByAssetPubkey_holderOf, if_pos rfl] at hsame
  by_contra hne
  simp [hne] at hsame

/-- The answers to a signed challenge, at the time it was made. -/
def signedChallenge (c : WebChallenge) : WebsiteAnswers where
  auth :=
    { now := 0
      issuedAt := 0
      userId := 2
      sessionId := 3
      eventId := 4
      provider := fun _ => .error (.internal "payment provider not configured")
      createTokenPair := fun _ _ _ => .ok ⟨"access", "refresh", 86400⟩ }
  clock := c.expiresAt
  challenge := some c
  findByProvenKey _ _ := .ok none

theorem parseAsset_btc : parseAsset "btc" = .ok .btc := by decide

theorem canSignIn_holderOf {env : WebsiteEnv} {c : WebChallenge} {signature k : String}
    (hsigned : env.auth.verifyBitcoinSignature c.message signature k = .ok ()) :
    CanSignIn env (signedChallenge c) signature k (holderOf k) := by
  have hfound := (getUserByAssetPubkey_holderOf k k).trans (if_pos rfl)
  have hvalid : requireWebChallenge (signedChallenge c) = .ok c := by
    simp [requireWebChallenge, signedChallenge, WebChallenge.isExpired]
  have hverify : verifyAssetSignature env .btc c.message signature k = .ok () := hsigned
  have hok : ((websiteVerify env (signedChallenge c) ⟨"btc", signature, k⟩).run
      (holderOf k)).1.isOk = true := by
    simp only [websiteVerify, hvalid, parseAsset_btc, hverify, Prog.ofExcept_ok, Prog.ret_bind,
      resolveProvenKey, resolveRegistered, select, Prog.read, Prog.act_bind, Prog.run, hfound]
    rfl
  have hout := Prog.outcome_run (websiteVerify env (signedChallenge c) ⟨"btc", signature, k⟩)
    (holderOf k)
  cases hr : ((websiteVerify env (signedChallenge c) ⟨"btc", signature, k⟩).run (holderOf k)).1 with
  | ok resp => exact ⟨resp, _, hr ▸ hout⟩
  | error e => simp [hr, Except.isOk, Except.toBool] at hok

/-- Nobody is found by another text. -/
theorem resolveProvenKey_holderOf {env : WebsiteEnv} {c : WebChallenge} {k k' : String}
    (hne : k ≠ k') {w : World} {found : Option UserRow}
    (h : (resolveProvenKey env (signedChallenge c) .btc k').Outcome (holderOf k) (.ok found) w) :
    found = none := by
  have hnone := (getUserByAssetPubkey_holderOf k k').trans (if_neg hne)
  have hidentity (hash : String) :
      (holderOf k).db.getUserByPubkeyHash env.auth.pepper hash = none := rfl
  rcases Prog.outcome_bind h with ⟨e, -, he⟩ | ⟨registered, w₁, hregistered, hrest⟩
  · cases he
  rcases Prog.outcome_read_bind hregistered with ⟨he, -⟩ | hregistered
  · cases he
  simp only [hnone] at hregistered
  rw [if_pos trivial] at hregistered
  obtain ⟨hread | he, rfl⟩ := Prog.outcome_read hregistered
  swap
  · cases he
  obtain rfl := Except.ok.inj hread
  simp only [hidentity] at hrest
  rcases Prog.outcome_ofExcept_bind hrest with ⟨e, he, -⟩ | ⟨identity, hidentity, hrest⟩
  · cases he
  obtain rfl := Except.ok.inj hidentity
  cases hrest
  rfl

theorem not_canSignIn_holderOf {env : WebsiteEnv} {c : WebChallenge} {signature k k' : String}
    (hne : k ≠ k') : ¬ CanSignIn env (signedChallenge c) signature k' (holderOf k) := by
  rintro ⟨resp, w', h⟩
  rcases Prog.outcome_ofExcept_bind h with ⟨e, he, -⟩ | ⟨challenge, -, h⟩
  · cases he
  rcases Prog.outcome_ofExcept_bind h with ⟨e, he, -⟩ | ⟨asset, hasset, h⟩
  · cases he
  obtain rfl := Except.ok.inj (parseAsset_btc.symm.trans hasset)
  rcases Prog.outcome_ofExcept_bind h with ⟨e, he, -⟩ | ⟨_, -, h⟩
  · cases he
  rcases Prog.outcome_bind h with ⟨e, -, he⟩ | ⟨found, w₁, hfound, h⟩
  · cases he
  obtain rfl := resolveProvenKey_holderOf hne hfound
  cases h

/-- **One key, one identity: exactly for one text.** Two spellings of a key verify the same
signatures; they are one identity, and a wallet on file under the one can sign in with the other,
exactly if they are the same text. -/
theorem one_identity_iff {Point Sig : Type} (lib : Secp256k1 Point Sig) (env : WebsiteEnv)
    (hlib : env.auth.verifyBitcoinSignature = verifyBitcoinSignature lib) {k₁ k₂ : String} {P : Point}
    (h₁ : keyPoint lib k₁ = some P) (h₂ : keyPoint lib k₂ = some P) {c : WebChallenge}
    {signature : String} (hsigned : verifyBitcoinSignature lib c.message signature k₁ = .ok ()) :
    (∀ message signature, verifyBitcoinSignature lib message signature k₁ =
      verifyBitcoinSignature lib message signature k₂) ∧
    (OneIdentity env.auth k₁ k₂ ↔ k₁ = k₂) ∧ (FindsItsOwn env k₁ k₂ ↔ k₁ = k₂) := by
  refine ⟨verifyBitcoinSignature_congr lib h₁ h₂, ⟨OneIdentity.text_eq, ?_⟩, ⟨fun hfinds => ?_, ?_⟩⟩
  · rintro rfl
    exact ⟨rfl, fun _ _ => rfl⟩
  · by_contra hne
    have hown : CanSignIn env (signedChallenge c) signature k₁ (holderOf k₁) :=
      canSignIn_holderOf (by rw [hlib]; exact hsigned)
    exact not_canSignIn_holderOf hne (hfinds _ signature _ (fun _ _ => rfl) hown)
  · rintro rfl a signature w - hcan
    exact hcan

/-! ### Two spellings -/

/-- The point of an encoding, in compressed form. -/
def compress (bytes : List UInt8) : Option (List UInt8) :=
  match bytes with
  | 2 :: x => if x.length = 32 then some bytes else none
  | 3 :: x => if x.length = 32 then some bytes else none
  | 4 :: xy =>
    if xy.length = 64 then some ((if (xy.getLastD 0) % 2 = 0 then 2 else 3) :: xy.take 32) else none
  | _ => none

/-- A curve of which only the encodings are kept: a signature is a key, and verifies under it. -/
def encodedCurve : Secp256k1 (List UInt8) (List UInt8) where
  fromSec1 := compress
  fromSlice bytes := some (bytes.take 33)
  verifyPrehash key _ sig := sig = key
  base64Decode := hexDecode
  sha256 bytes := bytes

/-- The generator of the curve, in lower case. -/
def generatorText : String := "0279be667ef9dcbbac55a06295ce870b07029bfcdb2dce28d959f2815b16f81798"

/-- The generator in upper case. -/
def generatorUpper : String := "0279BE667EF9DCBBAC55A06295CE870B07029BFCDB2DCE28D959F2815B16F81798"

/-- A signature under the generator. -/
def generatorSignature : String :=
  String.ofList ("00".toList ++ generatorText.toList ++ List.replicate 62 '0')

/-- An instance that checks signatures so. -/
def spellingEnv : AuthEnv :=
  { sampleEnv with verifyBitcoinSignature := verifyBitcoinSignature encodedCurve }

/-- Its website sign-in. -/
def spellingWebsite : WebsiteEnv := ⟨spellingEnv, fun _ _ _ => .error unknownWallet, id⟩

/-- A wallet that spells its key so registers. -/
def spelledRequest (key : String) : ExtensionRegisterRequest :=
  { walletRequest key none with signature := generatorSignature }

/-- A database without users. -/
def unregistered : World := ⟨Db.empty, 0⟩

/-- The wallet has registered with the first spelling. -/
def oneWallet : World :=
  ((extensionRegister spellingEnv (sampleAnswers 1) (spelledRequest generatorText)).run unregistered).2

/-- The same instance, which takes every signature. -/
def trustingEnv : AuthEnv := { sampleEnv with verifyBitcoinSignature := fun _ _ _ => .ok () }

theorem extensionRegister_of_signed (a : Answers) {key : String}
    (hsigned : verifyBitcoinSignature encodedCurve (authMessage 990) generatorSignature key = .ok ()) :
    extensionRegister spellingEnv a (spelledRequest key) =
      extensionRegister trustingEnv a (spelledRequest key) := by
  have hverify : spellingEnv.verifyBitcoinSignature (authMessage 990) generatorSignature key =
      trustingEnv.verifyBitcoinSignature (authMessage 990) generatorSignature key := hsigned
  have hkey : btcKey (spelledRequest key).keys = some ⟨"btc", key, none⟩ := by
    have hbtc : eqIgnoreAsciiCase "btc" "btc" = true := by decide
    simp [btcKey, spelledRequest, walletRequest, hbtc]
  have htime : (spelledRequest key).signedTimestamp = 990 := rfl
  have hsignature : (spelledRequest key).signature = generatorSignature := rfl
  simp only [extensionRegister, hkey, htime, hsignature, hverify]
  rfl

/-- The texts name one point, a signature verifies under both, and each registers a user. -/
theorem spellings_hold :
    keyPoint encodedCurve generatorText = keyPoint encodedCurve generatorUpper ∧
    (keyPoint encodedCurve generatorText).isSome = true ∧
    (verifyBitcoinSignature encodedCurve (authMessage 990) generatorSignature
      generatorText).isOk = true ∧
    oneWallet.db.users.rows.length = 1 ∧
    ((extensionRegister spellingEnv (sampleAnswers 2) (spelledRequest generatorUpper)).run
      oneWallet).1.toOption.map AuthResponse.isNew = some true ∧
    ((extensionRegister spellingEnv (sampleAnswers 2) (spelledRequest generatorUpper)).run
      oneWallet).2.db.users.rows.length = 2 := by
  have hpoint : keyPoint encodedCurve generatorText = keyPoint encodedCurve generatorUpper := by
    decide +kernel
  have hsome : (keyPoint encodedCurve generatorText).isSome = true := by decide +kernel
  have hsigned : verifyBitcoinSignature encodedCurve (authMessage 990) generatorSignature
      generatorText = .ok () := by decide +kernel
  obtain ⟨P, hP⟩ := Option.isSome_iff_exists.mp hsome
  have hupper : verifyBitcoinSignature encodedCurve (authMessage 990) generatorSignature
      generatorUpper = .ok () :=
    verifyBitcoinSignature_congr encodedCurve hP (hpoint ▸ hP) _ _ ▸ hsigned
  have hwallet : oneWallet = ((extensionRegister trustingEnv (sampleAnswers 1)
      (spelledRequest generatorText)).run unregistered).2 := by
    rw [oneWallet, extensionRegister_of_signed _ hsigned]
  rw [hwallet, extensionRegister_of_signed _ hupper, hsigned]
  refine ⟨hpoint, hsome, rfl, ?_, ?_, ?_⟩
  · decide +kernel
  · decide +kernel
  · decide +kernel

/-- **Two spellings of one key are two wallets**: both are accepted, the second registers a new user,
and the instance does not take them for one identity. -/
theorem spellings_split :
    keyPoint encodedCurve generatorText = keyPoint encodedCurve generatorUpper ∧
    (keyPoint encodedCurve generatorText).isSome = true ∧
    (verifyBitcoinSignature encodedCurve (authMessage 990) generatorSignature
      generatorText).isOk = true ∧
    oneWallet.db.users.rows.length = 1 ∧
    ((extensionRegister spellingEnv (sampleAnswers 2) (spelledRequest generatorUpper)).run
      oneWallet).1.toOption.map AuthResponse.isNew = some true ∧
    ((extensionRegister spellingEnv (sampleAnswers 2) (spelledRequest generatorUpper)).run
      oneWallet).2.db.users.rows.length = 2 ∧
    ¬ OneIdentity spellingEnv generatorText generatorUpper := by
  obtain ⟨hpoint, hsome, hverified, hfirst, hnew, hsecond⟩ := spellings_hold
  refine ⟨hpoint, hsome, hverified, hfirst, hnew, hsecond, fun hone => ?_⟩
  exact absurd hone.text_eq (by decide)

/-- A challenge of website sign-in. -/
def someChallenge : WebChallenge := ⟨"n", 0, "https://site", 10⟩

/-- Both spellings verify the same signatures, and are not one identity. -/
theorem generator_spellings :
    (∀ message signature, verifyBitcoinSignature encodedCurve message signature generatorText =
      verifyBitcoinSignature encodedCurve message signature generatorUpper) ∧
    (OneIdentity spellingWebsite.auth generatorText generatorUpper ↔
      generatorText = generatorUpper) ∧
    (FindsItsOwn spellingWebsite generatorText generatorUpper ↔ generatorText = generatorUpper) := by
  obtain ⟨hsame, hsome, -⟩ := spellings_hold
  obtain ⟨P, hP⟩ := Option.isSome_iff_exists.mp hsome
  have hupper : keyPoint encodedCurve generatorUpper = some P := hsame ▸ hP
  exact one_identity_iff encodedCurve spellingWebsite rfl hP hupper (c := someChallenge)
    (show verifyBitcoinSignature encodedCurve someChallenge.message generatorSignature
      generatorText = .ok () by decide +kernel)

end SmirkBackend
