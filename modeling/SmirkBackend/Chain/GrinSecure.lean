import SmirkBackend.Chain.Grin
import SmirkBackend.Lib.Hex
import SmirkBackend.Lib.Program

/-!
# The secure channel to the Grin wallet

Calls to the wallet are encrypted with AES-GCM under a key that both sides agreed on.  All calls of
a process share one session: the key and a counter, from which the nonces are made.  The session is
agreed on by whoever finds none, and dropped when the wallet says that it expired; both happen under
a lock, and so does every encryption.

The counter only goes up while a key is in use, and a key is used by one session.  So no key meets a
nonce twice, whatever the calls in flight do in between.

The invariant is `SecureChannel.Inv` (the session goes on above the nonces used with its key), every
call keeps it whatever other calls do in between (`ownerRpc_keeps`), and `nonces_unique` is the
result, over every interleaving.
-/

namespace SmirkBackend

open Lib (Prog)

/-! ### Primitives -/

/-- An AES-256 key. -/
abbrev SharedKey := BitVec 256

/-- The primitives of the channel. -/
structure GrinCrypto where
  /-- The key agreed on with a public key of the wallet, by a new ephemeral key after those keys were
  agreed on; `none` when the public key is invalid. -/
  agree : List SharedKey → List UInt8 → Option SharedKey
  /-- AES-GCM encryption under a key and a nonce. -/
  aesEncrypt : SharedKey → List UInt8 → ByteArray → Option ByteArray
  /-- AES-GCM decryption. -/
  aesDecrypt : SharedKey → List UInt8 → ByteArray → Option ByteArray
  /-- Base64 text. -/
  base64Encode : ByteArray → String
  /-- The bytes of a base64 text. -/
  base64Decode : String → Option ByteArray

/-- What is promised of the primitives. -/
structure GrinCrypto.Lawful (crypto : GrinCrypto) : Prop where
  /-- Every exchange yields a fresh key. -/
  fresh : ∀ {keys publicKey key}, crypto.agree keys publicKey = some key → key ∉ keys
  /-- Decryption undoes encryption. -/
  aesDecrypt_aesEncrypt : ∀ {key nonce plaintext ciphertext},
    crypto.aesEncrypt key nonce plaintext = some ciphertext →
    crypto.aesDecrypt key nonce ciphertext = some plaintext
  /-- Base64 text is read back. -/
  base64_decode : ∀ bytes, crypto.base64Decode (crypto.base64Encode bytes) = some bytes

/-! ### The session -/

/-- The shared session. -/
structure SecureSession where
  /-- The key. -/
  sharedKey : SharedKey
  /-- Counter of the next nonce. -/
  nonceCounter : UInt64

/-- What all calls of a client share, with the keys and encryptions so far on record. -/
structure SecureChannel where
  /-- The session, if there is one. -/
  session : Option SecureSession
  /-- The keys that were agreed on. -/
  exchanged : List SharedKey
  /-- Key and nonce of every encryption. -/
  encryptions : List (SharedKey × List UInt8)

/-- The payload of an encrypted exchange. -/
structure EncryptedParts where
  /-- The nonce, in hexadecimal. -/
  nonce : String
  /-- The ciphertext, in base64. -/
  bodyEnc : String

/-- The nonce of a counter: four zero bytes and the counter. -/
def nonceOf (counter : UInt64) : List UInt8 := .replicate 4 0 ++ Lib.beBytes counter

section Channel

variable (crypto : GrinCrypto)

/-- `encrypt`, with the session it leaves and the nonce it encrypts with. -/
def encrypt (session : SecureSession) (plaintext : String) :
    Except AppError EncryptedParts × SecureSession × Option (List UInt8) :=
  let counter := session.nonceCounter
  if counter = 18446744073709551615 then
    (.error (.nodeError "grin nonce counter exhausted"), session, none)
  else
    let session := { session with nonceCounter := counter + 1 }
    let nonce := nonceOf counter
    match crypto.aesEncrypt session.sharedKey nonce plaintext.toUTF8 with
    | none => (.error (.nodeError "grin: encryption failed"), session, some nonce)
    | some ciphertext =>
      (.ok ⟨Lib.hexEncode nonce, crypto.base64Encode ciphertext⟩, session, some nonce)

/-- `decrypt`. -/
def decrypt (session : SecureSession) (nonceHex bodyEnc : String) : Except AppError String :=
  match Lib.hexDecode nonceHex with
  | none => .error (.nodeError "grin: invalid nonce hex")
  | some nonce =>
    if nonce.length ≠ 12 then .error (.nodeError "grin: invalid nonce length")
    else
      match crypto.base64Decode bodyEnc with
      | none => .error (.nodeError "grin: invalid ciphertext")
      | some ciphertext =>
        match crypto.aesDecrypt session.sharedKey nonce ciphertext with
        | none => .error (.nodeError "grin: decryption failed")
        | some plaintext =>
          match String.fromUTF8? plaintext with
          | none => .error (.nodeError "grin: non-UTF8 response")
          | some text => .ok text

/-! ### Calls -/

/-- What the exchanges of one call give, and how its payload is written and read. -/
structure OwnerCall (α : Type) where
  /-- The exchange of `init_secure_api`: a failure, or the decoded body if it is one. -/
  handshake : Except AppError (Option (RpcEnvelope String))
  /-- The payload; `none` when it cannot be written. -/
  payload : Option String
  /-- The encrypted exchange. -/
  answer : EncryptedParts → Except AppError (Option (RpcEnvelope EncryptedParts))
  /-- The body of a decrypted answer. -/
  read : String → Option (RpcEnvelope α)

/-- The key of a handshake, after those keys were agreed on. -/
def handshakeKey (keys : List SharedKey) (body : Except AppError (Option (RpcEnvelope String))) :
    Except AppError SharedKey := do
  let env ← (← body).elim
    (.error (.nodeError "grin init_secure_api: invalid response")) .ok
  match env.error with
  | some code => .error (.nodeError s!"grin init_secure_api error {code.toInt}")
  | none =>
    match env.result with
    | some (.ok serverPubkeyHex) =>
      match Lib.hexDecode serverPubkeyHex with
      | none => .error (.nodeError "grin: invalid server pubkey hex")
      | some bytes =>
        match crypto.agree keys bytes with
        | none => .error (.nodeError "grin: invalid server pubkey")
        | some key => .ok key
    | _ => .error (.nodeError "grin init_secure_api: no result")

/-- The locked part of `ensure_session`: the check is repeated before the handshake. -/
def establish (body : Except AppError (Option (RpcEnvelope String))) (s : SecureChannel) :
    Except AppError Unit × SecureChannel :=
  if s.session.isSome then (.ok (), s)
  else
    match handshakeKey crypto s.exchanged body with
    | .error e => (.error e, s)
    | .ok key => (.ok (), ⟨some ⟨key, 0⟩, key :: s.exchanged, s.encryptions⟩)

/-- `ensure_session`. -/
def ensureSession (body : Except AppError (Option (RpcEnvelope String))) :
    Prog SecureChannel AppError Unit := do
  if ← .peek fun s => s.session.isSome then pure ()
  else .locked (establish crypto body)

/-- The encryption of a call, under the lock. -/
def encryptLocked (plaintext : String) (s : SecureChannel) :
    Except AppError EncryptedParts × SecureChannel :=
  match s.session with
  | none => (.error (.nodeError "grin secure session missing"), s)
  | some session =>
    match encrypt crypto session plaintext with
    | (r, session, nonce) => (r, { s with
        session := some session
        encryptions := (nonce.map fun n => (session.sharedKey, n)).toList ++ s.encryptions })

/-- The decryption of an answer, under the lock. -/
def decryptLocked (parts : EncryptedParts) (s : SecureChannel) : Except AppError String :=
  match s.session with
  | none => .error (.nodeError "grin secure session missing")
  | some session => decrypt crypto session parts.nonce parts.bodyEnc

/-- `owner_rpc`. -/
def ownerRpc {α : Type} (call : OwnerCall α) : Prog SecureChannel AppError α := do
  ensureSession crypto call.handshake
  let inner ← .orFail (.nodeError "grin: failed to encode request") call.payload
  let encrypted ← .locked (encryptLocked crypto inner)
  let body ← .ofExcept (call.answer encrypted)
  let outer ← .orFail (.nodeError "grin owner API: invalid response") body
  match outer.error with
  | some code =>
    -- the session expired
    if code = -32001 then do
      .poke fun s => { s with session := none }
      .fail (.nodeError "grin secure session expired, retry")
    else .fail (.nodeError s!"grin owner API error {code.toInt}")
  | none =>
    match outer.result with
    | some (.ok parts) => do
      let text ← .locked fun s => (decryptLocked crypto parts s, s)
      let env ← .orFail (.nodeError "grin wallet: invalid response") (call.read text)
      .ofExcept (env.intoResult "grin wallet")
    | _ => .fail (.nodeError "grin owner API: no result")

/-! ### The invariant of the channel -/

/-- No encryption is repeated, and the session goes on above its own ones. -/
structure SecureChannel.Inv (s : SecureChannel) : Prop where
  /-- No key met a nonce twice. -/
  nodup : s.encryptions.Nodup
  /-- Encryptions are under keys that were agreed on. -/
  known : ∀ e ∈ s.encryptions, e.1 ∈ s.exchanged
  /-- So is the session. -/
  shared : ∀ σ, s.session = some σ → σ.sharedKey ∈ s.exchanged
  /-- The nonces used with its key are those of earlier counters. -/
  below : ∀ σ, s.session = some σ → ∀ nonce, (σ.sharedKey, nonce) ∈ s.encryptions →
    ∃ counter : UInt64, counter.toNat < σ.nonceCounter.toNat ∧ nonce = nonceOf counter

/-- A new client. -/
def SecureChannel.start : SecureChannel := ⟨none, [], []⟩

theorem SecureChannel.start_inv : SecureChannel.start.Inv where
  nodup := List.nodup_nil
  known := by simp [start]
  shared := by simp [start]
  below := by simp [start]

theorem nonceOf_injective {x y : UInt64} (h : nonceOf x = nonceOf y) : x = y :=
  Lib.beBytes_injective (List.append_cancel_left h)

theorem length_nonceOf (counter : UInt64) : (nonceOf counter).length = 12 := by
  simp [nonceOf, Lib.length_beBytes]

variable {crypto}

theorem encrypt_exhausted {σ : SecureSession} (h : σ.nonceCounter.toNat = 2 ^ 64 - 1)
    (text : String) :
    encrypt crypto σ text = (.error (.nodeError "grin nonce counter exhausted"), σ, none) := by
  have hmax : σ.nonceCounter = 18446744073709551615 := UInt64.toNat_inj.mp h
  simp [encrypt, hmax]

theorem encrypt_of_lt (crypto : GrinCrypto) {σ : SecureSession}
    (h : σ.nonceCounter.toNat < 2 ^ 64 - 1) (text : String) :
    (σ.nonceCounter + 1).toNat = σ.nonceCounter.toNat + 1 ∧
      ∃ r, encrypt crypto σ text =
        (r, ⟨σ.sharedKey, σ.nonceCounter + 1⟩, some (nonceOf σ.nonceCounter)) := by
  constructor
  · rw [UInt64.toNat_add]
    exact Nat.mod_eq_of_lt (by simp only [UInt64.toNat_one]; omega)
  · have hne : σ.nonceCounter ≠ 18446744073709551615 := by
      intro hmax
      rw [hmax] at h
      exact absurd h (by decide)
    simp only [encrypt, if_neg hne]
    cases crypto.aesEncrypt σ.sharedKey (nonceOf σ.nonceCounter) text.toUTF8 with
    | none => exact ⟨_, rfl⟩
    | some ciphertext => exact ⟨_, rfl⟩

/-- What was encrypted is read back with the same key. -/
theorem decrypt_encrypt (hlaw : crypto.Lawful) {σ τ σ' : SecureSession} {text : String}
    {parts : EncryptedParts} {nonce : Option (List UInt8)}
    (h : encrypt crypto σ text = (.ok parts, σ', nonce)) (hkey : τ.sharedKey = σ.sharedKey) :
    decrypt crypto τ parts.nonce parts.bodyEnc = .ok text := by
  unfold encrypt at h
  by_cases hmax : σ.nonceCounter = 18446744073709551615
  · simp [hmax] at h
  simp only [if_neg hmax] at h
  cases hcipher : crypto.aesEncrypt σ.sharedKey (nonceOf σ.nonceCounter) text.toUTF8 with
  | none => simp only [hcipher, Prod.mk.injEq, reduceCtorEq, false_and] at h
  | some ciphertext =>
    simp only [hcipher, Prod.mk.injEq, Except.ok.injEq] at h
    obtain ⟨rfl, -, -⟩ := h
    have hplain := hlaw.aesDecrypt_aesEncrypt hcipher
    have hutf8 : String.fromUTF8? text.toUTF8 = some text := by
      simp only [String.fromUTF8?, String.toUTF8_eq_toByteArray, dif_pos text.isValidUTF8]
      rfl
    simp only [decrypt, Lib.hexDecode_hexEncode, length_nonceOf, hlaw.base64_decode, hkey, hplain,
      hutf8, ne_eq, not_true, if_false]

/-! ### Steps -/

/-- A handshake yields a fresh key. -/
theorem handshakeKey_fresh (hlaw : crypto.Lawful) {keys : List SharedKey}
    {body : Except AppError (Option (RpcEnvelope String))} {key : SharedKey}
    (h : handshakeKey crypto keys body = .ok key) : key ∉ keys := by
  cases body with
  | error e => cases h
  | ok decoded =>
    cases decoded with
    | none => cases h
    | some env =>
      simp only [handshakeKey, Except.bind, bind, Option.elim] at h
      split at h
      · cases h
      · split at h
        · split at h
          · cases h
          · split at h
            · cases h
            · obtain rfl := Except.ok.inj h
              exact hlaw.fresh ‹_›
        · cases h

theorem establish_inv (hlaw : crypto.Lawful)
    (body : Except AppError (Option (RpcEnvelope String))) {s : SecureChannel} (hs : s.Inv) :
    (establish crypto body s).2.Inv := by
  by_cases hsome : s.session.isSome = true
  · rw [establish, if_pos hsome]
    exact hs
  rw [establish, if_neg hsome]
  cases hkey : handshakeKey crypto s.exchanged body with
  | error e => exact hs
  | ok key =>
    have hfresh := handshakeKey_fresh hlaw hkey
    -- nothing was encrypted under a key that was not agreed on
    have hunused (nonce : List UInt8) : (key, nonce) ∉ s.encryptions := fun hmem =>
      hfresh (hs.known _ hmem)
    exact {
      nodup := hs.nodup
      known := fun e he => List.mem_cons_of_mem _ (hs.known e he)
      shared := fun σ hσ => by
        obtain rfl := Option.some.inj hσ
        exact List.mem_cons_self
      below := fun σ hσ nonce hmem => by
        obtain rfl := Option.some.inj hσ
        exact absurd hmem (hunused nonce) }

theorem encryptLocked_inv (text : String) {s : SecureChannel} (hs : s.Inv) :
    (encryptLocked crypto text s).2.Inv := by
  unfold encryptLocked
  cases hσ : s.session with
  | none => exact hs
  | some σ =>
    by_cases hmax : σ.nonceCounter.toNat = 2 ^ 64 - 1
    · simp only [encrypt_exhausted hmax, Option.map_none, Option.toList_none, List.nil_append]
      rw [← hσ]
      exact hs
    have hlt : σ.nonceCounter.toNat < 2 ^ 64 - 1 := by
      have := σ.nonceCounter.toNat_lt
      omega
    obtain ⟨hcounter, r, hr⟩ := encrypt_of_lt crypto hlt text
    simp only [hr, Option.map_some, Option.toList_some, List.singleton_append]
    have hup : σ.nonceCounter.toNat < (σ.nonceCounter + 1).toNat := by omega
    -- the counter was not used with this key
    have hunused : (σ.sharedKey, nonceOf σ.nonceCounter) ∉ s.encryptions := by
      intro hmem
      obtain ⟨counter, hbelow, hnonce⟩ := hs.below σ hσ _ hmem
      rw [nonceOf_injective hnonce] at hbelow
      omega
    exact {
      nodup := List.nodup_cons.mpr ⟨hunused, hs.nodup⟩
      known := List.forall_mem_cons.mpr ⟨hs.shared σ hσ, hs.known⟩
      shared := fun τ hτ => by
        obtain rfl := Option.some.inj hτ
        exact hs.shared σ hσ
      below := fun τ hτ nonce hmem => by
        obtain rfl := Option.some.inj hτ
        rcases List.mem_cons.mp hmem with heq | hmem
        · exact ⟨σ.nonceCounter, hup, (Prod.mk.inj heq).2⟩
        · obtain ⟨counter, hbelow, hnonce⟩ := hs.below σ hσ nonce hmem
          exact ⟨counter, hbelow.trans hup, hnonce⟩ }

theorem SecureChannel.Inv.dropped {s : SecureChannel} (hs : s.Inv) :
    SecureChannel.Inv { s with session := none } where
  nodup := hs.nodup
  known := hs.known
  shared := by simp
  below := by simp

/-! ### Calls in flight -/

theorem ensureSession_keeps (hlaw : crypto.Lawful)
    (body : Except AppError (Option (RpcEnvelope String))) :
    (ensureSession crypto body).Keeps SecureChannel.Inv fun _ => True := by
  refine (Prog.keeps_peek (Q := fun _ => True) fun _ _ => trivial).bind fun there _ => ?_
  cases there with
  | true => exact trivial
  | false => exact Prog.keeps_locked fun _ hs => ⟨establish_inv hlaw body hs, fun _ _ => trivial⟩

/-- A call keeps the invariant, whatever other calls do in between. -/
theorem ownerRpc_keeps (hlaw : crypto.Lawful) {α : Type} (call : OwnerCall α) :
    (ownerRpc crypto call).Keeps SecureChannel.Inv fun _ => True := by
  refine (ensureSession_keeps hlaw call.handshake).bind fun _ _ => ?_
  refine (Prog.keeps_orFail (Q := fun _ => True) fun _ _ => trivial).bind fun inner _ => ?_
  refine (Prog.keeps_locked (Q := fun _ => True) fun _ hs =>
    ⟨encryptLocked_inv inner hs, fun _ _ => trivial⟩).bind fun encrypted _ => ?_
  refine (Prog.keeps_ofExcept (Q := fun _ => True) fun _ _ => trivial).bind fun body _ => ?_
  refine (Prog.keeps_orFail (Q := fun _ => True) fun _ _ => trivial).bind fun outer _ => ?_
  cases outer.error with
  | some code =>
    by_cases hexpired : code = -32001
    · simp only [if_pos hexpired]
      exact fun s hs => ⟨hs.dropped, trivial⟩
    · simp only [if_neg hexpired]
      exact trivial
  | none =>
    rcases outer.result with _ | parts | reason
    · exact trivial
    · refine (Prog.keeps_locked (Q := fun _ => True) fun _ hs =>
        ⟨hs, fun _ _ => trivial⟩).bind fun text _ => ?_
      refine (Prog.keeps_orFail (Q := fun _ => True) fun _ _ => trivial).bind fun env _ => ?_
      exact Prog.keeps_ofExcept fun _ _ => trivial
    · exact trivial

/-- A call whose result goes to its caller alone. -/
def ownerRequest (crypto : GrinCrypto) {α : Type} (call : OwnerCall α) :
    Prog SecureChannel AppError Unit := do
  let _ ← ownerRpc crypto call
  pure ()

/-- **Nonces are never reused.** Along every interleaving of any calls of a client, with all their
handshakes, no encryption repeats a key and a nonce; at the last counter there is no encryption but
an error, and before it the counter goes up without wrapping; and what was encrypted is read back
under its key from the nonce and the text that are sent. -/
theorem nonces_unique {ι : Type} [DecidableEq ι] {R : ι → Type} (crypto : GrinCrypto)
    (hlaw : crypto.Lawful) (calls : ∀ i, OwnerCall (R i)) :
    (∀ es s progs, (Prog.pool fun s s' => s' = s).Run
      (SecureChannel.start, fun i => ownerRequest crypto (calls i)) es (s, progs) →
      s.encryptions.Nodup) ∧
    (∀ s σ text, s.session = some σ → σ.nonceCounter.toNat = 2 ^ 64 - 1 →
      encryptLocked crypto text s = (.error (.nodeError "grin nonce counter exhausted"), s)) ∧
    (∀ s σ text, s.session = some σ → σ.nonceCounter.toNat < 2 ^ 64 - 1 →
      (σ.nonceCounter + 1).toNat = σ.nonceCounter.toNat + 1 ∧
      (encryptLocked crypto text s).2 =
        ⟨some ⟨σ.sharedKey, σ.nonceCounter + 1⟩, s.exchanged,
          (σ.sharedKey, nonceOf σ.nonceCounter) :: s.encryptions⟩) ∧
    ∀ s σ text parts, s.session = some σ → (encryptLocked crypto text s).1 = .ok parts →
      ∀ τ : SecureSession, τ.sharedKey = σ.sharedKey →
        decrypt crypto τ parts.nonce parts.bodyEnc = .ok text := by
  refine ⟨?_, ?_, ?_, ?_⟩
  · intro es s progs hrun
    have hkeeps (i : ι) : (ownerRequest crypto (calls i)).Keeps SecureChannel.Inv fun _ => True :=
      (ownerRpc_keeps hlaw (calls i)).bind fun _ _ => trivial
    have hend := Prog.keeps_of_run hrun (fun _ _ heq hs => heq ▸ hs) hkeeps
      SecureChannel.start_inv
    exact hend.nodup
  · intro s σ text hσ hmax
    simp only [encryptLocked, hσ, encrypt_exhausted hmax, Option.map_none, Option.toList_none,
      List.nil_append]
    rw [← hσ]
  · intro s σ text hσ hlt
    obtain ⟨hcounter, r, hr⟩ := encrypt_of_lt crypto hlt text
    refine ⟨hcounter, ?_⟩
    simp only [encryptLocked, hσ, hr, Option.map_some, Option.toList_some, List.singleton_append]
  · intro s σ text parts hσ hok τ hkey
    simp only [encryptLocked, hσ] at hok
    exact decrypt_encrypt hlaw (Prod.ext hok rfl) hkey

/-! ### A sample -/

/-- Counted keys, and ciphertexts that are the plaintext and a tag. -/
def grinSample : GrinCrypto where
  agree keys publicKey :=
    if publicKey.length = 33 then
      ((List.range (keys.length + 1)).map (BitVec.ofNat 256)).find? fun k => k ∉ keys
    else none
  aesEncrypt _ _ plaintext := some (plaintext ++ ⟨Array.replicate 16 0⟩)
  aesDecrypt _ _ ciphertext :=
    if ciphertext.size < 16 then none else some (ciphertext.extract 0 (ciphertext.size - 16))
  base64Encode bytes := Lib.hexEncode bytes.data.toList
  base64Decode text := (Lib.hexDecode text).map fun bytes => ⟨bytes.toArray⟩

theorem grinSample_lawful : grinSample.Lawful where
  fresh := by
    intro keys publicKey key h
    by_cases hlen : publicKey.length = 33
    · simp only [grinSample, if_pos hlen] at h
      simpa using List.find?_some h
    · simp [grinSample, hlen] at h
  aesDecrypt_aesEncrypt := by
    intro key nonce plaintext ciphertext h
    obtain rfl := Option.some.inj h
    have hsize : (plaintext ++ (⟨Array.replicate 16 0⟩ : ByteArray)).size
        = plaintext.size + 16 := by
      rw [ByteArray.size_append]
      rfl
    simp only [grinSample, hsize, if_neg (show ¬ plaintext.size + 16 < 16 by omega),
      Nat.add_sub_cancel]
    exact congrArg some (ByteArray.extract_append_eq_left rfl)
  base64_decode := by
    intro bytes
    simp [grinSample, Lib.hexDecode_hexEncode]

/-- Three calls: the answer of the first one says that the session expired. -/
def grinSampleCalls (i : Fin 3) : OwnerCall Unit where
  handshake := .ok (some ⟨some (.ok (Lib.hexEncode (.replicate 33 2))), none⟩)
  payload := some "scan"
  answer _ := if i = 0 then .ok (some ⟨none, some (-32001)⟩) else .error (.nodeError "grin HTTP 500")
  read _ := none

/-- The second call encrypts in the session of the first one, which then drops it; the third call
agrees on a new one. -/
def grinSampleTurns : List (Fin 3 × ℕ) := [(0, 3), (1, 2), (0, 1), (2, 3)]

/-- A channel whose session has come to this counter. -/
def grinSampleAt (counter : UInt64) : SecureChannel := ⟨some ⟨0, counter⟩, [0], []⟩

theorem nonces_unique_sample :
    ((Prog.play grinSampleTurns (SecureChannel.start,
        fun i => ownerRequest grinSample (grinSampleCalls i))).1.encryptions
        = [(1, nonceOf 0), (0, nonceOf 1), (0, nonceOf 0)] ∧
      [((1 : SharedKey), nonceOf 0), (0, nonceOf 1), (0, nonceOf 0)].Nodup) ∧
    encryptLocked grinSample "scan" (grinSampleAt 18446744073709551615)
      = (.error (.nodeError "grin nonce counter exhausted"),
        grinSampleAt 18446744073709551615) ∧
    (encryptLocked grinSample "scan" (grinSampleAt 5)).2
      = ⟨some ⟨0, 6⟩, [0], [(0, nonceOf 5)]⟩ ∧
    ∃ parts, (encryptLocked grinSample "scan" (grinSampleAt 5)).1 = .ok parts ∧
      decrypt grinSample ⟨0, 9⟩ parts.nonce parts.bodyEnc = .ok "scan" := by
  obtain ⟨hruns, hexhausted, hgoes, hread⟩ :=
    nonces_unique grinSample grinSample_lawful grinSampleCalls
  have hend : (Prog.play grinSampleTurns (SecureChannel.start,
      fun i => ownerRequest grinSample (grinSampleCalls i))).1.encryptions
      = [(1, nonceOf 0), (0, nonceOf 1), (0, nonceOf 0)] := by
    rfl
  refine ⟨⟨hend, ?_⟩, ?_, ?_, ?_⟩
  · rw [← hend]
    exact hruns _ _ _ (Prog.run_play _ grinSampleTurns _)
  · exact hexhausted _ _ _ rfl rfl
  · exact (hgoes (grinSampleAt 5) _ "scan" rfl (by decide)).2
  · exact ⟨_, rfl, hread (grinSampleAt 5) _ "scan" _ rfl rfl ⟨0, 9⟩ rfl⟩

end Channel

end SmirkBackend
