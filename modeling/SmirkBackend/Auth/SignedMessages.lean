import SmirkBackend.Admin.Mac
import SmirkBackend.Auth.KeyIdentity

/-!
# Signed messages

A wallet key signs three kinds of messages: a login, a rotation and a challenge of a website.  None
can be read as another, and the free text in them, the URL of the instance and the origin of the
website, cannot be taken for a neighbouring field.  Under a BTC key the bytes that are hashed
determine the message.

A signed time counts when it is within 300 seconds of the clock.  A login subtracts, which traps
when the difference is no word; the check of signed events saturates instead.

`signed_messages_framed` proves the first, from a length prefix that can be taken off
(`encodeVarint_cancel`), and `fresh_exactly_iff` gives the times at which the drift check is that of
the integers.
-/

namespace SmirkBackend

open Lib (hexValue intText intText_injective mem_intText)

/-! ### BTC signatures -/

/-- The bytes that `bitcoin_message_hash` hashes. -/
def messagePreimage (message : String) : List UInt8 :=
  "\x18Bitcoin Signed Message:\n".toUTF8.data.toList ++
    encodeVarint message.utf8ByteSize ++ message.toUTF8.data.toList

theorem bitcoinMessageHash_eq {Point Sig : Type} (lib : Secp256k1 Point Sig) (message : String) :
    bitcoinMessageHash lib message = lib.sha256 (lib.sha256 (messagePreimage message)) := rfl

/-- The number of bytes that follow the first byte of a length prefix. -/
def varintWidth (head : UInt8) : ℕ :=
  if head = 0xfd then 2 else if head = 0xfe then 4 else if head = 0xff then 8 else 0

theorem encodeVarint_eq_cons (n : ℕ) :
    ∃ head tail, encodeVarint n = head :: tail ∧ tail.length = varintWidth head := by
  unfold encodeVarint
  split_ifs with h₁ h₂ h₃
  · have hne (b : UInt8) (hb : 253 ≤ b.toNat) : UInt8.ofNat n ≠ b := by
      intro h
      have hn := congrArg UInt8.toNat h
      rw [UInt8.toNat_ofNat_of_lt' (by omega : n < 2 ^ 8)] at hn
      omega
    refine ⟨UInt8.ofNat n, [], rfl, ?_⟩
    simp [varintWidth, hne 0xfd (by decide), hne 0xfe (by decide), hne 0xff (by decide)]
  · exact ⟨0xfd, leBytes n 2, rfl, length_leBytes n 2⟩
  · exact ⟨0xfe, leBytes n 4, rfl, length_leBytes n 4⟩
  · exact ⟨0xff, leBytes n 8, rfl, length_leBytes n 8⟩

/-- A length prefix can be taken off. -/
theorem encodeVarint_cancel {n n' : ℕ} {s s' : List UInt8}
    (h : encodeVarint n ++ s = encodeVarint n' ++ s') : s = s' := by
  obtain ⟨head, tail, heq, hlen⟩ := encodeVarint_eq_cons n
  obtain ⟨head', tail', heq', hlen'⟩ := encodeVarint_eq_cons n'
  rw [heq, heq', List.cons_append, List.cons_append] at h
  obtain ⟨rfl, htail⟩ := List.cons.inj h
  exact (List.append_inj htail (hlen.trans hlen'.symm)).2

theorem messagePreimage_injective : Function.Injective messagePreimage := by
  intro m m' h
  simp only [messagePreimage, List.append_assoc, String.toUTF8_eq_toByteArray] at h
  have hbytes := encodeVarint_cancel (List.append_cancel_left h)
  exact String.toByteArray_inj.mp (ByteArray.ext (Array.toList_inj.mp hbytes))

/-! ### Purposes -/

/-- The first characters of a message, where the kinds differ. -/
def purpose (message : String) : List Char := message.toList.take 7

theorem purpose_append {s t : String} (h : 7 ≤ s.toList.length) : purpose (s ++ t) = purpose s := by
  unfold purpose
  rw [String.toList_append, List.take_append_of_le_length h]

theorem purpose_authMessage (ts : Int64) : purpose (authMessage ts) = "smirk-a".toList := by
  unfold authMessage
  rw [purpose_append (by decide)]
  decide

theorem purpose_rotationMessage {url : Option String} {hash message : String} {ts : Int64}
    (h : rotationMessage url hash ts = some message) : purpose message = "smirk-r".toList := by
  obtain ⟨url, rfl, rfl⟩ := Option.map_eq_some_iff.mp h
  simp only [String.append_assoc]
  rw [purpose_append (by decide)]
  decide

theorem message_eq (c : WebChallenge) :
    c.message = "Smirk Authentication Challenge\nNonce: " ++ (c.nonce ++ ("\nOrigin: " ++
      (c.origin ++ ("\nTimestamp: " ++ toString (c.createdAt / 1000000))))) := by
  unfold WebChallenge.message
  rw [String.append_assoc, String.append_assoc, String.append_assoc, String.append_assoc]

theorem purpose_message (c : WebChallenge) : purpose c.message = "Smirk A".toList := by
  rw [message_eq]
  rw [purpose_append (by decide)]
  decide

/-! ### Fields -/

/-- A text of hexadecimal digits, in either case. -/
def IsHex (s : String) : Prop := ∀ c ∈ s.toList, (hexValue c).isSome

theorem IsHex.notMem {s : String} {c : Char} (h : IsHex s) (hc : hexValue c = none) :
    c ∉ s.toList := fun hmem => by simpa [hc] using h c hmem

theorem notMem_intText {n : ℤ} {c : Char} (hdigit : c.isDigit = false) (hminus : c ≠ '-') :
    c ∉ intText n := by
  intro hmem
  rcases mem_intText hmem with h | h
  · simp [h] at hdigit
  · exact hminus h

/-- The rotation message determines the instance, the hash and the time. -/
theorem rotationMessage_inj {url url' : Option String} {hash hash' message : String}
    {ts ts' : Int64} (hhex : IsHex hash) (hhex' : IsHex hash')
    (h : rotationMessage url hash ts = some message)
    (h' : rotationMessage url' hash' ts' = some message) :
    url.map trimEndSlashes = url'.map trimEndSlashes ∧ hash = hash' ∧ ts = ts' := by
  obtain ⟨url, rfl, rfl⟩ := Option.map_eq_some_iff.mp h
  obtain ⟨url', rfl, heq⟩ := Option.map_eq_some_iff.mp h'
  -- the time and the hash hold no bar: split at the last one, twice
  have hlist := congrArg String.toList heq
  have hbar : ("|" : String).toList = ['|'] := by decide
  simp only [String.toList_append, hbar, List.append_assoc, List.singleton_append] at hlist
  have hlist := List.append_cancel_left hlist
  have hts (ts : Int64) : (toString ts.toInt).toList = intText ts.toInt := rfl
  rw [hts, hts] at hlist
  have hbars (n : ℤ) : '|' ∉ intText n := notMem_intText (by decide) (by decide)
  simp only [← List.append_assoc] at hlist
  obtain ⟨hfields, htime⟩ := split_last (hbars _) (hbars _) hlist
  obtain ⟨hurl, hhash⟩ := split_last (hhex'.notMem (by decide)) (hhex.notMem (by decide)) hfields
  refine ⟨congrArg some (String.toList_inj.mp hurl.symm), String.toList_inj.mp hhash.symm, ?_⟩
  exact Int64.toInt_inj.mp (intText_injective htime.symm)

/-- The message of a challenge determines its nonce, its origin and its second of creation. -/
theorem message_inj {c c' : WebChallenge} (hhex : IsHex c.nonce) (hhex' : IsHex c'.nonce)
    (h : c.message = c'.message) :
    c.nonce = c'.nonce ∧ c.origin = c'.origin ∧ c.createdAt / 1000000 = c'.createdAt / 1000000 := by
  rw [message_eq, message_eq] at h
  have hlist := congrArg String.toList h
  have horigin : ("\nOrigin: " : String).toList = '\n' :: "Origin: ".toList := by decide
  have htime : ("\nTimestamp: " : String).toList = '\n' :: "Timestamp: ".toList := by decide
  have hts (n : ℤ) : (toString n).toList = intText n := rfl
  simp only [String.toList_append, horigin, htime, hts, List.cons_append] at hlist
  -- the nonce ends at the first line break, the origin at the last one
  obtain ⟨hnonce, hrest⟩ := split_first (hhex.notMem (by decide)) (hhex'.notMem (by decide))
    (List.append_cancel_left hlist)
  have hline (n : ℤ) : '\n' ∉ "Timestamp: ".toList ++ intText n := by
    rw [List.mem_append]
    rintro (hmem | hmem)
    · exact absurd hmem (by decide)
    · exact notMem_intText (by decide) (by decide) hmem
  obtain ⟨horigin, htime⟩ := split_last (hline _) (hline _) (List.append_cancel_left hrest)
  exact ⟨String.toList_inj.mp hnonce, String.toList_inj.mp horigin,
    intText_injective (List.append_cancel_left htime)⟩

/-- What the signed texts determine. -/
structure Framed : Prop where
  /-- A BTC signature is over a double hash, -/
  hashed : ∀ {Point Sig : Type} (lib : Secp256k1 Point Sig) (message : String),
    bitcoinMessageHash lib message = lib.sha256 (lib.sha256 (messagePreimage message))
  /-- of bytes that determine the message. -/
  preimage : Function.Injective messagePreimage
  /-- A login is no rotation. -/
  login_rotation : ∀ (ts ts' : Int64) (url : Option String) (hash : String),
    rotationMessage url hash ts' ≠ some (authMessage ts)
  /-- A login is no challenge. -/
  login_website : ∀ (ts : Int64) (c : WebChallenge), c.message ≠ authMessage ts
  /-- A rotation is no challenge. -/
  rotation_website : ∀ (ts : Int64) (url : Option String) (hash : String) (c : WebChallenge),
    rotationMessage url hash ts ≠ some c.message
  /-- A rotation determines the instance, the hash and the time. -/
  rotation : ∀ (url url' : Option String) (hash hash' message : String) (ts ts' : Int64),
    IsHex hash → IsHex hash' → rotationMessage url hash ts = some message →
    rotationMessage url' hash' ts' = some message →
    url.map trimEndSlashes = url'.map trimEndSlashes ∧ hash = hash' ∧ ts = ts'
  /-- A challenge determines the nonce, the origin and the second. -/
  website : ∀ c c' : WebChallenge, IsHex c.nonce → IsHex c'.nonce → c.message = c'.message →
    c.nonce = c'.nonce ∧ c.origin = c'.origin ∧ c.createdAt / 1000000 = c'.createdAt / 1000000

/-- **The signed messages are framed.** -/
theorem signed_messages_framed : Framed where
  hashed := bitcoinMessageHash_eq
  preimage := messagePreimage_injective
  login_rotation ts ts' url hash h := by
    have hpurpose := (purpose_authMessage ts).symm.trans (purpose_rotationMessage h)
    exact absurd hpurpose (by decide)
  login_website ts c h := by
    have hpurpose := (purpose_message c).symm.trans (h ▸ purpose_authMessage ts)
    exact absurd hpurpose (by decide)
  rotation_website ts url hash c h := by
    have hpurpose := (purpose_message c).symm.trans (purpose_rotationMessage h)
    exact absurd hpurpose (by decide)
  rotation _ _ _ _ _ _ _ := rotationMessage_inj
  website _ _ := message_inj

/-! ### Signed times -/

/-- The difference of two times and its absolute value are words. -/
def DriftFits (now ts : Int64) : Prop :=
  -2 ^ 63 < now.toInt - ts.toInt ∧ now.toInt - ts.toInt < 2 ^ 63

instance (now ts : Int64) : Decidable (DriftFits now ts) := inferInstanceAs (Decidable (_ ∧ _))

theorem checkDrift_trap_iff (now ts : Int64) :
    checkDrift now ts = .error (.internal "arithmetic overflow") ↔ ¬ DriftFits now ts := by
  simp only [checkDrift, DriftFits, Bool.or_eq_true, decide_eq_true_eq]
  split_ifs with htrap hfar
  · simp only [true_iff]
    omega
  · refine iff_of_false (by simp) ?_
    omega
  · refine iff_of_false (by simp) ?_
    omega

theorem checkDrift_ok_iff (now ts : Int64) :
    checkDrift now ts = .ok () ↔ (now.toInt - ts.toInt).natAbs ≤ 300 := by
  by_cases hfits : DriftFits now ts
  · have hwords : ¬ (now.toInt - ts.toInt ≤ -2 ^ 63 ∨ 2 ^ 63 ≤ now.toInt - ts.toInt) := by
      unfold DriftFits at hfits
      omega
    simp only [checkDrift, Bool.or_eq_true, decide_eq_true_eq, if_neg hwords]
    split_ifs with hfar
    · exact iff_of_false (by simp) (Nat.not_le.mpr hfar)
    · exact iff_of_true rfl (Nat.not_lt.mp hfar)
  · rw [(checkDrift_trap_iff now ts).mpr hfits]
    refine iff_of_false (by simp) ?_
    unfold DriftFits at hfits
    omega

/-- An event of the right kind is expired exactly when it is outside the saturating window. -/
theorem parseAuthenticated_expired_iff {crypto : Nip98Crypto} {header : String}
    {now maxAge : Int64} {ev : Nip98Event}
    (hdecode : ((afterScheme header).bind fun b64 => crypto.decode (trim b64)) = some ev)
    (hkind : ev.kind = nip98Kind) :
    parseAuthenticated crypto header now maxAge = .error .expired ↔
      (Lib.saturatingAdd now maxAge < ev.createdAt ||
        ev.createdAt < Lib.saturatingSub now maxAge) = true := by
  unfold parseAuthenticated
  simp only [hdecode, if_neg (not_not.mpr hkind)]
  by_cases hage : (Lib.saturatingAdd now maxAge < ev.createdAt ||
      ev.createdAt < Lib.saturatingSub now maxAge) = true
  · rw [if_pos hage]
    exact iff_of_true rfl hage
  · rw [if_neg hage]
    refine iff_of_false ?_ hage
    split_ifs
    · exact nofun
    · split
      · split_ifs <;> exact nofun
      · exact nofun

/-- The drift check of a login at a clock and a signed time. -/
structure FreshExactly (now ts : Int64) : Prop where
  /-- It does not trap. -/
  noTrap : checkDrift now ts ≠ .error (.internal "arithmetic overflow")
  /-- It accepts by the distance of the integers. -/
  exact : checkDrift now ts = .ok () ↔ (now.toInt - ts.toInt).natAbs ≤ 300
  /-- It accepts the time exactly when a signed event of this time is not expired. -/
  agrees : ∀ (crypto : Nip98Crypto) (header : String) (ev : Nip98Event),
    ((afterScheme header).bind fun b64 => crypto.decode (trim b64)) = some ev →
    ev.kind = nip98Kind → ev.createdAt = ts →
    (checkDrift now ts = .ok () ↔ parseAuthenticated crypto header now 300 ≠ .error .expired)

/-- **The drift check is exact** unless the difference overflows. -/
theorem fresh_exactly_iff (now ts : Int64) : FreshExactly now ts ↔ DriftFits now ts := by
  refine ⟨fun h => ?_, fun hfits => ⟨?_, checkDrift_ok_iff now ts, ?_⟩⟩
  · exact not_not.mp fun hwide => h.noTrap ((checkDrift_trap_iff now ts).mpr hwide)
  · exact fun htrap => (checkDrift_trap_iff now ts).mp htrap hfits
  · intro crypto header ev hdecode hkind hts
    have hmax : (300 : Int64).toInt = 300 := by decide
    have hwindow := window_iff (by decide : 0 ≤ (300 : Int64).toInt) now ev.createdAt
    rw [hmax, hts] at hwindow
    rw [ne_eq, parseAuthenticated_expired_iff hdecode hkind, Bool.not_eq_true, hts, hwindow,
      checkDrift_ok_iff]
    omega

/-- The earliest time there is traps. -/
theorem earliest_traps : checkDrift 1700000000 Int64.minValue =
    .error (.internal "arithmetic overflow") ∧ ¬ FreshExactly 1700000000 Int64.minValue := by
  have htrap : checkDrift 1700000000 Int64.minValue = .error (.internal "arithmetic overflow") :=
    (checkDrift_trap_iff _ _).mpr (by decide +kernel)
  exact ⟨htrap, fun h => h.noTrap htrap⟩

end SmirkBackend
