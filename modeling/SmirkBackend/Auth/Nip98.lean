import SmirkBackend.Basic
import SmirkBackend.Lib.Machine

/-!
# Signed HTTP requests

A request is signed by a Nostr key as an event of a fixed kind whose tags name the URL, the method
and, for a change of state, a server nonce, a purpose and a hash of the request.  The event is
authenticated first; the tags are read from the authenticated event, each bound name exactly once.

The decoder, the event hash and the signature check are parameters.

`exactlyOne_eq_ok_iff` says what a bound tag is, `parseAuthenticated_eq_ok_iff` and
`verifySignedAction_eq_ok` what an accepted event is.
-/

namespace SmirkBackend

/-- A signed event. -/
structure Nip98Event where
  /-- Hash of the event. -/
  id : String
  /-- Key that signed it. -/
  pubkey : String
  /-- Time of signing, in seconds. -/
  createdAt : Int64
  /-- Kind of event. -/
  kind : UInt32
  /-- Tags: a name followed by values. -/
  tags : List (List String)
  /-- Body. -/
  content : String
  /-- Signature. -/
  sig : String
  deriving DecidableEq

/-- Why a token was rejected. -/
inductive Nip98Error
  | malformed
  | wrongKind
  | urlMismatch
  | methodMismatch
  | expired
  | badId
  | badSignature
  | missingTag
  | duplicateTag
  | bindingMismatch
  deriving DecidableEq

/-- The decoder, the hash and the signature check. -/
structure Nip98Crypto where
  /-- Base64 and then JSON. -/
  decode : String → Option Nip98Event
  /-- Hash of the canonical serialization, which leaves out the hash and the signature. -/
  eventId : String → Int64 → UInt32 → List (List String) → String → String
  /-- Bytes of a hexadecimal text, of either letter case. -/
  hexDecode : String → Option (List UInt8)
  /-- The key and the signature are well formed and the signature of the message is valid. -/
  verifyRaw : List UInt8 → List UInt8 → List UInt8 → Bool

/-- `NIP98_KIND`. -/
def nip98Kind : UInt32 := 27235

/-- `str::eq_ignore_ascii_case`. -/
def eqIgnoreAsciiCase (a b : String) : Bool := toLowercase a = toLowercase b

/-- A tag with this name and a value. -/
def carries (name : String) : List String → Bool
  | tag :: _ :: _ => tag = name
  | _ => false

/-- The loop of `exactly_one`. -/
def exactlyOneFrom (name : String) (found : Option String) :
    List (List String) → Except Nip98Error String
  | [] =>
    match found with
    | some v => .ok v
    | none => .error .missingTag
  | (tag :: value :: _) :: rest =>
    if tag = name then
      if found.isSome then .error .duplicateTag else exactlyOneFrom name (some value) rest
    else exactlyOneFrom name found rest
  | _ :: rest => exactlyOneFrom name found rest

/-- `exactly_one`: the value of the single tag of this name that carries one. -/
def exactlyOne (ev : Nip98Event) (name : String) : Except Nip98Error String :=
  exactlyOneFrom name none ev.tags

/-- The token after the scheme of the header. -/
def afterScheme (header : String) : Option String :=
  if "Nostr ".toList.isPrefixOf header.toList then some (String.ofList (header.toList.drop 6))
  else none

/-- `parse_authenticated`. -/
def parseAuthenticated (crypto : Nip98Crypto) (header : String) (now maxAge : Int64) :
    Except Nip98Error Nip98Event :=
  match (afterScheme header).bind fun b64 => crypto.decode (trim b64) with
  | none => .error .malformed
  | some ev =>
    if ev.kind ≠ nip98Kind then .error .wrongKind
    else if Lib.saturatingAdd now maxAge < ev.createdAt ||
        ev.createdAt < Lib.saturatingSub now maxAge then .error .expired
    else if crypto.eventId ev.pubkey ev.createdAt ev.kind ev.tags ev.content ≠ ev.id then
      .error .badId
    else
      match crypto.hexDecode ev.pubkey, crypto.hexDecode ev.id, crypto.hexDecode ev.sig with
      | some pubkey, some id, some sig =>
        if pubkey.length ≠ 32 || id.length ≠ 32 || sig.length ≠ 64 then .error .badSignature
        else if crypto.verifyRaw pubkey id sig then .ok ev
        else .error .badSignature
      | _, _, _ => .error .badSignature

/-- The event must carry the tag, with a value that `ok` accepts. -/
def bindTagBy (ev : Nip98Event) (name : String) (ok : String → Bool) : Except Nip98Error Unit := do
  let value ← exactlyOne ev name
  if ok value then pure () else throw .bindingMismatch

/-- The event must carry the tag with this value. -/
def bindTag (ev : Nip98Event) (name expected : String) : Except Nip98Error Unit :=
  bindTagBy ev name fun value => value = expected

/-- The event must carry the tag, when one is expected. -/
def bindOptional (ev : Nip98Event) : Option (String × String) → Except Nip98Error Unit
  | some (name, expected) => bindTag ev name expected
  | none => pure ()

/-- `verify_nip98`: URL, method and freshness. -/
def verifyNip98 (crypto : Nip98Crypto) (header url method : String) (now maxAge : Int64) :
    Except Nip98Error String := do
  let ev ← parseAuthenticated crypto header now maxAge
  let u ← exactlyOne ev "u"
  if u ≠ url then throw .urlMismatch
  let m ← exactlyOne ev "method"
  if !eqIgnoreAsciiCase m method then throw .methodMismatch
  pure (toLowercase ev.pubkey)

/-- What a state change must be bound to. -/
structure ActionBinding where
  /-- URL of the request. -/
  url : String
  /-- HTTP method. -/
  method : String
  /-- What the nonce was issued for. -/
  purpose : String
  /-- The nonce. -/
  nonce : String
  /-- Hash of the request descriptor. -/
  payload : String
  /-- Name and value of the tag of the target. -/
  target : Option (String × String)
  /-- The instance. -/
  instanceId : Option String

/-- `verify_signed_action`. -/
def verifySignedAction (crypto : Nip98Crypto) (header : String) (b : ActionBinding)
    (now maxAge : Int64) : Except Nip98Error String := do
  let ev ← parseAuthenticated crypto header now maxAge
  bindTag ev "u" b.url
  bindTagBy ev "method" fun m => eqIgnoreAsciiCase m b.method
  bindTag ev "purpose" b.purpose
  bindTag ev "challenge" b.nonce
  bindTag ev "payload" b.payload
  bindOptional ev b.target
  bindOptional ev (b.instanceId.map fun instanceId => ("instance_id", instanceId))
  pure (toLowercase ev.pubkey)

/-- `request_descriptor` with the hash of the body. -/
def requestDescriptor (method path query bodyHash : String) : String :=
  String.ofList (method.toList.map Char.toUpper) ++ "\n" ++ path ++ "\n" ++ query ++ "\n" ++ bodyHash

/-! ### What is accepted -/

/-- Exactly one tag of this name carries a value, and the value is `v`. -/
def TagIs (ev : Nip98Event) (name v : String) : Prop :=
  ∃ more, ev.tags.filter (carries name) = [name :: v :: more]

theorem exactlyOneFrom_some_iff {name found v : String} {tags : List (List String)} :
    exactlyOneFrom name (some found) tags = .ok v ↔ tags.filter (carries name) = [] ∧ found = v := by
  induction tags with
  | nil => simp [exactlyOneFrom]
  | cons tag rest ih =>
    match tag with
    | [] => simpa [exactlyOneFrom, carries] using ih
    | [_] => simpa [exactlyOneFrom, carries] using ih
    | n :: value :: more =>
      by_cases h : n = name
      · simp [exactlyOneFrom, carries, h]
      · simpa [exactlyOneFrom, carries, h] using ih

/-- The reader returns the value of the one tag of that name that carries a value. -/
theorem exactlyOne_eq_ok_iff {ev : Nip98Event} {name v : String} :
    exactlyOne ev name = .ok v ↔ TagIs ev name v := by
  unfold exactlyOne TagIs
  induction ev.tags with
  | nil => simp [exactlyOneFrom]
  | cons tag rest ih =>
    match tag with
    | [] => simpa [exactlyOneFrom, carries] using ih
    | [_] => simpa [exactlyOneFrom, carries] using ih
    | n :: value :: more =>
      by_cases h : n = name
      · subst h
        simp only [exactlyOneFrom, if_true, Option.isSome_none, Bool.false_eq_true, if_false,
          exactlyOneFrom_some_iff, carries, decide_true, List.filter_cons_of_pos, List.cons.injEq,
          true_and]
        constructor
        · rintro ⟨hnil, rfl⟩
          exact ⟨more, ⟨rfl, rfl⟩, hnil⟩
        · rintro ⟨_, ⟨hv, _⟩, hnil⟩
          exact ⟨hnil, hv⟩
      · simpa [exactlyOneFrom, carries, h] using ih

theorem mapError_eq_ok_iff {ε ε' α : Type} {x : Except ε α} {f : ε → ε'} {a : α} :
    x.mapError f = .ok a ↔ x = .ok a := by
  cases x <;> simp [Except.mapError]

theorem bindTagBy_eq_ok_iff {ev : Nip98Event} {name : String} {ok : String → Bool} {u : Unit} :
    bindTagBy ev name ok = .ok u ↔ ∃ v, TagIs ev name v ∧ ok v := by
  unfold bindTagBy
  rw [bind_eq_ok_iff]
  simp only [exactlyOne_eq_ok_iff]
  refine exists_congr fun v => and_congr_right fun _ => ?_
  cases ok v <;> simp [pure, Except.pure, throw, throwThe, MonadExceptOf.throw]

theorem bindTag_eq_ok_iff {ev : Nip98Event} {name expected : String} {u : Unit} :
    bindTag ev name expected = .ok u ↔ TagIs ev name expected := by
  simp [bindTag, bindTagBy_eq_ok_iff]

theorem bindOptional_eq_ok_iff {ev : Nip98Event} {t : Option (String × String)} {u : Unit} :
    bindOptional ev t = .ok u ↔ ∀ p, t = some p → TagIs ev p.1 p.2 := by
  cases t with
  | none => simp [bindOptional, pure, Except.pure]
  | some p => simp [bindOptional, bindTag_eq_ok_iff]

/-- A correctly signed event of the right kind, made at most `maxAge` seconds from `now`, as
integers. -/
structure Authenticated (crypto : Nip98Crypto) (header : String) (now maxAge : Int64)
    (ev : Nip98Event) : Prop where
  /-- The header carries the event. -/
  decoded : ((afterScheme header).bind fun b64 => crypto.decode (trim b64)) = some ev
  /-- Its kind. -/
  kind : ev.kind = 27235
  /-- Its age. -/
  fresh : now.toInt - maxAge.toInt ≤ ev.createdAt.toInt ∧
    ev.createdAt.toInt ≤ now.toInt + maxAge.toInt
  /-- Its hash. -/
  hashed : crypto.eventId ev.pubkey ev.createdAt ev.kind ev.tags ev.content = ev.id
  /-- Its signature. -/
  signed : ∃ pubkey id sig, crypto.hexDecode ev.pubkey = some pubkey ∧
    crypto.hexDecode ev.id = some id ∧ crypto.hexDecode ev.sig = some sig ∧
    pubkey.length = 32 ∧ id.length = 32 ∧ sig.length = 64 ∧ crypto.verifyRaw pubkey id sig

theorem window_iff {maxAge : Int64} (hage : 0 ≤ maxAge.toInt) (now createdAt : Int64) :
    (Lib.saturatingAdd now maxAge < createdAt || createdAt < Lib.saturatingSub now maxAge) = false ↔
      now.toInt - maxAge.toInt ≤ createdAt.toInt ∧ createdAt.toInt ≤ now.toInt + maxAge.toInt := by
  have hlo := createdAt.le_toInt
  have hhi := createdAt.toInt_lt
  have hnlo := now.le_toInt
  have hnhi := now.toInt_lt
  simp only [Bool.or_eq_false_iff, decide_eq_false_iff_not, Int64.lt_iff_toInt_lt,
    Lib.toInt_saturatingAdd, Lib.toInt_saturatingSub]
  omega

theorem parseAuthenticated_eq_ok_iff {crypto : Nip98Crypto} {header : String} {now maxAge : Int64}
    (hmax : 0 ≤ maxAge.toInt) {ev : Nip98Event} :
    parseAuthenticated crypto header now maxAge = .ok ev ↔
      Authenticated crypto header now maxAge ev := by
  constructor
  · intro h
    unfold parseAuthenticated at h
    split at h
    · cases h
    · rename_i ev' hdecode
      split_ifs at h with hkind hage hid
      split at h
      · rename_i pubkey id sig hpub hid' hsig
        split_ifs at h with hlen hver
        obtain rfl := Except.ok.inj h
        simp only [Bool.or_eq_true, decide_eq_true_eq, not_or, ne_eq, not_not] at hlen hkind hid
        have hage' := (window_iff hmax now ev'.createdAt).mp (by simpa using hage)
        exact ⟨hdecode, hkind, hage', hid, pubkey, id, sig, hpub, hid', hsig, hlen.1.1, hlen.1.2,
          hlen.2, hver⟩
      · cases h
  · rintro ⟨hdecode, hkind, hage, hid, pubkey, id, sig, hpub, hid', hsig, hl₁, hl₂, hl₃, hver⟩
    have hage' := (window_iff hmax now ev.createdAt).mpr hage
    have hkind' : ¬ ev.kind ≠ nip98Kind := not_not.mpr hkind
    unfold parseAuthenticated
    simp only [hdecode, hage', hid, hpub, hid', hsig, if_neg hkind']
    simp [hl₁, hl₂, hl₃, hver]

/-- The tags of an accepted state change. -/
structure Bound (ev : Nip98Event) (b : ActionBinding) : Prop where
  /-- `u` -/
  url : TagIs ev "u" b.url
  /-- `method`, up to letter case -/
  method : ∃ m, TagIs ev "method" m ∧ eqIgnoreAsciiCase m b.method
  /-- `purpose` -/
  purpose : TagIs ev "purpose" b.purpose
  /-- `challenge` -/
  nonce : TagIs ev "challenge" b.nonce
  /-- `payload` -/
  payload : TagIs ev "payload" b.payload
  /-- The tag of the target. -/
  target : ∀ t, b.target = some t → TagIs ev t.1 t.2
  /-- `instance_id` -/
  instanceId : ∀ i, b.instanceId = some i → TagIs ev "instance_id" i

/-- The names of the tags that a state change must be bound by. -/
def ActionBinding.names (b : ActionBinding) : List String :=
  ["u", "method", "purpose", "challenge", "payload"] ++ (b.target.map Prod.fst).toList ++
    (b.instanceId.map fun _ => "instance_id").toList

/-- Bound, and each bound name is on exactly one tag, with or without a value. -/
structure FullyBound (ev : Nip98Event) (b : ActionBinding) : Prop where
  /-- The values. -/
  bound : Bound ev b
  /-- No duplicates. -/
  single : ∀ name ∈ b.names, ev.tags.countP (fun tag => tag.head? = some name) = 1

theorem countP_head (name : String) (tags : List (List String)) :
    tags.countP (fun tag => tag.head? = some name) =
      tags.countP (carries name) + tags.countP (· = [name]) := by
  induction tags with
  | nil => rfl
  | cons tag rest ih =>
    simp only [List.countP_cons, ih]
    match tag with
    | [] => simp [carries]
    | [n] =>
      by_cases h : n = name
      · simp [carries, h, Nat.add_assoc]
      · simp [carries, h]
    | n :: value :: more =>
      by_cases h : n = name
      · simp [carries, h, Nat.add_right_comm]
      · simp [carries, h]

theorem TagIs.countP {ev : Nip98Event} {name v : String} (h : TagIs ev name v) :
    ev.tags.countP (carries name) = 1 := by
  obtain ⟨more, h⟩ := h
  rw [List.countP_eq_length_filter, h]
  rfl

theorem Bound.countP {ev : Nip98Event} {b : ActionBinding} (h : Bound ev b) :
    ∀ name ∈ b.names, ev.tags.countP (carries name) = 1 := by
  obtain ⟨m, hmethod, -⟩ := h.method
  intro name hname
  simp only [ActionBinding.names, List.mem_append, List.mem_cons, List.not_mem_nil, or_false,
    Option.mem_toList, Option.map_eq_some_iff] at hname
  rcases hname with ((rfl | rfl | rfl | rfl | rfl) | ⟨t, ht, rfl⟩) | ⟨i, hi, rfl⟩
  · exact h.url.countP
  · exact hmethod.countP
  · exact h.purpose.countP
  · exact h.nonce.countP
  · exact h.payload.countP
  · exact (h.target t ht).countP
  · exact (h.instanceId i hi).countP

/-- A bound event is fully bound unless it has a tag that is a bound name and nothing else. -/
theorem fullyBound_iff {ev : Nip98Event} {b : ActionBinding} (h : Bound ev b) :
    FullyBound ev b ↔ ∀ name ∈ b.names, [name] ∉ ev.tags := by
  have hcount : ∀ name ∈ b.names,
      (ev.tags.countP (fun tag => tag.head? = some name) = 1 ↔ [name] ∉ ev.tags) := by
    intro name hname
    rw [countP_head, h.countP name hname, Nat.add_eq_left, List.countP_eq_zero]
    constructor
    · intro hnone hmem
      exact hnone _ hmem (decide_eq_true rfl)
    · intro hnot tag htag heq
      exact hnot (of_decide_eq_true heq ▸ htag)
  constructor
  · intro hfull name hname
    exact (hcount name hname).mp (hfull.single name hname)
  · intro hnot
    exact ⟨h, fun name hname => (hcount name hname).mpr (hnot name hname)⟩

/-- **An accepted state change** is an authenticated event that is bound to it. -/
theorem verifySignedAction_eq_ok {crypto : Nip98Crypto} {header : String} {b : ActionBinding}
    {now maxAge : Int64} (hmax : 0 ≤ maxAge.toInt) {pubkey : String}
    (h : verifySignedAction crypto header b now maxAge = .ok pubkey) :
    ∃ ev, Authenticated crypto header now maxAge ev ∧ Bound ev b ∧
      pubkey = toLowercase ev.pubkey := by
  unfold verifySignedAction at h
  obtain ⟨ev, hev, h⟩ := bind_eq_ok_iff.mp h
  obtain ⟨_, hurl, h⟩ := bind_eq_ok_iff.mp h
  obtain ⟨_, hmethod, h⟩ := bind_eq_ok_iff.mp h
  obtain ⟨_, hpurpose, h⟩ := bind_eq_ok_iff.mp h
  obtain ⟨_, hnonce, h⟩ := bind_eq_ok_iff.mp h
  obtain ⟨_, hpayload, h⟩ := bind_eq_ok_iff.mp h
  obtain ⟨_, htarget, h⟩ := bind_eq_ok_iff.mp h
  obtain ⟨_, hinstance, h⟩ := bind_eq_ok_iff.mp h
  refine ⟨ev, (parseAuthenticated_eq_ok_iff hmax).mp hev, ?_, (Except.ok.inj h).symm⟩
  exact {
    url := bindTag_eq_ok_iff.mp hurl
    method := bindTagBy_eq_ok_iff.mp hmethod
    purpose := bindTag_eq_ok_iff.mp hpurpose
    nonce := bindTag_eq_ok_iff.mp hnonce
    payload := bindTag_eq_ok_iff.mp hpayload
    target := bindOptional_eq_ok_iff.mp htarget
    instanceId := fun i hi => bindOptional_eq_ok_iff.mp hinstance ("instance_id", i) (by simp [hi]) }

end SmirkBackend
