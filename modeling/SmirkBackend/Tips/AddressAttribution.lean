import SmirkBackend.Chain.Address
import SmirkBackend.Tips.SweepReconciler

/-!
# Which outputs an address names

The history of an address is fetched by its script, but the amounts of a transaction are attributed
by text: an output counts if the server's rendering of its script is the very string the caller
gave.  A server renders a script in one way, while the decoder accepts two version bytes for a
Litecoin script hash and two letter cases for bech32.  The two identifications agree exactly on the
addresses in the servers' spelling.

This is `attributesTo_iff`: an address gets the sums of its script (`AttributesTo`) exactly if it is
`SpelledCanonically`.
-/

namespace SmirkBackend

/-! ### What is counted -/

/-- Sum amounts in order. -/
def sumAmounts (overflow : String) (total : UInt64) : List Float → Except AppError UInt64
  | [] => .ok total
  | value :: rest => do
    let sats ← checkedBtcToSat value
    let total ← checkedAdd overflow total sats
    sumAmounts overflow total rest

theorem sumAt_eq (overflow address : String) (total : UInt64)
    (l : List (ScriptPubKeyInfo × Float)) :
    sumAt overflow address total l =
      sumAmounts overflow total ((l.filter fun p => p.1.getAddress = some address).map (·.2)) := by
  induction l generalizing total with
  | nil => rfl
  | cons p rest ih =>
    obtain ⟨script, value⟩ := p
    by_cases h : script.getAddress = some address
    · simp only [sumAt, h, if_true, ih, decide_true, List.filter_cons_of_pos, List.map_cons,
        sumAmounts]
    · simp [sumAt, h, ih]

namespace VerboseTransaction

variable (tx : VerboseTransaction) (address : String)

/-- The resolved previous outputs of a transaction. -/
def prevouts : List Prevout := tx.vin.filterMap (·.prevout)

/-- The outputs that `total_received_at` counts. -/
def outputsAt : List VerboseVout :=
  tx.vout.filter fun v => v.scriptPubKey.getAddress = some address

/-- The previous outputs that `total_sent_from` counts. -/
def prevoutsAt : List Prevout :=
  tx.prevouts.filter fun p => p.scriptPubKey.getAddress = some address

theorem totalReceivedAt_eq : tx.totalReceivedAt address =
    sumAmounts "output amount sum overflow" 0 ((tx.outputsAt address).map (·.value)) := by
  simp [totalReceivedAt, outputsAt, sumAt_eq, List.filter_map, Function.comp_def]

theorem totalSentFrom_eq : tx.totalSentFrom address =
    if tx.vin.any fun vin => vin.prevout.isNone then .ok none
    else some <$> sumAmounts "input amount sum overflow" 0
      ((tx.prevoutsAt address).map (·.value)) := by
  simp [totalSentFrom, prevoutsAt, prevouts, sumAt_eq, List.filter_map, Function.comp_def]

end VerboseTransaction

/-! ### Servers -/

/-- A server renders each script in its own encoding: the current version byte for a script hash,
lower case for a witness program, and distinct scripts differently. -/
structure RendersCanonically (codec : AddressCodec) (net : UtxoNetwork)
    (render : List UInt8 → Option String) : Prop where
  /-- A public key hash. -/
  p2pkh : ∀ hash160 : List UInt8, hash160.length = 20 →
    render (p2pkhScript hash160) = some (codec.base58check net.p2pkhVersion hash160)
  /-- A script hash. -/
  p2sh : ∀ (version : UInt8) (hash160 : List UInt8), net.p2shVersions.head? = some version →
    hash160.length = 20 → render (p2shScript hash160) = some (codec.base58check version hash160)
  /-- A witness program. -/
  witness : ∀ version program, ValidProgram version program →
    render (witnessScript version program) =
      some (codec.segwitEncode net.segwitHrp version program)
  /-- An address names one script. -/
  injective : ∀ {t t' a}, render t = some a → render t' = some a → t = t'

/-- A transaction as a server gives it, with the scripts behind its resolved inputs and its
outputs. -/
structure ServedTx (render : List UInt8 → Option String) (ins outs : List (List UInt8))
    (tx : VerboseTransaction) : Prop where
  /-- Outputs. -/
  outs : List.Forall₂ (fun t v => v.scriptPubKey.getAddress = render t) outs tx.vout
  /-- Resolved inputs. -/
  ins : List.Forall₂ (fun t p => p.scriptPubKey.getAddress = render t) ins tx.prevouts

/-- The items whose script is `script`. -/
def itemsOf {α : Type} (script : List UInt8) (scripts : List (List UInt8)) (l : List α) : List α :=
  ((scripts.zip l).filter fun p => p.1 = script).map (·.2)

/-- On every transaction a server gives, the sums at the address count the items of the script. -/
def AttributesTo (render : List UInt8 → Option String) (address : String)
    (script : List UInt8) : Prop :=
  ∀ ins outs tx, ServedTx render ins outs tx →
    (tx.outputsAt address = itemsOf script outs tx.vout ∧
      tx.totalReceivedAt address = sumAmounts "output amount sum overflow" 0
        ((itemsOf script outs tx.vout).map (·.value))) ∧
    tx.prevoutsAt address = itemsOf script ins tx.prevouts ∧
      tx.totalSentFrom address =
        if tx.vin.any fun vin => vin.prevout.isNone then .ok none
        else some <$> sumAmounts "input amount sum overflow" 0
          ((itemsOf script ins tx.prevouts).map (·.value))

/-- The address is in the servers' spelling: lower case for bech32, the current version byte for a
script hash. -/
def SpelledCanonically (codec : AddressCodec) (net : UtxoNetwork) (address : String) : Prop :=
  if net.looksSegwit address then toLowercase address = address
  else ∀ version rest, codec.base58Decode address = some (version :: rest) →
    version ∈ net.p2shVersions → net.p2shVersions.head? = some version

section Agreement

variable {codec : AddressCodec} {net : UtxoNetwork} {render : List UInt8 → Option String}
  {address : String} {script : List UInt8}

/-- Items selected by a text that renders one script are the items of that script. -/
theorem filter_eq_itemsOf {α : Type} {info : α → ScriptPubKeyInfo} {scripts : List (List UInt8)}
    {l : List α} (h : List.Forall₂ (fun t x => (info x).getAddress = render t) scripts l)
    (hone : ∀ t, render t = some address ↔ t = script) :
    l.filter (fun x => (info x).getAddress = some address) = itemsOf script scripts l := by
  induction h with
  | nil => rfl
  | @cons t x scripts l hx _ ih =>
    unfold itemsOf at ih ⊢
    by_cases ht : t = script
    · have hrender := hx.trans ((hone t).mpr ht)
      rw [List.filter_cons_of_pos (by simpa using hrender), ih, List.zip_cons_cons,
        List.filter_cons_of_pos (by simpa using ht), List.map_cons]
    · have hrender : (info x).getAddress ≠ some address := by
        rw [hx]
        exact (hone t).not.mpr ht
      rw [List.filter_cons_of_neg (by simpa using hrender), ih, List.zip_cons_cons,
        List.filter_cons_of_neg (by simpa using ht)]

/-- The sums are attributed by script exactly if the address is the rendering of the script. -/
theorem attributesTo_iff_render (hinj : ∀ {t t' a}, render t = some a → render t' = some a → t = t') :
    AttributesTo render address script ↔ render script = some address := by
  constructor
  · intro h
    -- a transaction with one output, which pays the script
    obtain ⟨⟨hcount, -⟩, -⟩ := h [] [script] ⟨"", [], [⟨0, 0, ⟨render script, none⟩⟩]⟩
      ⟨.cons (by simp [ScriptPubKeyInfo.getAddress]) .nil, .nil⟩
    by_contra hne
    simp [VerboseTransaction.outputsAt, itemsOf, ScriptPubKeyInfo.getAddress, hne] at hcount
  · intro h ins outs tx hserved
    have hone : ∀ t, render t = some address ↔ t = script := by
      intro t
      constructor
      · intro ht
        exact hinj ht h
      · rintro rfl
        exact h
    have houts : tx.outputsAt address = itemsOf script outs tx.vout :=
      filter_eq_itemsOf hserved.outs hone
    have hins : tx.prevoutsAt address = itemsOf script ins tx.prevouts :=
      filter_eq_itemsOf hserved.ins hone
    refine ⟨⟨houts, ?_⟩, hins, ?_⟩
    · rw [tx.totalReceivedAt_eq, houts]
    · rw [tx.totalSentFrom_eq, hins]

/-- A server renders the script of an accepted address as the address itself exactly if the address
is in its spelling. -/
theorem render_eq_iff (hc : codec.Lawful) (hr : RendersCanonically codec net render)
    (h : net.addressToScript codec address = .ok script) :
    render script = some address ↔ SpelledCanonically codec net address := by
  unfold UtxoNetwork.addressToScript at h
  unfold SpelledCanonically
  by_cases hsegwit : net.looksSegwit address
  · rw [if_pos hsegwit] at h ⊢
    obtain ⟨hrp, version, program, hdecode, hhrp, rfl⟩ := UtxoNetwork.segwitToScript_ok_iff.mp h
    obtain ⟨hvalid, htext⟩ := hc.segwit_decode hdecode
    rw [hr.witness version program hvalid, Option.some.injEq, ← hhrp, ← htext]
  · rw [if_neg hsegwit] at h ⊢
    obtain ⟨version, hash160, hlength, htext, hdecode, hscript⟩ :=
      UtxoNetwork.base58_of_ok hc h
    have hbytes : ∀ v rest, codec.base58Decode address = some (v :: rest) → v = version := by
      intro v rest hv
      rw [hdecode, Option.some.injEq, List.cons_append] at hv
      exact (List.cons.inj hv).1.symm
    rcases hscript with ⟨rfl, rfl⟩ | ⟨-, hp2sh, rfl⟩
    · -- no network uses one version byte for both
      have hnot : net.p2pkhVersion ∉ net.p2shVersions := by
        cases net <;> decide
      rw [hr.p2pkh hash160 hlength, ← htext]
      refine iff_of_true rfl ?_
      intro v rest hv hmem
      rw [hbytes v rest hv] at hmem
      exact absurd hmem hnot
    · obtain ⟨current, hcurrent⟩ : ∃ current, net.p2shVersions.head? = some current := by
        cases net <;> exact ⟨_, rfl⟩
      rw [hr.p2sh current hash160 hcurrent hlength, Option.some.injEq]
      constructor
      · intro heq v rest hv _
        have hsame := hc.base58_injective (heq.trans htext)
        rw [List.cons_append, List.cons_append] at hsame
        rw [hcurrent, hbytes v rest hv, (List.cons.inj hsame).1]
      · intro hspelled
        have hhead := hspelled version _ (by rw [hdecode, List.cons_append]) hp2sh
        rw [hcurrent, Option.some.injEq] at hhead
        rw [hhead, htext]

/-- **Attribution by text against attribution by script.**  For an accepted address the amounts are
summed over the outputs and previous outputs of its script, the one its history is fetched by,
exactly if the address is in the servers' spelling. -/
theorem attributesTo_iff (hc : codec.Lawful) (hr : RendersCanonically codec net render)
    (h : net.addressToScript codec address = .ok script) :
    net.addressToScripthash codec address = .ok (UtxoNetwork.scripthash codec script) ∧
      (AttributesTo render address script ↔ SpelledCanonically codec net address) := by
  constructor
  · rw [UtxoNetwork.addressToScripthash, h]
    rfl
  · exact (attributesTo_iff_render hr.injective).trans (render_eq_iff hc hr h)

end Agreement

/-! ### A server -/

instance (version : UInt8) (program : List UInt8) : Decidable (ValidProgram version program) :=
  decidable_of_iff (version ≤ 16 ∧ 2 ≤ program.length ∧ program.length ≤ 40 ∧
      (version = 0 → program.length = 20 ∨ program.length = 32))
    ⟨fun ⟨h₁, h₂, h₃, h₄⟩ => ⟨h₁, h₂, h₃, h₄⟩, fun ⟨h₁, h₂, h₃, h₄⟩ => ⟨h₁, h₂, h₃, h₄⟩⟩

/-- The version an opcode stands for. -/
def programVersion (opcode : UInt8) : UInt8 := if opcode = 0 then 0 else opcode - 0x50

/-- The address a server renders a script as. -/
def canonicalAddress (codec : AddressCodec) (net : UtxoNetwork) (script : List UInt8) :
    Option String :=
  if script = p2pkhScript ((script.drop 3).take 20) then
    some (codec.base58check net.p2pkhVersion ((script.drop 3).take 20))
  else if script = p2shScript ((script.drop 2).take 20) then
    net.p2shVersions.head?.map fun version => codec.base58check version ((script.drop 2).take 20)
  else
    let version := programVersion (script.headD 0)
    let program := script.drop 2
    if script = witnessScript version program ∧ ValidProgram version program then
      some (codec.segwitEncode net.segwitHrp version program)
    else none

theorem witness_opcode {version : UInt8} (h : version ≤ 16) :
    ((if version = 0 then 0x00 else 0x50 + version) : UInt8) ≠ 0x76 ∧
      ((if version = 0 then 0x00 else 0x50 + version) : UInt8) ≠ 0xa9 ∧
      programVersion (if version = 0 then 0x00 else 0x50 + version) = version := by
  have hall : ∀ n : Fin 17,
      ((if UInt8.ofNat n = 0 then 0x00 else 0x50 + UInt8.ofNat n) : UInt8) ≠ 0x76 ∧
        ((if UInt8.ofNat n = 0 then 0x00 else 0x50 + UInt8.ofNat n) : UInt8) ≠ 0xa9 ∧
        programVersion (if UInt8.ofNat n = 0 then 0x00 else 0x50 + UInt8.ofNat n) =
          UInt8.ofNat n := by decide
  have hlt : version.toNat < 17 := Nat.lt_succ_of_le (UInt8.le_iff_toNat_le.mp h)
  simpa only [UInt8.ofNat_toNat] using hall ⟨version.toNat, hlt⟩

section Canonical

variable {codec : AddressCodec} {net : UtxoNetwork}

/-- What is rendered is one of the three kinds of script. -/
theorem canonicalAddress_cases {script : List UInt8} {a : String}
    (h : canonicalAddress codec net script = some a) :
    (∃ hash160 : List UInt8, hash160.length = 20 ∧ script = p2pkhScript hash160 ∧
      a = codec.base58check net.p2pkhVersion hash160) ∨
    (∃ (version : UInt8) (hash160 : List UInt8), net.p2shVersions.head? = some version ∧
      hash160.length = 20 ∧ script = p2shScript hash160 ∧ a = codec.base58check version hash160) ∨
    ∃ version program, script = witnessScript version program ∧
      a = codec.segwitEncode net.segwitHrp version program := by
  unfold canonicalAddress at h
  by_cases hp2pkh : script = p2pkhScript ((script.drop 3).take 20)
  · rw [if_pos hp2pkh] at h
    refine .inl ⟨_, ?_, hp2pkh, (Option.some.inj h).symm⟩
    have hlength := congrArg List.length hp2pkh
    simp only [p2pkhScript, List.length_append, List.length_take, List.length_drop,
      List.length_cons, List.length_nil] at hlength ⊢
    omega
  · rw [if_neg hp2pkh] at h
    by_cases hp2sh : script = p2shScript ((script.drop 2).take 20)
    · rw [if_pos hp2sh] at h
      obtain ⟨version, hversion, ha⟩ := Option.map_eq_some_iff.mp h
      refine .inr (.inl ⟨version, _, hversion, ?_, hp2sh, ha.symm⟩)
      have hlength := congrArg List.length hp2sh
      simp only [p2shScript, List.length_append, List.length_take, List.length_drop,
        List.length_cons, List.length_nil] at hlength ⊢
      omega
    · rw [if_neg hp2sh, Option.ite_none_right_eq_some] at h
      exact .inr (.inr ⟨_, _, h.1.1, (Option.some.inj h.2).symm⟩)

theorem base58check_inj (h58 : ∀ {b b'}, codec.base58Encode b = codec.base58Encode b' → b = b')
    {version version' : UInt8} {hash160 hash160' : List UInt8}
    (hlength : hash160.length = hash160'.length)
    (h : codec.base58check version hash160 = codec.base58check version' hash160') :
    version = version' ∧ hash160 = hash160' := by
  have hbytes := h58 h
  rw [List.cons_append, List.cons_append] at hbytes
  obtain ⟨hversion, hrest⟩ := List.cons.inj hbytes
  exact ⟨hversion, List.append_inj_left hrest hlength⟩

/-- It renders canonically when base58 and bech32 texts are distinct. -/
theorem canonicalAddress_canonical (hc : codec.Lawful)
    (hsegwit : ∀ {version version' program program'},
      codec.segwitEncode net.segwitHrp version program =
        codec.segwitEncode net.segwitHrp version' program' →
      version = version' ∧ program = program')
    (hdistinct : ∀ byte hash160 version program,
      byte = net.p2pkhVersion ∨ net.p2shVersions.head? = some byte →
      codec.base58check byte hash160 ≠ codec.segwitEncode net.segwitHrp version program) :
    RendersCanonically codec net (canonicalAddress codec net) where
  p2pkh hash160 hlength := by
    have htake : ((p2pkhScript hash160).drop 3).take 20 = hash160 := by
      simp [p2pkhScript, ← hlength]
    rw [canonicalAddress, htake, if_pos rfl]
  p2sh version hash160 hversion hlength := by
    have htake : ((p2shScript hash160).drop 2).take 20 = hash160 := by
      simp [p2shScript, ← hlength]
    have hnot : ∀ h, p2shScript hash160 ≠ p2pkhScript h := fun h heq =>
      absurd (List.cons.inj heq).1 (by decide)
    rw [canonicalAddress, htake, if_neg (hnot _), if_pos rfl, hversion, Option.map_some]
  witness version program hvalid := by
    obtain ⟨hp2pkh, hp2sh, hopcode⟩ := witness_opcode hvalid.le_sixteen
    have hnot : ∀ h, witnessScript version program ≠ p2pkhScript h := fun h heq =>
      absurd (List.cons.inj heq).1 hp2pkh
    have hnot' : ∀ h, witnessScript version program ≠ p2shScript h := fun h heq =>
      absurd (List.cons.inj heq).1 hp2sh
    have hhead : programVersion ((witnessScript version program).headD 0) = version := hopcode
    have hdrop : (witnessScript version program).drop 2 = program := rfl
    rw [canonicalAddress, if_neg (hnot _), if_neg (hnot' _), hhead, hdrop,
      if_pos ⟨rfl, hvalid⟩]
  injective {t t' a} h h' := by
    have hversions : ∀ version, net.p2shVersions.head? = some version →
        net.p2pkhVersion ≠ version := by
      intro version hversion
      cases net <;> obtain rfl := Option.some.inj hversion <;> decide
    rcases canonicalAddress_cases h with ⟨h₁, hl, rfl, rfl⟩ | ⟨v₁, h₁, hv, hl, rfl, rfl⟩ |
      ⟨v₁, p₁, rfl, rfl⟩ <;>
    rcases canonicalAddress_cases h' with ⟨h₂, hl', rfl, ha⟩ | ⟨v₂, h₂, hv', hl', rfl, ha⟩ |
      ⟨v₂, p₂, rfl, ha⟩
    · rw [(base58check_inj hc.base58_injective (hl.trans hl'.symm) ha).2]
    · exact absurd (base58check_inj hc.base58_injective (hl.trans hl'.symm) ha).1
        (hversions _ hv')
    · exact absurd ha (hdistinct _ _ _ _ (.inl rfl))
    · exact absurd (base58check_inj hc.base58_injective (hl.trans hl'.symm) ha).1.symm
        (hversions _ hv)
    · rw [(base58check_inj hc.base58_injective (hl.trans hl'.symm) ha).2]
    · exact absurd ha (hdistinct _ _ _ _ (.inr hv))
    · exact absurd ha.symm (hdistinct _ _ _ _ (.inl rfl))
    · exact absurd ha.symm (hdistinct _ _ _ _ (.inr hv'))
    · obtain ⟨rfl, rfl⟩ := hsegwit ha
      rfl

end Canonical

/-! ### Addresses of the zero hash -/

/-- The hash of twenty zero bytes. -/
def zeroHash : List UInt8 := .replicate 20 0

namespace AddressCodec

/-- The script-hash address of the zero hash under the legacy version byte, which is Bitcoin's. -/
def legacyAddress : String := "31h1vYVSYuKP6AhS86fbRdMw9XHieotbST"

/-- The Litecoin script-hash address of the zero hash under the current version byte. -/
def currentAddress : String := "M7uAERuQW2AotfyLDyewFGcLUDtAYu9v5V"

/-- The bytes of the legacy address. -/
def legacyBytes : List UInt8 := 0x05 :: zeroHash ++ [0xdc, 0x8c, 0x61, 0xc4]

/-- The bytes of the current address. -/
def currentBytes : List UInt8 := 0x32 :: zeroHash ++ [0x07, 0x69, 0x3e, 0x18]

/-- The Bitcoin witness address of the zero hash. -/
def lowerAddress : String := "bc1qqqqqqqqqqqqqqqqqqqqqqqqqqqqqqqqq9e75rs"

/-- The same address in upper case. -/
def upperAddress : String := "BC1QQQQQQQQQQQQQQQQQQQQQQQQQQQQQQQQQ9E75RS"

/-- The encodings at the zero hash; other texts are tagged hexadecimal. -/
def sample : AddressCodec where
  base58Encode b :=
    if b = legacyBytes then legacyAddress
    else if b = currentBytes then currentAddress
    else "#" ++ Lib.hexEncode b
  base58Decode a :=
    if a = legacyAddress then some legacyBytes
    else if a = currentAddress then some currentBytes
    else none
  segwitEncode hrp version program :=
    if hrp = "bc" ∧ version = 0 ∧ program = zeroHash then lowerAddress
    else "~" ++ Lib.hexEncode (version :: program)
  segwitDecode a :=
    if a = lowerAddress then some ("bc", 0, zeroHash)
    else if a = upperAddress then some ("BC", 0, zeroHash)
    else none
  sha256 b :=
    if b = 0x05 :: zeroHash then
      [0x1c, 0x3d, 0xb4, 0xbd, 0x4e, 0x41, 0xf9, 0x2e, 0x0d, 0xa3, 0xd7, 0xda, 0x4d, 0x3b, 0x15,
        0xa7, 0xdd, 0xaf, 0x6f, 0x29, 0xfd, 0xa8, 0xe7, 0xbc, 0x88, 0x74, 0xc9, 0x21, 0x2b, 0xf6,
        0xf8, 0x88]
    else if b = 0x32 :: zeroHash then
      [0x80, 0x1b, 0x96, 0x2a, 0x7e, 0x16, 0x01, 0x9e, 0x21, 0x06, 0xf7, 0xb7, 0xfb, 0x2e, 0xb1,
        0x96, 0x9c, 0x72, 0x10, 0xa1, 0x72, 0x1e, 0x5e, 0x25, 0xd9, 0xe7, 0xa8, 0xa3, 0x60, 0xee,
        0x15, 0xfd]
    else if b.head? = some 0x1c then
      [0xdc, 0x8c, 0x61, 0xc4, 0xdc, 0xb6, 0xa1, 0xed, 0xd2, 0x06, 0x6b, 0x7f, 0x18, 0x61, 0x3a,
        0xd8, 0xd9, 0x62, 0x79, 0x6d, 0x9e, 0x65, 0xc6, 0xbe, 0x42, 0x23, 0xba, 0xe9, 0xd3, 0x08,
        0x57, 0x0c]
    else if b.head? = some 0xa9 then
      [0x7f, 0xad, 0xc7, 0x4b, 0x41, 0xad, 0x53, 0xb9, 0x48, 0x23, 0x2a, 0x99, 0x22, 0x71, 0x54,
        0x7b, 0x42, 0x93, 0xb8, 0x1e, 0x95, 0xa1, 0xaa, 0x55, 0xb9, 0x5a, 0x43, 0xe6, 0x01, 0x18,
        0x90, 0xb9]
    else
      [0x07, 0x69, 0x3e, 0x18, 0x09, 0xe1, 0x5f, 0x74, 0xc6, 0x17, 0xf1, 0xc4, 0xc9, 0x74, 0x4d,
        0x3a, 0xb1, 0x85, 0x4a, 0xdf, 0x0b, 0xaf, 0xfe, 0xfa, 0xb9, 0x92, 0xae, 0x8e, 0x4d, 0xa0,
        0xb0, 0x19]

theorem tag_ne {tag text : String} (rest : String) (htag : tag.toList ≠ [])
    (h : tag.toList.head? ≠ text.toList.head?) : tag ++ rest ≠ text := by
  intro heq
  have hhead := congrArg (fun s : String => s.toList.head?) heq
  simp only [String.toList_append] at hhead
  rw [List.head?_append_of_ne_nil _ htag] at hhead
  exact h hhead

theorem sample_base58 (b : List UInt8) :
    sample.base58Encode b = legacyAddress ∧ b = legacyBytes ∨
      sample.base58Encode b = currentAddress ∧ b = currentBytes ∨
      sample.base58Encode b = "#" ++ Lib.hexEncode b := by
  by_cases hlegacy : b = legacyBytes
  · exact .inl ⟨if_pos hlegacy, hlegacy⟩
  · by_cases hcurrent : b = currentBytes
    · exact .inr (.inl ⟨(if_neg hlegacy).trans (if_pos hcurrent), hcurrent⟩)
    · exact .inr (.inr ((if_neg hlegacy).trans (if_neg hcurrent)))

theorem sample_segwit (hrp : String) (version : UInt8) (program : List UInt8) :
    sample.segwitEncode hrp version program = lowerAddress ∧ version = 0 ∧ program = zeroHash ∨
      sample.segwitEncode hrp version program = "~" ++ Lib.hexEncode (version :: program) := by
  by_cases h : hrp = "bc" ∧ version = 0 ∧ program = zeroHash
  · exact .inl ⟨if_pos h, h.2⟩
  · exact .inr (if_neg h)

theorem sample_lawful : sample.Lawful where
  base58_injective {b b'} h := by
    have hlegacy : ∀ rest, "#" ++ rest ≠ legacyAddress := fun rest =>
      tag_ne rest (by decide) (by decide)
    have hcurrent : ∀ rest, "#" ++ rest ≠ currentAddress := fun rest =>
      tag_ne rest (by decide) (by decide)
    rcases sample_base58 b with ⟨hb, hbytes⟩ | ⟨hb, hbytes⟩ | hb <;>
    rcases sample_base58 b' with ⟨hb', hbytes'⟩ | ⟨hb', hbytes'⟩ | hb' <;>
    rw [hb, hb'] at h
    · rw [hbytes, hbytes']
    · exact absurd h (by decide)
    · exact absurd h.symm (hlegacy _)
    · exact absurd h (by decide)
    · rw [hbytes, hbytes']
    · exact absurd h.symm (hcurrent _)
    · exact absurd h (hlegacy _)
    · exact absurd h (hcurrent _)
    · exact Lib.hexEncode_injective (String.append_right_inj _ |>.mp h)
  base58_decode {a b} h := by
    simp only [sample] at h
    split at h
    · obtain rfl := Option.some.inj h
      assumption
    · split at h
      · obtain rfl := Option.some.inj h
        assumption
      · cases h
  segwit_decode {a hrp version program} h := by
    simp only [sample] at h
    split at h
    · rename_i ha
      cases h
      rw [ha]
      exact ⟨by decide, by decide⟩
    · split at h
      · rename_i ha
        cases h
        rw [ha]
        exact ⟨by decide, by decide⟩
      · cases h

/-- A server renders the sample encodings canonically. -/
theorem sample_canonical (net : UtxoNetwork) :
    RendersCanonically sample net (canonicalAddress sample net) := by
  refine canonicalAddress_canonical sample_lawful ?_ ?_
  · intro version version' program program' h
    have htag : ∀ rest, "~" ++ rest ≠ lowerAddress := fun rest =>
      tag_ne rest (by decide) (by decide)
    rcases sample_segwit net.segwitHrp version program with ⟨hs, hversion, hprogram⟩ | hs <;>
    rcases sample_segwit net.segwitHrp version' program' with ⟨hs', hversion', hprogram'⟩ | hs' <;>
    rw [hs, hs'] at h
    · exact ⟨hversion.trans hversion'.symm, hprogram.trans hprogram'.symm⟩
    · exact absurd h.symm (htag _)
    · exact absurd h (htag _)
    · exact List.cons.inj (Lib.hexEncode_injective (String.append_right_inj _ |>.mp h))
  · intro byte hash160 version program _ h
    unfold base58check at h
    rcases sample_base58 (byte :: hash160 ++ sample.checksum (byte :: hash160)) with
      ⟨hb, -⟩ | ⟨hb, -⟩ | hb <;>
    rcases sample_segwit net.segwitHrp version program with ⟨hs, -, -⟩ | hs <;>
    rw [hb, hs] at h
    · exact absurd h (by decide)
    · exact absurd h.symm (tag_ne _ (by decide) (by decide))
    · exact absurd h (by decide)
    · exact absurd h.symm (tag_ne _ (by decide) (by decide))
    · exact absurd h (tag_ne _ (by decide) (by decide))
    · refine absurd h (tag_ne _ (by decide) ?_)
      simp

end AddressCodec

open AddressCodec

/-- A transaction that pays one script, rendered as `address`. -/
def VerboseTransaction.funding (address : String) : VerboseTransaction :=
  ⟨"f0", [], [⟨0.5, 0, ⟨some address, none⟩⟩]⟩

/-- Two funded addresses that read as unfunded, and whose funding reads as a spend: a Litecoin
script hash under the legacy version byte and a Bitcoin address in upper case. -/
theorem alternative_spelling_uncounted :
    (UtxoNetwork.litecoinMainnet.addressToScript sample legacyAddress = .ok (p2shScript zeroHash) ∧
      ServedTx (canonicalAddress sample .litecoinMainnet) [] [p2shScript zeroHash]
        (.funding currentAddress) ∧
      (VerboseTransaction.funding currentAddress).totalReceivedAt legacyAddress = .ok 0 ∧
      isVerboseTxSpendOf (.funding currentAddress) legacyAddress = .ok true ∧
      ¬ AttributesTo (canonicalAddress sample .litecoinMainnet) legacyAddress
        (p2shScript zeroHash)) ∧
    UtxoNetwork.bitcoinMainnet.addressToScript sample upperAddress =
        .ok (witnessScript 0 zeroHash) ∧
      ServedTx (canonicalAddress sample .bitcoinMainnet) [] [witnessScript 0 zeroHash]
        (.funding lowerAddress) ∧
      (VerboseTransaction.funding lowerAddress).totalReceivedAt upperAddress = .ok 0 ∧
      isVerboseTxSpendOf (.funding lowerAddress) upperAddress = .ok true ∧
      ¬ AttributesTo (canonicalAddress sample .bitcoinMainnet) upperAddress
        (witnessScript 0 zeroHash) := by
  have hserved : ∀ net script address, canonicalAddress sample net script = some address →
      ServedTx (canonicalAddress sample net) [] [script] (.funding address) := by
    intro net script address h
    exact ⟨.cons (by rw [h]; rfl) .nil, .nil⟩
  have hnot : ∀ net script address, canonicalAddress sample net script ≠ some address →
      ¬ AttributesTo (canonicalAddress sample net) address script := by
    intro net script address h
    rwa [attributesTo_iff_render (sample_canonical net).injective]
  refine ⟨⟨by decide, hserved _ _ _ (by decide), by decide, ?_, hnot _ _ _ (by decide)⟩,
    by decide, hserved _ _ _ (by decide), by decide, ?_, hnot _ _ _ (by decide)⟩
  · rfl
  · rfl

/-- The current spellings are attributed. -/
theorem current_spelling_attributed :
    AttributesTo (canonicalAddress sample .litecoinMainnet) currentAddress (p2shScript zeroHash) ∧
      ¬ AttributesTo (canonicalAddress sample .litecoinMainnet) legacyAddress
        (p2shScript zeroHash) := by
  have hcurrent : UtxoNetwork.litecoinMainnet.addressToScript sample currentAddress =
      .ok (p2shScript zeroHash) := by decide
  have hlegacy : UtxoNetwork.litecoinMainnet.addressToScript sample legacyAddress =
      .ok (p2shScript zeroHash) := by decide
  constructor
  · refine (attributesTo_iff sample_lawful (sample_canonical _) hcurrent).2.mpr ?_
    rintro version rest h -
    obtain rfl : 0x32 = version := (List.cons.inj (Option.some.inj h)).1
    rfl
  · rw [(attributesTo_iff sample_lawful (sample_canonical _) hlegacy).2]
    intro hspelled
    exact absurd (hspelled 0x05 _ rfl (by decide)) (by decide)

end SmirkBackend
