import Mathlib.Data.List.Find
import Mathlib.Logic.Equiv.Basic
import SmirkBackend.LetterCase
import SmirkBackend.Tips.Creation
import SmirkBackend.Tips.Respelling

/-!
# The spelling of a voucher

A commitment is accepted in any letter case and stored as it was sent.  The node matches it by
value and renders it in lower case, and three steps of the workers compare the text they stored
with the text the node gave: the count of confirmations, the verdict on the funding, and the probe
for the spend.  A voucher that was not sent in lower case is never found.

So two spellings of one voucher live the same life exactly if both are in lower case, when they are
one text, or neither is, when neither is ever found.

This is `voucher_spelling_iff`; what the nodes say of two spellings is `sameReading_of_spelling`.
-/

namespace SmirkBackend

open Lib (Table)

/-! ### Nodes -/

/-- The node matches commitments by value and renders them in lower case. -/
structure GrinClient.ByValue (c : GrinClient) : Prop where
  /-- Spellings of one commitment are answered alike. -/
  alike : ∀ s t, SameLetters s t → c.getOutputs [s] = c.getOutputs [t]
  /-- An answer is about the commitment, and in lower case. -/
  rendered : ∀ s outputs, c.getOutputs [s] = .ok outputs →
    ∀ o ∈ outputs, InLowerCase o.commit ∧ SameLetters o.commit s

/-- The Grin node, if there is one, compares commitments. -/
def ChainClients.ByValue (chains : ChainClients) : Prop := ∀ grin ∈ chains.grin, grin.ByValue

/-- The nodes of a turn compare commitments. -/
def TipEvent.ByValue : TipEvent → Prop
  | .turn _ _ chains _ _ => chains.ByValue
  | _ => True

/-! ### What the nodes say of two spellings -/

/-- The commitment that two texts of a tip name. -/
def voucherText (p : VoucherTexts) : Option String :=
  ((p.2 <|> p.1).map trim).filter fun s => !s.isEmpty

theorem grinCommitment_eq (r : SocialTipRow) : grinCommitment r = voucherText r.texts := rfl

/-- Two texts that no answer tells apart. -/
structure Undistinguished (s t : String) : Prop where
  /-- They spell one commitment. -/
  letters : SameLetters s t
  /-- Both are in lower case, or neither. -/
  lower : InLowerCase s ↔ InLowerCase t

theorem Undistinguished.symm {s t : String} (h : Undistinguished s t) : Undistinguished t s :=
  ⟨h.letters.symm, h.lower.symm⟩

theorem Undistinguished.matches_iff {s t u : String} (h : Undistinguished s t)
    (hu : InLowerCase u) : u = s ↔ u = t := by
  by_cases hs : InLowerCase s
  · rw [h.letters.eq_of_lowerCase hs (h.lower.mp hs)]
  · constructor
    · rintro rfl
      exact absurd hu hs
    · rintro rfl
      exact absurd (h.lower.mpr hu) hs

section Readings

variable {chains : ChainClients} {r : SocialTipRow} {s : String}

theorem verifyFundingAmount_of_grin (hasset : toLowercase r.asset = "grin") :
    verifyFundingAmount chains r =
      match chains.grin, grinCommitment r with
      | some grin, some commit =>
        match grin.getOutputs [commit] with
        | .ok outputs =>
          some (grinAmountFromPresence (outputs.any fun o => o.commit = commit) r.amount)
        | .error _ => some .lwsError
      | _, _ => some .lwsError := by
  unfold verifyFundingAmount
  rw [hasset]
  rfl

theorem probeConfirmedSpends_of_grin (hasset : toLowercase r.asset = "grin") :
    probeConfirmedSpends chains r = probeGrinSpends chains r := by
  unfold probeConfirmedSpends
  rw [hasset]
  rfl

/-- The nodes say the same of a Grin tip under two texts that they do not tell apart. -/
theorem sameReading_of_spelling (hchains : chains.ByValue) (hasset : toLowercase r.asset = "grin")
    {p : VoucherTexts} {t : String} (hs : voucherText r.texts = some s)
    (ht : voucherText p = some t) (h : Undistinguished s t) :
    SameReading chains r (r.withTexts p) := by
  have hasset' : toLowercase (r.withTexts p).asset = "grin" := hasset
  have hcommit : grinCommitment r = some s := hs
  have hcommit' : grinCommitment (r.withTexts p) = some t := ht
  have hsweep : sweepExcess (r.withTexts p) = sweepExcess r := rfl
  have hanswer : ∀ grin ∈ chains.grin, grin.getOutputs [t] = grin.getOutputs [s] :=
    fun grin hgrin => ((hchains grin hgrin).alike s t h.letters).symm
  -- the three steps find the same output
  have hfind : ∀ grin ∈ chains.grin, ∀ outputs, grin.getOutputs [s] = .ok outputs →
      (outputs.find? fun o => o.commit = t) = outputs.find? fun o => o.commit = s := by
    intro grin hgrin outputs houtputs
    refine List.find?_congr fun o ho => decide_eq_decide.mpr ?_
    exact (h.matches_iff ((hchains grin hgrin).rendered s outputs houtputs o ho).1).symm
  have hany : ∀ grin ∈ chains.grin, ∀ outputs, grin.getOutputs [s] = .ok outputs →
      (outputs.any fun o => o.commit = t) = outputs.any fun o => o.commit = s := by
    intro grin hgrin outputs houtputs
    rw [← List.isSome_find?, ← List.isSome_find?, hfind grin hgrin outputs houtputs]
  refine ⟨?_, ?_, ?_⟩
  · rw [verifyFundingAmount_of_grin hasset, verifyFundingAmount_of_grin hasset', hcommit, hcommit']
    cases hgrin : chains.grin with
    | none => rfl
    | some grin =>
      simp only [hanswer grin hgrin]
      cases houtputs : grin.getOutputs [s] with
      | error e => rfl
      | ok outputs =>
        simp only [hany grin hgrin outputs houtputs]
        rfl
  · rw [probeConfirmedSpends_of_grin hasset, probeConfirmedSpends_of_grin hasset']
    simp only [probeGrinSpends, hcommit, hcommit', hsweep]
    cases hgrin : chains.grin with
    | none => rfl
    | some grin =>
      cases hheight : grin.getHeight with
      | error e => simp [enabledOr, hheight, bind, Except.bind]
      | ok height =>
        cases houtputs : grin.getOutputs [s] with
        | error e => simp [enabledOr, hheight, hanswer grin hgrin, houtputs, bind, Except.bind]
        | ok outputs =>
          simp [enabledOr, hheight, hanswer grin hgrin, houtputs, bind, Except.bind,
            hany grin hgrin outputs houtputs]
  · intro pass
    cases pass with
    | countXmr | countWow | verify | confirm | reorg => rfl
    | countGrin =>
      simp only [TipPass.count, hcommit, hcommit']
      cases hgrin : chains.grin with
      | none => rfl
      | some grin =>
        simp only [hanswer grin hgrin, Option.bind_eq_bind, Option.bind_some]
        cases houtputs : grin.getOutputs [s] with
        | error e => rfl
        | ok outputs =>
          simp only [Except.toOption, Option.bind_some, hfind grin hgrin outputs houtputs]

end Readings

/-! ### Two requests -/

/-- The requests are the same but for the letter case of the voucher. -/
structure CreateSocialTipRequest.Respelled (req req' : CreateSocialTipRequest) : Prop where
  /-- The voucher as address. -/
  tipAddress : Option.Rel SameLetters req.tipAddress req'.tipAddress
  /-- The voucher as commitment. -/
  grinCommitment : Option.Rel SameLetters req.grinCommitment req'.grinCommitment
  /-- All else. -/
  rest : req' = { req with tipAddress := req'.tipAddress, grinCommitment := req'.grinCommitment }

theorem rel_filled {a b : Option String} (h : Option.Rel SameLetters a b) :
    Option.Rel SameLetters (filled a) (filled b) := by
  cases h with
  | none => exact .none
  | @some s t h =>
    simp only [filled, Option.filter_some, h.isEmpty_eq]
    split
    · exact .some h
    · exact .none

theorem CreateSocialTipRequest.Respelled.commitment {req req' : CreateSocialTipRequest}
    (h : req.Respelled req') (asset : String) :
    Option.Rel SameLetters (req.commitment asset) (req'.commitment asset) := by
  have hcommit := rel_filled h.grinCommitment
  unfold CreateSocialTipRequest.commitment
  split
  · generalize filled req.grinCommitment = a at hcommit
    generalize filled req'.grinCommitment = b at hcommit
    cases hcommit with
    | none => exact rel_filled h.tipAddress
    | some h => exact .some h
  · exact .none

theorem isWhitespace_of_hexValue {c : Char} (h : (Lib.hexValue c).isSome) :
    isWhitespace c = false := by
  unfold Lib.hexValue at h
  have hrange : 48 ≤ c.toNat ∧ c.toNat ≤ 102 := by
    simp only [Char.le_def, UInt32.le_iff_toNat_le] at h
    split_ifs at h with h₁ h₂ h₃ <;> simp at * <;> omega
  simp [isWhitespace]
  omega

theorem trim_of_isHexText {s : String} (h : isHexText s) : trim s = s := by
  have hnot : ∀ c ∈ s.toList, isWhitespace c = false := fun c hc =>
    isWhitespace_of_hexValue (List.all_eq_true.mp h c hc)
  have hdrop : ∀ cs : List Char, (∀ c ∈ cs, isWhitespace c = false) →
      cs.dropWhile isWhitespace = cs := by
    intro cs hcs
    cases cs with
    | nil => rfl
    | cons c rest => rw [List.dropWhile_cons_of_neg (by simp [hcs c List.mem_cons_self])]
  rw [trim, hdrop _ hnot, hdrop _ (by simpa using hnot), List.reverse_reverse, String.ofList_toList]

theorem voucherText_of_valid {a : Option String} {s : String}
    (h : validateFilled "grin" (some s) = .ok ()) : voucherText (a, some s) = some s := by
  have hform : s.utf8ByteSize = 66 ∧ isHexText s := by
    simp only [validateFilled, validateTipAddress, demand] at h
    split_ifs at h with hlength hvalid
    simpa using hvalid
  have hne : s.isEmpty = false := by
    rw [String.isEmpty, beq_eq_false_iff_ne, hform.1]
    decide
  simp [voucherText, trim_of_isHexText hform.2, hne]

/-! ### A node that holds the voucher -/

/-- A node whose output set holds the commitment `s`. -/
def GrinClient.keeping (s : String) : GrinClient where
  status := .ok ⟨some (.ok 20), none⟩
  outputs asked := .ok ⟨some (.ok (if asked.any fun u => toLowercase u = toLowercase s then
    [⟨toLowercase s, some 5, 0⟩] else [])), none⟩
  kernel _ := .ok ⟨some (.ok none), none⟩

theorem getOutputs_keeping (s u : String) : (GrinClient.keeping s).getOutputs [u] =
    .ok (if toLowercase u = toLowercase s then [⟨toLowercase s, some 5, 0⟩] else []) := by
  simp [GrinClient.getOutputs, GrinClient.keeping, GrinClient.nodeRpc, RpcEnvelope.intoResult,
    bind, Except.bind]

theorem byValue_keeping (s : String) : (ChainClients.grinOnly (.keeping s)).ByValue := by
  intro grin hgrin
  obtain rfl : GrinClient.keeping s = grin := Option.some.inj hgrin
  constructor
  · intro u v huv
    rw [getOutputs_keeping, getOutputs_keeping, show toLowercase u = toLowercase v from huv]
  · intro u outputs houtputs o ho
    rw [getOutputs_keeping, Except.ok.injEq] at houtputs
    subst houtputs
    split at ho
    case isTrue hu =>
      obtain rfl := List.mem_singleton.mp ho
      exact ⟨toLowercase_toLowercase s, (toLowercase_toLowercase s).trans hu.symm⟩
    case isFalse => cases ho

theorem verdict_keeping {s u : String} {r : SocialTipRow} (hasset : toLowercase r.asset = "grin")
    (hu : grinCommitment r = some u) (h : SameLetters s u) :
    verifyFundingAmount (.grinOnly (.keeping s)) r =
      some (grinAmountFromPresence (decide (toLowercase u = u)) r.amount) := by
  have hsame : toLowercase s = toLowercase u := h
  rw [verifyFundingAmount_of_grin hasset, hu]
  simp [ChainClients.grinOnly, getOutputs_keeping, hsame]

/-! ### Two worlds -/

/-- The texts `p` and `p'` change places in the Grin tip `k`. -/
def voucherSwap (k : Uuid) (p p' : VoucherTexts) (id : Uuid) (asset : String) (q : VoucherTexts) :
    VoucherTexts :=
  if id = k ∧ toLowercase asset = "grin" then Equiv.swap p p' q else q

section Swap

variable {k : Uuid} {p p' : VoucherTexts}

theorem voucherSwap_of_ne {id : Uuid} (h : id ≠ k) (asset : String) (q : VoucherTexts) :
    voucherSwap k p p' id asset q = q := if_neg fun hid => h hid.1

theorem voucherSwap_injective (id : Uuid) (asset : String) :
    Function.Injective (voucherSwap k p p' id asset) := by
  unfold voucherSwap
  split
  · exact (Equiv.swap p p').injective
  · exact Function.injective_id

theorem sameReading_voucherSwap {s t : String} (hs : voucherText p = some s)
    (ht : voucherText p' = some t) (h : Undistinguished s t) {chains : ChainClients}
    (hchains : chains.ByValue) (r : SocialTipRow) :
    SameReading chains r ((respelling (voucherSwap k p p')).set r) := by
  rw [respelling_set]
  have hself : SameReading chains r r := ⟨rfl, rfl, fun _ => rfl⟩
  by_cases hrow : r.id = k ∧ toLowercase r.asset = "grin"
  · rw [voucherSwap, if_pos hrow]
    by_cases hp : r.texts = p
    · rw [hp, Equiv.swap_apply_left]
      exact sameReading_of_spelling hchains hrow.2 (hp ▸ hs) ht h
    · by_cases hp' : r.texts = p'
      · rw [hp', Equiv.swap_apply_right]
        exact sameReading_of_spelling hchains hrow.2 (hp' ▸ ht) hs h.symm
      · rw [Equiv.swap_apply_of_ne_of_ne hp hp']
        exact hself
  · rw [voucherSwap, if_neg hrow]
    exact hself

end Swap

/-- The rows agree but for their texts, and nodes that compare commitments say the same of them. -/
structure SameRow (r r' : SocialTipRow) : Prop where
  /-- The columns: the confirmations and the verdict on record, and all else. -/
  columns : r.unspelled = r'.unspelled
  /-- The verdict, the spends and the confirmations that the nodes give. -/
  reading : ∀ chains : ChainClients, chains.ByValue → SameReading chains r r'

theorem SameRow.lowerCase_iff {r r' : SocialTipRow} (h : SameRow r r')
    (hasset : toLowercase r.asset = "grin") {s t : String} (hs : grinCommitment r = some s)
    (ht : grinCommitment r' = some t) (hletters : SameLetters s t) :
    InLowerCase s ↔ InLowerCase t := by
  have hasset' : toLowercase r'.asset = "grin" := by
    have hsame : r.asset = r'.asset := (congrArg SocialTipRow.asset h.columns : _)
    rwa [← hsame]
  -- a node that holds the voucher
  have hverdict := (h.reading _ (byValue_keeping s)).verdict
  rw [verdict_keeping hasset hs rfl, verdict_keeping hasset' ht hletters,
    Option.some.injEq] at hverdict
  unfold InLowerCase
  by_cases hlower : toLowercase s = s <;> by_cases hlower' : toLowercase t = t <;>
    simp [hlower, hlower', grinAmountFromPresence] at hverdict ⊢

/-- The row of a creation. -/
theorem TipWorld.Created.row {inst : TipInstance} {bearer : Except AppError Uuid}
    {now : Timestamp} {k : Uuid} {req : CreateSocialTipRequest} {w w' : TipWorld}
    (h : TipWorld.Created inst bearer now k req w w') :
    ∃ vetted t, inst.vet bearer req = .ok vetted ∧
      validateFilled "grin" (req.commitment vetted.asset) = .ok () ∧
      (SocialTipRow.ofNew k now (vetted.planned req).new (vetted.planned req).status).checks ∧
      w.db.insert? (.ofNew k now (vetted.planned req).new (vetted.planned req).status) = some t ∧
      w' = { w with db := t, issued := k :: w.issued } := by
  obtain ⟨-, resp, t, hresp, hw'⟩ := h
  obtain ⟨plan, hplan, hinsert⟩ := TipInstance.createSocialTip_ok hresp
  obtain ⟨vetted, hvet, rfl, hcommit⟩ := TipInstance.planTip_ok hplan
  rw [PlannedTip.insert?_eq] at hinsert
  simp only [SocialTips.insertSocialTip] at hinsert
  split at hinsert
  case isFalse => cases hinsert
  case isTrue hchecks => exact ⟨vetted, t, hvet, hcommit, hchecks, hinsert, hw'⟩

/-- The stored row of a Grin tip names the voucher of the request. -/
theorem TipWorld.Created.voucher {inst : TipInstance} {bearer : Except AppError Uuid}
    {now : Timestamp} {k : Uuid} {req : CreateSocialTipRequest} {w w' : TipWorld}
    (h : TipWorld.Created inst bearer now k req w w') (hasset : inst.lowercase req.asset = "grin")
    {s : String} (hs : req.commitment "grin" = some s) :
    voucherText (filled req.tipAddress, req.commitment "grin") = some s ∧
      ∃ r, w'.db.get? k = some r ∧ toLowercase r.asset = "grin" ∧ grinCommitment r = some s := by
  obtain ⟨vetted, t, hvet, hvalid, -, hinsert, rfl⟩ := h.row
  have hgrin : vetted.asset = "grin" := (TipInstance.vet_asset hvet).trans hasset
  have hlower : toLowercase vetted.asset = "grin" := by
    rw [hgrin]
    decide
  rw [hgrin, hs] at hvalid
  have htext := voucherText_of_valid (a := filled req.tipAddress) hvalid
  have hstored := Table.get?_insert? hinsert k
  rw [if_pos (show k = Lib.key (SocialTipRow.ofNew k now _ _) from rfl)] at hstored
  have hcommit : grinCommitment (.ofNew k now (vetted.planned req).new
      (vetted.planned req).status) = some s := by
    rw [grinCommitment_eq]
    show voucherText (filled req.tipAddress, req.commitment vetted.asset) = some s
    rw [hgrin, hs, htext]
  exact ⟨by rw [hs, htext], _, hstored, hlower, hcommit⟩

section Creations

variable {inst : TipInstance} {bearer : Except AppError Uuid} {now : Timestamp} {k : Uuid}
  {req req' : CreateSocialTipRequest} {w₀ w₁ w₁' : TipWorld} {past : List TipEvent}
  (hpast : TipWorld.system.Run .empty past w₀) (hreq : req.Respelled req')
  (hasset : inst.lowercase req.asset = "grin")
  (hcreated : TipWorld.Created inst bearer now k req w₀ w₁)
  (hcreated' : TipWorld.Created inst bearer now k req' w₀ w₁')

include hpast hreq hasset hcreated hcreated'

/-- The two creations make worlds that differ in the spelling of the new tip. -/
theorem respell_of_created :
    w₁' = w₁.respell (voucherSwap k (filled req.tipAddress, req.commitment "grin")
      (filled req'.tipAddress, req'.commitment "grin")) := by
  have hinv := TipWorld.inv_run hpast
  have hfresh := hcreated.1
  obtain ⟨vetted, t, hvet, -, -, hinsert, rfl⟩ := hcreated.row
  obtain ⟨vetted', t', hvet', -, -, hinsert', rfl⟩ := hcreated'.row
  obtain rfl : vetted' = vetted := by
    rw [hreq.rest] at hvet'
    exact Except.ok.inj (hvet'.symm.trans hvet)
  have hgrin : vetted'.asset = "grin" := (TipInstance.vet_asset hvet).trans hasset
  generalize hτ : voucherSwap k (filled req.tipAddress, req.commitment "grin")
    (filled req'.tipAddress, req'.commitment "grin") = τ
  have hother : ∀ r : SocialTipRow, r.id ≠ k → (respelling τ).set r = r := by
    intro r hr
    rw [respelling_set, ← hτ, voucherSwap_of_ne hr, SocialTipRow.withTexts_texts]
  -- the rows that were there are other tips
  have hdb : w₀.db.mapRows (respelling τ) = w₀.db := by
    refine w₀.db.mapRows_eq_self fun r hr => hother r ?_
    rintro rfl
    exact hfresh (hinv.issued _ _ (Table.get?_of_mem hr))
  have hpolled : w₀.polled.map (Prod.map id (respelling τ).set) = w₀.polled := by
    refine (List.map_congr_left fun x hx => ?_).trans (List.map_id _)
    have hne : x.2.id ≠ k := fun heq => hfresh (heq ▸ hinv.polledIssued x hx)
    exact Prod.ext rfl (hother x.2 hne)
  -- the new row is the respelled one
  have hrow : (respelling τ).set (.ofNew k now (vetted'.planned req).new
      (vetted'.planned req).status) =
        .ofNew k now (vetted'.planned req').new (vetted'.planned req').status := by
    have hlower : toLowercase vetted'.asset = "grin" := by
      rw [hgrin]
      decide
    have htexts : τ k vetted'.asset (filled req.tipAddress, req.commitment vetted'.asset) =
        (filled req'.tipAddress, req'.commitment vetted'.asset) := by
      rw [← hτ, voucherSwap, if_pos ⟨rfl, hlower⟩, hgrin, Equiv.swap_apply_left]
    have hplanned : (SocialTipRow.ofNew k now (vetted'.planned req').new
        (vetted'.planned req').status) =
          (SocialTipRow.ofNew k now (vetted'.planned req).new
            (vetted'.planned req).status).withTexts
              (filled req'.tipAddress, req'.commitment vetted'.asset) := by
      rw [hreq.rest]
      rfl
    rw [hplanned, ← htexts]
    rfl
  have hmap := w₀.db.insert?_mapRows (respelling τ)
    (.ofNew k now (vetted'.planned req).new (vetted'.planned req).status)
  rw [hdb, hrow, hinsert', hinsert, Option.map_some, Option.some.injEq] at hmap
  simp only [TipWorld.respell, hpolled, hmap]

/-- **Two spellings of a voucher.**  Let two requests for a Grin tip differ in the letter case of
the voucher only, and let both be accepted in the same world.  Every run of calls and workers
against nodes that compare commitments has a counterpart in the other world, with the same events,
in which the tip has the same confirmations, the same verdict and the same reading at every step,
exactly if both spellings are in lower case or neither is. -/
theorem voucher_spelling_iff {s t : String} (hs : req.commitment "grin" = some s)
    (ht : req'.commitment "grin" = some t) :
    (∀ es w, (∀ e ∈ es, TipEvent.ByValue e) → TipWorld.system.Run w₁ es w →
      ∃ es' w', List.Forall₂ SameEvent es es' ∧ TipWorld.system.Run w₁' es' w' ∧
        Option.Rel SameRow (w.db.get? k) (w'.db.get? k)) ↔
      (InLowerCase s ↔ InLowerCase t) := by
  have hasset' : inst.lowercase req'.asset = "grin" := by
    rw [hreq.rest]
    exact hasset
  obtain ⟨htext, r, hr, hgrin, hcommit⟩ := hcreated.voucher hasset hs
  obtain ⟨htext', r', hr', -, hcommit'⟩ := hcreated'.voucher hasset' ht
  have hletters : SameLetters s t := by
    have hrel := hreq.commitment "grin"
    rw [hs, ht] at hrel
    cases hrel with
    | some h => exact h
  constructor
  · intro hall
    -- the rows as they were created
    obtain ⟨es', w', hes', hrun', hrel⟩ := hall [] w₁ (by simp) (.nil _)
    obtain rfl := List.forall₂_nil_left_iff.mp hes'
    obtain rfl := Lib.System.Run.nil_iff.mp hrun'
    rw [hr, hr'] at hrel
    cases hrel with
    | some hrow => exact hrow.lowerCase_iff hgrin hcommit hcommit' hletters
  · intro hlower es w hvalue hrun
    have hworld := respell_of_created hpast hreq hasset hcreated hcreated'
    obtain ⟨τ, hτ⟩ : ∃ τ, voucherSwap k (filled req.tipAddress, req.commitment "grin")
      (filled req'.tipAddress, req'.commitment "grin") = τ := ⟨_, rfl⟩
    have hread : ∀ chains : ChainClients, chains.ByValue → ∀ r,
        SameReading chains r ((respelling τ).set r) := by
      intro chains hchains r
      rw [← hτ]
      exact sameReading_voucherSwap htext htext' ⟨hletters, hlower⟩ hchains r
    have hissued : k ∈ w₁.issued := by
      obtain ⟨-, _, _, -, hw₁⟩ := hcreated
      rw [hw₁]
      exact List.mem_cons_self
    refine ⟨es.map (TipEvent.respell τ), w.respell τ, ?_, ?_, ?_⟩
    · exact List.forall₂_map_right_iff.mpr (List.forall₂_same.mpr fun e _ => e.sameEvent_respell τ)
    · rw [hworld, hτ]
      refine TipWorld.run_respell ?_ hrun ?_ ?_
      · intro id asset
        rw [← hτ]
        exact voucherSwap_injective id asset
      · intro id hid asset q
        rw [← hτ]
        refine voucherSwap_of_ne ?_ asset q
        rintro rfl
        exact hid hissued
      · intro e he
        cases e with
        | turn pass faults chains now tip => exact hread chains (hvalue _ he) tip
        | call | poll | drop | deleteUser => trivial
    · show Option.Rel SameRow (w.db.get? k) ((w.db.mapRows (respelling τ)).get? k)
      rw [Table.get?_mapRows]
      cases w.db.get? k with
      | none => exact .none
      | some r => exact .some ⟨rfl, fun chains hchains => hread chains hchains r⟩

end Creations

/-- An instance with Grin tips. -/
def TipInstance.grinTips : TipInstance where
  tips := true
  targetedTips := false
  chains := ⟨false, false, false, false, true⟩
  tipShareBase := none
  lowercase := toLowercase
  getUserByUsername _ := .ok none

/-- A hash of 64 digits. -/
def voucherKeyHash : String := String.ofList (List.replicate 64 '0')

/-- A request for a public Grin tip of 5 units at a voucher, funded. -/
def CreateSocialTipRequest.atVoucher (text : String) : CreateSocialTipRequest where
  platform := none
  username := none
  asset := "grin"
  amount := 5
  encryptedKey := none
  isPublic := true
  claimKeyHash := some voucherKeyHash
  tipAddress := some text
  fundingTxid := some "f0"
  tipViewKey := none
  grinCommitment := some text

/-- The values that are stored for it. -/
def NewSocialTip.atVoucher (text : String) : NewSocialTip :=
  { grinSample with
    claimKeyHash := some voucherKeyHash
    tipAddress := some text
    grinCommitment := some text }

/-- The world in which it is the only tip. -/
def TipWorld.atVoucher (text : String) : TipWorld :=
  ⟨.singleton (.ofNew 1 0 (.atVoucher text) .pendingConfirmation), [], [1]⟩

/-- A voucher, in lower case. -/
def voucherLower : String := String.ofList ('0' :: '8' :: List.replicate 64 'a')

/-- The same voucher, in capitals. -/
def voucherCapitals : String := String.ofList ('0' :: '8' :: List.replicate 64 'A')

theorem created_atVoucher {text : String}
    (h : (TipInstance.grinTips.planTip (.ok 7) (.atVoucher text)).toOption =
      some ⟨false, .atVoucher text⟩) :
    TipWorld.Created .grinTips (.ok 7) 0 1 (.atVoucher text) .empty (.atVoucher text) := by
  refine ⟨by simp [TipWorld.empty], ⟨uuidText 1, .pendingConfirmation, none⟩, _, ?_, rfl⟩
  unfold TipInstance.createSocialTip
  cases hplan : TipInstance.grinTips.planTip (.ok 7) (.atVoucher text) with
  | error e =>
    rw [hplan] at h
    cases h
  | ok plan =>
    rw [hplan] at h
    obtain rfl := Option.some.inj h
    rfl

theorem created_lower :
    TipWorld.Created .grinTips (.ok 7) 0 1 (.atVoucher voucherLower) .empty
      (.atVoucher voucherLower) :=
  created_atVoucher (by decide +kernel)

theorem created_capitals :
    TipWorld.Created .grinTips (.ok 7) 0 1 (.atVoucher voucherCapitals) .empty
      (.atVoucher voucherCapitals) :=
  created_atVoucher (by decide +kernel)

theorem respelled_atVoucher {s t : String} (h : SameLetters s t) :
    (CreateSocialTipRequest.atVoucher s).Respelled (.atVoucher t) :=
  ⟨.some h, .some h, rfl⟩

/-- A count of the tip's confirmations, against a node that holds the voucher. -/
def voucherCount (text : String) : List TipEvent :=
  [.poll .countGrin 1, .turn .countGrin .none (.grinOnly (.keeping voucherLower)) 2
    (.ofNew 1 0 (.atVoucher text) .pendingConfirmation)]

/-- The confirmations on record after the count. -/
def countedConfirmations (text : String) : Option Int32 :=
  ((voucherCount text).foldlM TipWorld.step (.atVoucher text)).bind fun w =>
    (w.db.get? 1).map SocialTipRow.fundingConfirmations

theorem lower_spelling_lives_alike : ∃ w es' w',
    TipWorld.system.Run (.atVoucher voucherLower) (voucherCount voucherLower) w ∧
    List.Forall₂ SameEvent (voucherCount voucherLower) es' ∧
    TipWorld.system.Run (.atVoucher voucherLower) es' w' ∧
    Option.Rel SameRow (w.db.get? 1) (w'.db.get? 1) := by
  have hcounted : ((voucherCount voucherLower).foldlM TipWorld.step
      (.atVoucher voucherLower)).isSome := by decide +kernel
  obtain ⟨w, hw⟩ := Option.isSome_iff_exists.mp hcounted
  have hrun := Lib.System.Run.ofOption_iff.mpr hw
  have hvalue : ∀ e ∈ voucherCount voucherLower, e.ByValue := by
    simp [voucherCount, TipEvent.ByValue, byValue_keeping]
  have hall := (voucher_spelling_iff (.nil _) (respelled_atVoucher rfl) (by decide) created_lower
    created_lower rfl rfl).mpr Iff.rfl
  obtain ⟨es', w', hes', hrun', hrel⟩ := hall _ w hvalue hrun
  exact ⟨w, es', w', hrun, hes', hrun', hrel⟩

/-- The voucher in capitals is not found where the same voucher in lower case is. -/
theorem capitals_voucher_not_found :
    (CreateSocialTipRequest.atVoucher voucherLower).Respelled (.atVoucher voucherCapitals) ∧
    TipWorld.Created .grinTips (.ok 7) 0 1 (.atVoucher voucherLower) .empty
      (.atVoucher voucherLower) ∧
    TipWorld.Created .grinTips (.ok 7) 0 1 (.atVoucher voucherCapitals) .empty
      (.atVoucher voucherCapitals) ∧
    (¬ ∀ es w, (∀ e ∈ es, TipEvent.ByValue e) →
      TipWorld.system.Run (.atVoucher voucherLower) es w →
        ∃ es' w', List.Forall₂ SameEvent es es' ∧
          TipWorld.system.Run (.atVoucher voucherCapitals) es' w' ∧
            Option.Rel SameRow (w.db.get? 1) (w'.db.get? 1)) ∧
    countedConfirmations voucherLower = some 16 ∧
    countedConfirmations voucherCapitals = some 0 := by
  have hletters : SameLetters voucherLower voucherCapitals :=
    show toLowercase voucherLower = toLowercase voucherCapitals by decide +kernel
  have hlower : toLowercase voucherLower = voucherLower := by decide +kernel
  have hcapitals : toLowercase voucherCapitals ≠ voucherCapitals := by decide +kernel
  refine ⟨respelled_atVoucher hletters, created_lower, created_capitals, fun hall => ?_,
    by decide +kernel, by decide +kernel⟩
  obtain ⟨es', w', hes', hrun', hrel⟩ := hall [] _ (by simp) (.nil _)
  obtain rfl := List.forall₂_nil_left_iff.mp hes'
  obtain rfl := Lib.System.Run.nil_iff.mp hrun'
  cases hrel with
  | some hrow =>
    have hiff := hrow.lowerCase_iff (by decide) (by decide +kernel) (by decide +kernel) hletters
    exact hcapitals (hiff.mp hlower)

end SmirkBackend
