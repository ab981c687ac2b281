import SmirkBackend.Tips.World

/-!
# One meaning of claimable

The API flags a tip as claimable, the inbox lists the claimable tips of a user, and the claim
itself has a guard.  The three predicates were written apart: the flag does not look at the
settlement stamp, the inbox not at the kind of the tip, the guard at everything.  On the rows that
a run can reach they agree, because a settled row is `claimed` and a tip is targeted exactly when
it names a recipient.

`claimable_agree` proves it of every reachable row and user.
-/

namespace SmirkBackend

open Lib (Table)

/-- `is_claimable`: the flag of the API. -/
def isClaimable (r : SocialTipRow) : Bool :=
  (r.status = .pending || r.status = .claiming) &&
  r.confirmationsRequired ≤ r.fundingConfirmations &&
  r.fundingAmountVerified

namespace SocialTipRow

theorem Inv.open_of_isClaimable {r : SocialTipRow} (hinv : r.Inv) (h : isClaimable r) :
    r.sweepConfirmedAt = none := by
  simp only [isClaimable, Bool.and_eq_true, Bool.or_eq_true, decide_eq_true_eq] at h
  by_contra hsettled
  have hclaimed := hinv.claimed_iff.mpr (Option.isSome_iff_ne_none.mpr hsettled)
  rw [hclaimed] at h
  simp at h

end SocialTipRow

namespace SocialTips

theorem markTipClaiming_isSome_iff {t : SocialTips} {id : Uuid} {r : SocialTipRow}
    (hr : t.get? id = some r) (hinv : r.Inv) (now : Timestamp) (u : Uuid) :
    (t.markTipClaiming now id u).1.isSome ↔
      isClaimable r ∧ (r.isPublic ∨ r.recipientUserId = some u) := by
  have hreturns : (t.markTipClaiming now id u).1.isSome ↔ (isClaimable r ∧
      r.sweepConfirmedAt = none) ∧ (r.isPublic ∨ r.recipientUserId = some u) := by
    simp [markTipClaiming, guardedUpdate, Table.updateOne, hr, isClaimable, Option.filter_some,
      apply_ite]
  rw [hreturns]
  constructor
  · rintro ⟨⟨hflag, -⟩, hmay⟩
    exact ⟨hflag, hmay⟩
  · rintro ⟨hflag, hmay⟩
    exact ⟨⟨hflag, hinv.open_of_isClaimable hflag⟩, hmay⟩

theorem mem_getClaimableSocialTips_iff {t : SocialTips} {id : Uuid} {r : SocialTipRow}
    (hr : t.get? id = some r) (hinv : r.Inv) (u : Uuid) :
    r ∈ t.getClaimableSocialTips u ↔ isClaimable r ∧ r.recipientUserId = some u := by
  rw [getClaimableSocialTips, Table.mem_select]
  constructor
  · rintro ⟨-, hrow⟩
    simp only [Bool.and_eq_true, decide_eq_true_eq] at hrow
    obtain ⟨⟨⟨⟨hrecipient, hstatus⟩, hdepth⟩, hverified⟩, -⟩ := hrow
    exact ⟨by simp [isClaimable, hdepth, hverified, hstatus], hrecipient⟩
  · rintro ⟨hflag, hrecipient⟩
    have hopen := hinv.open_of_isClaimable hflag
    simp only [isClaimable, Bool.and_eq_true] at hflag
    refine ⟨Table.mem_of_get? hr, ?_⟩
    simp only [Bool.and_eq_true, decide_eq_true_eq]
    exact ⟨⟨⟨⟨hrecipient, hflag.1.1⟩, by simpa using hflag.1.2⟩, hflag.2⟩, by simp [hopen]⟩

end SocialTips

/-- **One meaning of claimable.**  On every row that a run can reach the API's flag says whether
some user's claim would succeed, the inbox of a user lists the row exactly when the row names the
user and the user's claim would succeed, and for a targeted tip simply when it would. -/
theorem claimable_agree {w : TipWorld} {events : List TipEvent} {id : Uuid} {r : SocialTipRow}
    (hrun : TipWorld.system.Run .empty events w) (hr : w.db.get? id = some r) (now : Timestamp) :
    (isClaimable r ↔ ∃ u, (w.db.markTipClaiming now id u).1.isSome) ∧
    ∀ u, (r ∈ w.db.getClaimableSocialTips u ↔
        r.recipientUserId = some u ∧ (w.db.markTipClaiming now id u).1.isSome) ∧
      (r.isPublic = false →
        (r ∈ w.db.getClaimableSocialTips u ↔ (w.db.markTipClaiming now id u).1.isSome)) := by
  have hinv : r.Inv := (TipWorld.inv_run hrun).rows id r hr
  have hclaim := SocialTips.markTipClaiming_isSome_iff hr hinv now
  have hinbox := SocialTips.mem_getClaimableSocialTips_iff hr hinv
  refine ⟨?_, ?_⟩
  · constructor
    · intro hflag
      cases hrecipient : r.recipientUserId with
      | none => exact ⟨0, (hclaim 0).mpr ⟨hflag, .inl (hinv.public_iff.mpr hrecipient)⟩⟩
      | some u => exact ⟨u, (hclaim u).mpr ⟨hflag, .inr hrecipient⟩⟩
    · rintro ⟨u, hu⟩
      exact ((hclaim u).mp hu).1
  · intro u
    constructor
    · rw [hinbox, hclaim]
      constructor
      · rintro ⟨hflag, hrecipient⟩
        exact ⟨hrecipient, hflag, .inr hrecipient⟩
      · rintro ⟨hrecipient, hflag, -⟩
        exact ⟨hflag, hrecipient⟩
    · intro htargeted
      rw [hinbox, hclaim]
      simp [htargeted]

/-- A Grin tip for the user 8 that needs no confirmations. -/
def NewSocialTip.targetedVoucher : NewSocialTip :=
  { grinSample with
    encryptedKey := some [1]
    confirmationsRequired := 0
    recipientUserId := some 8 }

/-- A node whose output set holds the voucher. -/
def GrinClient.holding : GrinClient where
  status := .ok ⟨some (.ok 20), none⟩
  outputs _ := .ok ⟨some (.ok [⟨"08aa", some 5, 0⟩]), none⟩
  kernel _ := .ok ⟨some (.ok none), none⟩

/-- The tip is created and its amount verified. -/
def TipEvent.targetedFunding : List TipEvent :=
  [.call (.create 0 1 .targetedVoucher), .poll .verify 1,
    .turn .verify .none (.grinOnly .holding) 2
      (.ofNew 1 0 .targetedVoucher .pendingConfirmation)]

/-- The tip after its verification. -/
def SocialTipRow.targetedVerified : SocialTipRow :=
  { ofNew 1 0 .targetedVoucher .pending with
    fundingAmountVerified := true
    fundingAmountObserved := some 5
    fundingAmountVerifiedAt := some 2
    updatedAt := 2 }

/-- The verified tip is in the inbox of its addressee, whose claim succeeds. -/
theorem targetedVerified_claimable :
    .targetedVerified ∈ (SocialTips.singleton .targetedVerified).getClaimableSocialTips 8 ∧
      ((SocialTips.singleton .targetedVerified).markTipClaiming 3 1 8).1.isSome := by
  have hlife : TipEvent.targetedFunding.foldlM TipWorld.step .empty =
      some ⟨.singleton .targetedVerified, [], [1]⟩ := rfl
  have hlisted : .targetedVerified ∈
      (SocialTips.singleton .targetedVerified).getClaimableSocialTips 8 :=
    List.mem_singleton.mpr rfl
  have hagree := claimable_agree (Lib.System.Run.ofOption_iff.mpr hlife)
    (rfl : (SocialTips.singleton .targetedVerified).get? 1 = _) 3
  exact ⟨hlisted, ((hagree.2 8).2 rfl).mp hlisted⟩

end SmirkBackend
