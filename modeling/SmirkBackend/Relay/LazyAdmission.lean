import SmirkBackend.Relay.Admission

/-!
# Lazy and eager admission

The admission service looks up only what the policy still needs, and counts a lookup that fails as
`false`.  Its answer is that of the policy with every fact looked up.  A failed lookup of the author
sends the event down the branch of strangers, but what is admitted there is admitted anyway.

* `collectPTags_eq` : the loop over the tags finds the recipients that count.
* `WritePolicy.decide_of_fewer` : facts that are missing deny more.
* `Relay.lazy_admission` : the answer is the eager one, and failures deny more.
-/

namespace SmirkBackend

open Lib (Prog)

/-! ### Recipients -/

/-- The recipient that a tag names. -/
def pTag (lowercase : String → String) : List String → Option String
  | "p" :: value :: _ => some (lowercase value)
  | _ => none

/-- The first distinct recipients. -/
def firstPTags (lowercase : String → String) (tags : List (List String)) : List String :=
  ((tags.filterMap (pTag lowercase)).eraseDups).take maxPTags

/-- One turn of the loop. -/
theorem collectPTags_cons (lowercase : String → String) {acc : List String}
    (h : ¬ maxPTags ≤ acc.length) (tag : List String) (rest : List (List String)) :
    collectPTags lowercase acc (tag :: rest) =
      match pTag lowercase tag with
      | none => collectPTags lowercase acc rest
      | some p =>
        if acc.contains p then collectPTags lowercase acc rest
        else collectPTags lowercase (acc ++ [p]) rest := by
  conv_lhs => unfold collectPTags
  rw [if_neg h]
  split
  · rfl
  · rename_i hother
    have hnone : pTag lowercase tag = none := by
      unfold pTag
      split
      · exact absurd rfl (hother _ _)
      · rfl
    rw [hnone]

/-- The loop adds the distinct recipients that are not there yet, up to the limit. -/
theorem collectPTags_append (lowercase : String → String) {acc : List String}
    (hlen : acc.length ≤ maxPTags) (tags : List (List String)) :
    collectPTags lowercase acc tags = acc ++
      (((tags.filterMap (pTag lowercase)).filter fun p => !acc.contains p).eraseDups).take
        (maxPTags - acc.length) := by
  induction tags generalizing acc with
  | nil => simp [collectPTags]
  | cons tag rest ih =>
    by_cases hfull : maxPTags ≤ acc.length
    · unfold collectPTags
      rw [if_pos hfull, Nat.sub_eq_zero_of_le hfull, List.take_zero, List.append_nil]
    rw [collectPTags_cons lowercase hfull]
    cases hp : pTag lowercase tag with
    | none => rw [List.filterMap_cons_none hp, ih hlen]
    | some p =>
      rw [List.filterMap_cons_some hp]
      dsimp only
      by_cases hknown : acc.contains p = true
      · rw [List.filter_cons_of_neg (by rw [hknown]; decide), if_pos hknown, ih hlen]
      · -- the recipient is new, and no longer so for the tags that follow
        have hroom : maxPTags - acc.length = maxPTags - (acc ++ [p]).length + 1 := by
          rw [List.length_append, List.length_singleton]
          omega
        have hlen' : (acc ++ [p]).length ≤ maxPTags := by
          rw [List.length_append, List.length_singleton]
          omega
        have hfilter (ps : List String) : ((ps.filter fun q => !acc.contains q).filter
            fun q => !q == p) = ps.filter fun q => !(acc ++ [p]).contains q := by
          rw [List.filter_filter]
          refine List.filter_congr fun q _ => ?_
          simp [Bool.and_comm, Bool.beq_eq_decide_eq]
        rw [List.filter_cons_of_pos (by simpa using hknown), if_neg hknown, ih hlen', hroom,
          List.eraseDups_cons, List.take_succ_cons, hfilter, List.append_assoc,
          List.singleton_append]

/-- The loop over the tags finds the first distinct recipients. -/
theorem collectPTags_eq (lowercase : String → String) (tags : List (List String)) :
    collectPTags lowercase [] tags = firstPTags lowercase tags := by
  rw [collectPTags_append lowercase (Nat.zero_le _)]
  simp [firstPTags]

/-! ### Missing facts -/

theorem giftwrapInbox_mono {event : EventMeta} {bits : UInt8} {recipient recipient' : Bool}
    (hle : recipient = true → recipient' = true)
    (h : giftwrapInbox event bits recipient = .permit) :
    giftwrapInbox event bits recipient' = .permit := by
  cases recipient with
  | false => simp [giftwrapInbox] at h
  | true => rwa [hle rfl]

theorem isWalletKind_of_giftwrapInbox {event : EventMeta} {bits : UInt8} {recipient : Bool}
    (h : giftwrapInbox event bits recipient = .permit) : isWalletKind event.kind = true := by
  by_contra hkind
  exact giftwrapInbox_general (Bool.eq_false_iff.mpr hkind) bits recipient h

theorem decide_premiumPost_of_fewer {event : EventMeta} {bits : UInt8}
    {registered registered' recipient recipient' : Bool}
    (hregistered : registered = true → registered' = true)
    (hrecipient : recipient = true → recipient' = true)
    (h : WritePolicy.premiumPost.decide event bits registered recipient false false = .permit) :
    WritePolicy.premiumPost.decide event bits registered' recipient' false false = .permit := by
  cases registered with
  | true =>
    rw [hregistered rfl]
    exact h
  | false =>
    have hinbox : giftwrapInbox event bits recipient = .permit := h
    cases registered' with
    | true => simp [WritePolicy.decide, isWalletKind_of_giftwrapInbox hinbox]
    | false => exact giftwrapInbox_mono hrecipient hinbox

/-- What is admitted with facts missing is admitted with all of them. -/
theorem WritePolicy.decide_of_fewer (policy : WritePolicy) {event : EventMeta} {bits : UInt8}
    {registered registered' recipient recipient' premium premium' allowlisted : Bool}
    (hregistered : registered = true → registered' = true)
    (hrecipient : recipient = true → recipient' = true)
    (hpremium : premium = true → premium' = true)
    (h : policy.decide event bits registered recipient premium allowlisted = .permit) :
    policy.decide event bits registered' recipient' premium' allowlisted = .permit := by
  cases allowlisted with
  | true => rfl
  | false =>
    cases policy with
    | «open» => rfl
    | authorAllowlist =>
      cases registered with
      | false => cases h
      | true => rw [hregistered rfl]; rfl
    | inboxOutbox =>
      cases registered' with
      | true => rfl
      | false =>
        cases registered with
        | true => exact absurd (hregistered rfl) Bool.false_ne_true
        | false => exact giftwrapInbox_mono hrecipient h
    | premiumPost =>
      cases premium' with
      | true => rfl
      | false =>
        cases premium with
        | true => exact absurd (hpremium rfl) Bool.false_ne_true
        | false => exact decide_premiumPost_of_fewer hregistered hrecipient h

theorem WritePolicy.decide_lazy (policy : WritePolicy) {event : EventMeta} {bits : UInt8}
    (registered recipient premium allowlisted : Bool) :
    policy.decide event bits (!allowlisted && registered)
        (!(!allowlisted && registered || allowlisted) && recipient)
        (!allowlisted && Decidable.decide (policy = .premiumPost) && premium) allowlisted =
      policy.decide event bits registered recipient premium allowlisted := by
  cases allowlisted with
  | true => rfl
  | false =>
    cases policy with
    | «open» => rfl
    | authorAllowlist => cases registered <;> rfl
    | inboxOutbox => cases registered <;> rfl
    | premiumPost => cases registered <;> rfl

namespace Relay

variable (relay : Relay) (lowercase : String → String) (event : RelayEvent)

/-- The policy with every fact looked up. -/
def eagerAdmit (w : World) : Admit :=
  relay.policy.decide ⟨event.authorHex, event.kind, Lib.hexEncode event.id⟩ relay.inboundPowBits
    (w.db.isRegisteredNpub event.authorHex)
    (w.db.anyRegisteredNpub (firstPTags lowercase event.tags))
    (w.db.isPremiumNpub w.now event.authorHex) (relay.authorAllowlisted event)

theorem outcome_selectOrFalse {f : World → Bool} {w w' : World} {r : Except AppError Bool}
    (h : (selectOrFalse f).Outcome w r w') :
    w' = w ∧ ∃ b, r = .ok b ∧ (b = true → f w = true) := by
  cases h with
  | act h =>
    cases h
    exact ⟨rfl, f w, rfl, id⟩
  | fault h =>
    cases h
    exact ⟨rfl, false, rfl, nofun⟩

theorem outcome_return {b : Bool} {w w' : World} {r : Except AppError Bool}
    (h : (return b : Handler Bool).Outcome w r w') : w' = w ∧ r = .ok b := by
  cases h
  exact ⟨rfl, rfl⟩

theorem outcome_authorRegistered {w w' : World} {r : Except AppError Bool}
    (h : (relay.authorRegistered event).Outcome w r w') :
    w' = w ∧ ∃ b, r = .ok b ∧ (b = true → w.db.isRegisteredNpub event.authorHex = true) := by
  unfold authorRegistered at h
  split_ifs at h
  · obtain ⟨rfl, rfl⟩ := outcome_return h
    exact ⟨rfl, false, rfl, nofun⟩
  · exact outcome_selectOrFalse h

theorem outcome_authorPremium {w w' : World} {r : Except AppError Bool}
    (h : (relay.authorPremium event).Outcome w r w') :
    w' = w ∧ ∃ b, r = .ok b ∧ (b = true → w.db.isPremiumNpub w.now event.authorHex = true) := by
  unfold authorPremium at h
  split_ifs at h
  · exact outcome_selectOrFalse h
  · obtain ⟨rfl, rfl⟩ := outcome_return h
    exact ⟨rfl, false, rfl, nofun⟩

theorem outcome_recipientRegistered {registered : Bool} {w w' : World} {r : Except AppError Bool}
    (h : (relay.recipientRegistered lowercase event registered).Outcome w r w') :
    w' = w ∧ ∃ b, r = .ok b ∧
      (b = true → w.db.anyRegisteredNpub (firstPTags lowercase event.tags) = true) := by
  unfold recipientRegistered at h
  simp only [collectPTags_eq] at h
  split_ifs at h
  · obtain ⟨rfl, rfl⟩ := outcome_return h
    exact ⟨rfl, false, rfl, nofun⟩
  · obtain ⟨rfl, rfl⟩ := outcome_return h
    exact ⟨rfl, false, rfl, nofun⟩
  · exact outcome_selectOrFalse h

/-- What is answered to an event within the size limit, whichever lookups fail. -/
theorem outcome_eventAdmit {w w' : World} {r : Except AppError Admit}
    (hsize : ¬ relay.maxEventBytes.toNat < event.content.utf8ByteSize)
    (h : (relay.eventAdmit lowercase (some event)).Outcome w r w') :
    w' = w ∧ ∃ a, r = .ok a ∧ (a = .permit → relay.eagerAdmit lowercase event w = .permit) := by
  rw [eventAdmit, if_neg hsize] at h
  rcases Prog.outcome_bind h with ⟨e, hr, -⟩ | ⟨registered, w₁, hr, h₁⟩
  · obtain ⟨-, b, heq, -⟩ := outcome_authorRegistered relay event hr
    cases heq
  obtain ⟨rfl, _, heq, hregistered⟩ := outcome_authorRegistered relay event hr
  obtain rfl := Except.ok.inj heq
  rcases Prog.outcome_bind h₁ with ⟨e, hp, -⟩ | ⟨premium, w₂, hp, h₂⟩
  · obtain ⟨-, b, heq, -⟩ := outcome_authorPremium relay event hp
    cases heq
  obtain ⟨rfl, _, heq, hpremium⟩ := outcome_authorPremium relay event hp
  obtain rfl := Except.ok.inj heq
  rcases Prog.outcome_bind h₂ with ⟨e, hc, -⟩ | ⟨recipient, w₃, hc, h₃⟩
  · obtain ⟨-, b, heq, -⟩ := outcome_recipientRegistered relay lowercase event hc
    cases heq
  obtain ⟨rfl, _, heq, hrecipient⟩ := outcome_recipientRegistered relay lowercase event hc
  obtain rfl := Except.ok.inj heq
  cases h₃
  exact ⟨rfl, _, rfl, WritePolicy.decide_of_fewer relay.policy hregistered hrecipient hpremium⟩

theorem run_recipient (registered : Bool) (w : World) :
    (relay.recipientRegistered lowercase event registered).run w =
      (.ok (!(registered || relay.authorAllowlisted event) &&
        w.db.anyRegisteredNpub (firstPTags lowercase event.tags)), w) := by
  unfold recipientRegistered
  rw [← collectPTags_eq]
  by_cases hknown : (registered || relay.authorAllowlisted event) = true
  · rw [if_pos hknown, hknown]
    rfl
  · rw [if_neg hknown, Bool.eq_false_iff.mpr hknown]
    by_cases hnone : (collectPTags lowercase [] event.tags).isEmpty = true
    · have hany : w.db.anyRegisteredNpub (collectPTags lowercase [] event.tags) = false := by
        rw [List.isEmpty_iff.mp hnone]
        simp [Db.anyRegisteredNpub]
      simp only [hnone, hany]
      rfl
    · simp only [hnone]
      rfl

theorem run_eventAdmit (hsize : ¬ relay.maxEventBytes.toNat < event.content.utf8ByteSize)
    (w : World) : (relay.eventAdmit lowercase (some event)).run w =
      (.ok (relay.eagerAdmit lowercase event w), w) := by
  simp only [eventAdmit, if_neg hsize, Prog.run_bind, run_authorRegistered, run_authorPremium,
    run_recipient]
  exact congrArg (fun a => (Except.ok a, w)) (relay.policy.decide_lazy _ _ _ _)

/-- The answers of the service in a state of the database. -/
structure LazyAdmission (w : World) : Prop where
  /-- The answer to an event within the size limit is the eager one. -/
  eager : event.content.utf8ByteSize ≤ relay.maxEventBytes.toNat →
    (relay.eventAdmit lowercase (some event)).run w = (.ok (relay.eagerAdmit lowercase event w), w)
  /-- A larger event is denied, -/
  oversized : relay.maxEventBytes.toNat < event.content.utf8ByteSize →
    relay.eventAdmit lowercase (some event) = return .deny "event exceeds max size"
  /-- and so is a request without one. -/
  missing : relay.eventAdmit lowercase none = return .deny "missing event"
  /-- Whichever lookups fail, an event is answered, -/
  answered : ∀ r w', (relay.eventAdmit lowercase (some event)).Outcome w r w' →
    w' = w ∧ ∃ a, r = .ok a
  /-- and it is let in only if it is without failures. -/
  closed : ∀ w', (relay.eventAdmit lowercase (some event)).Outcome w (.ok .permit) w' →
    ((relay.eventAdmit lowercase (some event)).run w).1 = .ok .permit

/-- **Lazy admission is the full policy and fails closed.** -/
theorem lazy_admission (w : World) : relay.LazyAdmission lowercase event w := by
  have hover (h : relay.maxEventBytes.toNat < event.content.utf8ByteSize) :
      relay.eventAdmit lowercase (some event) = return .deny "event exceeds max size" := by
    rw [eventAdmit, if_pos h]
  refine ⟨fun h => run_eventAdmit relay lowercase event (Nat.not_lt.mpr h) w, hover, rfl,
    fun r w' h => ?_, fun w' h => ?_⟩
  · by_cases hsize : relay.maxEventBytes.toNat < event.content.utf8ByteSize
    · rw [hover hsize] at h
      cases h
      exact ⟨rfl, _, rfl⟩
    · obtain ⟨hw, a, ha, -⟩ := outcome_eventAdmit relay lowercase event hsize h
      exact ⟨hw, a, ha⟩
  · by_cases hsize : relay.maxEventBytes.toNat < event.content.utf8ByteSize
    · rw [hover hsize] at h
      cases h
    · obtain ⟨-, a, ha, hpermit⟩ := outcome_eventAdmit relay lowercase event hsize h
      rw [run_eventAdmit relay lowercase event hsize, hpermit (Except.ok.inj ha).symm]

end Relay

end SmirkBackend
