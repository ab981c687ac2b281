import SmirkBackend.Auth.Sessions
import SmirkBackend.Auth.SignedActions

/-!
# The statements of the handlers

Every statement of a login or registration handler has one of the effects on users, keys and
sessions, whatever others do between two statements.  What a kind of effect excludes, no statement
of a handler of this kind does.

* `Does` : one statement with an effect of a kind.
* `Does.steps_registerNew`, `Does.steps_getOrCreateUserByPubkeyHash`, `Does.steps_upsertAllKeys` and
  the like : the effects of the parts of a handler.
-/

namespace SmirkBackend

open Lib (Table Patch Prog)

/-- One statement with an effect of the kind `E`. -/
def Does (E : Effect → Prop) (w w' : World) : Prop := ∃ eff, E eff ∧ eff.Writes w.db w'.db

namespace Does

variable {E : Effect → Prop} {α : Type} (hother : E .other)

include hother

theorem refl (w : World) : Does E w w := ⟨.other, hother, rfl, rfl, rfl⟩

theorem of_same {w w' : World} (husers : w'.db.users = w.db.users)
    (hkeys : w'.db.userKeys = w.db.userKeys) (hsessions : w'.db.sessions = w.db.sessions) :
    Does E w w' :=
  ⟨.other, hother, husers, hkeys, hsessions⟩

theorem steps_select (f : Db → α) : (select f).Steps (Does E) := Prog.steps_read (refl hother)

theorem updateUser {u : Uuid} {f : Patch UserRow} (hf : E (.update u f)) (w : World) :
    Does E w { w with db := (w.db.updateUser u f).2 } := by
  rcases updateUser_writes u f w.db with heq | hw
  · rw [heq]
    exact refl hother w
  · exact ⟨.update u f, hf, hw⟩

theorem steps_updatePubkeyHash {pepper : Pepper} {u : Uuid} {pubkeyHash : String}
    (hf : E (.update u
      { set := fun r => { r with pubkeyHash := some (pepper "pubkey_hash" pubkeyHash) } })) :
    (updatePubkeyHash pepper u pubkeyHash).Steps (Does E) := by
  refine Prog.steps_query fun w => ?_
  have h := updateUser hother hf w
  revert h
  simp only
  cases w.db.updateUser u _ with
  | mk res db' => cases res <;> exact id

theorem steps_backfillOptionals {pepper : Pepper} {existing : UserRow} {o : Optionals}
    (hf : E (.update existing.id (o.fill pepper))) :
    (backfillOptionals pepper existing o).Steps (Does E) := by
  unfold backfillOptionals
  split_ifs
  · trivial
  · refine Prog.steps_query fun w => ?_
    have h := updateUser hother hf w
    revert h
    simp only
    cases w.db.updateUser existing.id (o.fill pepper) with
    | mk res db' =>
      match res with
      | .ok (some r) => exact id
      | .ok none => exact id
      | .error c => exact id

theorem steps_createUser {pepper : Pepper} {id : Uuid} {new : NewUser}
    (hnew : E (.create (new.row pepper id))) : (createUser pepper id new).Steps (Does E) := by
  refine Prog.steps_query fun w => ?_
  simp only
  cases h : w.db.insertUser (new.row pepper id) with
  | error c => exact refl hother w
  | ok db' =>
    obtain ⟨-, users, hins, rfl⟩ := insertUser_eq_ok_iff.mp h
    exact ⟨_, hnew, (Table.insert?_eq_some_iff.mp hins).2, fun _ _ => rfl, rfl⟩

theorem steps_getOrCreateUserByPubkeyHash {pepper : Pepper} {id : Uuid} {pubkeyHash : String}
    {username : Option String} {o : Optionals} (hf : ∀ u, E (.update u (o.fill pepper)))
    (hnew : E (.create ((o.newUser username (some pubkeyHash) none).row pepper id))) :
    (getOrCreateUserByPubkeyHash pepper id pubkeyHash username o).Steps (Does E) := by
  refine (steps_select hother _).bind fun found => ?_
  cases found with
  | some existing => exact steps_backfillOptionals hother (hf _)
  | none => exact steps_createUser hother hnew

theorem steps_getOrCreateUserByNostrPubkey {pepper : Pepper} {id : Uuid} {nostrPubkey : String}
    {username : Option String} {o : Optionals} (hf : ∀ u (o : Optionals), E (.update u (o.fill pepper)))
    (hnew : E (.create ((o.newUser username none (some nostrPubkey)).row pepper id))) :
    (getOrCreateUserByNostrPubkey pepper id nostrPubkey username o).Steps (Does E) := by
  refine (steps_select hother _).bind fun found => ?_
  cases found with
  | some existing => exact steps_backfillOptionals hother (hf _ _)
  | none =>
    refine (steps_fingerprintMatch (refl hother) pepper o.seedFingerprint).bind fun found => ?_
    cases found with
    | none => exact steps_createUser hother hnew
    | some existing =>
      simp only
      cases existing.nostrPubkey with
      | none => trivial
      | some pk =>
        simp only
        split_ifs
        · exact steps_backfillOptionals hother (hf _ _)
        · trivial

theorem steps_registerNew {q : Registration} {id : Uuid} (hnew : E (.create (q.new.row q.pepper id))) :
    (registerNew q id).Steps (Does E) := by
  refine (steps_registrationPlan (refl hother) q).bind fun plan => Prog.steps_query fun w => ?_
  cases h : Lib.replay (consumeGatesScript q.pepper q.new plan.1 plan.2 ⟨w.now, id⟩) w with
  | error e => exact refl hother w
  | ok w' =>
    have hspent := spent_of_replay h
    exact ⟨_, hnew, hspent.users, hspent.keys, hspent.rest.1⟩

theorem steps_upsertUserKey {k : UserKeyRow} (hkey : E (.key k.userId)) :
    (upsertUserKey k).Steps (Does E) := by
  refine Prog.steps_query fun w => ?_
  simp only [Db.upsertUserKey]
  split_ifs
  · exact refl hother w
  · refine ⟨_, hkey, rfl, fun k' hk' => ?_, rfl⟩
    change (w.db.userKeys.upsert k _).get? k' = _
    rw [Table.get?_upsert, if_neg]
    rintro rfl
    exact hk' rfl

theorem steps_upsertAllKeys {u : Uuid} (hkey : E (.key u)) (keys : List AssetPublicKey) :
    (upsertAllKeys u keys).Steps (Does E) := by
  induction keys with
  | nil => trivial
  | cons k rest ih =>
    refine (Prog.steps_ofExcept _).bind fun asset => ?_
    exact (steps_upsertUserKey hother hkey).bind fun _ => ih

theorem steps_createSession {r : SessionRow} (hr : E (.session r)) :
    (createSession r).Steps (Does E) := by
  refine Prog.steps_query fun w => ?_
  simp only
  split_ifs
  · exact refl hother w
  · cases h : w.db.sessions.insert? r with
    | none => exact refl hother w
    | some sessions => exact ⟨_, hr, rfl, rfl, (Table.insert?_eq_some_iff.mp h).2⟩

theorem steps_recordLoginEvent (r : LoginEventRow) : (recordLoginEvent r).Steps (Does E) := by
  refine Prog.steps_attempt fun w => ?_
  simp only
  split_ifs
  · exact refl hother w
  · exact of_same hother rfl rfl rfl

theorem steps_signIn {env : AuthEnv} {a : Answers} {user : UserRow} {platform : Platform}
    {deviceInfo asset : String} {isNew : Bool} (hsession : ∀ r, E (.session r)) :
    (signIn env a user platform deviceInfo asset isNew).Steps (Does E) := by
  have hissue : (issueSession env a user.id platform deviceInfo).Steps (Does E) := by
    refine (Prog.steps_ofExcept _).bind fun pair => ?_
    exact (steps_createSession hother (hsession _)).bind fun _ => trivial
  exact hissue.bind fun pair => (steps_recordLoginEvent hother _).bind fun _ => trivial

theorem steps_consumeChallenge (nonce purpose : String) :
    (consumeChallenge nonce purpose).Steps (Does E) :=
  Prog.steps_query fun _ => of_same hother rfl rfl rfl

theorem steps_requireChallenge (nonce purpose : String) :
    (requireChallenge nonce purpose).Steps (Does E) := by
  refine (steps_consumeChallenge hother nonce purpose).bind fun found => ?_
  cases found <;> trivial

theorem steps_issueChallenge (nonce purpose : String) (subject : Option String) (ttl : ℤ) :
    (issueChallenge nonce purpose subject ttl).Steps (Does E) := by
  refine (Prog.steps_query fun w => ?_).bind fun _ => trivial
  simp only
  cases w.db.challenges.insert? ⟨nonce, purpose, subject, w.now + seconds ttl⟩ with
  | none => exact refl hother w
  | some challenges => exact of_same hother rfl rfl rfl

theorem steps_setNostrPubkey {u : Uuid} {nostrPubkey : String}
    (hf : E (.update u { set := fun r => { r with nostrPubkey := some nostrPubkey } })) :
    (setNostrPubkey u nostrPubkey).Steps (Does E) := by
  refine Prog.steps_query fun w => ?_
  have h := updateUser hother hf w
  revert h
  simp only
  cases w.db.updateUser u _ with
  | mk res db' => cases res <;> exact id

theorem steps_nostrLogin (env : AuthEnv) (a : Answers) (authorization : Option String)
    (hsession : ∀ r, E (.session r)) : (nostrLogin env a authorization).Steps (Does E) := by
  unfold nostrLogin
  cases authorization with
  | none => trivial
  | some auth =>
    refine (Prog.steps_ofExcept _).bind fun url => (Prog.steps_ofExcept _).bind fun pubkey => ?_
    refine (steps_select hother _).bind fun found => ?_
    cases found with
    | none => trivial
    | some user => exact steps_signIn hother hsession

theorem steps_nostrLink (env : AuthEnv) (a : Answers) (bearer : Except AppError TokenInfo)
    (req : NostrLinkRequest) (hf : ∀ u f, E (.update u f)) :
    (nostrLink env a bearer req).Steps (Does E) := by
  refine (steps_extractUserIdFromToken (refl hother) bearer).bind fun u => ?_
  refine (steps_requireChallenge hother _ _).bind fun consumed => ?_
  have hprove : (do
      let pubkey ← .ofExcept (proveNostr env a req.nostrToken "/auth/nostr/link" "nostr_link" req.nonce)
      setNostrPubkey u pubkey
      recordLoginEvent ⟨a.eventId, some u, "btc", Platform.nostr.asStr, none⟩
      return pubkey : Handler String).Steps (Does E) := by
    refine (Prog.steps_ofExcept _).bind fun pubkey => ?_
    refine (steps_setNostrPubkey hother (hf _ _)).bind fun _ => ?_
    exact (steps_recordLoginEvent hother _).bind fun _ => trivial
  split_ifs
  · trivial
  · exact hprove

theorem steps_repointTarget (env : AuthEnv) (req : ExtensionRegisterRequest)
    (publicKey pubkeyHash : String) :
    (repointTarget env req publicKey pubkeyHash).Steps (Does E) :=
  steps_repointTarget_of_refl (refl hother) env req publicKey pubkeyHash

theorem steps_fingerprintForRow (env : AuthEnv) (existing : Option UserRow)
    (fingerprint : Option String) : (fingerprintForRow env existing fingerprint).Steps (Does E) :=
  steps_fingerprintForRow_of_refl (refl hother) env existing fingerprint

theorem steps_importLegacyKeys {u : Uuid} (hkey : E (.key u)) (keys : List LegacyKey) :
    (importLegacyKeys u keys).Steps (Does E) := by
  induction keys with
  | nil => trivial
  | cons k rest ih =>
    unfold importLegacyKeys
    cases parseAsset k.asset with
    | error e => exact ih
    | ok asset =>
      refine (steps_select hother _).bind fun found => ?_
      cases found with
      | some _ => exact ih
      | none => exact (steps_upsertUserKey hother hkey).bind fun _ => ih

theorem steps_resolveProvenKey {env : WebsiteEnv} {a : WebsiteAnswers}
    (hnew : ∀ username, E (.create ((importedUser username).row env.auth.pepper a.auth.userId)))
    (hkey : ∀ u, E (.key u)) (asset : AssetType) (publicKey : String) :
    (resolveProvenKey env a asset publicKey).Steps (Does E) := by
  have hresolve : (resolveRegistered env asset publicKey).Steps (Does E) := by
    refine (steps_select hother _).bind fun found => ?_
    cases found with
    | some user => trivial
    | none =>
      simp only
      split_ifs
      · exact steps_select hother _
      · trivial
  have hname (username : Option String) : (carriedUsername env username).Steps (Does E) := by
    unfold carriedUsername
    cases username.map env.lowercase with
    | none => trivial
    | some name =>
      refine (steps_select hother _).bind fun found => ?_
      cases found <;> trivial
  refine hresolve.bind fun found => ?_
  cases found with
  | some user => trivial
  | none =>
    refine (Prog.steps_ofExcept _).bind fun found => ?_
    cases found with
    | none => trivial
    | some identity =>
      refine Prog.Steps.bind ?_ fun _ => trivial
      refine (hname identity.username).bind fun username => ?_
      refine (steps_createUser hother (hnew username)).bind fun user => ?_
      exact (steps_importLegacyKeys hother (hkey _) identity.keys).bind fun _ => trivial

theorem steps_recordErasureAudit (hash : ChainHash) (action : String) (id : Uuid) :
    (recordErasureAudit hash action id).Steps (Does E) := by
  refine Prog.steps_attempt fun w => ?_
  simp only
  split
  · exact of_same hother rfl rfl rfl
  · exact refl hother w

theorem steps_prove (env : ErasureEnv) (a : ErasureAnswers) (body : ProofRequest)
    (purpose actionPath : String) (target : Option (String × String)) :
    (prove env a body purpose actionPath target).Steps (Does E) := by
  refine (Prog.steps_ofExcept _).bind fun url => (Prog.steps_ofExcept _).bind fun pubkey => ?_
  refine (steps_consumeChallenge hother _ _).bind fun found => ?_
  cases found with
  | none => trivial
  | some _ => exact (steps_select hother _).bind fun _ => trivial

theorem steps_confirmErasureRequest (a : ErasureAnswers) (id u : Uuid) (graceHours : ℤ) :
    (confirmErasureRequest a id u graceHours).Steps (Does E) :=
  Prog.steps_query fun _ => of_same hother rfl rfl rfl

end Does

end SmirkBackend
