import SmirkBackend.Chain.Electrum
import SmirkBackend.Lib.Rely
import SmirkBackend.Lib.Machine

/-!
# Fail-over of the Electrum client

A call is tried against the primary server and then against the fallbacks in a random order.  A
circuit breaker, shared by all calls, counts the consecutive failures of the primary; from the
second on it skips the primary for a while.  The breaker is two atomics and every access to one of
them is an action of its own, so that concurrent calls interleave anywhere.

The servers are parameters: a request comes with what each attempt gives.  The state keeps a history
of what was sent and of every access to the breaker; no call reads it.

`outcome_call` : a call by itself returns the first usable answer of the servers it tries.
-/

namespace SmirkBackend

open Lib (Prog Rely)

variable {ι α : Type}

/-! ### State -/

/-- `ServerUrl`. -/
structure ServerUrl where
  /-- Host. -/
  host : String
  /-- Port. -/
  port : UInt16
  /-- TLS or plain TCP. -/
  useSsl : Bool
  deriving DecidableEq

/-- What a call does that others can observe, with its request id. -/
inductive ElectrumEvent (ι : Type)
  /-- It read the end of the cooldown at the time `now`. -/
  | looked (call : ι) (id now endMs : UInt64)
  /-- It sent its request to the primary. -/
  | askedPrimary (call : ι) (id : UInt64)
  /-- It sent its request to a fallback. -/
  | askedFallback (call : ι) (id : UInt64) (server : ServerUrl)
  /-- It counted a failure of the primary; `rejected` if that was a JSON-RPC error. -/
  | failed (call : ι) (id : UInt64) (rejected : Bool)
  /-- It set the end of the cooldown. -/
  | cooled (call : ι) (id endMs : UInt64)
  /-- It reset the count of failures. -/
  | succeeded (call : ι) (id : UInt64)
  /-- It ended the cooldown. -/
  | cleared (call : ι) (id : UInt64)
  deriving DecidableEq

/-- What the calls of a client share. -/
structure ElectrumState (ι : Type) where
  /-- Id of the next request. -/
  nextId : UInt64
  /-- Consecutive failures of the primary. -/
  primaryFailCount : UInt32
  /-- Until when the primary is skipped. -/
  primaryCooldownUntilMs : UInt64
  /-- The clock, in milliseconds. -/
  nowMillis : UInt64
  /-- What has happened, the latest first. -/
  history : List (ElectrumEvent ι)

/-- The state of a new client. -/
def ElectrumState.new (nowMillis : UInt64) : ElectrumState ι := ⟨1, 0, 0, nowMillis, []⟩

/-- An action on the state of a client. -/
abbrev ElectrumProg (ι α : Type) := Prog (ElectrumState ι) AppError α

/-! ### The breaker -/

/-- `PRIMARY_FAIL_THRESHOLD`. -/
def primaryFailThreshold : UInt32 := 2

/-- `PRIMARY_COOLDOWN`, in milliseconds. -/
def primaryCooldown : UInt64 := 30000

/-- `primary_in_cooldown`. -/
def primaryInCooldown (call : ι) (id now : UInt64) : ElectrumProg ι Bool :=
  .locked fun s =>
    (.ok (s.primaryCooldownUntilMs > now),
      { s with history := .looked call id now s.primaryCooldownUntilMs :: s.history })

/-- `record_primary_failure`, short of `2 ^ 32` failures in a row. -/
def recordPrimaryFailure (call : ι) (id now : UInt64) (rejected : Bool) : ElectrumProg ι Unit := do
  let count ← .locked fun s =>
    (.ok (s.primaryFailCount + 1),
      { s with
        primaryFailCount := s.primaryFailCount + 1
        history := .failed call id rejected :: s.history })
  if count ≥ primaryFailThreshold then
    let endMs := Lib.saturatingAddU now primaryCooldown
    .poke fun s =>
      { s with primaryCooldownUntilMs := endMs, history := .cooled call id endMs :: s.history }
  else pure ()

/-- `record_primary_success`. -/
def recordPrimarySuccess (call : ι) (id : UInt64) : ElectrumProg ι Unit := do
  .poke fun s => { s with primaryFailCount := 0, history := .succeeded call id :: s.history }
  .poke fun s => { s with primaryCooldownUntilMs := 0, history := .cleared call id :: s.history }

/-! ### Calls -/

/-- One call: what the exchange of each attempt gives, as a function of the request id, and the
random order of the fallbacks.  Attempt 0 is that of the primary. -/
structure ElectrumRequest (α : Type) where
  /-- The exchanges. -/
  answers : ℕ → UInt64 → Except AppError (JsonRpcResponse α)
  /-- The order in which fallbacks are tried. -/
  shuffle : List ServerUrl → List ServerUrl
  /-- They are the same. -/
  shuffle_perm : ∀ l, (shuffle l).Perm l

/-- A well-formed JSON-RPC error: the server answered this very request with one. -/
def rejects (id : UInt64) : Except AppError (JsonRpcResponse α) → Bool
  | .ok response => response.error.isSome && response.id = id
  | .error _ => false

/-- `try_call`: the request is sent, and the answer typed. -/
def tryCall (sent : ElectrumEvent ι) (id : UInt64)
    (exchange : Except AppError (JsonRpcResponse α)) : ElectrumProg ι (Except AppError α) := do
  .poke fun s => { s with history := sent :: s.history }
  pure (exchange >>= fun response => response.intoResult id)

/-- The loop over the fallbacks. -/
def tryFallbacks (req : ElectrumRequest α) (call : ι) (id : UInt64) :
    ℕ → AppError → List ServerUrl → ElectrumProg ι α
  | _, lastErr, [] => .fail lastErr
  | attempt, _, server :: rest => do
    match ← tryCall (.askedFallback call id server) id (req.answers attempt id) with
    | .ok value => pure value
    | .error e => tryFallbacks req call id (attempt + 1) e rest

/-- The servers of a client. -/
structure FailoverClient where
  /-- The operator's own server. -/
  primary : Option ServerUrl
  /-- Servers of others. -/
  fallbacks : List ServerUrl

namespace FailoverClient

variable (client : FailoverClient)

/-- The primary, unless it is skipped. -/
def usePrimary (call : ι) (id now : UInt64) : ElectrumProg ι (Option ServerUrl) :=
  match client.primary with
  | none => pure none
  | some p => do
    let cooling ← primaryInCooldown call id now
    pure (if !cooling || client.fallbacks.isEmpty then some p else none)

/-- The attempts from `usePrimary` on. -/
def tryServers (req : ElectrumRequest α) (call : ι) (id now : UInt64) (p : Option ServerUrl) :
    ElectrumProg ι α :=
  let fallbacks := req.shuffle client.fallbacks
  match p with
  | none =>
    tryFallbacks req call id 1 (.nodeError "all Electrum servers failed") fallbacks
  | some _ => do
    match ← tryCall (.askedPrimary call id) id (req.answers 0 id) with
    | .ok value =>
      recordPrimarySuccess call id
      pure value
    | .error e =>
      recordPrimaryFailure call id now (rejects id (req.answers 0 id))
      tryFallbacks req call id 1 e fallbacks

/-- `ElectrumClient::call`. -/
def call (req : ElectrumRequest α) (i : ι) : ElectrumProg ι α := do
  let id ← .locked fun s => (.ok s.nextId, { s with nextId := s.nextId + 1 })
  if client.primary.isNone && client.fallbacks.isEmpty then
    .fail (.nodeError "no Electrum server configured")
  else
    let now ← .peek ElectrumState.nowMillis
    let p ← client.usePrimary i id now
    client.tryServers req i id now p

end FailoverClient

/-- Beside the calls, only the clock changes. -/
def ClockOnly (s s' : ElectrumState ι) : Prop := s' = { s with nowMillis := s'.nowMillis }

/-! ### The answer of a call -/

/-- The exchanges of the attempts `first`, `first + 1`, and so on. -/
def ElectrumRequest.attempts (req : ElectrumRequest α) (id : UInt64) (first count : ℕ) :
    List (Except AppError (JsonRpcResponse α)) :=
  (List.range' first count).map fun attempt => req.answers attempt id

theorem outcome_recordPrimarySuccess {i : ι} {id : UInt64} {s s' : ElectrumState ι}
    {r : Except AppError Unit} (h : (recordPrimarySuccess i id).Outcome s r s') : r = .ok () := by
  rw [recordPrimarySuccess, Prog.outcome_poke_bind] at h
  cases h with
  | mem h =>
    cases h
    rfl

theorem outcome_recordPrimaryFailure {i : ι} {id now : UInt64} {rejected : Bool}
    {s s' : ElectrumState ι} {r : Except AppError Unit}
    (h : (recordPrimaryFailure i id now rejected).Outcome s r s') : r = .ok () := by
  cases h with
  | mem h =>
    change Prog.Outcome (if primaryFailThreshold ≤ s.primaryFailCount + 1 then _ else _) _ _ _ at h
    split at h
    · cases h with
      | mem h =>
        cases h
        rfl
    · cases h
      rfl

theorem outcome_tryFallbacks {req : ElectrumRequest α} {i : ι} {id : UInt64} {attempt : ℕ}
    {lastErr : AppError} {servers : List ServerUrl} {s s' : ElectrumState ι} {r : Except AppError α}
    (h : (tryFallbacks req i id attempt lastErr servers).Outcome s r s') :
    r = firstUsable id lastErr (req.attempts id attempt servers.length) := by
  induction servers generalizing attempt lastErr s with
  | nil =>
    cases h
    rfl
  | cons server rest ih =>
    rw [tryFallbacks, tryCall, Prog.bind_bind, Prog.outcome_poke_bind, Prog.pure_eq,
      Prog.ret_bind] at h
    rw [List.length_cons, ElectrumRequest.attempts, List.range'_succ, List.map_cons, firstUsable]
    cases hanswer : req.answers attempt id >>= fun response => response.intoResult id with
    | ok value =>
      rw [hanswer] at h
      cases h
      rfl
    | error e =>
      rw [hanswer] at h
      exact ih h

theorem outcome_tryServers {client : FailoverClient} {req : ElectrumRequest α} {i : ι}
    {id now : UInt64} {p : Option ServerUrl} {s s' : ElectrumState ι} {r : Except AppError α}
    (h : (client.tryServers req i id now p).Outcome s r s') :
    r = firstUsable id (.nodeError "all Electrum servers failed")
      ((p.map fun _ => req.answers 0 id).toList ++
        req.attempts id 1 client.fallbacks.length) := by
  have hlength := (req.shuffle_perm client.fallbacks).length_eq
  cases p with
  | none => exact hlength ▸ outcome_tryFallbacks h
  | some p =>
    rw [FailoverClient.tryServers, tryCall, Prog.bind_bind, Prog.outcome_poke_bind, Prog.pure_eq,
      Prog.ret_bind] at h
    rw [Option.map_some, Option.toList_some, List.singleton_append, firstUsable]
    cases hanswer : req.answers 0 id >>= fun response => response.intoResult id with
    | ok value =>
      rw [hanswer] at h
      rcases Prog.outcome_bind h with ⟨e, herror, -⟩ | ⟨_, s₁, -, hret⟩
      · cases outcome_recordPrimarySuccess herror
      · cases hret
        rfl
    | error e =>
      rw [hanswer] at h
      rcases Prog.outcome_bind h with ⟨e', herror, -⟩ | ⟨_, s₁, -, hrest⟩
      · cases outcome_recordPrimaryFailure herror
      · exact hlength ▸ outcome_tryFallbacks hrest

theorem outcome_usePrimary {client : FailoverClient} {i : ι} {id now : UInt64}
    {s s' : ElectrumState ι} {r : Except AppError (Option ServerUrl)}
    (h : (client.usePrimary i id now).Outcome s r s') :
    ∃ skipped : Bool, (skipped = true → client.fallbacks ≠ []) ∧
      r = .ok (client.primary.filter fun _ => !skipped) := by
  rw [FailoverClient.usePrimary] at h
  cases hprimary : client.primary with
  | none =>
    rw [hprimary] at h
    cases h
    exact ⟨false, by simp, rfl⟩
  | some p =>
    rw [hprimary] at h
    cases h with
    | mem h =>
      cases h
      refine ⟨s.primaryCooldownUntilMs > now && !client.fallbacks.isEmpty, by simp, ?_⟩
      rw [Option.filter_some, Bool.not_and, Bool.not_not]

/-- **What a call returns** is what the fail-over loop makes of the servers it tries: the primary,
if there is one and it is not skipped, and then the fallbacks. -/
theorem outcome_call {client : FailoverClient} {req : ElectrumRequest α} {i : ι}
    {s s' : ElectrumState ι} {r : Except AppError α} (h : (client.call req i).Outcome s r s') :
    ∃ skipped : Bool, (skipped = true → client.fallbacks ≠ []) ∧
      r = ElectrumCall.run ⟨s.nextId,
        ((client.primary.filter fun _ => !skipped).map fun _ => req.answers 0 s.nextId).toList ++
          req.attempts s.nextId 1 client.fallbacks.length⟩ := by
  cases h with
  | mem h =>
    change Prog.Outcome (if _ then _ else _) _ _ _ at h
    split at h
    · rename_i hnone
      obtain ⟨hprimary, hfallbacks⟩ : client.primary = none ∧ client.fallbacks = [] := by
        simpa using hnone
      cases h
      exact ⟨false, by simp, by rw [hprimary, hfallbacks]; rfl⟩
    · rename_i hsome
      rw [Prog.outcome_peek_bind] at h
      rcases Prog.outcome_bind h with ⟨e, herror, -⟩ | ⟨p, s₁, hp, hservers⟩
      · obtain ⟨_, -, h⟩ := outcome_usePrimary herror
        cases h
      · obtain ⟨skipped, hskipped, heq⟩ := outcome_usePrimary hp
        obtain rfl := Except.ok.inj heq
        refine ⟨skipped, hskipped, ?_⟩
        rw [outcome_tryServers hservers, ElectrumCall.run, if_neg]
        intro hempty
        rw [List.isEmpty_iff, List.append_eq_nil_iff] at hempty
        have hfallbacks : client.fallbacks = [] := by
          simpa [ElectrumRequest.attempts] using hempty.2
        have hprimary : client.primary = none := by
          cases hclient : client.primary with
          | none => rfl
          | some p =>
            have hkept : skipped = false := by
              by_contra hne
              exact hskipped (by simpa using hne) hfallbacks
            simp [hclient, hkept] at hempty
        exact hsome (by simp [hprimary, hfallbacks])

end SmirkBackend
