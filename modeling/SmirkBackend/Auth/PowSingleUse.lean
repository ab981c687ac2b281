import SmirkBackend.Auth.Pow
import SmirkBackend.Lib.Expiry

/-!
# Single use of proof-of-work solutions

Calls of `verify_payload` run on any number of threads of one process.  A call asks the verifier,
which looks at the seconds of the wall clock, then reads the monotonic clock, and then takes the lock
on the spent solutions, forgets the entries that are 600 seconds old by the clock it has read, and
enters its own.

A challenge is valid up to the end of the second in which it expires, which may be a second longer
than its entry is kept, and a call may wait between the verifier and the lock.

* `accepted_once_iff` : the runs in which challenges are accepted once, for a verifier that accepts
  them until they have expired (`AcceptsWhileValid`).
* `accepted_once_of_windows` : runs with calls in time are among them.
-/

namespace SmirkBackend

open Lib (System Table Prog)
open Lib.Expiry (entry fresh Overlapping)

/-- `issue_challenge`: the second in which a challenge expires. -/
def challengeExpiresAt (now : Int64) : Int64 := now + 600

/-- What the verifier does: a payload is accepted until its challenge has expired. -/
def AcceptsWhileValid (verifySolution : Int64 → Payload → Except String VerifyResult)
    (payload : Payload) (expiresAt : Int64) : Prop :=
  ∀ now, (∃ r, verifySolution now payload = .ok r ∧ r.verified = true) ↔ now ≤ expiresAt

/-! ### The parts of a call -/

/-- Where a call stands. -/
inductive PowCall
  /-- There is no call. -/
  | idle
  /-- The verifier has accepted the challenge of this signature. -/
  | checked (signature : String)
  /-- The monotonic clock was read. -/
  | timed (signature : String) (now : Timestamp)
  deriving DecidableEq

/-- The verifier is asked; a payload that it rejects ends the call. -/
def checkPayload (verifySolution : Int64 → Payload → Except String VerifyResult) (now : Int64)
    (payload : Payload) : PowCall :=
  match verifySolution now payload with
  | .error _ => .idle
  | .ok result =>
    if !result.verified then .idle
    else
      match payload.signature with
      | none => .idle
      | some signature => .checked signature

/-- The entries that a call keeps, by the clock it has read. -/
def retainedAt (now : Timestamp) (spent : Table SpentSolution) : Table SpentSolution :=
  spent.deleteWhere fun s => !decide (now - s.seen < seconds challengeTtlSeconds)

/-- The locked section of `spend_solution`. -/
def spendAt (signature : String) (now : Timestamp) (spent : Table SpentSolution) :
    Table SpentSolution :=
  (retainedAt now spent).upsert ⟨signature, now⟩ { set := fun s => { s with seen := now } }

theorem get?_retainedAt (now : Timestamp) (spent : Table SpentSolution) (signature : String) :
    (retainedAt now spent).get? signature =
      (spent.get? signature).filter fun s => now - s.seen < seconds challengeTtlSeconds := by
  unfold retainedAt
  rw [Table.get?_deleteWhere]
  simp only [Bool.not_not]

/-- On a node that does nothing in between, the parts make up the call. -/
theorem run_verifyPayload {env : NodeEnv} {now : Int64} {payload : Payload} {signature : String}
    (h : checkPayload env.verifySolution now payload = .checked signature) (n : Node) :
    (verifyPayload env now payload).run n =
      (if ((retainedAt n.instant n.spent).get? signature).isNone then .ok ()
        else .error (.validationError
          "PoW solution rejected (already used; re-fetch the challenge)"),
        { n with spent := spendAt signature n.instant n.spent }) := by
  unfold checkPayload at h
  unfold verifyPayload
  cases hresult : env.verifySolution now payload with
  | error e => simp [hresult] at h
  | ok result =>
    simp only [hresult] at h ⊢
    by_cases hverified : (!result.verified) = true
    · simp [hverified] at h
    · rw [if_neg hverified] at h ⊢
      cases hsig : payload.signature with
      | none => simp [hsig] at h
      | some sig =>
        simp only [hsig, PowCall.checked.injEq] at h ⊢
        obtain rfl := h
        cases hfresh : ((retainedAt n.instant n.spent).get? sig).isNone with
        | true =>
          have hnode : (n.retained.get? sig).isNone = true := hfresh
          simp only [spendSolution, Prog.mem_bind, Prog.ret_bind, Prog.run, hnode]
          rfl
        | false =>
          have hnode : (n.retained.get? sig).isNone = false := hfresh
          simp only [spendSolution, Prog.mem_bind, Prog.ret_bind, Prog.run, hnode]
          rfl

/-! ### The calls of a process -/

section Calls

variable {ι : Type} [DecidableEq ι]

/-- The threads, the clock and the memory of a process, and what has happened. -/
structure PowState (ι : Type) where
  /-- The call of each thread. -/
  calls : ι → PowCall
  /-- The monotonic clock. -/
  instant : Timestamp
  /-- `spent_solutions`. -/
  spent : Table SpentSolution
  /-- The locked sections so far, with the challenge and the clock that was read; newest first. -/
  spends : List (String × Timestamp)
  /-- The challenges that were accepted so far, newest first. -/
  accepted : List String

/-- A process that has started. -/
def PowState.start : PowState ι := ⟨fun _ => .idle, 0, .empty, [], []⟩

/-- What a process does. -/
inductive PowEvent (ι : Type)
  /-- The monotonic clock moves on. -/
  | tick (instant : Timestamp)
  /-- A thread starts a call; the wall clock shows the second `now`. -/
  | verify (i : ι) (now : Int64) (payload : Payload)
  /-- The thread reads the monotonic clock. -/
  | read (i : ι)
  /-- The thread takes the lock and ends the call. -/
  | spend (i : ι)

/-- One step of a process. -/
def PowState.step (verifySolution : Int64 → Payload → Except String VerifyResult) (s : PowState ι) :
    PowEvent ι → Option (PowState ι)
  | .tick instant => if s.instant ≤ instant then some { s with instant := instant } else none
  | .verify i now payload =>
    match s.calls i with
    | .idle =>
      some { s with calls := Function.update s.calls i (checkPayload verifySolution now payload) }
    | _ => none
  | .read i =>
    match s.calls i with
    | .checked signature =>
      some { s with calls := Function.update s.calls i (.timed signature s.instant) }
    | _ => none
  | .spend i =>
    match s.calls i with
    | .timed signature now =>
      some
        { s with
          calls := Function.update s.calls i .idle
          spent := spendAt signature now s.spent
          spends := (signature, now) :: s.spends
          accepted := if ((retainedAt now s.spent).get? signature).isNone
            then signature :: s.accepted else s.accepted }
    | _ => none

/-- The calls of a process. -/
def powCalls (ι : Type) [DecidableEq ι]
    (verifySolution : Int64 → Payload → Except String VerifyResult) :
    System (PowState ι) (PowEvent ι) :=
  .ofOption (PowState.step verifySolution)

/-- The memory is that of the locked sections, and so are the answers. -/
structure PowState.Remembers (s : PowState ι) : Prop where
  /-- The entries. -/
  spent : ∀ signature, s.spent.get? signature =
    (entry (seconds challengeTtlSeconds) signature s.spends).map fun t => ⟨signature, t⟩
  /-- The accepted challenges. -/
  accepted : s.accepted = Lib.Expiry.accepted (seconds challengeTtlSeconds) s.spends

omit [DecidableEq ι] in
theorem PowState.Remembers.get?_retainedAt {s : PowState ι} (h : s.Remembers) (now : Timestamp)
    (signature : String) : (retainedAt now s.spent).get? signature =
      ((entry (seconds challengeTtlSeconds) signature s.spends).filter fun seen =>
        now - seen < seconds challengeTtlSeconds).map fun t => ⟨signature, t⟩ := by
  rw [SmirkBackend.get?_retainedAt, h.spent, Option.filter_map]
  rfl

omit [DecidableEq ι] in
theorem remembers_start : (PowState.start : PowState ι).Remembers := ⟨fun _ => rfl, rfl⟩

omit [DecidableEq ι] in
theorem remembers_spend {s s' : PowState ι} (h : s.Remembers) {signature : String} {now : Timestamp}
    (hspent : s'.spent = spendAt signature now s.spent)
    (hspends : s'.spends = (signature, now) :: s.spends)
    (haccepted : s'.accepted = if ((retainedAt now s.spent).get? signature).isNone
      then signature :: s.accepted else s.accepted) : s'.Remembers where
  spent sig := by
    rw [hspent, hspends, spendAt, Table.get?_upsert, entry, h.get?_retainedAt]
    by_cases hsig : signature = sig
    · subst hsig
      rw [if_pos rfl, if_pos (show signature = Lib.key _ from rfl)]
      cases (entry (seconds challengeTtlSeconds) signature s.spends).filter fun seen =>
        now - seen < seconds challengeTtlSeconds <;> rfl
    · rw [if_neg hsig, if_neg (show ¬ sig = Lib.key _ from fun h => hsig h.symm)]
  accepted := by
    rw [haccepted, hspends, Lib.Expiry.accepted, h.accepted, h.get?_retainedAt, Option.isNone_map]
    rfl

theorem remembers_step {verifySolution : Int64 → Payload → Except String VerifyResult}
    {s s' : PowState ι} {e : PowEvent ι} (hstep : (powCalls ι verifySolution).step s e s')
    (h : s.Remembers) : s'.Remembers := by
  have hstep : s.step verifySolution e = some s' := hstep
  cases e with
  | tick instant =>
    simp only [PowState.step] at hstep
    split_ifs at hstep
    obtain rfl := Option.some.inj hstep
    exact ⟨h.spent, h.accepted⟩
  | verify i now payload =>
    simp only [PowState.step] at hstep
    split at hstep
    · obtain rfl := Option.some.inj hstep
      exact ⟨h.spent, h.accepted⟩
    · cases hstep
  | read i =>
    simp only [PowState.step] at hstep
    split at hstep
    · obtain rfl := Option.some.inj hstep
      exact ⟨h.spent, h.accepted⟩
    · cases hstep
  | spend i =>
    simp only [PowState.step] at hstep
    split at hstep
    · obtain rfl := Option.some.inj hstep
      exact remembers_spend h rfl rfl rfl
    · cases hstep

theorem remembers_of_run {verifySolution : Int64 → Payload → Except String VerifyResult}
    {s : PowState ι} {es : List (PowEvent ι)}
    (hrun : (powCalls ι verifySolution).Run .start es s) : s.Remembers :=
  hrun.invariant (fun _ _ _ => remembers_step) remembers_start

/-- Runs in which every challenge is used within a window of 600 seconds, and nothing that took the
lock before such a use had read a clock past the window, accept challenges once. -/
theorem accepted_once_of_windows {verifySolution : Int64 → Payload → Except String VerifyResult}
    {s : PowState ι} {es : List (PowEvent ι)} (hrun : (powCalls ι verifySolution).Run .start es s)
    (e : String → Timestamp)
    (hstart : ∀ u ∈ s.spends, e u.1 - seconds challengeTtlSeconds ≤ u.2)
    (hend : ∀ newer signature t older, s.spends = newer ++ (signature, t) :: older →
      ∀ u ∈ (signature, t) :: older, u.2 < e signature) (signature : String) :
    s.accepted.count signature ≤ 1 := by
  rw [(remembers_of_run hrun).accepted]
  exact (Lib.Expiry.count_le_one_iff _).mpr
    (Lib.Expiry.overlapping_of_windows e hstart hend) signature

/-- **Challenges are accepted once** exactly in the runs in which, from one locked section of a
challenge to its next one, all clocks that were read are less than 600 seconds past the first. -/
theorem accepted_once_iff {verifySolution : Int64 → Payload → Except String VerifyResult}
    {s : PowState ι} {es : List (PowEvent ι)}
    (hrun : (powCalls ι verifySolution).Run .start es s) :
    (∀ signature, s.accepted.count signature ≤ 1) ↔
      Overlapping (seconds challengeTtlSeconds) s.spends := by
  rw [(remembers_of_run hrun).accepted]
  exact Lib.Expiry.count_le_one_iff s.spends

end Calls

/-! ### A challenge that is accepted twice -/

/-- A solution of the challenge `c`. -/
def solvedPayload : Payload := ⟨"challenge", some "c", "solution"⟩

/-- A verifier of solutions to challenges that were issued in the second 1000. -/
def sampleVerifier (now : Int64) (_ : Payload) : Except String VerifyResult :=
  .ok ⟨now ≤ challengeExpiresAt 1000, challengeExpiresAt 1000 < now, none, none⟩

/-- One thread submits a solution, the wall clock showing the seconds of the monotonic one. -/
def submitAt (now : Int64) : List (PowEvent Unit) :=
  [.tick (seconds now.toInt), .verify () now solvedPayload, .read (), .spend ()]

/-- A process after these submissions. -/
def submitted (times : List Int64) : Option (PowState Unit) :=
  (times.flatMap submitAt).foldlM (PowState.step sampleVerifier) .start

theorem run_submitted {times : List Int64} {s : PowState Unit} (h : submitted times = some s) :
    (powCalls Unit sampleVerifier).Run .start (times.flatMap submitAt) s :=
  System.Run.ofOption_iff.mpr h

/-- A solution that is submitted again a second later is rejected. -/
theorem resubmitted_once : ∃ s, submitted [1000, 1001] = some s ∧
    ∀ signature, s.accepted.count signature ≤ 1 := by
  have hspends : (submitted [1000, 1001]).map PowState.spends =
      some [("c", seconds 1001), ("c", seconds 1000)] := by decide +kernel
  obtain ⟨s, hs, heq⟩ := Option.map_eq_some_iff.mp hspends
  have hall : ∀ u ∈ s.spends, seconds 1000 ≤ u.2 ∧ u.2 < seconds 1600 := by
    rw [heq]
    decide
  refine ⟨s, hs, (accepted_once_iff (run_submitted hs)).mpr ?_⟩
  refine Lib.Expiry.overlapping_of_windows (fun _ => seconds 1600) (fun u hu => (hall u hu).1) ?_
  intro newer signature t older hsplit u hu
  exact (hall u (by rw [hsplit]; exact List.mem_append_right _ hu)).2

/-- A solution that is submitted in the second of issue is accepted again in the second of
expiry. -/
theorem resubmitted_twice : AcceptsWhileValid sampleVerifier solvedPayload (challengeExpiresAt 1000) ∧
    ∃ s, (powCalls Unit sampleVerifier).Run .start ([1000, 1600].flatMap submitAt) s ∧
      s.accepted.count "c" = 2 := by
  have hcount : (submitted [1000, 1600]).map (fun s => s.accepted.count "c") = some 2 := by
    decide +kernel
  obtain ⟨s, hs, heq⟩ := Option.map_eq_some_iff.mp hcount
  exact ⟨fun now => by simp [sampleVerifier], s, run_submitted hs, heq⟩

end SmirkBackend
