import Mathlib.Data.List.Nodup
import SmirkBackend.Basic
import SmirkBackend.Lib.Run
import SmirkBackend.Lib.SessionLock

/-!
# One reconciler at a time

Every replica of the backend runs the two sweep passes in loops of its own.  A cycle takes a
connection out of the pool of its replica, asks for the advisory lock of its pass on it, keeps the
connection while it works and gives the lock back on the same connection.  The work itself runs on
other connections.  So what a cycle loses when the database ends its session is the lock, not the
ability to go on; and a cycle that panics, or whose unlock fails, hands a connection back to the
pool whose session still has the lock.

A run is any interleaving of the loops of any number of replicas with what the database and the
network do to their sessions.

`LockWorld.inv_run` says exactly how often a session has a lock.  `sweep_cycles_excluded` concludes
that cycles of one pass overlap only after a lost session, and says what decides about a cycle that
wants to start; the events after which nobody will give a lock back are `LockEvent.leaks`.
-/

namespace SmirkBackend

open Lib (SessionLocks)

/-- The passes of the sweep reconciler. -/
inductive LockedPass
  | confirm
  | reorg
  deriving DecidableEq

/-- `SWEEP_CONFIRM_ADVISORY_LOCK_KEY` and `SWEEP_REORG_ADVISORY_LOCK_KEY`. -/
def LockedPass.key : LockedPass → Int64
  | confirm => 0x53EED0C1
  | reorg => 0x53EED0C2

theorem LockedPass.key_injective {p p' : LockedPass} (h : p.key = p'.key) : p = p' := by
  cases p <;> cases p' <;> first | rfl | exact absurd h (by decide)

/-- A cycle at work. -/
structure SweepCycle where
  /-- The replica it runs in. -/
  replica : ℕ
  /-- Its pass. -/
  pass : LockedPass
  /-- The session of the connection it keeps. -/
  conn : ℕ
  deriving DecidableEq

/-- The cycle is one of the pass `p` on the session `s`. -/
def SweepCycle.on (s : ℕ) (p : LockedPass) (c : SweepCycle) : Bool := c.conn = s && c.pass = p

/-- The replicas and their database. -/
structure LockWorld where
  /-- The sessions of the database and their advisory locks. -/
  locks : SessionLocks ℕ Int64
  /-- The sessions that there ever were. -/
  used : List ℕ
  /-- Idle connections, with the replica whose pool they are in. -/
  idle : List (ℕ × ℕ)
  /-- The cycles at work. -/
  live : List SweepCycle

/-- What the client learns about the statement that asks for the lock. -/
inductive LockAnswer
  /-- `true` or `false`. -/
  | told (granted : Bool)
  /-- The connection fails; the server may have granted the lock. -/
  | lost (granted : Bool)
  deriving DecidableEq

/-- How the statement that gives the lock back ends. -/
structure UnlockOutcome where
  /-- The server ran it. -/
  ran : Bool
  /-- The connection goes back to the pool. -/
  kept : Bool
  deriving DecidableEq

/-- What can happen. -/
inductive LockEvent
  /-- A pool opens a connection. -/
  | connect (replica s : ℕ)
  /-- `acquire_advisory_lock`, on an idle connection. -/
  | acquire (replica : ℕ) (p : LockedPass) (s : ℕ) (answer : LockAnswer)
  /-- `release_advisory_lock`, after the work of a cycle succeeded or failed. -/
  | release (c : SweepCycle) (outcome : UnlockOutcome)
  /-- A cycle panics; the loop goes on, the connection goes back to the pool. -/
  | panic (c : SweepCycle)
  /-- The database ends a session. -/
  | close (s : ℕ)
  deriving DecidableEq

namespace LockWorld

/-- No replica is connected. -/
def empty : LockWorld := ⟨.empty, [], [], []⟩

/-- The cycles of one replica and pass come one after the other. -/
def busy (w : LockWorld) (replica : ℕ) (p : LockedPass) : Bool :=
  w.live.any fun c => c.replica = replica && c.pass = p

/-- The idle connections after one came back; a connection whose session ended is discarded. -/
def giveBack (w : LockWorld) (c : SweepCycle) (kept : Bool) : List (ℕ × ℕ) :=
  if kept && c.conn ∈ w.locks.opened then (c.replica, c.conn) :: w.idle else w.idle

/-- The world after an event; `none` when the event cannot happen. -/
def step (w : LockWorld) : LockEvent → Option LockWorld
  | .connect replica s =>
    if s ∉ w.used then
      some { w with
        locks := w.locks.connect s
        used := s :: w.used
        idle := (replica, s) :: w.idle }
    else none
  | .acquire replica p s answer =>
    if (replica, s) ∈ w.idle && !w.busy replica p then
      let (granted, locks) := w.locks.tryLock s p.key
      match answer with
      | .told seen =>
        if seen = granted then
          some { w with
            locks := locks
            idle := if granted then w.idle.erase (replica, s) else w.idle
            live := if granted then ⟨replica, p, s⟩ :: w.live else w.live }
        else none
      | .lost taken =>
        if taken = granted then
          some { w with locks := locks, idle := w.idle.erase (replica, s) }
        else none
    else none
  | .release c outcome =>
    if c ∈ w.live then
      some { w with
        locks := if outcome.ran then w.locks.unlock c.conn c.pass.key else w.locks
        idle := w.giveBack c outcome.kept
        live := w.live.erase c }
    else none
  | .panic c =>
    if c ∈ w.live then
      some { w with idle := w.giveBack c true, live := w.live.erase c }
    else none
  | .close s =>
    some { w with
      locks := w.locks.close s
      idle := w.idle.filter fun p => p.2 ≠ s }

/-- Any interleaving. -/
def system : Lib.System LockWorld LockEvent := .ofOption step

end LockWorld

/-- The session keeps a lock that no cycle will give back: the cycle panicked, its unlock did not
reach the server, or nobody learned that the lock was granted. -/
def LockEvent.leaks (s : ℕ) (p : LockedPass) : LockEvent → Bool
  | .acquire replica p' s' (.lost true) => (⟨replica, p', s'⟩ : SweepCycle).on s p
  | .release c outcome => c.on s p && !outcome.ran
  | .panic c => c.on s p
  | _ => false

namespace LockWorld

/-- What holds after the events `past`. -/
structure Inv (past : List LockEvent) (w : LockWorld) : Prop where
  /-- **Accounting.**  An open session has a lock once for each cycle on it and once for each
  leak. -/
  count : ∀ s ∈ w.locks.opened, ∀ p, w.locks.count s p.key =
    w.live.countP (·.on s p) + past.countP (·.leaks s p)
  /-- Sessions do not come back. -/
  used : ∀ s ∈ w.locks.opened, s ∈ w.used
  /-- A cycle has a connection of its own, which is not in a pool. -/
  pinned : (w.live.map SweepCycle.conn ++ w.idle.map Prod.snd).Nodup
  /-- The connections in the pools are open. -/
  pooled : ∀ x ∈ w.idle, x.2 ∈ w.locks.opened
  /-- The session of a cycle is open, or was closed. -/
  live : ∀ c ∈ w.live, c.conn ∈ w.used ∧ (c.conn ∈ w.locks.opened ∨ .close c.conn ∈ past)
  /-- Only sessions that were there leaked. -/
  leaked : ∀ s ∉ w.used, ∀ p, past.countP (·.leaks s p) = 0

theorem inv_empty : Inv [] empty := by
  constructor <;> simp [empty, SessionLocks.empty]

/-! ### Steps -/

section Steps

variable {past : List LockEvent} {w : LockWorld}

theorem leaks_append (past : List LockEvent) (e : LockEvent) (s : ℕ) (p : LockedPass) :
    (past ++ [e]).countP (·.leaks s p) =
      past.countP (·.leaks s p) + if e.leaks s p then 1 else 0 := by
  rw [List.countP_append, List.countP_singleton]

theorem countP_live {c : SweepCycle} (hc : c ∈ w.live) (s : ℕ) (p : LockedPass) :
    w.live.countP (·.on s p) =
      (w.live.erase c).countP (·.on s p) + if c.on s p then 1 else 0 := by
  rw [(List.perm_cons_erase hc).countP_eq, List.countP_cons]

theorem on_iff {c : SweepCycle} {s : ℕ} {p : LockedPass} :
    c.on s p ↔ s = c.conn ∧ p.key = c.pass.key := by
  simp only [SweepCycle.on, Bool.and_eq_true, decide_eq_true_eq]
  constructor
  · rintro ⟨rfl, rfl⟩
    exact ⟨rfl, rfl⟩
  · rintro ⟨rfl, hkey⟩
    exact ⟨rfl, (LockedPass.key_injective hkey).symm⟩

theorem tryLock_count_on {locks : SessionLocks ℕ Int64} {c : SweepCycle}
    (hgranted : (locks.tryLock c.conn c.pass.key).1 = true) (s : ℕ) (p : LockedPass) :
    (locks.tryLock c.conn c.pass.key).2.count s p.key =
      locks.count s p.key + if c.on s p then 1 else 0 := by
  rw [SessionLocks.tryLock_count hgranted]
  by_cases hon : c.on s p
  · rw [if_pos (on_iff.mp hon), if_pos hon]
  · rw [if_neg (mt on_iff.mpr hon), if_neg hon, Nat.add_zero]

theorem unlock_count_on (locks : SessionLocks ℕ Int64) (c : SweepCycle) (s : ℕ) (p : LockedPass) :
    (locks.unlock c.conn c.pass.key).count s p.key =
      locks.count s p.key - if c.on s p then 1 else 0 := by
  rw [SessionLocks.unlock_count]
  by_cases hon : c.on s p
  · rw [if_pos (on_iff.mp hon), if_pos hon]
  · rw [if_neg (mt on_iff.mpr hon), if_neg hon]
    rfl

theorem Inv.pinned_giveBack (h : Inv past w) {c : SweepCycle} (hc : c ∈ w.live) (kept : Bool) :
    ((w.live.erase c).map SweepCycle.conn ++ (w.giveBack c kept).map Prod.snd).Nodup := by
  have hperm : (w.live.map SweepCycle.conn).Perm (c.conn :: (w.live.erase c).map SweepCycle.conn) :=
    (List.perm_cons_erase hc).map _
  have hnodup := (hperm.append_right (w.idle.map Prod.snd)).nodup_iff.mp h.pinned
  unfold giveBack
  split
  case isTrue => exact (List.perm_middle.nodup_iff).mpr hnodup
  case isFalse => exact (List.nodup_cons.mp hnodup).2

theorem Inv.pooled_giveBack (h : Inv past w) (c : SweepCycle) (kept : Bool) :
    ∀ x ∈ w.giveBack c kept, x.2 ∈ w.locks.opened := by
  intro x hx
  unfold giveBack at hx
  split at hx
  case isTrue hback =>
    rw [Bool.and_eq_true, decide_eq_true_eq] at hback
    rcases List.mem_cons.mp hx with rfl | hx
    · exact hback.2
    · exact h.pooled x hx
  case isFalse => exact h.pooled x hx

theorem Inv.live_append (h : Inv past w) (e : LockEvent) :
    ∀ c ∈ w.live, c.conn ∈ w.used ∧ (c.conn ∈ w.locks.opened ∨ .close c.conn ∈ past ++ [e]) := by
  intro c hc
  obtain ⟨hused, hstate⟩ := h.live c hc
  exact ⟨hused, hstate.imp_right (List.mem_append_left _)⟩

theorem Inv.leaked_append (h : Inv past w) {e : LockEvent}
    (he : ∀ s p, e.leaks s p → s ∈ w.used) :
    ∀ s ∉ w.used, ∀ p, (past ++ [e]).countP (·.leaks s p) = 0 := by
  intro s hs p
  have hno : ¬ e.leaks s p := fun hleak => hs (he s p hleak)
  rw [leaks_append, h.leaked s hs p, if_neg hno]

theorem Inv.connect (h : Inv past w) {replica s : ℕ} (hs : s ∉ w.used) :
    Inv (past ++ [.connect replica s])
      { w with
        locks := w.locks.connect s
        used := s :: w.used
        idle := (replica, s) :: w.idle } where
  count s' hs' p := by
    rw [leaks_append]
    rcases List.mem_cons.mp hs' with rfl | hs'
    · -- nothing happened on the new session
      have hclosed : s' ∉ w.locks.opened := fun hopen => hs (h.used s' hopen)
      have hfree : w.locks.count s' p.key = 0 := w.locks.closed_free s' hclosed _
      have hnone : w.live.countP (·.on s' p) = 0 := by
        refine List.countP_eq_zero.mpr fun c hc hon => hs ?_
        exact (on_iff.mp hon).1 ▸ (h.live c hc).1
      rw [hnone, h.leaked s' hs p]
      exact hfree
    · exact h.count s' hs' p
  used s' hs' := by
    rcases List.mem_cons.mp hs' with rfl | hs'
    · exact List.mem_cons_self
    · exact List.mem_cons_of_mem _ (h.used s' hs')
  pinned := by
    have hfresh : s ∉ w.live.map SweepCycle.conn ++ w.idle.map Prod.snd := by
      intro hmem
      rcases List.mem_append.mp hmem with hmem | hmem
      · obtain ⟨c, hc, rfl⟩ := List.mem_map.mp hmem
        exact hs (h.live c hc).1
      · obtain ⟨x, hx, rfl⟩ := List.mem_map.mp hmem
        exact hs (h.used _ (h.pooled x hx))
    exact List.perm_middle.nodup_iff.mpr (List.nodup_cons.mpr ⟨hfresh, h.pinned⟩)
  pooled x hx := by
    rcases List.mem_cons.mp hx with rfl | hx
    · exact List.mem_cons_self
    · exact List.mem_cons_of_mem _ (h.pooled x hx)
  live c hc := by
    obtain ⟨hused, hstate⟩ := h.live_append (.connect replica s) c hc
    exact ⟨List.mem_cons_of_mem _ hused, hstate.imp_left (List.mem_cons_of_mem _)⟩
  leaked s' hs' p := by
    rw [leaks_append, h.leaked s' (fun hused => hs' (List.mem_cons_of_mem _ hused)) p]
    rfl

theorem Inv.pinned_take (h : Inv past w) {replica s : ℕ} (hidle : (replica, s) ∈ w.idle) :
    (s :: (w.live.map SweepCycle.conn ++ (w.idle.erase (replica, s)).map Prod.snd)).Nodup := by
  have hperm : (w.idle.map Prod.snd).Perm (s :: (w.idle.erase (replica, s)).map Prod.snd) :=
    (List.perm_cons_erase hidle).map _
  exact List.perm_middle.nodup_iff.mp ((hperm.append_left _).nodup_iff.mp h.pinned)

/-- The lock is granted, and the cycle starts. -/
theorem Inv.acquire_granted (h : Inv past w) {replica s : ℕ} {p : LockedPass}
    (hidle : (replica, s) ∈ w.idle) (hgranted : (w.locks.tryLock s p.key).1 = true) :
    Inv (past ++ [.acquire replica p s (.told true)])
      { w with
        locks := (w.locks.tryLock s p.key).2
        idle := w.idle.erase (replica, s)
        live := ⟨replica, p, s⟩ :: w.live } where
  count s' hs' p' := by
    rw [SessionLocks.tryLock_opened] at hs'
    have hold := h.count s' hs' p'
    have hquiet : (LockEvent.acquire replica p s (.told true)).leaks s' p' = false := rfl
    have hnew := tryLock_count_on (c := ⟨replica, p, s⟩) hgranted s' p'
    rw [leaks_append, hquiet, List.countP_cons, hnew, if_neg Bool.false_ne_true]
    omega
  used s' hs' := h.used s' (SessionLocks.tryLock_opened s p.key ▸ hs')
  pinned := h.pinned_take hidle
  pooled x hx := by
    rw [SessionLocks.tryLock_opened]
    exact h.pooled x (List.mem_of_mem_erase hx)
  live c hc := by
    rw [SessionLocks.tryLock_opened]
    rcases List.mem_cons.mp hc with rfl | hc
    · have hopen := h.pooled _ hidle
      exact ⟨h.used _ hopen, .inl hopen⟩
    · exact h.live_append _ c hc
  leaked := h.leaked_append nofun

/-- The answer about the lock is lost, and the connection with it. -/
theorem Inv.acquire_lost (h : Inv past w) {replica s : ℕ} {p : LockedPass} {granted : Bool}
    (hidle : (replica, s) ∈ w.idle) (hgranted : (w.locks.tryLock s p.key).1 = granted) :
    Inv (past ++ [.acquire replica p s (.lost granted)])
      { w with
        locks := (w.locks.tryLock s p.key).2
        idle := w.idle.erase (replica, s) } where
  count s' hs' p' := by
    rw [SessionLocks.tryLock_opened] at hs'
    rw [leaks_append]
    cases granted with
    | true =>
      have hnew := tryLock_count_on (c := ⟨replica, p, s⟩) hgranted s' p'
      rw [hnew, h.count s' hs' p', Nat.add_assoc]
      rfl
    | false =>
      rw [SessionLocks.tryLock_refused hgranted]
      exact h.count s' hs' p'
  used s' hs' := h.used s' (SessionLocks.tryLock_opened s p.key ▸ hs')
  pinned := (List.nodup_cons.mp (h.pinned_take hidle)).2
  pooled x hx := by
    rw [SessionLocks.tryLock_opened]
    exact h.pooled x (List.mem_of_mem_erase hx)
  live c hc := by
    rw [SessionLocks.tryLock_opened]
    exact h.live_append _ c hc
  leaked := by
    refine h.leaked_append fun s' p' hleak => ?_
    cases granted with
    | false => cases hleak
    | true =>
      rw [(on_iff.mp hleak).1]
      exact h.used _ (h.pooled _ hidle)

theorem Inv.acquire_refused (h : Inv past w) (replica s : ℕ) (p : LockedPass) :
    Inv (past ++ [.acquire replica p s (.told false)]) w where
  count s' hs' p' := by
    rw [leaks_append]
    exact h.count s' hs' p'
  used := h.used
  pinned := h.pinned
  pooled := h.pooled
  live := h.live_append _
  leaked := h.leaked_append nofun

/-- A cycle ends, and its lock is given back or not. -/
theorem Inv.release (h : Inv past w) {c : SweepCycle} (hc : c ∈ w.live) {e : LockEvent}
    (ran kept : Bool) (he : ∀ s p, e.leaks s p = (c.on s p && !ran)) :
    Inv (past ++ [e])
      { w with
        locks := if ran then w.locks.unlock c.conn c.pass.key else w.locks
        idle := w.giveBack c kept
        live := w.live.erase c } := by
  have hopened : ∀ s, s ∈ (if ran then w.locks.unlock c.conn c.pass.key else w.locks).opened ↔
      s ∈ w.locks.opened := by
    intro s
    split_ifs <;> exact Iff.rfl
  refine ⟨?_, fun s hs => h.used s ((hopened s).mp hs), h.pinned_giveBack hc kept,
    fun x hx => (hopened _).mpr (h.pooled_giveBack c kept x hx), ?_, ?_⟩
  · intro s hs p
    have hcount := h.count s ((hopened s).mp hs) p
    rw [countP_live hc] at hcount
    rw [leaks_append, he]
    cases ran with
    | true =>
      simp only [↓reduceIte, unlock_count_on, Bool.not_true, Bool.and_false, Bool.false_eq_true]
      omega
    | false =>
      simp only [Bool.false_eq_true, ↓reduceIte, Bool.not_false, Bool.and_true]
      omega
  · intro c' hc'
    obtain ⟨hused, hstate⟩ := h.live_append e c' (List.mem_of_mem_erase hc')
    exact ⟨hused, hstate.imp_left (hopened _).mpr⟩
  · refine h.leaked_append fun s p hleak => ?_
    rw [he, Bool.and_eq_true] at hleak
    exact (on_iff.mp hleak.1).1 ▸ (h.live c hc).1

/-- The database ends a session. -/
theorem Inv.close (h : Inv past w) (s : ℕ) :
    Inv (past ++ [.close s])
      { w with
        locks := w.locks.close s
        idle := w.idle.filter fun x => x.2 ≠ s } where
  count s' hs' p := by
    obtain ⟨hopen, hne⟩ := SessionLocks.mem_close_opened.mp hs'
    rw [leaks_append, SessionLocks.close_count, if_neg hne]
    exact h.count s' hopen p
  used s' hs' := h.used s' (SessionLocks.mem_close_opened.mp hs').1
  pinned := by
    refine List.Nodup.sublist ?_ h.pinned
    exact (List.Sublist.refl _).append (List.filter_sublist.map _)
  pooled x hx := by
    obtain ⟨hx, hne⟩ := List.mem_filter.mp hx
    exact SessionLocks.mem_close_opened.mpr ⟨h.pooled x hx, by simpa using hne⟩
  live c hc := by
    obtain ⟨hused, hstate⟩ := h.live_append (.close s) c hc
    refine ⟨hused, ?_⟩
    by_cases heq : c.conn = s
    · exact .inr (by simp [heq])
    · exact hstate.imp_left fun hopen => SessionLocks.mem_close_opened.mpr ⟨hopen, heq⟩
  leaked := h.leaked_append nofun

theorem Inv.step (h : Inv past w) {e : LockEvent} {w' : LockWorld} (hstep : w.step e = some w') :
    Inv (past ++ [e]) w' := by
  cases e with
  | connect replica s =>
    simp only [LockWorld.step] at hstep
    split_ifs at hstep with hs
    cases hstep
    exact h.connect hs
  | acquire replica p s answer =>
    simp only [LockWorld.step] at hstep
    split at hstep
    case isFalse => cases hstep
    case isTrue hidle =>
      rw [Bool.and_eq_true, decide_eq_true_eq] at hidle
      cases answer with
      | told seen =>
        simp only at hstep
        split at hstep
        case isFalse => cases hstep
        case isTrue hseen =>
          obtain rfl := Option.some.inj hstep
          subst hseen
          cases hgranted : (w.locks.tryLock s p.key).1 with
          | true => exact h.acquire_granted hidle.1 hgranted
          | false =>
            simp only [Bool.false_eq_true, ↓reduceIte, SessionLocks.tryLock_refused hgranted]
            exact h.acquire_refused replica s p
      | lost taken =>
        simp only at hstep
        split at hstep
        case isFalse => cases hstep
        case isTrue htaken =>
          obtain rfl := Option.some.inj hstep
          exact h.acquire_lost hidle.1 htaken.symm
  | release c outcome =>
    simp only [LockWorld.step] at hstep
    split at hstep
    case isFalse => cases hstep
    case isTrue hc =>
      obtain rfl := Option.some.inj hstep
      have hleaks : ∀ s p, (LockEvent.release c outcome).leaks s p = (c.on s p && !outcome.ran) :=
        fun _ _ => rfl
      exact h.release hc outcome.ran outcome.kept hleaks
  | panic c =>
    simp only [LockWorld.step] at hstep
    split_ifs at hstep with hc
    cases hstep
    have hleaks : ∀ s p, (LockEvent.panic c).leaks s p = (c.on s p && !false) := by
      intro s p
      rw [Bool.not_false, Bool.and_true]
      rfl
    exact h.release hc false true hleaks
  | close s =>
    cases hstep
    exact h.close s

end Steps

/-- The accounting holds after every run. -/
theorem inv_run {past : List LockEvent} {w : LockWorld} (h : system.Run .empty past w) :
    Inv past w :=
  h.history inv_empty fun _ _ _ _ hstep hinv => hinv.step hstep

section Consequences

variable {past : List LockEvent} {w : LockWorld}

theorem Inv.held_iff (h : Inv past w) {s : ℕ} (hs : s ∈ w.locks.opened) (p : LockedPass) :
    w.locks.Held s p.key ↔ (∃ c ∈ w.live, c.on s p) ∨ ∃ e ∈ past, e.leaks s p := by
  have hlive : 0 < w.live.countP (·.on s p) ↔ ∃ c ∈ w.live, c.on s p := List.countP_pos_iff
  have hleaks : 0 < past.countP (·.leaks s p) ↔ ∃ e ∈ past, e.leaks s p := List.countP_pos_iff
  rw [SessionLocks.Held, h.count s hs p, ← hlive, ← hleaks]
  omega

theorem Inv.eq_of_conn (h : Inv past w) {c c' : SweepCycle} (hc : c ∈ w.live) (hc' : c' ∈ w.live)
    (hconn : c.conn = c'.conn) : c = c' :=
  List.inj_on_of_nodup_map (List.nodup_append.mp h.pinned).1 hc hc' hconn

theorem Inv.conn_ne (h : Inv past w) {c : SweepCycle} (hc : c ∈ w.live) {replica s : ℕ}
    (hidle : (replica, s) ∈ w.idle) : c.conn ≠ s :=
  (List.nodup_append.mp h.pinned).2.2 _ (List.mem_map_of_mem hc) _ (List.mem_map_of_mem hidle)

theorem Inv.excluded (h : Inv past w) {c c' : SweepCycle} (hc : c ∈ w.live) (hc' : c' ∈ w.live)
    (hpass : c.pass = c'.pass) (hne : c ≠ c') :
    .close c.conn ∈ past ∨ .close c'.conn ∈ past := by
  by_contra hnone
  rw [not_or] at hnone
  have hopen := (h.live c hc).2.resolve_right hnone.1
  have hopen' := (h.live c' hc').2.resolve_right hnone.2
  have hheld := (h.held_iff hopen c.pass).mpr (.inl ⟨c, hc, on_iff.mpr ⟨rfl, rfl⟩⟩)
  have hheld' := (h.held_iff hopen' c'.pass).mpr (.inl ⟨c', hc', on_iff.mpr ⟨rfl, rfl⟩⟩)
  rw [hpass] at hheld
  exact hne (h.eq_of_conn hc hc' (SessionLocks.eq_of_held hheld hheld'))

theorem idle_of_acquire {replica s : ℕ} {p : LockedPass} {granted : Bool}
    (hstep : (w.step (.acquire replica p s (.told granted))).isSome) :
    (replica, s) ∈ w.idle ∧ granted = (w.locks.tryLock s p.key).1 := by
  obtain ⟨w', hw'⟩ := Option.isSome_iff_exists.mp hstep
  simp only [LockWorld.step] at hw'
  split at hw'
  case isFalse => cases hw'
  case isTrue hidle =>
    rw [Bool.and_eq_true, decide_eq_true_eq] at hidle
    split at hw'
    case isFalse => cases hw'
    case isTrue hseen => exact ⟨hidle.1, hseen⟩

/-- When a cycle may start. -/
theorem Inv.granted_iff (h : Inv past w) {replica s : ℕ} {p : LockedPass} {granted : Bool}
    (hstep : (w.step (.acquire replica p s (.told granted))).isSome) :
    granted = true ↔ ∀ s' ∈ w.locks.opened, s' ≠ s →
      (∀ c ∈ w.live, ¬ c.on s' p) ∧ ∀ e ∈ past, ¬ e.leaks s' p := by
  obtain ⟨hidle, rfl⟩ := idle_of_acquire hstep
  rw [SessionLocks.tryLock_fst (h.pooled _ hidle)]
  constructor
  · intro hall s' hs' hne
    have hfree : ¬ w.locks.Held s' p.key := fun hheld => hne (hall s' hheld)
    rw [h.held_iff hs' p, not_or] at hfree
    push Not at hfree
    exact hfree
  · intro hall s' hheld
    by_contra hne
    have hs' := SessionLocks.opened_of_held hheld
    obtain ⟨hlive, hleaks⟩ := hall s' hs' hne
    rcases (h.held_iff hs' p).mp hheld with ⟨c, hc, hon⟩ | ⟨e, he, hleak⟩
    · exact hlive c hc hon
    · exact hleaks e he hleak

theorem Inv.granted_iff_of_faultless (h : Inv past w) {replica s : ℕ} {p : LockedPass}
    {granted : Bool} (hleaks : ∀ e ∈ past, ∀ s', ¬ e.leaks s' p)
    (hclose : ∀ s', .close s' ∉ past)
    (hstep : (w.step (.acquire replica p s (.told granted))).isSome) :
    granted = true ↔ ∀ c ∈ w.live, c.pass ≠ p := by
  rw [h.granted_iff hstep]
  obtain ⟨hidle, -⟩ := idle_of_acquire hstep
  constructor
  · rintro hall c hc rfl
    have hopen := (h.live c hc).2.resolve_right (hclose _)
    exact (hall c.conn hopen (h.conn_ne hc hidle)).1 c hc (on_iff.mpr ⟨rfl, rfl⟩)
  · intro hall s' hs' _
    refine ⟨fun c hc hon => hall c hc ?_, fun e he => hleaks e he s'⟩
    exact (LockedPass.key_injective (on_iff.mp hon).2).symm

end Consequences

end LockWorld

/-- **One reconciler at a time.**  In every interleaving of the loops of any number of replicas,
over any failures of sessions and statements: two cycles of one pass are at work together only when
the database ended the session of one of them; a cycle may start exactly when no other open session
is that of a cycle of its pass or has leaked its lock; and as long as nothing leaks the lock of a
pass and no session ends, that is exactly when no cycle of the pass is at work. -/
theorem sweep_cycles_excluded {past : List LockEvent} {w : LockWorld}
    (hrun : LockWorld.system.Run .empty past w) :
    (∀ c ∈ w.live, ∀ c' ∈ w.live, c.pass = c'.pass → c ≠ c' →
      .close c.conn ∈ past ∨ .close c'.conn ∈ past) ∧
    ∀ replica p s granted, (w.step (.acquire replica p s (.told granted))).isSome →
      (granted = true ↔ ∀ s' ∈ w.locks.opened, s' ≠ s →
        (∀ c ∈ w.live, ¬ c.on s' p) ∧ ∀ e ∈ past, ¬ e.leaks s' p) ∧
      ((∀ e ∈ past, ∀ s', ¬ e.leaks s' p) → (∀ s', .close s' ∉ past) →
        (granted = true ↔ ∀ c ∈ w.live, c.pass ≠ p)) := by
  have hinv := LockWorld.inv_run hrun
  refine ⟨fun c hc c' hc' => hinv.excluded hc hc', fun replica p s granted hstep => ⟨?_, ?_⟩⟩
  · exact hinv.granted_iff hstep
  · exact fun hleaks hclose => hinv.granted_iff_of_faultless hleaks hclose hstep

/-- A cycle of the replica 0 panics; the replica 1 connects. -/
def LockEvent.afterPanic : List LockEvent :=
  [.connect 0 1, .acquire 0 .confirm 1 (.told true), .panic ⟨0, .confirm, 1⟩, .connect 1 2]

/-- After a panic no cycle is at work, and still the other replica is refused, while the connection
of the panic is granted the lock again. -/
theorem afterPanic_refused : ∃ w, LockWorld.system.Run .empty LockEvent.afterPanic w ∧
    w.live = [] ∧ (w.step (.acquire 1 .confirm 2 (.told false))).isSome ∧
    (w.step (.acquire 0 .confirm 1 (.told true))).isSome ∧
    ¬ ∀ s' ∈ w.locks.opened, s' ≠ 2 →
      (∀ c ∈ w.live, ¬ c.on s' .confirm) ∧ ∀ e ∈ LockEvent.afterPanic, ¬ e.leaks s' .confirm := by
  have hlife : (LockEvent.afterPanic.foldlM LockWorld.step .empty).any fun w =>
      w.live = [] && (w.step (.acquire 1 .confirm 2 (.told false))).isSome &&
        (w.step (.acquire 0 .confirm 1 (.told true))).isSome := by decide
  obtain ⟨w, hw, hfacts⟩ := (Option.any_eq_true _ _).mp hlife
  simp only [Bool.and_eq_true, decide_eq_true_eq] at hfacts
  have hrun := Lib.System.Run.ofOption_iff.mpr hw
  refine ⟨w, hrun, hfacts.1.1, hfacts.1.2, hfacts.2, fun hall => ?_⟩
  have hgranted := ((sweep_cycles_excluded hrun).2 1 .confirm 2 false hfacts.1.2).1.mpr hall
  cases hgranted

end SmirkBackend
