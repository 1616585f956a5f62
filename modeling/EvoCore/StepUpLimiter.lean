import EvoCore.Runs
import EvoCore.Tables

namespace EvoCore.StepUp
open Runs
open Tables (Table get retain)

def u64Max : Nat := 2^64-1
def saturatingAdd (a b : Nat) : Nat := min (a+b) u64Max

inductive RateLimitOutcome where
  | permitted (failuresInWindow : Nat)
  | locked (retryAfterMs : Nat)
deriving DecidableEq,Repr

-- The ceiling is a u32 and not zero: 5 in 15 minutes wherever the steward builds a limiter.
structure StepUpRateLimiter where
  buckets : Table String (List Nat)
  maxFailures : Nat
  windowMs : Nat
  positive : 0 < maxFailures
  sized : maxFailures < 2^32

def StepUpRateLimiter.withDefaults : StepUpRateLimiter := ⟨∅,5,15 * 60 * 1000,by decide,by decide⟩

def StepUpRateLimiter.kept (limiter : StepUpRateLimiter) (identity : String) (nowMs : Nat) : List Nat :=
  ((get limiter.buckets identity).getD []).filter fun t => nowMs - limiter.windowMs < t

-- The bucket is not empty where the earliest failure is asked for.
def StepUpRateLimiter.check (limiter : StepUpRateLimiter) (identity : String) (nowMs : Nat) :
    StepUpRateLimiter × RateLimitOutcome :=
  match get limiter.buckets identity with
  | some _ =>
    let kept := limiter.kept identity nowMs
    let pruned := { limiter with buckets := limiter.buckets.insert identity kept }
    if limiter.maxFailures ≤ kept.length % 2^32 then
      (pruned,.locked (saturatingAdd (kept.min?.getD 0) limiter.windowMs - nowMs))
    else (pruned,.permitted kept.length)
  | none => (limiter,.permitted 0)

def StepUpRateLimiter.recordFailure (limiter : StepUpRateLimiter) (identity : String) (nowMs : Nat) : StepUpRateLimiter :=
  { limiter with buckets := limiter.buckets.insert identity ((get limiter.buckets identity).getD [] ++ [nowMs]) }

def StepUpRateLimiter.recordSuccess (limiter : StepUpRateLimiter) (identity : String) : StepUpRateLimiter :=
  { limiter with buckets := limiter.buckets.erase identity }

def StepUpRateLimiter.purgeExpired (limiter : StepUpRateLimiter) (nowMs : Nat) : StepUpRateLimiter :=
  { limiter with buckets := retain (Tables.mapValues limiter.buckets fun bucket =>
    bucket.filter fun t => nowMs - limiter.windowMs < t) fun _ bucket => bucket ≠ [] }

structure NonceReplayStore where
  seen : Table String Nat
  ttlMs : Nat

def NonceReplayStore.record (store : NonceReplayStore) (nonce : String) (nowMs : Nat) : NonceReplayStore × Bool :=
  let live := retain store.seen fun _ expiresAt => nowMs < expiresAt
  match get live nonce with
  | some _ => ({ store with seen := live },false)
  | none => ({ store with seen := live.insert nonce (saturatingAdd nowMs store.ttlMs) },true)

inductive Verdict where
  | verified | invalidCredentials | userNotPermitted | backend
deriving DecidableEq,Repr

inductive Reply where
  | rateLimited (retryAfterMs : Nat)
  | nonceReused
  | invalidSecretEncoding
  | unavailable
  | backend
  | denied
  | granted
deriving DecidableEq,Repr

inductive Phase where
  | started
  | permitted
  | ready
  | rejected
  | accepted
  | done (reply : Reply)
deriving DecidableEq,Repr

-- step_up_auth_verify and pair_authenticate take the same steps here: one bucket map, one nonce
-- store. The stamp is the clock as the call read it at its start.
inductive Op where
  | stepUpAuthVerify | pairAuthenticate
deriving DecidableEq,Repr

structure Call where
  op : Op
  identity : String
  nonce : Option String
  secretDecodes : Bool
  service : Bool
  stamp : Nat
  phase : Phase
deriving DecidableEq,Repr

-- What reached the verification and was turned down, and the successes, newest first.
inductive Event where
  | rejected (identity : String) (stamp at_ : Nat)
  | succeeded (identity : String)
deriving DecidableEq,Repr

def Event.identity : Event → String
  | .rejected identity _ _ | .succeeded identity => identity

structure World where
  clock : Nat
  limiter : StepUpRateLimiter
  nonces : NonceReplayStore
  calls : List Call
  history : List Event

inductive Action where
  | tick (ms : Nat)
  | call (op : Op) (identity : String) (nonce : Option String) (secretDecodes service : Bool)
  | turn (k : Nat) (verdict : Verdict)
  | purge (age : Nat)
deriving DecidableEq,Repr

def World.moved (w : World) (k : Nat) (phase : Phase) : World :=
  { w with calls := w.calls.modify k fun c => { c with phase } }

-- Past the nonce there is nothing under a lock until the verification.
def afterNonce (c : Call) : Phase :=
  if !c.secretDecodes then .done .invalidSecretEncoding
  else if !c.service then .done .unavailable
  else .ready

def verified (c : Call) (clock : Nat) : Verdict → Phase × List Event
  | .verified => (.accepted,[])
  | .invalidCredentials | .userNotPermitted => (.rejected,[.rejected c.identity c.stamp clock])
  | .backend => (.done .backend,[])

def turn (w : World) (k : Nat) (c : Call) (verdict : Verdict) : World :=
  match c.phase with
  | .started =>
    match w.limiter.check c.identity c.stamp with
    | (limiter,.locked retryAfterMs) => { w.moved k (.done (.rateLimited retryAfterMs)) with limiter }
    | (limiter,.permitted _) => { w.moved k .permitted with limiter }
  | .permitted =>
    match c.nonce.filter (· ≠ "") with
    | none => w.moved k (afterNonce c)
    | some nonce =>
      match w.nonces.record nonce c.stamp with
      | (nonces,true) => { w.moved k (afterNonce c) with nonces }
      | (nonces,false) => { w.moved k (.done .nonceReused) with nonces }
  | .ready =>
    { w.moved k (verified c w.clock verdict).1 with history := (verified c w.clock verdict).2 ++ w.history }
  | .rejected => { w.moved k (.done .denied) with limiter := w.limiter.recordFailure c.identity c.stamp }
  | .accepted => { w.moved k (.done .granted) with
      limiter := w.limiter.recordSuccess c.identity,history := .succeeded c.identity::w.history }
  | .done _ => w

def step (w : World) : Action → World
  | .tick ms => { w with clock := w.clock + ms }
  | .call op identity nonce secretDecodes service =>
    { w with calls := w.calls ++ [⟨op,identity,nonce,secretDecodes,service,w.clock,.started⟩] }
  | .turn k verdict =>
    match w.calls[k]? with
    | some c => turn w k c verdict
    | none => w
  | .purge age => { w with limiter := w.limiter.purgeExpired (w.clock - age) }

def World.fresh (limiter : StepUpRateLimiter) (clock ttlMs : Nat) : World :=
  ⟨clock,{ limiter with buckets := ∅ },⟨∅,ttlMs⟩,[],[]⟩

-- The rejected secrets of an identity since its last success, with the times at which they reached
-- the verification.
def period (identity : String) : List Event → List (Nat × Nat)
  | [] => []
  | .succeeded other::rest => if other = identity then [] else period identity rest
  | .rejected other stamp at_::rest => if other = identity then (stamp,at_)::period identity rest else period identity rest

def Budget (w : World) : Prop := ∀ identity a,
  ((period identity w.history).filter fun e => a ≤ e.2 ∧ e.2 < a + w.limiter.windowMs).length ≤ w.limiter.maxFailures

def Phase.isUnderway : Phase → Bool
  | .permitted | .ready | .rejected => true
  | _ => false

def Call.underway (identity : String) (c : Call) : Option Nat :=
  if c.identity = identity && c.phase.isUnderway then some c.stamp else none

def Call.uncharged (identity : String) (c : Call) : Option Nat :=
  if c.identity = identity && c.phase = .rejected then some c.stamp else none

-- What a check or a purge at the stamp forgets has been a window away from the verification too.
def Aged (w : World) (identity : String) (stamp : Nat) : Prop :=
  ∀ e ∈ period identity w.history,e.1 ≤ stamp - w.limiter.windowMs → e.2 + w.limiter.windowMs ≤ w.clock

-- A call that is let through finds room for itself and for every call of its identity that was let
-- through before it and is not charged yet.
def InBudget (w : World) : Action → Prop
  | .tick _ => True
  | .call .. => w.clock + w.limiter.windowMs ≤ u64Max
  | .turn k _ => ∀ c,w.calls[k]? = some c → c.phase = .started → Aged w c.identity c.stamp ∧
    ((w.limiter.kept c.identity c.stamp).length < w.limiter.maxFailures →
      (w.limiter.kept c.identity c.stamp).length + (w.calls.filterMap (Call.underway c.identity)).length < w.limiter.maxFailures)
  | .purge age => ∀ identity,Aged w identity (w.clock - age)

def Records (w : World) (identity : String) : Action → Prop
  | .turn k _ => ∃ c,w.calls[k]? = some c ∧ c.identity = identity ∧ c.phase = .rejected
  | _ => False

def StepUpRateLimiter.bucket (limiter : StepUpRateLimiter) (identity : String) : List Nat :=
  (get limiter.buckets identity).getD []

variable {limiter : StepUpRateLimiter} {identity other : String} {nowMs : Nat}

@[simp] theorem bucket_check : (limiter.check identity nowMs).1.bucket other =
    if other = identity then limiter.kept identity nowMs else limiter.bucket other := by
  unfold StepUpRateLimiter.check
  cases held : get limiter.buckets identity with
  | none =>
    by_cases same : other = identity
    · simp [StepUpRateLimiter.bucket,StepUpRateLimiter.kept,same,held]
    · simp [same]
  | some bucket =>
    dsimp only
    split <;> by_cases same : other = identity <;> simp [StepUpRateLimiter.bucket,same]

@[simp] theorem check_config : (limiter.check identity nowMs).1.maxFailures = limiter.maxFailures ∧
    (limiter.check identity nowMs).1.windowMs = limiter.windowMs := by
  unfold StepUpRateLimiter.check
  split
  · dsimp only
    split <;> exact ⟨rfl,rfl⟩
  · exact ⟨rfl,rfl⟩

@[simp] theorem bucket_recordFailure : (limiter.recordFailure identity nowMs).bucket other =
    if other = identity then limiter.bucket identity ++ [nowMs] else limiter.bucket other := by
  by_cases same : other = identity <;> simp [StepUpRateLimiter.recordFailure,StepUpRateLimiter.bucket,same]

@[simp] theorem bucket_recordSuccess : (limiter.recordSuccess identity).bucket other =
    if other = identity then [] else limiter.bucket other := by
  by_cases same : other = identity <;> simp [StepUpRateLimiter.recordSuccess,StepUpRateLimiter.bucket,same]

theorem kept_bucket : limiter.kept identity nowMs = (limiter.bucket identity).filter fun t => nowMs - limiter.windowMs < t := rfl

@[simp] theorem bucket_purgeExpired : (limiter.purgeExpired nowMs).bucket identity = limiter.kept identity nowMs := by
  simp only [StepUpRateLimiter.purgeExpired,StepUpRateLimiter.bucket,Tables.get_retain,Tables.get_mapValues,StepUpRateLimiter.kept]
  cases get limiter.buckets identity with
  | none => rfl
  | some bucket =>
    simp only [Option.map_some,Option.getD_some]
    by_cases empty : (bucket.filter fun t => nowMs - limiter.windowMs < t) = []
    · simp [Option.filter,empty]
    · simp [Option.filter,empty]

theorem check_answer : (limiter.check identity nowMs).2 =
    if (get limiter.buckets identity).isSome ∧ limiter.maxFailures ≤ (limiter.kept identity nowMs).length % 2^32 then
      .locked (saturatingAdd ((limiter.kept identity nowMs).min?.getD 0) limiter.windowMs - nowMs)
    else .permitted (limiter.kept identity nowMs).length := by
  unfold StepUpRateLimiter.check
  cases held : get limiter.buckets identity with
  | none => simp [StepUpRateLimiter.kept,held]
  | some bucket =>
    dsimp only
    split
    · rename_i full
      rw [if_pos ⟨rfl,full⟩]
    · rename_i room
      rw [if_neg fun both => room both.2]

theorem check_congr {left right : StepUpRateLimiter} (buckets : get left.buckets identity = get right.buckets identity)
    (ceiling : left.maxFailures = right.maxFailures) (window : left.windowMs = right.windowMs) :
    (left.check identity nowMs).2 = (right.check identity nowMs).2 := by
  rw [check_answer,check_answer,StepUpRateLimiter.kept,StepUpRateLimiter.kept,buckets,ceiling,window]

theorem check_permitted (within : (limiter.kept identity nowMs).length ≤ limiter.maxFailures) :
    (∃ n,(limiter.check identity nowMs).2 = .permitted n) ↔ (limiter.kept identity nowMs).length < limiter.maxFailures := by
  have small : (limiter.kept identity nowMs).length % 2^32 = (limiter.kept identity nowMs).length :=
    Nat.mod_eq_of_lt (lt_of_le_of_lt within limiter.sized)
  rw [check_answer,small]
  cases held : get limiter.buckets identity with
  | none => simp [StepUpRateLimiter.kept,held,limiter.positive]
  | some bucket =>
    simp only [Option.isSome_some,true_and]
    split
    · rename_i full
      simp [Nat.not_lt.mpr full]
    · rename_i room
      simp [Nat.not_le.mp room]

end EvoCore.StepUp
